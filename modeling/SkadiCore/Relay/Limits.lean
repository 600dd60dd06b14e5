import SkadiCore.Core.Io

/-!
# Limits of a relay session

Model of the head of `crates/skadi-transport/src/relay.rs`.
-/

namespace SkadiCore.Relay

def IDLE_TIMEOUT_MSG : String := "idle timeout"

def SESSION_LIFETIME_MSG : String := "max session lifetime"

structure RelayLimits where
  idle : Option ℕ
  maxLifetime : Option ℕ
  deriving DecidableEq

end SkadiCore.Relay
