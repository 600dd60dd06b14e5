import SkadiCore.Common.Bytes

/-!
# Target endpoints

Model of the data types of `crates/skadi-core/src/endpoint.rs` and of the
`std::net` types they use.
-/

namespace SkadiCore

inductive IpAddr
  | v4 (octets : List.Vector Byte 4)
  | v6 (octets : List.Vector Byte 16)
  deriving DecidableEq

def ipv4Addr (a b c d : Byte) : List.Vector Byte 4 := ⟨[a, b, c, d], rfl⟩

inductive SocketAddr
  | v4 (octets : List.Vector Byte 4) (port : UInt16)
  | v6 (octets : List.Vector Byte 16) (port : UInt16) (flowinfo scopeId : UInt32)
  deriving DecidableEq

def SocketAddr.ip : SocketAddr → IpAddr
  | v4 octets _ => .v4 octets
  | v6 octets _ _ _ => .v6 octets

def SocketAddr.port : SocketAddr → UInt16
  | v4 _ port => port
  | v6 _ port _ _ => port

def SocketAddr.new (ip : IpAddr) (port : UInt16) : SocketAddr :=
  match ip with
  | .v4 octets => .v4 octets port
  | .v6 octets => .v6 octets port 0 0

/-- The target of a request: an address or a domain name with a port
    (`endpoint.rs`, lines 8-11). -/
inductive Endpoint
  | ip (addr : SocketAddr)
  | domain (host : String) (port : UInt16)
  deriving DecidableEq

/-- An endpoint whose wire form keeps all of it. -/
def Endpoint.Canonical : Endpoint → Prop
  | .ip (.v4 _ _) => True
  | .ip (.v6 _ _ flowinfo scopeId) => flowinfo = 0 ∧ scopeId = 0
  | .domain host _ => 0 < (asBytes host).length ∧ (asBytes host).length < 256

instance : (target : Endpoint) → Decidable target.Canonical
  | .ip (.v4 _ _) => inferInstanceAs (Decidable True)
  | .ip (.v6 _ _ _ _) => inferInstanceAs (Decidable (_ ∧ _))
  | .domain _ _ => inferInstanceAs (Decidable (_ ∧ _))

end SkadiCore
