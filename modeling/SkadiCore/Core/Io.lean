import Mathlib.Tactic

/-!
# I/O errors

`std::io::Error` with the kinds the relays construct or test.
-/

namespace SkadiCore

inductive ErrorKind
  | unexpectedEof
  | timedOut
  | invalidData
  | notConnected
  | brokenPipe
  | connectionReset
  | writeZero
  | other
  deriving DecidableEq

structure IoError where
  kind : ErrorKind
  msg : String
  deriving DecidableEq

end SkadiCore
