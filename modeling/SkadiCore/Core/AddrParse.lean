import SkadiCore.Outbound.Policy

/-!
# Texts of addresses

`str::parse::<IpAddr>`, `str::parse::<SocketAddr>` and the `Display` of socket addresses,
as the standard library documents them. A reader takes characters from the front of the
text; one that fails takes none, so that another can be tried at the same place.

A text that is parsed must be consumed whole: there is no space around an address, a number
of an IPv4 address has no leading zero, and the IPv6 address of a socket address stands in
brackets.
-/

namespace SkadiCore.AddrParse

abbrev Reader := StateT (List Char) Option

def readGivenChar (target : Char) : Reader Unit
  | c :: rest => if c = target then some ((), rest) else none
  | [] => none

def toDigit (radix : ℕ) (c : Char) : Option ℕ :=
  let digit :=
    if '0' ≤ c ∧ c ≤ '9' then c.toNat - '0'.toNat
    else if 'a' ≤ c ∧ c ≤ 'z' then c.toNat - 'a'.toNat + 10
    else if 'A' ≤ c ∧ c ≤ 'Z' then c.toNat - 'A'.toNat + 10
    else radix
  if digit < radix then some digit else none

def readNumber (radix : ℕ) (maxDigits : Option ℕ) (allowZeroPrefix : Bool) (bound : ℕ) :
    Reader ℕ := fun input =>
  let digits := input.takeWhile fun c => (toDigit radix c).isSome
  let value := digits.foldl (fun n c => n * radix + (toDigit radix c).getD 0) 0
  if digits = [] then none
  else if maxDigits.any (· < digits.length) then none
  else if !allowZeroPrefix && digits.head? == some '0' && 1 < digits.length then none
  else if value < bound then some (value, input.drop digits.length)
  else none

def readSeparator {α : Type} (sep : Char) (index : ℕ) (inner : Reader α) : Reader α := do
  if 0 < index then readGivenChar sep
  inner

def readOctet (i : ℕ) : Reader Byte := do
  return UInt8.ofNat (← readSeparator '.' i (readNumber 10 (some 3) false 256))

def readIpv4Addr : Reader (List.Vector Byte 4) := do
  let a ← readOctet 0
  let b ← readOctet 1
  let c ← readOctet 2
  let d ← readOctet 3
  return ipv4Addr a b c d

/-- `read_groups`: at most `left` more groups of 16 bits behind `i` of them, and whether
    the last two are an embedded IPv4 address; the text behind them. -/
def readGroups : ℕ → ℕ → List Char → List UInt16 × Bool × List Char
  | 0, _, input => ([], false, input)
  | left + 1, i, input =>
    let ipv4 := if 0 < left then (readSeparator ':' i readIpv4Addr).run input else none
    match ipv4 with
    | some (v4, rest) =>
      ([fromBe16 (byteAt v4.val 0) (byteAt v4.val 1),
        fromBe16 (byteAt v4.val 2) (byteAt v4.val 3)], true, rest)
    | none =>
      match (readSeparator ':' i (readNumber 16 (some 4) true 65536)).run input with
      | some (group, rest) =>
        let (groups, embedded, rest) := readGroups left (i + 1) rest
        (UInt16.ofNat group :: groups, embedded, rest)
      | none => ([], false, input)

def ofGroups (groups : List UInt16) : List.Vector Byte 16 := toArray 16 (groups.flatMap toBe16)

def readIpv6Addr : Reader (List.Vector Byte 16) := fun input => do
  let (head, embedded, rest) := readGroups 8 0 input
  if head.length = 8 then some (ofGroups head, rest)
  else if embedded then none
  else
    let ((), rest) ← (readGivenChar ':').run rest
    let ((), rest) ← (readGivenChar ':').run rest
    let (tail, _, rest) := readGroups (8 - (head.length + 1)) 0 rest
    some (ofGroups (head ++ List.replicate (8 - head.length - tail.length) 0 ++ tail), rest)

def readIpAddr : Reader IpAddr :=
  IpAddr.v4 <$> readIpv4Addr <|> IpAddr.v6 <$> readIpv6Addr

def readPort : Reader UInt16 := do
  readGivenChar ':'
  return UInt16.ofNat (← readNumber 10 none true 65536)

def readScopeId : Reader UInt32 := do
  readGivenChar '%'
  return UInt32.ofNat (← readNumber 10 none true (2 ^ 32))

def readSocketAddrV4 : Reader SocketAddr := do
  let ip ← readIpv4Addr
  let port ← readPort
  return .v4 ip port

def readSocketAddrV6 : Reader SocketAddr := do
  readGivenChar '['
  let ip ← readIpv6Addr
  let scopeId ← readScopeId <|> pure 0
  readGivenChar ']'
  let port ← readPort
  return .v6 ip port 0 scopeId

def parseWith {α : Type} (inner : Reader α) (s : String) : Option α :=
  match inner.run s.toList with
  | some (a, []) => some a
  | _ => none

end SkadiCore.AddrParse

namespace SkadiCore

open Outbound (toIpv4Mapped)

def IpAddr.parse (s : String) : Option IpAddr := AddrParse.parseWith AddrParse.readIpAddr s

def SocketAddr.parse (s : String) : Option SocketAddr :=
  AddrParse.parseWith (AddrParse.readSocketAddrV4 <|> AddrParse.readSocketAddrV6) s

/-! ## Texts of addresses -/

def decimal (b : Byte) : List Char := Nat.toDigits 10 b.toNat

def displayIpv4 (octets : List.Vector Byte 4) : String :=
  .ofList (['.'].intercalate (octets.val.map decimal))

def hexadecimal (group : UInt16) : List Char := Nat.toDigits 16 group.toNat

/-- The longest run of zero groups, the first of them, as its start and its length: `current`
    is the run that the group at index `i` would continue. -/
def zeroes : ℕ → ℕ × ℕ → ℕ × ℕ → List UInt16 → ℕ × ℕ
  | _, _, longest, [] => longest
  | i, current, longest, group :: groups =>
    if group = 0 then
      let current := (if current.2 = 0 then i else current.1, current.2 + 1)
      zeroes (i + 1) current (if longest.2 < current.2 then current else longest) groups
    else zeroes (i + 1) (0, 0) longest groups

def segments (octets : List.Vector Byte 16) : List UInt16 :=
  (List.range 8).map fun i => fromBe16 (byteAt octets.val (2 * i)) (byteAt octets.val (2 * i + 1))

def displayIpv6 (octets : List.Vector Byte 16) : String :=
  match toIpv4Mapped octets with
  | some v4 => s!"::ffff:{displayIpv4 v4}"
  | none =>
    let groups := (segments octets).map hexadecimal
    let (start, len) := zeroes 0 (0, 0) (0, 0) (segments octets)
    if 1 < len then
      .ofList ([':'].intercalate (groups.take start) ++ [':', ':'] ++
        [':'].intercalate (groups.drop (start + len)))
    else .ofList ([':'].intercalate groups)

def SocketAddr.display : SocketAddr → String
  | .v4 octets port => s!"{displayIpv4 octets}:{port}"
  | .v6 octets port _ scopeId =>
    if scopeId = 0 then s!"[{displayIpv6 octets}]:{port}"
    else s!"[{displayIpv6 octets}%{scopeId}]:{port}"

end SkadiCore
