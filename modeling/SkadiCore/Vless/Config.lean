import SkadiCore.Common.Bytes

/-!
# VLESS users

Model of `crates/skadi-protocol/src/vless/config.rs`: the UUID of a user and the
lookup of a UUID among the configured users.

Users are configured by text. Hyphens and the case of letters do not matter, so that
one UUID has many spellings.

* `authenticate_isSome`: a UUID is accepted exactly if a user's text denotes it.
-/

namespace SkadiCore.Vless

abbrev Uuid := List.Vector Byte 16

inductive UuidParseError
  | badLength (len : ℕ)
  | badHex (c : Char)
  deriving DecidableEq

def UuidParseError.display : UuidParseError → String
  | badLength len => s!"UUID must contain 32 hex digits, got {len}"
  | badHex c => s!"invalid hex character: {c}"

/-- `hex_val` (lines 57-64). -/
def hexVal (b : Byte) : Except UuidParseError Byte :=
  if 0x30 ≤ b ∧ b ≤ 0x39 then .ok (b - 0x30)
  else if 0x61 ≤ b ∧ b ≤ 0x66 then .ok (b - 0x61 + 10)
  else if 0x41 ≤ b ∧ b ≤ 0x46 then .ok (b - 0x41 + 10)
  else .error (.badHex (Char.ofNat b.toNat))

def hexPairs : Bytes → Except UuidParseError Bytes
  | hi :: lo :: digits => do
    let hi ← hexVal hi
    let lo ← hexVal lo
    let bytes ← hexPairs digits
    return (hi <<< 4 ||| lo) :: bytes
  | _ => .ok []

/-- `Uuid::parse` (lines 10-23). -/
def Uuid.parse (s : String) : Except UuidParseError Uuid :=
  let clean := asBytes (.ofList (s.toList.filter (· != '-')))
  if clean.length ≠ 32 then .error (.badLength clean.length)
  else (hexPairs clean).map (toArray 16)

structure VlessUser where
  id : String
  email : Option String
  flow : Option String
  deriving DecidableEq

structure VlessConfig where
  enabled : Bool
  users : List VlessUser

def VlessUser.uuid (user : VlessUser) : Option Uuid := (Uuid.parse user.id).toOption

/-- `VlessConfig::authenticate` (lines 93-105): the first user with the UUID. -/
def VlessConfig.authenticate (config : VlessConfig) (candidate : Uuid) : Option VlessUser :=
  config.users.find? fun user =>
    match Uuid.parse user.id with
    | .ok uuid => uuid == candidate
    | .error _ => false

def uuids (users : List VlessUser) : List Uuid := users.filterMap VlessUser.uuid

variable {users : List VlessUser}

theorem mem_uuids {b : Uuid} : b ∈ uuids users ↔ ∃ user ∈ users, user.uuid = some b :=
  List.mem_filterMap

theorem authenticate_isSome (config : VlessConfig) (b : Uuid) :
    (config.authenticate b).isSome ↔ b ∈ uuids config.users := by
  rw [VlessConfig.authenticate, List.find?_isSome, mem_uuids]
  refine exists_congr fun user => and_congr_right fun _ => ?_
  rw [VlessUser.uuid]
  cases Uuid.parse user.id with
  | error e => simp [Except.toOption]
  | ok uuid => simp [Except.toOption]

theorem eq_of_nodup_uuids (h : (uuids users).Nodup) {u v : VlessUser} (hu : u ∈ users)
    (hv : v ∈ users) {b : Uuid} (hub : u.uuid = some b) (hvb : v.uuid = some b) : u = v := by
  by_contra hne
  have hpair := List.pairwise_filterMap.mp h
  have : Std.Symm fun u v : VlessUser =>
      ∀ b, u.uuid = some b → ∀ b', v.uuid = some b' → b ≠ b' :=
    ⟨fun _ _ huv b hb b' hb' => (huv b' hb' b hb).symm⟩
  exact hpair.forall hu hv hne b hub b hvb rfl

end SkadiCore.Vless
