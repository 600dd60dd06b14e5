import SkadiCore.Common.Bytes
import SkadiCore.Common.Result

/-!
# VLESS addons

Model of `crates/skadi-protocol/src/vless/addons.rs`: the addons of a request are a
protobuf message whose field 1 is again a message (the flow) and whose field 2 is a
seed. Other fields are skipped by their wire type.

`parse_addons` and `parse_flow_message` are one loop over fields with different
bodies. A body never moves back (`FieldReader.le`), so that the loop ends.
-/

namespace SkadiCore.Vless

def FLOW_XTLS_VISION : String := "xtls-rprx-vision"

structure VlessAddons where
  flow : Option String
  seed : Option Bytes
  deriving DecidableEq

inductive AddonsError
  | truncated
  | invalidWireType (wireType : Byte)
  | flowTooLarge (len : ℕ)
  | seedTooLarge (len : ℕ)
  deriving DecidableEq

def AddonsError.display : AddonsError → String
  | truncated => "truncated protobuf field"
  | invalidWireType wireType => s!"invalid protobuf wire type: {wireType.toNat}"
  | flowTooLarge len => s!"nested flow message too large: {len}"
  | seedTooLarge len => s!"seed too large: {len}"

def MAX_NESTED : ℕ := 128
def MAX_SEED : ℕ := 64
def MAX_ADDONS_SKIP : ℕ := 512

/-! ## Reading a field -/

/-- The loop of `read_varint` (lines 153-164) at position `pos`, with the bytes from
    there on: seven bits a byte, and at most ten bytes. -/
def readVarintLoop : Bytes → ℕ → UInt64 → ℕ → Except AddonsError (UInt64 × ℕ)
  | [], _, _, _ => .error .truncated
  | byte :: bytes, pos, result, shift =>
    let result := result ||| ((byte &&& 0x7F).toUInt64 <<< UInt64.ofNat shift)
    if byte &&& 0x80 = 0 then .ok (result, pos + 1)
    else if shift + 7 > 63 then .error .truncated
    else readVarintLoop bytes (pos + 1) result (shift + 7)

/-- `read_varint` (lines 148-167): the value, and the position behind it. -/
def readVarint (data : Bytes) (offset : ℕ) : Except AddonsError (UInt64 × ℕ) :=
  readVarintLoop (data.drop offset) offset 0 0

/-- `skip_varint` (lines 169-171). -/
def skipVarint (data : Bytes) (offset : ℕ) : Except AddonsError ℕ :=
  (readVarint data offset).map Prod.snd

/-- `read_tag` (lines 141-146): the field number as a `u32`, the wire type, and the
    position behind them. -/
def readTag (data : Bytes) (offset : ℕ) : Except AddonsError (UInt32 × Byte × ℕ) :=
  match readVarint data offset with
  | .error e => .error e
  | .ok (value, next) => .ok ((value >>> 3).toUInt32, (value &&& 0x07).toUInt8, next)

/-- `read_length_delimited` (lines 173-192): the bytes, and the position behind them. -/
def readLengthDelimited (data : Bytes) (offset maxLen : ℕ) : Except AddonsError (Bytes × ℕ) :=
  match readVarint data offset with
  | .error e => .error e
  | .ok (value, next) =>
    let len := value.toNat
    if len > maxLen then
      .error (if maxLen = MAX_SEED then .seedTooLarge len else .flowTooLarge len)
    else
      let stop := next + len
      if stop > data.length then .error .truncated else .ok (slice data next stop, stop)

/-- A field that is not read is skipped by its wire type (lines 58-67 and 126-134). -/
def skipField (data : Bytes) (maxLen : ℕ) (wireType : Byte) (offset : ℕ) : Except AddonsError ℕ :=
  if wireType = 0 then skipVarint data offset
  else if wireType = 1 then .ok (offset + 8)
  else if wireType = 2 then (readLengthDelimited data offset maxLen).map Prod.snd
  else if wireType = 5 then .ok (offset + 4)
  else .error (.invalidWireType wireType)

variable {data : Bytes} {offset next maxLen : ℕ}

theorem readVarintLoop_lt {bytes : Bytes} {pos shift : ℕ} {result value : UInt64}
    (h : readVarintLoop bytes pos result shift = .ok (value, next)) : pos < next := by
  induction bytes generalizing pos result shift with
  | nil => cases h
  | cons byte bytes ih =>
    rw [readVarintLoop] at h
    split_ifs at h
    · cases h; omega
    · exact (ih h).trans' (Nat.lt_succ_self pos)

theorem readVarint_lt {value : UInt64} (h : readVarint data offset = .ok (value, next)) :
    offset < next :=
  readVarintLoop_lt h

variable {wireType : Byte} {tag : UInt32}

theorem readTag_lt (h : readTag data offset = .ok (tag, wireType, next)) : offset < next := by
  unfold readTag at h
  cases hv : readVarint data offset with
  | error e => simp [hv] at h
  | ok p =>
    simp only [hv, Except.ok.injEq, Prod.mk.injEq] at h
    exact h.2.2 ▸ readVarint_lt hv

theorem readLengthDelimited_le {bytes : Bytes}
    (h : readLengthDelimited data offset maxLen = .ok (bytes, next)) : offset ≤ next := by
  unfold readLengthDelimited at h
  cases hv : readVarint data offset with
  | error e => simp [hv] at h
  | ok p =>
    have := readVarint_lt hv
    simp only [hv] at h
    split_ifs at h
    cases h
    omega

theorem skipField_le (h : skipField data maxLen wireType offset = .ok next) : offset ≤ next := by
  unfold skipField skipVarint at h
  split_ifs at h
  · obtain ⟨p, hread, rfl⟩ := map_eq_ok.mp h
    exact (readVarint_lt hread).le
  · cases h; omega
  · obtain ⟨p, hread, rfl⟩ := map_eq_ok.mp h
    exact readLengthDelimited_le hread
  · cases h; omega

/-! ## The loop over fields -/

/-- What a loop does with a field: from the value so far, the field number, the wire
    type and the position behind them, the new value and the position behind the field. -/
structure FieldReader (α : Type) where
  read : α → UInt32 → Byte → ℕ → Except AddonsError (α × ℕ)
  le : ∀ {a tag wireType offset a' next},
    read a tag wireType offset = .ok (a', next) → offset ≤ next

def readFields {α : Type} (reader : FieldReader α) (data : Bytes) (offset : ℕ) (a : α) :
    Except AddonsError α :=
  if offset < data.length then
    match _ht : readTag data offset with
    | .error e => .error e
    | .ok (tag, wireType, next) =>
      match _hr : reader.read a tag wireType next with
      | .error e => .error e
      | .ok (a', next') => readFields reader data next' a'
  else .ok a
termination_by data.length - offset
decreasing_by
  have := readTag_lt _ht
  have := reader.le _hr
  omega

/-- The body of the loop of `parse_flow_message` (lines 117-135). A type that is not
    UTF-8 counts as truncated. -/
def readFlowField (data : Bytes) (flowType : String) (tag : UInt32) (wireType : Byte)
    (offset : ℕ) : Except AddonsError (String × ℕ) :=
  if tag = 1 ∧ wireType = 2 then
    match readLengthDelimited data offset MAX_NESTED with
    | .error e => .error e
    | .ok (value, next) =>
      match fromUtf8 value with
      | none => .error .truncated
      | some flowType => .ok (flowType, next)
  else (skipField data MAX_NESTED wireType offset).map fun next => (flowType, next)

theorem readFlowField_le {flowType flowType' : String}
    (h : readFlowField data flowType tag wireType offset = .ok (flowType', next)) :
    offset ≤ next := by
  unfold readFlowField at h
  split_ifs at h
  · cases hv : readLengthDelimited data offset MAX_NESTED with
    | error e => simp [hv] at h
    | ok p =>
      simp only [hv] at h
      cases hf : fromUtf8 p.1 with
      | none => simp [hf] at h
      | some s =>
        simp only [hf, Except.ok.injEq, Prod.mk.injEq] at h
        exact h.2 ▸ readLengthDelimited_le hv
  · obtain ⟨p, hskip, heq⟩ := map_eq_ok.mp h
    cases heq
    exact skipField_le hskip

/-- `parse_flow_message` (lines 109-139). -/
def parseFlowMessage (data : Bytes) : Except AddonsError String :=
  readFields ⟨readFlowField data, readFlowField_le⟩ data 0 ""

def readAddonsField (data : Bytes) (addons : VlessAddons) (tag : UInt32) (wireType : Byte)
    (offset : ℕ) : Except AddonsError (VlessAddons × ℕ) :=
  if tag = 1 ∧ wireType = 2 then
    match readLengthDelimited data offset MAX_NESTED with
    | .error e => .error e
    | .ok (nested, next) =>
      (parseFlowMessage nested).map fun flow => ({ addons with flow := some flow }, next)
  else if tag = 2 ∧ wireType = 2 then
    (readLengthDelimited data offset MAX_SEED).map fun p =>
      ({ addons with seed := some p.1 }, p.2)
  else (skipField data MAX_ADDONS_SKIP wireType offset).map fun next => (addons, next)

theorem readAddonsField_le {addons addons' : VlessAddons}
    (h : readAddonsField data addons tag wireType offset = .ok (addons', next)) :
    offset ≤ next := by
  unfold readAddonsField at h
  split_ifs at h
  · cases hv : readLengthDelimited data offset MAX_NESTED with
    | error e => simp [hv] at h
    | ok p =>
      rw [hv] at h
      obtain ⟨flow, -, heq⟩ := map_eq_ok.mp h
      cases heq
      exact readLengthDelimited_le hv
  · obtain ⟨p, hread, heq⟩ := map_eq_ok.mp h
    cases heq
    exact readLengthDelimited_le hread
  · obtain ⟨p, hskip, heq⟩ := map_eq_ok.mp h
    cases heq
    exact skipField_le hskip

/-- `parse_addons` (lines 34-72). -/
def parseAddons (data : Bytes) : Except AddonsError VlessAddons :=
  readFields ⟨readAddonsField data, readAddonsField_le⟩ data 0 ⟨none, none⟩

/-! ## Flows -/

inductive UnsupportedFlow
  | vision
  | unknown (flow : String)
  | mismatch (expected : String) (got : Option String)
  deriving DecidableEq

/-- `validate_flow` (lines 77-97). -/
def validateFlow (flow userFlow : Option String) : Except UnsupportedFlow Unit :=
  if flow = some FLOW_XTLS_VISION then .error .vision
  else if flow.getD "" ≠ "" then .error (.unknown (flow.getD ""))
  else
    match userFlow with
    | none => .ok ()
    | some expected =>
      if expected ≠ "" ∧ flow ≠ some expected then .error (.mismatch expected flow) else .ok ()

theorem validateFlow_ok_iff (flow userFlow : Option String) :
    validateFlow flow userFlow = .ok () ↔ flow.getD "" = "" ∧ userFlow.getD "" = "" := by
  have hvision : FLOW_XTLS_VISION ≠ "" := by decide
  unfold validateFlow
  rcases flow with - | flow
  · rcases userFlow with - | expected
    · simp
    · by_cases h : expected = "" <;> simp [h]
  · by_cases hv : flow = FLOW_XTLS_VISION
    · simp [hv, hvision]
    · by_cases h : flow = ""
      · rcases userFlow with - | expected
        · simp [h, hvision.symm]
        · by_cases h' : expected = ""
          · simp [h, h', hvision.symm]
          · simp [h, h', hvision.symm, Ne.symm h']
      · simp [hv, h]

end SkadiCore.Vless
