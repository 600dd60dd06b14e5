import SkadiCore.Vless.Config
import SkadiCore.Vless.PortAddress

/-!
# VLESS requests

Model of `parse_request` (`crates/skadi-protocol/src/vless/parse.rs`, lines 58-128):
`VERSION`, `UUID` (16 bytes), the addons behind their length, `COMMAND`, and `PORT`,
`ATYP`, `ADDR`. A mux request ends behind its command.

* `parseRequest_ok_iff`: the parser accepts exactly the strings that begin with the
  encoding of a request, and returns that request.
-/

namespace SkadiCore.Vless

def VLESS_VERSION : Byte := 0x00

def MUX_PLACEHOLDER_HOST : String := "v1.mux.cool"

def MAX_ADDONS : ℕ := 512

structure VlessRequest where
  uuid : Uuid
  command : Byte
  addons : Bytes
  target : Endpoint
  deriving DecidableEq

/-- `parse_request` (lines 59-128): the request and the bytes consumed. -/
def parseRequest (input : Bytes) : Except ParseError (VlessRequest × ℕ) :=
  if input.length < 18 then .error (.incomplete 18 input.length)
  else
    let version := byteAt input 0
    if version ≠ VLESS_VERSION then .error (.badVersion version)
    else
      let uuid := toArray 16 (slice input 1 17)
      let addonsLen := (byteAt input 17).toNat
      if addonsLen > MAX_ADDONS then .error (.addonsTooLarge addonsLen)
      else
        let addonsEnd := 18 + addonsLen
        if input.length < addonsEnd + 1 then .error (.incomplete (addonsEnd + 1) input.length)
        else
          let addons := slice input 18 addonsEnd
          let command := byteAt input addonsEnd
          if command ≠ CMD_TCP ∧ command ≠ CMD_UDP ∧ command ≠ CMD_MUX then
            .error (.unsupportedCommand command)
          else if command = CMD_MUX then
            .ok (⟨uuid, command, addons, .domain MUX_PLACEHOLDER_HOST 0⟩, addonsEnd + 1)
          else
            let afterCmd := addonsEnd + 1
            if input.length < afterCmd + 3 then .error (.incomplete (afterCmd + 3) input.length)
            else
              match parsePortAddress (input.drop afterCmd) with
              | .error e => .error e
              | .ok (target, consumed) =>
                .ok (⟨uuid, command, addons, target⟩, afterCmd + consumed)

/-- `build_response_header` (lines 250-252). -/
def buildResponseHeader (version : Byte) : Bytes := [version, 0x00]

/-! ## The format -/

def encodeHead (uuid : Uuid) (addons : Bytes) (command : Byte) : Bytes :=
  VLESS_VERSION :: (uuid.val ++ (counted addons ++ [command]))

def encodeTail (command : Byte) (target : Endpoint) : Bytes :=
  if command = CMD_MUX then [] else encodePortAddress target

def encodeRequest (r : VlessRequest) : Bytes :=
  encodeHead r.uuid r.addons r.command ++ encodeTail r.command r.target

def TargetOk (command : Byte) (target : Endpoint) : Prop :=
  (command = CMD_MUX ∧ target = .domain MUX_PLACEHOLDER_HOST 0) ∨
    ((command = CMD_TCP ∨ command = CMD_UDP) ∧ target.Canonical)

def RequestOk (r : VlessRequest) : Prop := r.addons.length < 256 ∧ TargetOk r.command r.target

instance (command : Byte) (target : Endpoint) : Decidable (TargetOk command target) :=
  inferInstanceAs (Decidable (_ ∨ _))

instance (r : VlessRequest) : Decidable (RequestOk r) := inferInstanceAs (Decidable (_ ∧ _))

@[simp]
theorem length_encodeHead (uuid : Uuid) (addons : Bytes) (command : Byte) :
    (encodeHead uuid addons command).length = 18 + addons.length + 1 := by
  simp [encodeHead]
  omega

/-! ## What the parser accepts -/

/-- The end of `parse_request`: the target of a request whose command is `command`,
    with `rest` behind it (lines 86-128). -/
def parseTail (uuid : Uuid) (addons : Bytes) (command : Byte) (rest : Bytes) :
    Except ParseError (VlessRequest × ℕ) :=
  let afterCmd := 18 + addons.length + 1
  if command ≠ CMD_TCP ∧ command ≠ CMD_UDP ∧ command ≠ CMD_MUX then
    .error (.unsupportedCommand command)
  else if command = CMD_MUX then
    .ok (⟨uuid, command, addons, .domain MUX_PLACEHOLDER_HOST 0⟩, afterCmd)
  else if rest.length < 3 then .error (.incomplete (afterCmd + 3) (afterCmd + rest.length))
  else
    match parsePortAddress rest with
    | .error e => .error e
    | .ok (target, consumed) => .ok (⟨uuid, command, addons, target⟩, afterCmd + consumed)

variable {input : Bytes} {r : VlessRequest} {n : ℕ}

theorem parseRequest_head (uuid : Uuid) {addons : Bytes} (command : Byte) (rest : Bytes)
    (h : addons.length < 256) :
    parseRequest (encodeHead uuid addons command ++ rest) = parseTail uuid addons command rest := by
  have hu := uuid.property
  have hb := toNat_ofNat_of_lt h
  set input := encodeHead uuid addons command ++ rest with hinput
  have hlen : input.length = 18 + addons.length + 1 + rest.length := by simp [hinput]
  have hversion : byteAt input 0 = VLESS_VERSION := rfl
  have huuid : slice input 1 17 = uuid.val := by
    have := slice_append [VLESS_VERSION] uuid.val (counted addons ++ [command] ++ rest)
      (a := 1) (b := 17) rfl (by rw [hu])
    simpa [hinput, encodeHead] using this
  have hcount : (byteAt input 17).toNat = addons.length := by
    have := byteAt_append (VLESS_VERSION :: uuid.val) (addons ++ command :: rest)
      (UInt8.ofNat addons.length) (i := 17) (by simp)
    rw [← hb, ← this]
    simp [hinput, encodeHead, counted]
  have haddons : slice input 18 (18 + addons.length) = addons := by
    have := slice_append (VLESS_VERSION :: (uuid.val ++ [UInt8.ofNat addons.length])) addons
      (command :: rest) (a := 18) (b := 18 + addons.length) (by simp) rfl
    simpa [hinput, encodeHead, counted] using this
  have hcommand : byteAt input (18 + addons.length) = command := by
    have := byteAt_append (VLESS_VERSION :: (uuid.val ++ counted addons)) rest command
      (i := 18 + addons.length) (by simp; omega)
    simpa [hinput, encodeHead] using this
  have hdrop : input.drop (18 + addons.length + 1) = rest := by
    rw [hinput, ← length_encodeHead uuid addons command, List.drop_left]
  have hmax : ¬ addons.length > MAX_ADDONS := by simp [MAX_ADDONS]; omega
  have h18 : ¬ input.length < 18 := by omega
  have h19 : ¬ input.length < 18 + addons.length + 1 := by omega
  have htail : input.length < 18 + addons.length + 1 + 3 ↔ rest.length < 3 := by omega
  simp only [parseRequest, if_neg h18, hversion, ne_eq, not_true_eq_false, if_false, huuid, hcount,
    if_neg hmax, if_neg h19, haddons, hcommand, htail, hdrop, parseTail, toArray_self]
  rw [hlen]

theorem parseTail_ok_iff {uuid : Uuid} {addons : Bytes} {command : Byte} {rest : Bytes} :
    parseTail uuid addons command rest = .ok (r, n) ↔
      ∃ target rest', rest = encodeTail command target ++ rest' ∧ TargetOk command target ∧
        r = ⟨uuid, command, addons, target⟩ ∧
        n = 18 + addons.length + 1 + (encodeTail command target).length := by
  unfold parseTail encodeTail TargetOk
  by_cases hmux : command = CMD_MUX
  · subst hmux
    have hne : CMD_MUX ≠ CMD_TCP := by decide
    have hne' : CMD_MUX ≠ CMD_UDP := by decide
    simp [hne, hne', eq_comm]
  by_cases hcmd : command = CMD_TCP ∨ command = CMD_UDP
  · have hsup : ¬ (command ≠ CMD_TCP ∧ command ≠ CMD_UDP ∧ command ≠ CMD_MUX) := by tauto
    simp only [if_neg hsup, hmux, if_false, hcmd, false_and, true_and, false_or]
    have hshort : rest.length < 3 → ∀ p, parsePortAddress rest ≠ .ok p := by
      intro h p
      simp [parsePortAddress, h]
    constructor
    · intro h
      split_ifs at h
      cases hp : parsePortAddress rest with
      | error e => simp [hp] at h
      | ok p =>
        obtain ⟨target, consumed⟩ := p
        simp only [hp, Except.ok.injEq, Prod.mk.injEq] at h
        obtain ⟨rest', hrest, hok, rfl⟩ := parsePortAddress_ok_iff.mp hp
        exact ⟨target, rest', hrest, hok, h.1.symm, h.2.symm⟩
    · rintro ⟨target, rest', hrest, hok, rfl, rfl⟩
      have hp := parsePortAddress_ok_iff.mpr ⟨rest', hrest, hok, rfl⟩
      rw [if_neg fun h => hshort h _ hp, hp]
  · have hsup : command ≠ CMD_TCP ∧ command ≠ CMD_UDP ∧ command ≠ CMD_MUX := by tauto
    simp [hsup]

theorem exists_encodeHead (hversion : byteAt input 0 = VLESS_VERSION)
    (hlen : 18 + (byteAt input 17).toNat + 1 ≤ input.length) :
    ∃ uuid addons command rest, input = encodeHead uuid addons command ++ rest ∧
      addons.length < 256 := by
  rcases input with - | ⟨v, l⟩
  · simp at hlen
  obtain rfl : v = VLESS_VERSION := hversion
  obtain ⟨us, l, rfl, hus⟩ := exists_append (show 16 ≤ l.length by simp at hlen; omega)
  rcases l with - | ⟨b, l⟩
  · simp [hus] at hlen; omega
  have hb : byteAt (VLESS_VERSION :: (us ++ b :: l)) 17 = b :=
    byteAt_append (VLESS_VERSION :: us) l b (by simp [hus])
  simp only [hb, List.length_cons, List.length_append] at hlen
  obtain ⟨addons, l, rfl, haddons⟩ := exists_append (show b.toNat ≤ l.length by omega)
  rcases l with - | ⟨command, rest⟩
  · simp at hlen; omega
  refine ⟨toArray 16 us, addons, command, rest, ?_, haddons ▸ b.toNat_lt⟩
  simp [encodeHead, toArray_val hus, ← cons_eq_counted haddons]

theorem head_of_parseRequest (h : parseRequest input = .ok (r, n)) :
    ∃ uuid addons command rest, input = encodeHead uuid addons command ++ rest ∧
      addons.length < 256 := by
  unfold parseRequest at h
  dsimp only at h
  split_ifs at h with h18 hversion hmax h19 <;>
  exact exists_encodeHead (not_not.mp hversion) (not_lt.mp h19)

theorem parseRequest_ok_iff :
    parseRequest input = .ok (r, n) ↔
      ∃ rest, input = encodeRequest r ++ rest ∧ RequestOk r ∧ n = (encodeRequest r).length := by
  constructor
  · intro h
    obtain ⟨uuid, addons, command, rest, rfl, haddons⟩ := head_of_parseRequest h
    rw [parseRequest_head uuid command rest haddons] at h
    obtain ⟨target, rest', rfl, hok, rfl, rfl⟩ := parseTail_ok_iff.mp h
    exact ⟨rest', by simp [encodeRequest], ⟨haddons, hok⟩, by simp [encodeRequest]⟩
  · rintro ⟨rest, rfl, ⟨haddons, hok⟩, rfl⟩
    rw [encodeRequest, List.append_assoc, parseRequest_head _ _ _ haddons]
    exact parseTail_ok_iff.mpr ⟨r.target, rest, rfl, hok, rfl, by simp⟩

end SkadiCore.Vless
