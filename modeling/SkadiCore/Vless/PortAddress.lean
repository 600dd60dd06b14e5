import SkadiCore.Core.Endpoint

/-!
# The VLESS port and address fields

Model of `parse_port_address` and `encode_port_address`
(`crates/skadi-protocol/src/vless/parse.rs`, lines 130-237): `PORT` (2 bytes,
big-endian), `ATYP`, `ADDR`. In VLESS a domain has `ATYP = 0x02`, not `0x03`. The
commands of a request are defined here, too.

* `parsePortAddress_ok_iff`: the parser accepts exactly the strings that begin with the
  encoding of a canonical target, and returns that target.
-/

namespace SkadiCore.Vless

def CMD_TCP : Byte := 0x01
def CMD_UDP : Byte := 0x02
def CMD_MUX : Byte := 0x03

def ATYP_IPV4 : Byte := 0x01
def ATYP_DOMAIN : Byte := 0x02
def ATYP_IPV6 : Byte := 0x03

def MAX_DOMAIN : ℕ := 255

inductive ParseError
  | incomplete (need have_ : ℕ)
  | badVersion (version : Byte)
  | addonsTooLarge (len : ℕ)
  | unsupportedCommand (command : Byte)
  | unsupportedAddressType (atyp : Byte)
  | emptyDomain
  | invalidUtf8 (field : String)
  deriving DecidableEq

def ParseError.display : ParseError → String
  | incomplete need have_ => s!"not enough data: need {need}, have {have_}"
  | badVersion version => s!"unsupported VLESS version: 0x{hex02 version}"
  | addonsTooLarge len => s!"addons too large: {len} > 512"
  | unsupportedCommand command => s!"unsupported command: 0x{hex02 command}"
  | unsupportedAddressType atyp => s!"unsupported address type: 0x{hex02 atyp}"
  | emptyDomain => "empty domain"
  | invalidUtf8 field => s!"invalid UTF-8 in {field}"

/-- The address part of `parse_port_address` (lines 143-204): the target and the
    number of bytes of the address. -/
def parseAddress (input : Bytes) (port : UInt16) (atyp : Byte) :
    Except ParseError (Endpoint × ℕ) :=
  let addrStart := 3
  if atyp = ATYP_IPV4 then
    if input.length < addrStart + 4 then
      .error (.incomplete (addrStart + 4) input.length)
    else
      let octets := toArray 4 (slice input addrStart (addrStart + 4))
      .ok (.ip (.new (.v4 octets) port), 4)
  else if atyp = ATYP_DOMAIN then
    if input.length < addrStart + 1 then
      .error (.incomplete (addrStart + 1) input.length)
    else
      let dlen := (byteAt input addrStart).toNat
      if dlen = 0 then .error .emptyDomain
      else if dlen > MAX_DOMAIN then
        .error (.incomplete (addrStart + 1 + dlen) input.length)
      else
        let domainEnd := addrStart + 1 + dlen
        if input.length < domainEnd then .error (.incomplete domainEnd input.length)
        else
          match fromUtf8 (slice input (addrStart + 1) domainEnd) with
          | none => .error (.invalidUtf8 "domain")
          | some domain => .ok (.domain domain port, 1 + dlen)
  else if atyp = ATYP_IPV6 then
    if input.length < addrStart + 16 then
      .error (.incomplete (addrStart + 16) input.length)
    else
      let octets := toArray 16 (slice input addrStart (addrStart + 16))
      .ok (.ip (.new (.v6 octets) port), 16)
  else .error (.unsupportedAddressType atyp)

/-- `parse_port_address` (lines 131-207): the target and the bytes consumed. -/
def parsePortAddress (input : Bytes) : Except ParseError (Endpoint × ℕ) :=
  if input.length < 3 then .error (.incomplete 3 input.length)
  else
    let port := fromBe16 (byteAt input 0) (byteAt input 1)
    match parseAddress input port (byteAt input 2) with
    | .error e => .error e
    | .ok (target, addrLen) => .ok (target, 3 + addrLen)

/-- `encode_port_address` (lines 210-237). -/
def encodePortAddress : Endpoint → Bytes
  | .ip addr =>
    toBe16 addr.port ++
      match addr.ip with
      | .v4 octets => ATYP_IPV4 :: octets.val
      | .v6 octets => ATYP_IPV6 :: octets.val
  | .domain domain port =>
    toBe16 port ++ ATYP_DOMAIN :: UInt8.ofNat (asBytes domain).length :: asBytes domain

theorem exists_encodePortAddress (target : Endpoint) :
    ∃ hi lo atyp bs, encodePortAddress target = hi :: lo :: atyp :: bs := by
  match target with
  | .ip (.v4 _ _) | .ip (.v6 _ _ _ _) | .domain _ _ => exact ⟨_, _, _, _, rfl⟩

/-! ## What the parser accepts -/

theorem parsePortAddress_v4 (hi lo : Byte) {os : Bytes} (rest : Bytes) (h : os.length = 4) :
    parsePortAddress (hi :: lo :: ATYP_IPV4 :: (os ++ rest)) =
      .ok (.ip (.v4 (toArray 4 os) (fromBe16 hi lo)), 7) := by
  have hlen : ¬ (hi :: lo :: ATYP_IPV4 :: (os ++ rest)).length < 3 := by simp
  have hlen' : ¬ (hi :: lo :: ATYP_IPV4 :: (os ++ rest)).length < 3 + 4 := by simp [h]
  have hos : slice (hi :: lo :: ATYP_IPV4 :: (os ++ rest)) 3 (3 + 4) = os :=
    slice_append [hi, lo, ATYP_IPV4] os rest rfl (by rw [h])
  simp only [parsePortAddress, parseAddress, byteAt_cons_zero, byteAt_cons_one, byteAt_cons_two,
    if_neg hlen, if_true, if_neg hlen', hos, SocketAddr.new]

theorem parsePortAddress_v6 (hi lo : Byte) {os : Bytes} (rest : Bytes) (h : os.length = 16) :
    parsePortAddress (hi :: lo :: ATYP_IPV6 :: (os ++ rest)) =
      .ok (.ip (.v6 (toArray 16 os) (fromBe16 hi lo) 0 0), 19) := by
  have hlen : ¬ (hi :: lo :: ATYP_IPV6 :: (os ++ rest)).length < 3 := by simp
  have hlen' : ¬ (hi :: lo :: ATYP_IPV6 :: (os ++ rest)).length < 3 + 16 := by simp [h]
  have hos : slice (hi :: lo :: ATYP_IPV6 :: (os ++ rest)) 3 (3 + 16) = os :=
    slice_append [hi, lo, ATYP_IPV6] os rest rfl (by rw [h])
  have h4 : ATYP_IPV6 ≠ ATYP_IPV4 := by decide
  have hd : ATYP_IPV6 ≠ ATYP_DOMAIN := by decide
  simp only [parsePortAddress, parseAddress, byteAt_cons_zero, byteAt_cons_one, byteAt_cons_two,
    if_neg hlen, if_neg h4, if_neg hd, if_true, if_neg hlen', hos, SocketAddr.new]

theorem parsePortAddress_domain (hi lo : Byte) {b : Byte} {ds : Bytes} (rest : Bytes)
    (hb : b.toNat ≠ 0) (h : ds.length = b.toNat) :
    parsePortAddress (hi :: lo :: ATYP_DOMAIN :: b :: (ds ++ rest)) =
      match fromUtf8 ds with
      | none => .error (.invalidUtf8 "domain")
      | some domain => .ok (.domain domain (fromBe16 hi lo), 3 + (1 + b.toNat)) := by
  have hlen : ¬ (hi :: lo :: ATYP_DOMAIN :: b :: (ds ++ rest)).length < 3 := by simp
  have hlen' : ¬ (hi :: lo :: ATYP_DOMAIN :: b :: (ds ++ rest)).length < 3 + 1 := by simp
  have hlen'' : ¬ (hi :: lo :: ATYP_DOMAIN :: b :: (ds ++ rest)).length < 3 + 1 + b.toNat := by
    simp [h]; omega
  have hmax : ¬ b.toNat > MAX_DOMAIN := by have := b.toNat_lt; simp [MAX_DOMAIN]; omega
  have hds : slice (hi :: lo :: ATYP_DOMAIN :: b :: (ds ++ rest)) (3 + 1) (3 + 1 + b.toNat) = ds :=
    slice_append [hi, lo, ATYP_DOMAIN, b] ds rest rfl (by rw [h])
  have h4 : ATYP_DOMAIN ≠ ATYP_IPV4 := by decide
  simp only [parsePortAddress, parseAddress, byteAt_cons_zero, byteAt_cons_one, byteAt_cons_two,
    byteAt_cons_three, if_neg hlen, if_neg h4, if_true, if_neg hlen', if_neg hb, if_neg hmax,
    if_neg hlen'', hds]
  cases fromUtf8 ds <;> rfl

variable {input rest : Bytes} {target : Endpoint} {n : ℕ}

theorem parsePortAddress_encode (hok : target.Canonical) :
    parsePortAddress (encodePortAddress target ++ rest) =
      .ok (target, (encodePortAddress target).length) := by
  match target with
  | .ip (.v4 octets port) =>
    obtain ⟨hi, lo, hport, rfl⟩ := exists_toBe16 port
    have := parsePortAddress_v4 hi lo rest octets.property
    simp [encodePortAddress, SocketAddr.port, SocketAddr.ip, hport, this]
  | .ip (.v6 octets port flowinfo scopeId) =>
    obtain ⟨rfl, rfl⟩ := hok
    obtain ⟨hi, lo, hport, rfl⟩ := exists_toBe16 port
    have := parsePortAddress_v6 hi lo rest octets.property
    simp [encodePortAddress, SocketAddr.port, SocketAddr.ip, hport, this]
  | .domain host port =>
    obtain ⟨hi, lo, hport, rfl⟩ := exists_toBe16 port
    have hlen := toNat_ofNat_of_lt hok.2
    have := parsePortAddress_domain hi lo rest (by rw [hlen]; exact hok.1.ne') hlen.symm
    simp [encodePortAddress, hport, this, hlen]
    omega

theorem parsePortAddress_fields {hi lo atyp : Byte} {l : Bytes} {r : Endpoint × ℕ}
    (h : parsePortAddress (hi :: lo :: atyp :: l) = .ok r) :
    (atyp = ATYP_IPV4 ∧ 4 ≤ l.length) ∨ (atyp = ATYP_IPV6 ∧ 16 ≤ l.length) ∨
      ∃ b l', atyp = ATYP_DOMAIN ∧ l = b :: l' ∧ b.toNat ≠ 0 ∧ b.toNat ≤ l'.length := by
  obtain ⟨r', hr⟩ : ∃ r', parseAddress (hi :: lo :: atyp :: l) (fromBe16 hi lo) atyp = .ok r' := by
    rw [parsePortAddress, if_neg (by simp)] at h
    dsimp only [byteAt_cons_zero, byteAt_cons_one, byteAt_cons_two] at h
    cases hr : parseAddress (hi :: lo :: atyp :: l) (fromBe16 hi lo) atyp with
    | error e => simp [hr] at h
    | ok r' => exact ⟨r', rfl⟩
  unfold parseAddress at hr
  dsimp only [List.length_cons] at hr
  split_ifs at hr with h4 hlen hd hpos hb hmax hlen h6 hlen
  · exact .inl ⟨h4, by omega⟩
  · rcases l with - | ⟨b, l⟩
    · simp at hpos
    · rw [byteAt_cons_three] at hb hlen
      exact .inr (.inr ⟨b, l, hd, rfl, hb, by rw [List.length_cons] at hlen; omega⟩)
  · exact .inr (.inl ⟨h6, by omega⟩)

theorem encode_of_parsePortAddress (h : parsePortAddress input = .ok (target, n)) :
    ∃ rest, input = encodePortAddress target ++ rest ∧ target.Canonical ∧
      n = (encodePortAddress target).length := by
  rcases input with - | ⟨hi, - | ⟨lo, - | ⟨atyp, l⟩⟩⟩
  iterate 3 simp [parsePortAddress] at h
  obtain ⟨rfl, hlen⟩ | ⟨rfl, hlen⟩ | ⟨b, l, rfl, rfl, hb, hlen⟩ := parsePortAddress_fields h
  · obtain ⟨os, rest, rfl, hos⟩ := exists_append hlen
    rw [parsePortAddress_v4 hi lo rest hos] at h
    cases h
    refine ⟨rest, ?_, trivial, ?_⟩ <;>
      simp [encodePortAddress, SocketAddr.port, SocketAddr.ip, toArray_val hos, toBe16_fromBe16,
        hos]
  · obtain ⟨os, rest, rfl, hos⟩ := exists_append hlen
    rw [parsePortAddress_v6 hi lo rest hos] at h
    cases h
    refine ⟨rest, ?_, ⟨rfl, rfl⟩, ?_⟩ <;>
      simp [encodePortAddress, SocketAddr.port, SocketAddr.ip, toArray_val hos, toBe16_fromBe16,
        hos]
  · obtain ⟨ds, rest, rfl, hds⟩ := exists_append hlen
    rw [parsePortAddress_domain hi lo rest hb hds] at h
    cases hf : fromUtf8 ds with
    | none => simp [hf] at h
    | some host =>
      simp only [hf] at h
      cases h
      obtain rfl := fromUtf8_eq_some_iff.mp hf
      refine ⟨rest, ?_, ⟨by omega, hds ▸ b.toNat_lt⟩, ?_⟩
      · simp [encodePortAddress, toBe16_fromBe16, hds]
      · simp [encodePortAddress, hds]; omega

theorem parsePortAddress_ok_iff :
    parsePortAddress input = .ok (target, n) ↔
      ∃ rest, input = encodePortAddress target ++ rest ∧ target.Canonical ∧
        n = (encodePortAddress target).length := by
  constructor
  · exact encode_of_parsePortAddress
  · rintro ⟨rest, rfl, hok, rfl⟩
    exact parsePortAddress_encode hok

end SkadiCore.Vless
