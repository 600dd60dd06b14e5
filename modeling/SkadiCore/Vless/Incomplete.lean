import SkadiCore.Socks5.Incomplete
import SkadiCore.Vless.Parse

/-!
# Partial VLESS requests

The parsers of `crates/skadi-protocol/src/vless/parse.rs` on input that is not complete.

* `contract_parsePortAddress`: `parse_port_address` keeps the contract on every input.
* `contract_parseRequest_iff`: `parse_request` keeps it if and only if the input does not end
  within the address of its target.

**Defect.** `parse_request` hands what follows the command to `parse_port_address` and passes
its error on (line 115). The two numbers of an `Incomplete` then count from behind the
command (`counts_from_command`).
-/

namespace SkadiCore.Vless

variable {input more rest : Bytes} {need have_ n : ℕ} {target : Endpoint} {r : VlessRequest}

/-! ## Addresses -/

def addressEnd (input : Bytes) : ℕ :=
  if byteAt input 2 = ATYP_IPV4 then 7
  else if byteAt input 2 = ATYP_IPV6 then 19
  else 4 + (byteAt input 3).toNat

theorem lt_addressEnd (input : Bytes) : 3 < addressEnd input := by
  unfold addressEnd
  split_ifs <;> omega

/-- The address needs `need` bytes and has fewer. -/
def CutAt (rest : Bytes) (need : ℕ) : Prop :=
  rest.length < need ∧
    (byteAt rest 2 = ATYP_IPV4 ∧ need = 7 ∨
      byteAt rest 2 = ATYP_IPV6 ∧ need = 19 ∨
      byteAt rest 2 = ATYP_DOMAIN ∧
        (need = 4 ∨ 4 ≤ rest.length ∧ byteAt rest 3 ≠ 0 ∧ need = 4 + (byteAt rest 3).toNat))

theorem addressEnd_append (h : 3 < input.length) :
    addressEnd (input ++ more) = addressEnd input := by
  unfold addressEnd
  rw [byteAt_append_left h, byteAt_append_left (by omega)]

variable {port : UInt16}

theorem consumed_parseAddress (h : parseAddress input port (byteAt input 2) = .ok (target, n)) :
    3 + n = addressEnd input := by
  unfold parseAddress at h
  unfold addressEnd
  dsimp only at h
  by_cases hv4 : byteAt input 2 = ATYP_IPV4
  · rw [if_pos hv4] at h ⊢
    split_ifs at h
    cases h
    rfl
  rw [if_neg hv4] at h ⊢
  by_cases hdomain : byteAt input 2 = ATYP_DOMAIN
  · rw [if_pos hdomain] at h
    rw [if_neg (by rw [hdomain]; decide)]
    split_ifs at h
    split at h <;> cases h
    omega
  rw [if_neg hdomain] at h
  split_ifs at h with hv6
  · cases h
    rw [if_pos hv6]

theorem cutAt_of_parseAddress
    (h : parseAddress input port (byteAt input 2) = .error (.incomplete need have_)) :
    have_ = input.length ∧ CutAt input need := by
  have hmax := (byteAt input 3).toNat_lt
  unfold parseAddress at h
  dsimp only at h
  by_cases hv4 : byteAt input 2 = ATYP_IPV4
  · rw [if_pos hv4] at h
    split_ifs at h with hshort
    cases h
    exact ⟨rfl, hshort, .inl ⟨hv4, rfl⟩⟩
  rw [if_neg hv4] at h
  by_cases hdomain : byteAt input 2 = ATYP_DOMAIN
  · rw [if_pos hdomain] at h
    split_ifs at h with hshort hzero hlong hend
    · cases h
      exact ⟨rfl, hshort, .inr (.inr ⟨hdomain, .inl rfl⟩)⟩
    · cases h
    · exact absurd hlong (by unfold MAX_DOMAIN; omega)
    · cases h
      refine ⟨rfl, hend, .inr (.inr ⟨hdomain, .inr ⟨by omega, ?_, rfl⟩⟩)⟩
      intro hbyte
      rw [hbyte] at hzero
      exact hzero rfl
    · split at h <;> cases h
  rw [if_neg hdomain] at h
  split_ifs at h with hv6 hshort
  · cases h
    exact ⟨rfl, hshort, .inr (.inl ⟨hv6, rfl⟩)⟩
  · cases h

theorem CutAt.parseAddress (h : CutAt input need) :
    Vless.parseAddress input port (byteAt input 2) = .error (.incomplete need input.length) := by
  have hmax := (byteAt input 3).toNat_lt
  unfold Vless.parseAddress
  dsimp only
  obtain ⟨hlt, ⟨hv4, rfl⟩ | ⟨hv6, rfl⟩ | ⟨hdomain, rfl | ⟨hfour, hne, rfl⟩⟩⟩ := h
  · rw [if_pos hv4, if_pos hlt]
  · rw [hv6, if_neg (by decide), if_neg (by decide), if_pos rfl, if_pos hlt]
  · rw [hdomain, if_neg (by decide), if_pos rfl, if_pos hlt]
  · have hzero : (byteAt input 3).toNat ≠ 0 := fun hzero => hne (UInt8.toNat_inj.mp hzero)
    rw [hdomain, if_neg (by decide), if_pos rfl, if_neg (by omega), if_neg hzero,
      if_neg (by unfold MAX_DOMAIN; omega), if_pos hlt]

theorem CutAt.le_addressEnd (h : CutAt input need) (hlen : 3 ≤ input.length) (more : Bytes) :
    need ≤ addressEnd (input ++ more) := by
  obtain ⟨hlt, ⟨hv4, rfl⟩ | ⟨hv6, rfl⟩ | ⟨hdomain, rfl | ⟨hfour, -, rfl⟩⟩⟩ := h
  · rw [addressEnd, byteAt_append_left (by omega), if_pos hv4]
  · rw [addressEnd, byteAt_append_left (by omega), if_neg (by rw [hv6]; decide), if_pos hv6]
  · exact lt_addressEnd _
  · rw [addressEnd_append hfour, addressEnd, hdomain, if_neg (by decide), if_neg (by decide)]

theorem consumed_parsePortAddress (h : parsePortAddress input = .ok (target, n)) :
    n = addressEnd input := by
  unfold parsePortAddress at h
  dsimp only at h
  split_ifs at h
  split at h
  · cases h
  · next heq =>
    cases h
    exact consumed_parseAddress heq

theorem parsePortAddress_incomplete_iff (hlen : 3 ≤ input.length) :
    parsePortAddress input = .error (.incomplete need have_) ↔
      have_ = input.length ∧ CutAt input need := by
  unfold parsePortAddress
  dsimp only
  rw [if_neg (by omega)]
  constructor
  · intro h
    split at h
    · next heq =>
      cases h
      exact cutAt_of_parseAddress heq
    · cases h
  · rintro ⟨rfl, hcut⟩
    rw [hcut.parseAddress]

theorem contract_parsePortAddress (input : Bytes) :
    Contract ParseError.incomplete parsePortAddress input := by
  refine .of_format (fun _ _ _ => parsePortAddress_ok_iff) fun need have_ h => ?_
  by_cases hlen : input.length < 3
  · rw [parsePortAddress, if_pos hlen] at h
    cases h
    refine ⟨rfl, hlen, fun more target n hok => ?_⟩
    rw [consumed_parsePortAddress hok]
    exact (lt_addressEnd _).le
  · obtain ⟨hhave, hcut⟩ := (parsePortAddress_incomplete_iff (by omega)).mp h
    refine ⟨hhave, hcut.1, fun more target n hok => ?_⟩
    rw [consumed_parsePortAddress hok]
    exact hcut.le_addressEnd (by omega) more

/-! ## Requests -/

/-- The request of a TCP or UDP target that stops in its address. -/
def EndsInAddress (input : Bytes) : Prop :=
  ∃ uuid addons command rest need, input = encodeHead uuid addons command ++ rest ∧
    addons.length < 256 ∧ (command = CMD_TCP ∨ command = CMD_UDP) ∧ 3 ≤ rest.length ∧
    CutAt rest need

theorem consumed_parseRequest (h : parseRequest input = .ok (r, n)) :
    18 + (byteAt input 17).toNat + 1 ≤ n := by
  unfold parseRequest at h
  dsimp only at h
  split_ifs at h
  · cases h
    omega
  · split at h
    · cases h
    · cases h
      omega

theorem parseTail_error_iff {uuid : Uuid} {addons : Bytes} {command : Byte} {e : ParseError}
    (hcommand : command = CMD_TCP ∨ command = CMD_UDP) (hlen : 3 ≤ rest.length) :
    parseTail uuid addons command rest = .error e ↔ parsePortAddress rest = .error e := by
  have hknown : ¬ (command ≠ CMD_TCP ∧ command ≠ CMD_UDP ∧ command ≠ CMD_MUX) := by tauto
  have hmux : command ≠ CMD_MUX := by
    rcases hcommand with rfl | rfl <;> decide
  unfold parseTail
  dsimp only
  rw [if_neg hknown, if_neg hmux, if_neg (by omega)]
  cases parsePortAddress rest with
  | error e' => simp
  | ok p => simp

theorem not_contract_of_endsInAddress (h : EndsInAddress input) :
    ¬ Contract ParseError.incomplete parseRequest input := by
  intro hcontract
  obtain ⟨uuid, addons, command, rest, need, rfl, haddons, hcommand, hlen, hcut⟩ := h
  have hparse : parseRequest (encodeHead uuid addons command ++ rest) =
      .error (.incomplete need rest.length) := by
    rw [parseRequest_head uuid command rest haddons, parseTail_error_iff hcommand hlen,
      parsePortAddress_incomplete_iff hlen]
    exact ⟨rfl, hcut⟩
  obtain ⟨hhave, -⟩ := hcontract.short _ _ hparse
  rw [List.length_append, length_encodeHead] at hhave
  omega

theorem short_of_head {uuid : Uuid} {addons : Bytes} {command : Byte}
    (haddons : addons.length < 256)
    (hcut : ¬ EndsInAddress (encodeHead uuid addons command ++ rest))
    (h : parseTail uuid addons command rest = .error (.incomplete need have_)) :
    have_ = (encodeHead uuid addons command ++ rest).length ∧
      (encodeHead uuid addons command ++ rest).length < need ∧
      ∀ more r n, parseRequest (encodeHead uuid addons command ++ rest ++ more) = .ok (r, n) →
        need ≤ n := by
  by_cases hcommand : command = CMD_TCP ∨ command = CMD_UDP
  · by_cases hlen : 3 ≤ rest.length
    · rw [parseTail_error_iff hcommand hlen, parsePortAddress_incomplete_iff hlen] at h
      exact absurd ⟨uuid, addons, command, rest, need, rfl, haddons, hcommand, hlen, h.2⟩ hcut
    · have hknown : ¬ (command ≠ CMD_TCP ∧ command ≠ CMD_UDP ∧ command ≠ CMD_MUX) := by tauto
      have hmux : command ≠ CMD_MUX := by
        rcases hcommand with rfl | rfl <;> decide
      unfold parseTail at h
      dsimp only at h
      rw [if_neg hknown, if_neg hmux, if_pos (by omega)] at h
      cases h
      rw [List.length_append, length_encodeHead]
      refine ⟨rfl, by omega, fun more r n hok => ?_⟩
      rw [List.append_assoc, parseRequest_head _ _ _ haddons, parseTail_ok_iff] at hok
      obtain ⟨target, rest', -, -, -, rfl⟩ := hok
      obtain ⟨hi, lo, atyp, bs, hencode⟩ := exists_encodePortAddress target
      rw [encodeTail, if_neg hmux, hencode]
      simp only [List.length_cons]
      omega
  · unfold parseTail at h
    dsimp only at h
    by_cases hmux : command = CMD_MUX
    · rw [if_neg (by tauto), if_pos hmux] at h
      cases h
    · rw [if_pos (by tauto)] at h
      cases h

theorem contract_parseRequest_iff (input : Bytes) :
    Contract ParseError.incomplete parseRequest input ↔ ¬ EndsInAddress input := by
  refine ⟨fun hcontract hcut => not_contract_of_endsInAddress hcut hcontract, fun hcut => ?_⟩
  refine .of_format (fun _ _ _ => parseRequest_ok_iff) fun need have_ h => ?_
  by_cases hhead : byteAt input 0 = VLESS_VERSION ∧ 18 + (byteAt input 17).toNat + 1 ≤ input.length
  · obtain ⟨uuid, addons, command, rest, rfl, haddons⟩ := exists_encodeHead hhead.1 hhead.2
    rw [parseRequest_head _ _ _ haddons] at h
    exact short_of_head haddons hcut h
  · unfold parseRequest at h
    dsimp only at h
    by_cases hlen : input.length < 18
    · rw [if_pos hlen] at h
      cases h
      refine ⟨rfl, hlen, fun more r n hok => ?_⟩
      have hconsumed := consumed_parseRequest hok
      omega
    by_cases hversion : byteAt input 0 ≠ VLESS_VERSION
    · rw [if_neg hlen, if_pos hversion] at h
      cases h
    rw [if_neg hlen, if_neg hversion] at h
    by_cases hmax : (byteAt input 17).toNat > MAX_ADDONS
    · rw [if_pos hmax] at h
      cases h
    have hshort : input.length < 18 + (byteAt input 17).toNat + 1 := by
      by_contra hge
      exact hhead ⟨not_not.mp hversion, by omega⟩
    rw [if_neg hmax, if_pos hshort] at h
    cases h
    refine ⟨rfl, hshort, fun more r n hok => ?_⟩
    have hconsumed := consumed_parseRequest hok
    rwa [byteAt_append_left (by omega)] at hconsumed

/-- All six parsers keep the contract on an input if and only if it does not end, as a VLESS
    request, within the address of its target. -/
theorem contracts_iff (input : Bytes) :
    (Contract ParseError.incomplete parseRequest input ∧
      Contract ParseError.incomplete parsePortAddress input ∧
      Contract Socks5.ParseError.incomplete Socks5.parseGreeting input ∧
      Contract Socks5.ParseError.incomplete Socks5.parseAuth input ∧
      Contract Socks5.ParseError.incomplete Socks5.parseRequest input ∧
      Contract Socks5.ParseError.incomplete Socks5.parseUdpDatagram input) ↔
    ¬ EndsInAddress input := by
  rw [contract_parseRequest_iff]
  refine ⟨And.left, fun h => ⟨h, ?_⟩⟩
  exact ⟨contract_parsePortAddress input, Socks5.contract_parseGreeting input,
    Socks5.contract_parseAuth input, Socks5.contract_parseRequest input,
    Socks5.contract_parseUdpDatagram input⟩

theorem counts_from_command :
    let input := List.replicate 18 0 ++ [0x01, 0, 80, 0x01, 127]
    input.length = 23 ∧ parseRequest input = .error (.incomplete 7 4) ∧
      ¬ Contract ParseError.incomplete parseRequest input := by
  intro input
  have hparse : parseRequest input = .error (.incomplete 7 4) := by decide +kernel
  refine ⟨rfl, hparse, fun hcontract => ?_⟩
  obtain ⟨hhave, -⟩ := hcontract.short _ _ hparse
  cases hhave

end SkadiCore.Vless
