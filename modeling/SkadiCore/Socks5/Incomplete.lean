import SkadiCore.Common.Contract
import SkadiCore.Common.Counted
import SkadiCore.Socks5.Parse

/-!
# Partial SOCKS5 messages

The parsers of `crates/skadi-protocol/src/socks5/parse.rs` on input that is not complete. Every
length is read from bytes that are there, so that an extension of the input has the
same length.

* `contract_parseGreeting`, `contract_parseAuth`, `contract_parseRequest`,
  `contract_parseUdpDatagram`: the four parsers keep the contract on every input.
-/

namespace SkadiCore.Socks5

variable {input more : Bytes} {need have_ n offset : ℕ} {atyp : Byte} {target : Endpoint}

/-! ## Greeting and authentication -/

theorem consumed_parseGreeting {methods : Bytes} (h : parseGreeting input = .ok (methods, n)) :
    n = 2 + (byteAt input 1).toNat := by
  unfold parseGreeting at h
  dsimp only at h
  split_ifs at h
  cases h
  rfl

theorem contract_parseGreeting (input : Bytes) :
    Contract ParseError.incomplete parseGreeting input := by
  refine .of_format (fun _ _ _ => parseGreeting_ok_iff) fun need have_ h => ?_
  unfold parseGreeting at h
  dsimp only at h
  split_ifs at h with hlen hversion hzero hmax htotal <;> cases h
  · refine ⟨rfl, hlen, fun more methods n hok => ?_⟩
    rw [consumed_parseGreeting hok]
    omega
  · refine ⟨rfl, htotal, fun more methods n hok => ?_⟩
    rw [consumed_parseGreeting hok, byteAt_append_left (by omega)]

theorem consumed_parseAuth {r : String × String} (h : parseAuth input = .ok (r, n)) :
    n = 2 + (byteAt input 1).toNat + 1 + (byteAt input (2 + (byteAt input 1).toNat)).toNat := by
  unfold parseAuth at h
  dsimp only at h
  split_ifs at h
  split at h
  · cases h
  · split at h
    · cases h
    · cases h
      rfl

theorem contract_parseAuth (input : Bytes) : Contract ParseError.incomplete parseAuth input := by
  have hformat (input : Bytes) (r : String × String) (n : ℕ) : parseAuth input = .ok (r, n) ↔
      ∃ rest, input = encodeAuth r.1 r.2 ++ rest ∧ (FieldOk r.1 ∧ FieldOk r.2) ∧
        n = (encodeAuth r.1 r.2).length := by
    simp only [and_assoc]
    exact parseAuth_ok_iff
  refine .of_format hformat fun need have_ h => ?_
  unfold parseAuth at h
  dsimp only at h
  split_ifs at h with hlen hversion hzero huname hzero' htotal
  · cases h
    refine ⟨rfl, hlen, fun more r n hok => ?_⟩
    rw [consumed_parseAuth hok]
    omega
  · cases h
  · cases h
  · cases h
    refine ⟨rfl, huname, fun more r n hok => ?_⟩
    rw [consumed_parseAuth hok, byteAt_append_left (i := 1) (by omega)]
    omega
  · cases h
  · cases h
    refine ⟨rfl, htotal, fun more r n hok => ?_⟩
    rw [consumed_parseAuth hok, byteAt_append_left (i := 1) (by omega),
      byteAt_append_left (by omega)]
  · split at h
    · cases h
    · split at h <;> cases h

/-! ## Targets -/

def targetEnd (input : Bytes) (atyp : Byte) (offset : ℕ) : ℕ :=
  if atyp = ATYP_IPV4 then offset + 4 + 2
  else if atyp = ATYP_IPV6 then offset + 16 + 2
  else offset + 1 + (byteAt input offset).toNat + 2

theorem offset_lt_targetEnd (input : Bytes) (atyp : Byte) (offset : ℕ) :
    offset < targetEnd input atyp offset := by
  unfold targetEnd
  split_ifs <;> omega

theorem targetEnd_append (h : offset < input.length) :
    targetEnd (input ++ more) atyp offset = targetEnd input atyp offset := by
  unfold targetEnd
  rw [byteAt_append_left h]

theorem consumed_parseTarget (h : parseTarget input atyp offset = .ok (target, n)) :
    n = targetEnd input atyp offset := by
  unfold parseTarget at h
  unfold targetEnd
  dsimp only at h
  split_ifs at h ⊢ <;> try cases h; rfl
  split at h <;> cases h
  rfl

theorem incomplete_parseTarget
    (h : parseTarget input atyp offset = .error (.incomplete need have_)) :
    have_ = input.length ∧ input.length < need ∧
      ∀ more, need ≤ targetEnd (input ++ more) atyp offset := by
  unfold parseTarget at h
  dsimp only at h
  split_ifs at h with hv4 hlen hv6 hlen hdomain hlen hzero htotal
  · cases h
    refine ⟨rfl, hlen, fun more => ?_⟩
    rw [targetEnd, if_pos hv4]
  · cases h
    refine ⟨rfl, hlen, fun more => ?_⟩
    rw [targetEnd, if_neg hv4, if_pos hv6]
  · cases h
    exact ⟨rfl, hlen, fun more => offset_lt_targetEnd ..⟩
  · cases h
  · cases h
    refine ⟨rfl, htotal, fun more => ?_⟩
    rw [targetEnd_append (by omega), targetEnd, if_neg hv4, if_neg hv6]
  · split at h <;> cases h
  · cases h

/-! ## Requests and datagrams -/

theorem consumed_parseRequest {r : Socks5Request} (h : parseRequest input = .ok (r, n)) :
    n = targetEnd input (byteAt input 3) 4 := by
  unfold parseRequest at h
  dsimp only at h
  split_ifs at h
  split at h
  · cases h
  · next heq =>
    cases h
    exact consumed_parseTarget heq

theorem contract_parseRequest (input : Bytes) :
    Contract ParseError.incomplete parseRequest input := by
  have hformat (input : Bytes) (r : Socks5Request) (n : ℕ) : parseRequest input = .ok (r, n) ↔
      ∃ rest, input = encodeRequest r ++ rest ∧ (CommandOk r.command ∧ TargetOk r.target) ∧
        n = (encodeRequest r).length := by
    simp only [and_assoc]
    exact parseRequest_ok_iff
  refine .of_format hformat fun need have_ h => ?_
  unfold parseRequest at h
  dsimp only at h
  split_ifs at h with hlen hversion hrsv hcommand
  · cases h
    refine ⟨rfl, hlen, fun more r n hok => ?_⟩
    rw [consumed_parseRequest hok]
    exact (offset_lt_targetEnd ..).le
  · cases h
  · cases h
  · cases h
  · split at h
    · next e heq =>
      cases h
      obtain ⟨hhave, hlt, hneed⟩ := incomplete_parseTarget heq
      refine ⟨hhave, hlt, fun more r n hok => ?_⟩
      rw [consumed_parseRequest hok, byteAt_append_left (by omega)]
      exact hneed more
    · cases h

def encodeUdpHeader (target : Endpoint) : Bytes := [0, 0, 0] ++ encodeTarget target

theorem parseUdpDatagram_ok_iff : parseUdpDatagram input = .ok (target, n) ↔
    ∃ rest, input = encodeUdpHeader target ++ rest ∧ TargetOk target ∧
      n = (encodeUdpHeader target).length := by
  rcases input with - | ⟨r₁, - | ⟨r₂, - | ⟨frag, - | ⟨atyp, l⟩⟩⟩⟩
  case cons.cons.cons.cons =>
    have htarget : parseTarget (r₁ :: r₂ :: frag :: atyp :: l) atyp 4 = .ok (target, n) ↔ _ :=
      parseTarget_ok_iff [r₁, r₂, frag, atyp] l atyp
    have hlen : ¬ (r₁ :: r₂ :: frag :: atyp :: l).length < 4 := by
      simp only [List.length_cons]
      omega
    have hparse : parseUdpDatagram (r₁ :: r₂ :: frag :: atyp :: l) =
        if r₁ ≠ 0 ∨ r₂ ≠ 0 then .error (.nonZeroRsv r₁)
        else if frag ≠ 0 then .error (.unsupportedCommand frag)
        else parseTarget (r₁ :: r₂ :: frag :: atyp :: l) atyp 4 := by
      rw [parseUdpDatagram, if_neg hlen]
      rfl
    rw [hparse]
    constructor
    · intro h
      split_ifs at h with hrsv hfrag
      push Not at hrsv hfrag
      obtain ⟨⟨rfl, rfl⟩, rfl⟩ := And.intro hrsv hfrag
      obtain ⟨rest, heq, hok, hn⟩ := htarget.mp h
      refine ⟨rest, by rw [heq]; rfl, hok, ?_⟩
      simp only [List.length_cons, List.length_nil] at hn
      simp only [encodeUdpHeader, List.length_append, List.length_cons, List.length_nil]
      omega
    · rintro ⟨rest, heq, hok, rfl⟩
      simp only [encodeUdpHeader, List.cons_append, List.nil_append, List.cons.injEq] at heq
      obtain ⟨rfl, rfl, rfl, heq⟩ := heq
      rw [if_neg (by simp), if_neg (by simp)]
      exact htarget.mpr ⟨rest, heq, hok, by simp [encodeUdpHeader]; omega⟩
  all_goals
    simp [parseUdpDatagram, encodeUdpHeader, encodeTarget_ne_nil]

theorem consumed_parseUdpDatagram (h : parseUdpDatagram input = .ok (target, n)) :
    n = targetEnd input (byteAt input 3) 4 := by
  unfold parseUdpDatagram at h
  split_ifs at h
  exact consumed_parseTarget h

theorem contract_parseUdpDatagram (input : Bytes) :
    Contract ParseError.incomplete parseUdpDatagram input := by
  refine .of_format (fun _ _ _ => parseUdpDatagram_ok_iff) fun need have_ h => ?_
  unfold parseUdpDatagram at h
  split_ifs at h with hlen hrsv hfrag
  · cases h
    refine ⟨rfl, hlen, fun more r n hok => ?_⟩
    rw [consumed_parseUdpDatagram hok]
    exact (offset_lt_targetEnd ..).le
  · cases h
  · cases h
  · obtain ⟨hhave, hlt, hneed⟩ := incomplete_parseTarget h
    refine ⟨hhave, hlt, fun more r n hok => ?_⟩
    rw [consumed_parseUdpDatagram hok, byteAt_append_left (by omega)]
    exact hneed more

end SkadiCore.Socks5
