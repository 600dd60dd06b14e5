import SkadiCore.Vless.Handler

/-!
# DNS over TLS

Model of `DotConfig::query` behind its TLS handshake, with `encode_dot_frame` and
`read_dot_frame` (`crates/skadi-client/src/dot.rs`, lines 32-68 and 106-133). The stream is the
plaintext of the TLS connection.

* `readDotFrame_ok_iff`: `read_dot_frame` inverts `encode_dot_frame`, and takes nothing else.
  Its check for more than 65536 bytes never fails.
* `dot_exchange`: what an upstream must send for an answer, and what it gets.
-/

namespace SkadiCore.Client

open Conn
open Vless (ClientM EARLY_EOF)

/-- `encode_dot_frame` (lines 106-111). -/
def encodeDotFrame (query : Bytes) : Bytes :=
  UInt8.ofNat (query.length >>> 8) :: UInt8.ofNat (query.length &&& 0xff) :: query

def dotLen (hi lo : Byte) : ℕ := hi.toNat <<< 8 ||| lo.toNat

/-- `read_dot_frame` (lines 113-133). -/
def readDotFrame : ClientM Bytes := do
  let lenBuf ← context (readExact 2 EARLY_EOF) "DoT response length EOF"
  let len := dotLen (byteAt lenBuf 0) (byteAt lenBuf 1)
  if len = 0 then fail "empty DoT response"
  else if len > 65536 then fail "DoT response too large"
  else context (readExact len EARLY_EOF) "DoT response body EOF"

/-- `DotConfig::query` (lines 32-68), over a connection whose handshakes are done. -/
def dotQuery (query : Bytes) : ClientM Bytes :=
  if query.isEmpty then fail "empty DNS query"
  else if query.length > 65535 then fail "DNS query too large for DoT"
  else do
    context (writeAll (encodeDotFrame query)) "DoT query write failed"
    context readDotFrame "DoT response read failed"

theorem dotLen_eq (hi lo : Byte) : dotLen hi lo = hi.toNat * 256 + lo.toNat := by
  rw [dotLen, ← Nat.shiftLeft_add_eq_or_of_lt lo.toNat_lt, Nat.shiftLeft_eq]

theorem cons_eq_encodeDotFrame_iff {hi lo : Byte} {bs : Bytes} (h : bs.length < 65536) :
    hi :: lo :: bs = encodeDotFrame bs ↔ dotLen hi lo = bs.length := by
  have hhi := hi.toNat_lt
  have hlo := lo.toNat_lt
  have hand : bs.length &&& 0xff = bs.length % 256 := Nat.and_two_pow_sub_one_eq_mod _ 8
  rw [encodeDotFrame, dotLen_eq, hand, Nat.shiftRight_eq_div_pow]
  simp only [List.cons.injEq, and_true, ← UInt8.toNat_inj, UInt8.toNat_ofNat']
  omega

variable {c c' : Conn Byte String} {query response : Bytes}

theorem readDotFrame_ok_iff (hc : c.faults = []) : Ok readDotFrame c response c' ↔
    response ≠ [] ∧ response.length < 65536 ∧ Takes c c' 0 (encodeDotFrame response) [] := by
  simp only [readDotFrame, ok_bind, ok_ite, ok_fail, ok_context, and_false, false_or,
    ok_readExact_of_faults_nil hc]
  constructor
  · rintro ⟨lenBuf, c₁, ⟨hlen, h₁⟩, hpos, -, h₂⟩
    obtain ⟨hi, lo, rfl⟩ := List.length_eq_two.mp hlen
    rw [ok_readExact_of_faults_nil (h₁.faults_nil hc)] at h₂
    obtain ⟨hbody, h₂⟩ := h₂
    have hlt : response.length < 65536 := by
      have hhi := hi.toNat_lt
      have hlo := lo.toNat_lt
      rw [hbody, byteAt_cons_zero, byteAt_cons_one, dotLen_eq]
      omega
    refine ⟨by rintro rfl; exact hpos hbody.symm, hlt, ?_⟩
    rw [← (cons_eq_encodeDotFrame_iff hlt).mpr hbody.symm]
    exact h₁.trans h₂
  · rintro ⟨hne, hlt, htake⟩
    obtain ⟨hi, lo, hframe⟩ : ∃ hi lo, hi :: lo :: response = encodeDotFrame response :=
      ⟨_, _, rfl⟩
    have hbody := (cons_eq_encodeDotFrame_iff hlt).mp hframe
    rw [← hframe] at htake
    obtain ⟨c₁, h₁, h₂⟩ := Takes.split_reads 0 0
      (show Takes c c' 0 ([hi, lo] ++ response) [] from htake)
    refine ⟨[hi, lo], c₁, ⟨rfl, h₁⟩, ?_, ?_, ?_⟩
    · rw [byteAt_cons_zero, byteAt_cons_one, hbody]
      exact fun h => hne (List.length_eq_zero_iff.mp h)
    · rw [byteAt_cons_zero, byteAt_cons_one, hbody]
      omega
    · rw [byteAt_cons_zero, byteAt_cons_one, ok_readExact_of_faults_nil (h₁.faults_nil hc)]
      exact ⟨hbody.symm, h₂⟩

/-- For every query, and every stream in any segments: the query is answered exactly if
    neither it nor the response is empty or longer than 65535 bytes and the stream begins
    with the frame of the response; what follows the frame is left. Whoever reads frames on the
    other side gets exactly the query. -/
theorem dot_exchange (query : Bytes) (segs : List Bytes) (eof : Bool) (response : Bytes)
    (c' : Conn Byte String) :
    Ok (dotQuery query) (arriving segs eof []) response c' ↔
      (query ≠ [] ∧ query.length < 65536) ∧ (response ≠ [] ∧ response.length < 65536) ∧
        (∃ rest, segs.flatten = encodeDotFrame response ++ rest ∧
          c' = ⟨rest, eof, encodeDotFrame query, []⟩) ∧
        ∀ more eof', Ok readDotFrame (arriving [c'.output, more] eof' []) query
          (arriving [more] eof' []) := by
  simp only [dotQuery, ok_ite, ok_fail, ok_bind, ok_context, and_false, false_or,
    List.isEmpty_iff, Nat.not_lt, Nat.lt_succ_iff, and_assoc, ok_writeAll_of_faults_nil
    (show (arriving segs eof [] : Conn Byte String).faults = [] from rfl)]
  refine and_congr_right fun hquery => and_congr_right fun hlen => ?_
  constructor
  · rintro ⟨-, c₁, hwrite, hread⟩
    rw [readDotFrame_ok_iff (hwrite.faults_nil rfl)] at hread
    obtain ⟨hne, hlt, hread⟩ := hread
    have hboth := hwrite.trans hread
    have houtput : c'.output = encodeDotFrame query := by simpa [arriving] using hboth.output
    refine ⟨hne, Nat.lt_succ_iff.mp hlt, ⟨c'.input, hboth.input, ?_⟩, fun more eof' => ?_⟩
    · rw [hboth.eq]
      simp [arriving]
    · rw [houtput, readDotFrame_ok_iff rfl]
      exact ⟨hquery, Nat.lt_succ_iff.mpr hlen, by simp, by simp [arriving], rfl, rfl, rfl⟩
  · rintro ⟨hne, hlt, ⟨rest, hsegs, rfl⟩, -⟩
    refine ⟨(), ⟨segs.flatten, eof, encodeDotFrame query, []⟩,
      ⟨by simp, rfl, rfl, rfl, rfl⟩, ?_⟩
    rw [readDotFrame_ok_iff rfl]
    exact ⟨hne, Nat.lt_succ_iff.mpr hlt, by simp, hsegs, rfl, by simp, rfl⟩

end SkadiCore.Client
