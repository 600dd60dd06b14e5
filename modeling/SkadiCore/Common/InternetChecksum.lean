import SkadiCore.Common.Bytes

/-!
# One's complement sums

The sum of the 16-bit words of a byte string, where a carry out of the 16 bits is added back
at the low end. A byte string that carries its own checksum verifies if this sum is all ones.

* `verifies_iff`: this is divisibility by 65535.
-/

namespace SkadiCore

def wordSum : Bytes → ℕ
  | hi :: lo :: rest => (fromBe16 hi lo).toNat + wordSum rest
  | [hi] => hi.toNat * 256
  | [] => 0

def addCarries (sum : ℕ) : ℕ :=
  if sum / 65536 = 0 then sum else addCarries (sum % 65536 + sum / 65536)
termination_by sum

def onesSum (data : Bytes) : UInt16 := UInt16.ofNat (addCarries (wordSum data))

/-- The ones' complement sum, checksum included, is all ones (RFC 1071). -/
def Verifies (data : Bytes) : Prop := (onesSum data).toNat = 65535

theorem addCarries_lt (sum : ℕ) : addCarries sum < 65536 := by
  induction sum using addCarries.induct with
  | case1 sum h =>
    rw [addCarries, if_pos h]
    omega
  | case2 sum h ih =>
    rw [addCarries, if_neg h]
    exact ih

theorem addCarries_mod (sum : ℕ) : addCarries sum % 65535 = sum % 65535 := by
  induction sum using addCarries.induct with
  | case1 sum h => rw [addCarries, if_pos h]
  | case2 sum h ih =>
    rw [addCarries, if_neg h, ih]
    omega

theorem addCarries_eq_zero_iff (sum : ℕ) : addCarries sum = 0 ↔ sum = 0 := by
  induction sum using addCarries.induct with
  | case1 sum h => rw [addCarries, if_pos h]
  | case2 sum h ih =>
    rw [addCarries, if_neg h, ih]
    omega

theorem toNat_onesSum (data : Bytes) : (onesSum data).toNat = addCarries (wordSum data) := by
  have hlt := addCarries_lt (wordSum data)
  rw [onesSum, UInt16.toNat_ofNat']
  omega

theorem verifies_iff (data : Bytes) :
    Verifies data ↔ 0 < wordSum data ∧ wordSum data % 65535 = 0 := by
  have hlt := addCarries_lt (wordSum data)
  have hmod := addCarries_mod (wordSum data)
  have hzero := addCarries_eq_zero_iff (wordSum data)
  rw [Verifies, toNat_onesSum]
  omega

theorem wordSum_append {pre : Bytes} (post : Bytes) (h : pre.length % 2 = 0) :
    wordSum (pre ++ post) = wordSum pre + wordSum post := by
  induction pre using wordSum.induct with
  | case1 hi lo rest ih =>
    simp only [List.length_cons] at h
    simp only [List.cons_append, wordSum, ih (by omega)]
    omega
  | case2 => simp at h
  | case3 => simp [wordSum]

theorem wordSum_toBe16 (x : UInt16) (post : Bytes) :
    wordSum (toBe16 x ++ post) = x.toNat + wordSum post := by
  obtain ⟨hi, lo, hbytes, hvalue⟩ := exists_toBe16 x
  rw [hbytes, ← hvalue]
  rfl

theorem verifies_overwrite_iff {pre post : Bytes} (x : UInt16) (h : pre.length % 2 = 0)
    (hpre : 0 < wordSum pre) :
    Verifies (pre ++ (toBe16 (~~~onesSum (pre ++ (toBe16 x ++ post))) ++ post)) ↔
      x.toNat % 65535 = 0 := by
  have hmod := addCarries_mod (wordSum pre + (x.toNat + wordSum post))
  have hlt := addCarries_lt (wordSum pre + (x.toNat + wordSum post))
  have hsize : UInt16.size = 65536 := rfl
  rw [verifies_iff, wordSum_append _ h, wordSum_toBe16, UInt16.toNat_not, toNat_onesSum,
    wordSum_append _ h, wordSum_toBe16]
  omega

end SkadiCore
