import SkadiCore.Common.Bytes

/-!
# Reading length-prefixed strings

A parser that keeps an offset into its buffer reads a string behind its length, of one or
of two bytes. Here the string is read off what is left of the buffer.

* `readCounted_eq_some_iff`, `readCounted16_eq_some_iff`: what is read is what was written.
* `readCounted_drop`, `readCounted16_drop`: the checks that the offset has to pass.
-/

namespace SkadiCore

def counted16 (l : Bytes) : Bytes := toBe16 (UInt16.ofNat l.length) ++ l

@[simp] theorem length_counted16 (l : Bytes) : (counted16 l).length = l.length + 2 := by
  rw [counted16, List.length_append, length_toBe16]
  omega

def readCounted : Bytes → Option (Bytes × Bytes)
  | n :: rest => if rest.length < n.toNat then none else some (rest.splitAt n.toNat)
  | [] => none

def readCounted16 : Bytes → Option (Bytes × Bytes)
  | hi :: lo :: rest =>
    if rest.length < (fromBe16 hi lo).toNat then none
    else some (rest.splitAt (fromBe16 hi lo).toNat)
  | _ => none

variable {buf input l rest : Bytes} {offset n : ℕ}

theorem splitAt_eq_iff (h : n ≤ input.length) :
    input.splitAt n = (l, rest) ↔ input = l ++ rest ∧ l.length = n := by
  rw [List.splitAt_eq, Prod.mk.injEq]
  constructor
  · rintro ⟨rfl, rfl⟩
    exact ⟨(List.take_append_drop n input).symm, List.length_take_of_le h⟩
  · rintro ⟨rfl, rfl⟩
    exact ⟨List.take_left, List.drop_left⟩

theorem readCounted_counted (h : l.length < 256) (rest : Bytes) :
    readCounted (counted l ++ rest) = some (l, rest) := by
  show readCounted (UInt8.ofNat l.length :: (l ++ rest)) = _
  rw [readCounted, toNat_ofNat_of_lt h, if_neg (by simp), (splitAt_eq_iff (by simp)).mpr ⟨rfl, rfl⟩]

theorem readCounted_eq_some_iff :
    readCounted input = some (l, rest) ↔ l.length < 256 ∧ input = counted l ++ rest := by
  constructor
  · intro h
    cases input with
    | nil => cases h
    | cons n tail =>
      obtain ⟨hle, h⟩ := Option.ite_none_left_eq_some.mp h
      obtain ⟨rfl, hlen⟩ := (splitAt_eq_iff (Nat.le_of_not_lt hle)).mp (Option.some.inj h)
      refine ⟨hlen ▸ n.toNat_lt, ?_⟩
      rw [← cons_eq_counted hlen]
      rfl
  · rintro ⟨hlen, rfl⟩
    exact readCounted_counted hlen rest

theorem readCounted16_counted16 (h : l.length < 65536) (rest : Bytes) :
    readCounted16 (counted16 l ++ rest) = some (l, rest) := by
  obtain ⟨hi, lo, hbytes, hvalue⟩ := exists_toBe16_ofNat h
  rw [counted16, hbytes]
  show readCounted16 (hi :: lo :: (l ++ rest)) = _
  rw [readCounted16, hvalue, if_neg (by simp), (splitAt_eq_iff (by simp)).mpr ⟨rfl, rfl⟩]

theorem cons_cons_eq_counted16 {hi lo : Byte} (h : l.length = (fromBe16 hi lo).toNat) :
    hi :: lo :: l = counted16 l := by
  rw [counted16, h, UInt16.ofNat_toNat, toBe16_fromBe16]
  rfl

theorem readCounted16_eq_some_iff :
    readCounted16 input = some (l, rest) ↔ l.length < 65536 ∧ input = counted16 l ++ rest := by
  constructor
  · intro h
    rcases input with _ | ⟨hi, _ | ⟨lo, tail⟩⟩
    · cases h
    · cases h
    · obtain ⟨hle, h⟩ := Option.ite_none_left_eq_some.mp h
      obtain ⟨rfl, hlen⟩ := (splitAt_eq_iff (Nat.le_of_not_lt hle)).mp (Option.some.inj h)
      refine ⟨hlen ▸ (fromBe16 hi lo).toNat_lt, ?_⟩
      rw [← cons_cons_eq_counted16 hlen]
      rfl
  · rintro ⟨hlen, rfl⟩
    exact readCounted16_counted16 hlen rest

theorem exists_readCounted (h : 256 ≤ input.length) :
    ∃ l rest, readCounted input = some (l, rest) ∧ input.length ≤ rest.length + 256 := by
  rcases input with _ | ⟨n, tail⟩
  · simp at h
  · have hn := n.toNat_lt
    simp only [List.length_cons] at h ⊢
    refine ⟨tail.take n.toNat, tail.drop n.toNat, ?_, ?_⟩
    · rw [readCounted, if_neg (by omega), List.splitAt_eq]
    · rw [List.length_drop]
      omega

theorem exists_readCounted16 (h : 65537 ≤ input.length) :
    ∃ l rest, readCounted16 input = some (l, rest) ∧ input.length ≤ rest.length + 65537 := by
  rcases input with _ | ⟨hi, _ | ⟨lo, tail⟩⟩
  · simp at h
  · simp at h
  · have hn := (fromBe16 hi lo).toNat_lt
    simp only [List.length_cons] at h ⊢
    refine ⟨tail.take (fromBe16 hi lo).toNat, tail.drop (fromBe16 hi lo).toNat, ?_, ?_⟩
    · rw [readCounted16, if_neg (by omega), List.splitAt_eq]
    · rw [List.length_drop]
      omega

/-! ## Behind an offset -/

theorem byteAt_append_left {i : ℕ} (h : i < input.length) (rest : Bytes) :
    byteAt (input ++ rest) i = byteAt input i := by
  simp [byteAt, List.getElem?_append_left h]

theorem drop_eq_byteAt_cons (h : offset < buf.length) :
    buf.drop offset = byteAt buf offset :: buf.drop (offset + 1) := by
  rw [List.drop_eq_getElem_cons h, byteAt, List.getD_eq_getElem?_getD, List.getElem?_eq_getElem h,
    Option.getD_some]

theorem byteAt_cons_slice {b : ℕ} (h : offset < buf.length) (hb : offset < b) :
    byteAt buf offset :: slice buf (offset + 1) b = slice buf offset b := by
  rw [slice, slice, drop_eq_byteAt_cons h, show b - offset = b - (offset + 1) + 1 by omega,
    List.take_succ_cons]

theorem slice_append_slice (buf : Bytes) {a b c : ℕ} (hab : a ≤ b) (hbc : b ≤ c) :
    slice buf a b ++ slice buf b c = slice buf a c := by
  have hdrop : buf.drop b = (buf.drop a).drop (b - a) := by
    rw [List.drop_drop, Nat.add_sub_cancel' hab]
  rw [slice, slice, slice, hdrop, show c - a = (b - a) + (c - b) by omega, List.take_add]

theorem slice_append_drop (buf : Bytes) (n : ℕ) : slice buf 0 n ++ buf.drop n = buf :=
  List.take_append_drop n buf

theorem length_slice {a b : ℕ} (h : b ≤ buf.length) : (slice buf a b).length = b - a := by
  rw [slice, List.length_take, List.length_drop]
  omega

theorem take_slice {a b : ℕ} (h : a + n ≤ b) : (slice buf a b).take n = slice buf a (a + n) := by
  rw [slice, slice, List.take_take, Nat.min_eq_left (by omega), Nat.add_sub_cancel_left]

theorem drop_slice {a b : ℕ} : (slice buf a b).drop n = slice buf (a + n) b := by
  rw [slice, slice, List.drop_take, List.drop_drop, Nat.sub_sub]

theorem splitAt_drop (buf : Bytes) (offset n : ℕ) :
    (buf.drop offset).splitAt n = (slice buf offset (offset + n), buf.drop (offset + n)) := by
  rw [List.splitAt_eq, slice, Nat.add_sub_cancel_left, List.drop_drop]

theorem readCounted_drop (buf : Bytes) (offset : ℕ) :
    readCounted (buf.drop offset) =
      if offset ≥ buf.length then none
      else if offset + 1 + (byteAt buf offset).toNat > buf.length then none
      else some (slice buf (offset + 1) (offset + 1 + (byteAt buf offset).toNat),
        buf.drop (offset + 1 + (byteAt buf offset).toNat)) := by
  by_cases hlt : offset ≥ buf.length
  · rw [if_pos hlt, List.drop_eq_nil_of_le hlt]
    rfl
  · rw [if_neg hlt, drop_eq_byteAt_cons (by omega), readCounted, splitAt_drop, List.length_drop]
    exact if_congr (by omega) rfl rfl

theorem readCounted16_drop (buf : Bytes) (offset : ℕ) :
    readCounted16 (buf.drop offset) =
      if offset + 2 > buf.length then none
      else if offset + 2 + (fromBe16 (byteAt buf offset) (byteAt buf (offset + 1))).toNat >
        buf.length then none
      else some (slice buf (offset + 2)
          (offset + 2 + (fromBe16 (byteAt buf offset) (byteAt buf (offset + 1))).toNat),
        buf.drop
          (offset + 2 + (fromBe16 (byteAt buf offset) (byteAt buf (offset + 1))).toNat)) := by
  by_cases hlt : offset + 2 > buf.length
  · rw [if_pos hlt]
    have hshort : (buf.drop offset).length < 2 := by
      rw [List.length_drop]
      omega
    generalize buf.drop offset = rest at hshort
    rcases rest with _ | ⟨hi, _ | ⟨lo, tail⟩⟩
    · rfl
    · rfl
    · simp at hshort
  · rw [if_neg hlt, drop_eq_byteAt_cons (by omega), drop_eq_byteAt_cons (by omega), readCounted16,
      splitAt_drop, List.length_drop]
    exact if_congr (by omega) rfl rfl

end SkadiCore
