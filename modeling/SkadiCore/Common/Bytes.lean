import Mathlib.Data.Vector.Basic
import Mathlib.Tactic

/-!
# Byte strings

Byte strings are lists of `UInt8`. `&input[a..b]` is `slice input a b`; the code
takes it only within bounds, so the total version agrees with it. Fixed-size
arrays `[u8; n]` are `List.Vector`s, which carry their length.

* `fromBe16_toBe16`, `toBe16_fromBe16`: `u16::from_be_bytes` and
  `u16::to_be_bytes` are inverse.
* `fromUtf8_eq_some_iff`: `str::from_utf8` accepts exactly the encodings of
  strings.
-/

namespace SkadiCore

abbrev Byte := UInt8

abbrev Bytes := List Byte

def byteAt (input : Bytes) (i : ℕ) : Byte := input.getD i 0

def slice (input : Bytes) (a b : ℕ) : Bytes := (input.drop a).take (b - a)

def toArray (n : ℕ) (l : Bytes) : List.Vector Byte n :=
  ⟨l.takeD n 0, List.takeD_length n l 0⟩

@[simp] theorem byteAt_cons_zero (b : Byte) (l : Bytes) : byteAt (b :: l) 0 = b := rfl

@[simp] theorem byteAt_cons_one (a b : Byte) (l : Bytes) : byteAt (a :: b :: l) 1 = b := rfl

@[simp] theorem byteAt_cons_two (a b c : Byte) (l : Bytes) : byteAt (a :: b :: c :: l) 2 = c := rfl

@[simp] theorem byteAt_cons_three (a b c d : Byte) (l : Bytes) :
    byteAt (a :: b :: c :: d :: l) 3 = d := rfl

theorem byteAt_drop (l : Bytes) (i j : ℕ) : byteAt (l.drop i) j = byteAt l (i + j) := by
  simp [byteAt]

theorem byteAt_append (pre post : Bytes) (b : Byte) {i : ℕ} (hi : i = pre.length) :
    byteAt (pre ++ b :: post) i = b := by
  simp [byteAt, hi]

theorem slice_append (pre mid post : Bytes) {a b : ℕ} (ha : a = pre.length)
    (hb : b = a + mid.length) : slice (pre ++ (mid ++ post)) a b = mid := by
  simp [slice, ha, hb]

variable {l : Bytes}

theorem slice_append_left (r : Bytes) {a b : ℕ} (hb : b ≤ l.length) :
    slice (l ++ r) a b = slice l a b := by
  rw [slice, slice, ← List.drop_take, ← List.drop_take, List.take_append_of_le_length hb]

variable {n : ℕ}

theorem exists_append (h : n ≤ l.length) : ∃ a b, l = a ++ b ∧ a.length = n :=
  ⟨l.take n, l.drop n, by simp, by simpa using h⟩

@[simp]
theorem toArray_self (v : List.Vector Byte n) : toArray n v.val = v := by
  apply Subtype.ext
  simp only [toArray]
  rw [List.takeD_eq_take 0 v.property.ge]
  exact List.take_of_length_le v.property.le

theorem toArray_val (h : l.length = n) : (toArray n l).val = l := by
  simp only [toArray]
  rw [List.takeD_eq_take 0 (by omega), ← h, List.take_length]

theorem length_append_iff {field rest : Bytes} (h : field.length = n) :
    (field ++ rest).length = n ↔ rest = [] := by
  rw [List.length_append, h, ← List.length_eq_zero_iff]
  omega

def hex02 (b : Byte) : String :=
  String.ofList [(b.toNat / 16).digitChar, (b.toNat % 16).digitChar]

/-! ## Length-prefixed strings -/

def counted (l : Bytes) : Bytes := UInt8.ofNat l.length :: l

@[simp] theorem length_counted (l : Bytes) : (counted l).length = l.length + 1 := rfl

theorem toNat_ofNat_of_lt (h : n < 256) : (UInt8.ofNat n).toNat = n := by
  simp only [UInt8.toNat_ofNat']
  omega

theorem cons_eq_counted {b : Byte} (h : l.length = b.toNat) : b :: l = counted l := by
  simp [counted, h]

theorem counted_append_inj {l l' r r' : Bytes} (hl : l.length < 256) (hl' : l'.length < 256)
    (h : counted l ++ r = counted l' ++ r') : l = l' ∧ r = r' := by
  simp only [counted, List.cons_append, List.cons.injEq] at h
  have hlen := congrArg UInt8.toNat h.1
  rw [toNat_ofNat_of_lt hl, toNat_ofNat_of_lt hl'] at hlen
  exact List.append_inj h.2 hlen

/-! ## Big-endian integers -/

def fromBe16 (hi lo : Byte) : UInt16 := UInt16.ofNat (hi.toNat * 256 + lo.toNat)

def toBe16 (x : UInt16) : Bytes := [UInt8.ofNat (x.toNat / 256), UInt8.ofNat (x.toNat % 256)]

@[simp] theorem length_toBe16 (x : UInt16) : (toBe16 x).length = 2 := rfl

theorem toNat_fromBe16 (hi lo : Byte) : (fromBe16 hi lo).toNat = hi.toNat * 256 + lo.toNat := by
  have h1 := hi.toNat_lt
  have h2 := lo.toNat_lt
  simp only [fromBe16, UInt16.toNat_ofNat']
  omega

theorem fromBe16_toBe16 (x : UInt16) :
    fromBe16 (byteAt (toBe16 x) 0) (byteAt (toBe16 x) 1) = x := by
  have hx := x.toNat_lt
  apply UInt16.toNat_inj.mp
  rw [toNat_fromBe16]
  simp only [toBe16, byteAt, List.getD_cons_zero, List.getD_cons_succ, UInt8.toNat_ofNat']
  omega

theorem toBe16_fromBe16 (hi lo : Byte) : toBe16 (fromBe16 hi lo) = [hi, lo] := by
  have h1 := hi.toNat_lt
  have h2 := lo.toNat_lt
  simp only [toBe16, toNat_fromBe16, List.cons.injEq, and_true]
  constructor <;> apply UInt8.toNat_inj.mp <;> simp only [UInt8.toNat_ofNat'] <;> omega

theorem exists_toBe16 (x : UInt16) : ∃ hi lo, toBe16 x = [hi, lo] ∧ fromBe16 hi lo = x :=
  ⟨_, _, rfl, fromBe16_toBe16 x⟩

theorem exists_toBe16_ofNat (h : n < 65536) :
    ∃ hi lo, toBe16 (UInt16.ofNat n) = [hi, lo] ∧ (fromBe16 hi lo).toNat = n := by
  obtain ⟨hi, lo, hbytes, hvalue⟩ := exists_toBe16 (UInt16.ofNat n)
  refine ⟨hi, lo, hbytes, ?_⟩
  rw [hvalue, UInt16.toNat_ofNat']
  omega

def toBe32 (x : UInt32) : Bytes :=
  [UInt8.ofNat (x.toNat / 2 ^ 24), UInt8.ofNat (x.toNat / 2 ^ 16), UInt8.ofNat (x.toNat / 2 ^ 8),
    UInt8.ofNat x.toNat]

@[simp] theorem length_toBe32 (x : UInt32) : (toBe32 x).length = 4 := rfl

/-! ## UTF-8 -/

def asBytes (s : String) : Bytes := s.toByteArray.data.toList

def fromUtf8 (b : Bytes) : Option String := String.fromUTF8? ⟨b.toArray⟩

theorem fromUtf8_eq_some_iff {b : Bytes} {s : String} : fromUtf8 b = some s ↔ asBytes s = b := by
  unfold fromUtf8 String.fromUTF8? asBytes
  constructor
  · intro h
    split_ifs at h with hv
    rw [← Option.some.inj h]
    rfl
  · rintro rfl
    have hs : (⟨s.toByteArray.data.toList.toArray⟩ : ByteArray) = s.toByteArray := rfl
    rw [dif_pos (by rw [hs]; exact s.isValidUTF8)]
    rfl

@[simp] theorem fromUtf8_asBytes (s : String) : fromUtf8 (asBytes s) = some s :=
  fromUtf8_eq_some_iff.mpr rfl

theorem asBytes_injective : Function.Injective asBytes := by
  intro s t h
  have := fromUtf8_asBytes s
  rw [h, fromUtf8_asBytes] at this
  exact (Option.some.inj this).symm

/-! ## Text -/

def isWhitespace (c : Char) : Bool :=
  let n := c.toNat
  n == 0x20 || (0x09 ≤ n && n ≤ 0x0d) || n == 0x85 || n == 0xa0 || n == 0x1680 ||
    (0x2000 ≤ n && n ≤ 0x200a) || n == 0x2028 || n == 0x2029 || n == 0x202f || n == 0x205f ||
    n == 0x3000

def trim (s : String) : String :=
  .ofList ((s.toList.dropWhile isWhitespace).reverse.dropWhile isWhitespace).reverse

def toAsciiLowercase (s : String) : String := .ofList (s.toList.map Char.toLower)

end SkadiCore
