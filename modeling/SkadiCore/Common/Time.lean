import Mathlib.Tactic

/-!
# Instants and durations

`std::time::Duration` and `std::time::Instant`, in nanoseconds. A duration counts its
seconds in a `u64`. An instant counts them in an `i64`; the monotonic clock never shows a
negative one. `Instant + Duration` panics where the sum does not fit, so it is partial here.
-/

namespace SkadiCore

def NANOS_PER_SEC : ℕ := 1000000000

structure Duration where
  nanos : ℕ
  bounded : nanos < 2 ^ 64 * NANOS_PER_SEC
  deriving DecidableEq

structure Instant where
  nanos : ℕ
  bounded : nanos < 2 ^ 63 * NANOS_PER_SEC
  deriving DecidableEq

namespace Duration

instance : LT Duration := ⟨fun d e => d.nanos < e.nanos⟩

instance (d e : Duration) : Decidable (d < e) := inferInstanceAs (Decidable (d.nanos < e.nanos))

def MAX : Duration := ⟨2 ^ 64 * NANOS_PER_SEC - 1, by decide⟩

def fromSecs (secs : UInt64) : Duration :=
  ⟨secs.toNat * NANOS_PER_SEC, Nat.mul_lt_mul_of_pos_right secs.toNat_lt (by decide)⟩

def saturatingMul (d : Duration) (n : ℕ) : Duration :=
  if h : d.nanos * n < 2 ^ 64 * NANOS_PER_SEC then ⟨d.nanos * n, h⟩ else MAX

def min (d e : Duration) : Duration := if e < d then e else d

end Duration

namespace Instant

instance : LE Instant := ⟨fun t u => t.nanos ≤ u.nanos⟩

instance : LT Instant := ⟨fun t u => t.nanos < u.nanos⟩

instance (t u : Instant) : Decidable (t ≤ u) := inferInstanceAs (Decidable (t.nanos ≤ u.nanos))

instance (t u : Instant) : Decidable (t < u) := inferInstanceAs (Decidable (t.nanos < u.nanos))

def ofSecs (secs : ℕ) (h : secs < 2 ^ 63 := by decide) : Instant :=
  ⟨secs * NANOS_PER_SEC, Nat.mul_lt_mul_of_pos_right h (by decide)⟩

def durationSince (t earlier : Instant) : Duration :=
  ⟨t.nanos - earlier.nanos, by have := t.bounded; unfold NANOS_PER_SEC at *; omega⟩

def add (t : Instant) (d : Duration) : Option Instant :=
  if h : t.nanos + d.nanos < 2 ^ 63 * NANOS_PER_SEC then some ⟨t.nanos + d.nanos, h⟩ else none

variable {t u : Instant} {d : Duration}

theorem le_refl (t : Instant) : t ≤ t := Nat.le_refl t.nanos

variable {v : Instant}

theorem not_lt_of_le (h : t ≤ u) (ht : ¬ t < v) : ¬ u < v :=
  fun hu => ht (Nat.lt_of_le_of_lt h hu)

theorem le_trans (h : t ≤ u) (h' : u ≤ v) : t ≤ v := Nat.le_trans h h'

theorem exists_add_of_le (h : t ≤ u) (hv : u.add d = some v) : ∃ w ≤ v, t.add d = some w := by
  have hle : t.nanos ≤ u.nanos := h
  simp only [add, Option.dite_none_right_eq_some, Option.some.injEq] at hv
  obtain ⟨hfit, rfl⟩ := hv
  refine ⟨⟨t.nanos + d.nanos, by omega⟩, ?_, dif_pos (by omega)⟩
  show t.nanos + d.nanos ≤ u.nanos + d.nanos
  omega

theorem durationSince_not_lt {s : Instant} (h : t ≤ u) (ht : ¬ t.durationSince s < d) :
    ¬ u.durationSince s < d :=
  fun hu => ht (Nat.lt_of_le_of_lt (Nat.sub_le_sub_right h s.nanos) hu)

end Instant

end SkadiCore
