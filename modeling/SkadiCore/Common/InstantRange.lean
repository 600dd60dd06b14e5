import SkadiCore.Common.IdleTimer
import SkadiCore.Common.Time

/-!
# Sums of instants and durations

A loop that sets a deadline anew adds a duration to the time it reads from the clock, and
`Instant + Duration` panics where the sum is out of range. Models with deadlines in `ℕ` do
not see that; here the sums themselves are looked at.
-/

namespace SkadiCore

def INSTANT_RANGE : ℕ := 2 ^ 63 * NANOS_PER_SEC

namespace Instant

variable {t : Instant} {d : Duration}

theorem add_eq_none_iff : t.add d = none ↔ INSTANT_RANGE ≤ t.nanos + d.nanos := by
  rw [← not_lt]
  exact dite_eq_right_iff.trans (by simp [INSTANT_RANGE])

theorem add_isSome_iff : (t.add d).isSome ↔ t.nanos + d.nanos < INSTANT_RANGE := by
  rw [← Option.ne_none_iff_isSome, Ne, add_eq_none_iff, not_le]

theorem nanos_of_add {u : Instant} (h : t.add d = some u) : u.nanos = t.nanos + d.nanos := by
  obtain ⟨_, heq⟩ := Option.dite_none_right_eq_some.mp h
  rw [← Option.some.inj heq]

end Instant

namespace Duration

@[simp] theorem nanos_min (d e : Duration) : (d.min e).nanos = Nat.min d.nanos e.nanos := by
  show (if e.nanos < d.nanos then e else d).nanos = _
  split_ifs with h
  · exact (Nat.min_eq_right h.le).symm
  · exact (Nat.min_eq_left (Nat.le_of_not_lt h)).symm

theorem nanos_le_MAX (d : Duration) : d.nanos ≤ MAX.nanos := Nat.le_sub_one_of_lt d.bounded

@[simp] theorem nanos_saturatingMul (d : Duration) (n : ℕ) :
    (d.saturatingMul n).nanos = Nat.min (d.nanos * n) MAX.nanos := by
  unfold saturatingMul
  split_ifs with h
  · exact (Nat.min_eq_left (Nat.le_sub_one_of_lt h)).symm
  · exact (Nat.min_eq_right (le_trans (Nat.sub_le _ 1) (Nat.le_of_not_lt h))).symm

theorem add_MAX (t : Instant) : t.add MAX = none := by
  rw [Instant.add_eq_none_iff]
  exact Nat.le_add_left_of_le (by decide)

end Duration

/-! ## Systems that add -/

structure Adder (σ α : Type*) where
  step : σ → α → Option σ
  now : σ → α → ℕ
  added : σ → α → Option ℕ

namespace Adder

variable {σ α : Type*} (K : Adder σ α) (T : ℕ)

/-- The step is taken at `T` or before. -/
def Until (s : σ) (a : α) : Prop := K.now s a ≤ T

/-- Up to time `T` every addition to the clock stays in range. -/
def InRange (s : σ) : Prop :=
  ∀ ⦃as : List α⦄ ⦃s' : σ⦄ ⦃a : α⦄ ⦃d : ℕ⦄, Run K.step (K.Until T) s as s' → K.Until T s' a →
    K.added s' a = some d → K.now s' a + d < INSTANT_RANGE

variable {K T}

theorem inRange {s : σ} (I : σ → Prop) (hs : I s)
    (hI : ∀ s a t, I s → K.step s a = some t → I t)
    (hadded : ∀ s a d, I s → K.added s a = some d → T + d < INSTANT_RANGE) : K.InRange T s := by
  intro as s' a d hrun hnow hd
  have hi : I s' := hrun.invariant (fun s a t hs _ hst => hI s a t hs hst) hs
  have hfit := hadded s' a d hi hd
  have hle : K.now s' a ≤ T := hnow
  omega

end Adder

namespace Timed

variable {σ α : Type*} {inner : σ → α → Option σ} {T : Timers σ α} {s t : Timed σ}

def added (T : Timers σ α) (s : Timed σ) : TimedAct α → Option ℕ
  | .tick _ => none
  | .act a => if T.resets s.sys a then T.idle else none

def adder (inner : σ → α → Option σ) (T : Timers σ α) : Adder (Timed σ) (TimedAct α) where
  step := step inner T
  now s _ := s.now
  added s a := if (step inner T s a).isSome then s.added T a else none

theorem idleDeadline_of_step {a : TimedAct α} (h : step inner T s a = some t) :
    t.idleDeadline = ((s.added T a).map (s.now + ·)).getD s.idleDeadline := by
  obtain ⟨dt, rfl, rfl⟩ | ⟨b, u, rfl, -, -, rfl⟩ := step_cases h
  · rfl
  · simp only [added, nextIdle]
    split_ifs <;> rfl

theorem inRange {now : ℕ} (hidle : ∀ d ∈ T.idle, now + d < INSTANT_RANGE) (s : Timed σ) :
    (adder inner T).InRange now s := by
  refine Adder.inRange (fun _ => True) trivial (fun _ _ _ _ _ => trivial) ?_
  intro s a d _ hd
  obtain ⟨-, hd⟩ := Option.ite_none_right_eq_some.mp hd
  cases a with
  | tick dt => cases hd
  | act b => exact hidle d (Option.ite_none_right_eq_some.mp hd).2

end Timed

end SkadiCore
