import Mathlib.Data.List.Count
import Mathlib.Tactic

/-!
# Counting in fixed windows

A counter admits at most `limit` events in a window, and a new window starts no earlier than
`width` behind the start of the one before it. `FixedWindow width limit start admitted` is
what such a counter knows of the times `admitted` of the events it has let through, the
current window having started at `start`. An interval of length `width` meets at most two
windows, so it holds at most `2 * limit` events (`burst`).
-/

namespace SkadiCore

structure FixedWindow (width limit start : ℕ) (admitted : List ℕ) : Prop where
  /-- In the current window. -/
  inside : admitted.countP (start ≤ ·) ≤ limit
  /-- Before it, less than a width away. -/
  before : admitted.countP (fun t => t < start ∧ start < t + width) ≤ limit
  /-- In any interval of length `width`. -/
  burst (a : ℕ) : admitted.countP (fun t => a ≤ t ∧ t < a + width) ≤ 2 * limit

namespace FixedWindow

variable {width limit start now : ℕ} {admitted : List ℕ}

theorem empty (width limit start : ℕ) : FixedWindow width limit start [] := by
  constructor <;> simp

theorem restart (h : FixedWindow width limit start admitted) (hnow : start + width ≤ now)
    (hpast : ∀ t ∈ admitted, t < now) : FixedWindow width limit now admitted where
  inside := by
    have hnone : admitted.countP (now ≤ ·) = 0 := by
      rw [List.countP_eq_zero]
      intro t ht
      have := hpast t ht
      simpa using this
    omega
  before := by
    refine (List.countP_mono_left fun t _ ht => ?_).trans h.inside
    simp only [decide_eq_true_eq] at ht ⊢
    omega
  burst := h.burst

theorem countP_interval_le (admitted : List ℕ) {a : ℕ} (hstart : start ≤ now)
    (hnow : now < a + width) :
    admitted.countP (fun t => a ≤ t ∧ t < a + width) ≤
      admitted.countP (fun t => t < start ∧ start < t + width) + admitted.countP (start ≤ ·) := by
  induction admitted with
  | nil => simp
  | cons t ts ih =>
    simp only [List.countP_cons, decide_eq_true_eq]
    split_ifs <;> omega

theorem allow (h : FixedWindow width limit start admitted) (hstart : start ≤ now)
    (hroom : admitted.countP (start ≤ ·) < limit) :
    FixedWindow width limit start (admitted ++ [now]) where
  inside := by
    simp only [List.countP_append, List.countP_singleton, hstart, decide_true, if_true]
    omega
  before := by
    have hnot : ¬ (now < start ∧ start < now + width) := by omega
    simpa [List.countP_append, List.countP_singleton, hnot] using h.before
  burst a := by
    simp only [List.countP_append, List.countP_singleton, decide_eq_true_eq]
    split_ifs with hin
    · have hsplit := countP_interval_le admitted hstart hin.2
      have hbefore := h.before
      omega
    · exact h.burst a

end FixedWindow

end SkadiCore
