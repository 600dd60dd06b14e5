import Mathlib.Tactic

/-!
# The entries of a table that belong to one owner

A table is a list whose indices are handed out and never reused. `picked p l` keeps the
entries with the property `p` at their indices. What is done to the other entries does not
show in it.
-/

namespace SkadiCore

variable {α : Type*} {p : α → Bool} {l : List α} {x y : α} {i j : ℕ}

def picked (p : α → Bool) (l : List α) (i : ℕ) : Option α := l[i]?.filter p

def only (i : ℕ) (x : α) : ℕ → Option α := Function.update (fun _ => none) i (some x)

theorem picked_eq_some : picked p l i = some x ↔ l[i]? = some x ∧ p x = true :=
  Option.filter_eq_some_iff

@[simp] theorem only_self : only i x i = some x := Function.update_self ..

theorem only_eq_some : only i x j = some y ↔ j = i ∧ x = y := by
  rw [only, Function.update_apply]
  split_ifs with h <;> simp [h]

@[simp] theorem update_only : Function.update (only i x) i (some y) = only i y :=
  Function.update_idem ..

theorem picked_append : picked p (l ++ [x]) =
    if p x then Function.update (picked p l) l.length (some x) else picked p l := by
  split_ifs with h <;> funext i <;> obtain hlt | rfl | hgt := lt_trichotomy i l.length
  · simp [picked, List.getElem?_append_left hlt, hlt.ne]
  · simp [picked, h]
  · simp [picked, hgt, hgt.le, hgt.ne']
  · simp [picked, List.getElem?_append_left hlt]
  · simp [picked, h]
  · simp [picked, hgt, hgt.le]

theorem picked_set (hi : l[i]? = some x) (h : p y = p x) : picked p (l.set i y) =
    if p x then Function.update (picked p l) i (some y) else picked p l := by
  have hset : (l.set i y)[i]? = some y := by simp [(List.getElem?_eq_some_iff.mp hi).1]
  split_ifs with hx <;> funext j <;> by_cases heq : i = j
  · subst heq
    simp [picked, hset, h, hx]
  · simp [picked, List.getElem?_set_ne heq, Ne.symm heq]
  · subst heq
    rw [picked, picked, hset, hi]
    simp [Option.filter, h, hx]
  · simp [picked, List.getElem?_set_ne heq]

theorem picked_modify {f : α → α} (hi : l[i]? = some x) (h : p (f x) = p x) :
    picked p (l.modify i f) =
      if p x then Function.update (picked p l) i (some (f x)) else picked p l := by
  rw [List.modify_eq_set_getElem?, hi]
  exact picked_set hi h

theorem filter_of_picked_none (h : picked p l = fun _ => none) : l.filter p = [] := by
  rw [List.filter_eq_nil_iff]
  intro x hx hp
  obtain ⟨i, hi⟩ := List.mem_iff_getElem?.mp hx
  have hpicked : picked p l i = some x := picked_eq_some.mpr ⟨hi, hp⟩
  rw [h] at hpicked
  cases hpicked

theorem filter_of_picked_only (h : picked p l = only i x) : l.filter p = [x] := by
  induction l generalizing i with
  | nil =>
    have hi : picked p [] i = some x := by rw [h, only_self]
    cases hi
  | cons z l ih =>
    have htail (j : ℕ) : picked p l j = only i x (j + 1) := by rw [← h]; rfl
    have hhead : (some z).filter p = only i x 0 := by rw [← h]; rfl
    cases i with
    | zero =>
      rw [only_self, Option.filter_eq_some_iff] at hhead
      obtain ⟨hz, hp⟩ := hhead
      cases hz
      rw [List.filter_cons_of_pos hp, filter_of_picked_none]
      funext j
      rw [htail]
      rfl
    | succ i =>
      have hp : ¬ p z = true := by
        intro hp
        have hz : only (i + 1) x 0 = some z := hhead ▸ Option.filter_eq_some_iff.mpr ⟨rfl, hp⟩
        exact absurd (only_eq_some.mp hz).1 (Nat.succ_ne_zero i).symm
      rw [List.filter_cons_of_neg hp]
      refine @ih i (funext fun j => ?_)
      rw [htail]
      simp only [only, Function.update_apply, Nat.add_right_cancel_iff]

end SkadiCore
