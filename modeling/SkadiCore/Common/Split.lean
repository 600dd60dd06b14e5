import Mathlib.Data.List.Basic
import Mathlib.Tactic

/-!
# Splitting at a separator

`split_once` cuts a list at the first occurrence of a separator, `rsplit_once` at the last one,
and `strip_prefix` cuts off a given beginning.

* `splitOnce_eq_some_iff`, `rsplitOnce_eq_some_iff`: where the cut is.

`endOf needle l` is where the first occurrence of a longer separator ends. It is found as soon
as it has been read, whatever follows (`endOf_take_of_lt`, `endOf_take_of_le`).
-/

namespace SkadiCore

variable {α : Type*} [DecidableEq α] {c : α} {l a b : List α}

def splitOnce (c : α) : List α → Option (List α × List α)
  | [] => none
  | x :: l => if x = c then some ([], l) else (splitOnce c l).map fun (a, b) => (x :: a, b)

def rsplitOnce (c : α) (l : List α) : Option (List α × List α) :=
  (splitOnce c l.reverse).map fun (a, b) => (b.reverse, a.reverse)

def stripPrefix (a l : List α) : Option (List α) :=
  if a.isPrefixOf l then some (l.drop a.length) else none

theorem splitOnce_eq_some_iff : splitOnce c l = some (a, b) ↔ l = a ++ c :: b ∧ c ∉ a := by
  induction l generalizing a b with
  | nil => simp [splitOnce]
  | cons x l ih =>
    by_cases hx : x = c
    · subst hx
      cases a with
      | nil => simp [splitOnce]
      | cons y a =>
        simp only [splitOnce, if_true, Option.some.injEq, Prod.mk.injEq, List.nil_eq,
          reduceCtorEq, false_and, List.cons_append, List.cons.injEq, List.mem_cons, not_or,
          false_iff, not_and]
        rintro ⟨rfl, -⟩ hne
        exact absurd rfl hne
    · cases a with
      | nil => simp [splitOnce, hx]
      | cons y a =>
        simp only [splitOnce, hx, if_false, Option.map_eq_some_iff, Prod.exists, Prod.mk.injEq, ih,
          List.cons_append, List.cons.injEq, List.mem_cons, not_or]
        constructor
        · rintro ⟨a', b', ⟨rfl, ha⟩, ⟨rfl, rfl⟩, rfl⟩
          exact ⟨⟨rfl, rfl⟩, Ne.symm hx, ha⟩
        · rintro ⟨⟨rfl, rfl⟩, -, ha⟩
          exact ⟨a, b, ⟨rfl, ha⟩, ⟨rfl, rfl⟩, rfl⟩

theorem splitOnce_eq_none_iff : splitOnce c l = none ↔ c ∉ l := by
  induction l with
  | nil => simp [splitOnce]
  | cons x l ih =>
    by_cases hx : x = c
    · simp [splitOnce, hx]
    · simp [splitOnce, hx, ih, Ne.symm hx]

theorem rsplitOnce_eq_some_iff : rsplitOnce c l = some (a, b) ↔ l = a ++ c :: b ∧ c ∉ b := by
  simp only [rsplitOnce, Option.map_eq_some_iff, Prod.exists, splitOnce_eq_some_iff,
    Prod.mk.injEq]
  constructor
  · rintro ⟨b', a', ⟨hl, hb⟩, rfl, rfl⟩
    refine ⟨?_, by simpa using hb⟩
    rw [← List.reverse_reverse l, hl]
    simp
  · rintro ⟨rfl, hb⟩
    exact ⟨b.reverse, a.reverse, ⟨by simp, by simpa using hb⟩, by simp, by simp⟩

theorem rsplitOnce_eq_none_iff : rsplitOnce c l = none ↔ c ∉ l := by
  simp [rsplitOnce, splitOnce_eq_none_iff]

theorem stripPrefix_eq_some_iff : stripPrefix a l = some b ↔ l = a ++ b := by
  rw [stripPrefix, Option.ite_none_right_eq_some, List.isPrefixOf_iff_prefix, Option.some.injEq]
  constructor
  · rintro ⟨⟨t, rfl⟩, rfl⟩
    simp
  · rintro rfl
    exact ⟨List.prefix_append _ _, by simp⟩

/-! ## A separator of several elements -/

def endOf (needle : List α) : List α → Option ℕ
  | [] => none
  | x :: l =>
    if needle.isPrefixOf (x :: l) then some needle.length else (endOf needle l).map (· + 1)

variable {needle : List α} {h i : ℕ}

theorem endOf_bounds (hend : endOf needle l = some h) : needle.length ≤ h ∧ h ≤ l.length := by
  induction l generalizing h with
  | nil => cases hend
  | cons x l ih =>
    rw [endOf] at hend
    split_ifs at hend with hpre
    · cases hend
      exact ⟨Nat.le_refl _, (List.isPrefixOf_iff_prefix.mp hpre).length_le⟩
    · obtain ⟨h', hend', rfl⟩ := Option.map_eq_some_iff.mp hend
      have hbounds := ih hend'
      rw [List.length_cons]
      omega

theorem endOf_append (b : List α) (hend : endOf needle a = some h) :
    endOf needle (a ++ b) = some h := by
  induction a generalizing h with
  | nil => cases hend
  | cons x a ih =>
    have hbounds := endOf_bounds hend
    rw [List.cons_append, endOf]
    rw [endOf] at hend
    split_ifs at hend with hpre
    · have hlong : needle.isPrefixOf (x :: (a ++ b)) = true := by
        rw [List.isPrefixOf_iff_prefix] at hpre ⊢
        exact hpre.trans (List.prefix_append (x :: a) b)
      rw [if_pos hlong, hend]
    · -- an occurrence that begins here would end within the first part
      have hnot : ¬ needle.isPrefixOf (x :: (a ++ b)) = true := by
        rw [List.isPrefixOf_iff_prefix] at hpre ⊢
        exact fun hlong => hpre (List.prefix_of_prefix_length_le hlong
          (List.prefix_append (x :: a) b) (by omega))
      obtain ⟨h', hend', rfl⟩ := Option.map_eq_some_iff.mp hend
      rw [if_neg hnot, ih hend', Option.map_some]

theorem endOf_take_of_lt (hend : endOf needle l = some h) (hi : i < h) :
    endOf needle (l.take i) = none := by
  rw [Option.eq_none_iff_forall_ne_some]
  intro h' hend'
  have hsame := endOf_append (l.drop i) hend'
  rw [List.take_append_drop, hend] at hsame
  cases hsame
  have hbounds := (endOf_bounds hend').2
  rw [List.length_take] at hbounds
  omega

theorem endOf_take_of_le (hneedle : needle ≠ []) (hend : endOf needle l = some h) (hi : h ≤ i) :
    endOf needle (l.take i) = some h := by
  induction l generalizing h i with
  | nil => cases hend
  | cons x l ih =>
    have hbounds := endOf_bounds hend
    have hpos := List.length_pos_of_ne_nil hneedle
    obtain ⟨i, rfl⟩ : ∃ j, i = j + 1 := ⟨i - 1, by omega⟩
    have htake : needle.isPrefixOf (x :: l.take i) = needle.isPrefixOf (x :: l) := by
      rw [Bool.eq_iff_iff, List.isPrefixOf_iff_prefix, List.isPrefixOf_iff_prefix,
        ← List.take_succ_cons, List.prefix_take_iff]
      exact and_iff_left (by omega)
    rw [List.take_succ_cons, endOf, htake]
    rw [endOf] at hend
    split_ifs at hend ⊢ with hpre
    · exact hend
    · obtain ⟨h', hend', rfl⟩ := Option.map_eq_some_iff.mp hend
      rw [ih hend' (by omega), Option.map_some]

end SkadiCore
