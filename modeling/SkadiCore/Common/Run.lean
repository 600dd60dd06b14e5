import Mathlib.Data.List.Basic
import Mathlib.Tactic

/-!
# Runs of a labelled step function

A system is a partial step function `step : σ → α → Option σ`: the label `a`
says which party moves and resolves every choice of the environment, so that a
run is determined by its labels. `Run step C s as t` is a run whose every step
is taken in a state where `C` allows its label; `C := Any` puts no condition on
the steps.

* `Run.invariant`: what holds initially and is kept by every allowed step holds
  in every state of every run.
* `exec`, `exec_run`: a concrete run is computed.
-/

namespace SkadiCore

section Runs

variable {σ α : Type*}

/-- No condition on the labels. -/
def Any : σ → α → Prop := fun _ _ => True

/-- `Run step C s as t`: the labels `as` lead from `s` to `t`, each with `C` where it is taken. -/
inductive Run (step : σ → α → Option σ) (C : σ → α → Prop) : σ → List α → σ → Prop
  | nil (s : σ) : Run step C s [] s
  | snoc {s t u : σ} {as : List α} {a : α} : Run step C s as t → C t a → step t a = some u →
      Run step C s (as ++ [a]) u

variable {step : σ → α → Option σ} {C C' : σ → α → Prop} {as : List α} {s t : σ}

theorem Run.invariant {I : σ → Prop} (hstep : ∀ s a t, I s → C s a → step s a = some t → I t)
    (hs : I s) (h : Run step C s as t) : I t := by
  induction h with
  | nil => exact hs
  | snoc _ hC hst ih => exact hstep _ _ _ ih hC hst

theorem Run.mono (hC : ∀ s a, C s a → C' s a) (h : Run step C s as t) : Run step C' s as t := by
  induction h with
  | nil => exact .nil _
  | snoc _ hc hst ih => exact ih.snoc (hC _ _ hc) hst

theorem Run.any (h : Run step C s as t) : Run step Any s as t :=
  h.mono fun _ _ _ => trivial

theorem Run.single {a : α} (hC : C s a) (h : step s a = some t) : Run step C s [a] t :=
  (Run.nil s).snoc hC h

theorem Run.append {s t u : σ} {as bs : List α} (h : Run step C s as t)
    (h' : Run step C t bs u) : Run step C s (as ++ bs) u := by
  induction h' with
  | nil => simpa using h
  | snoc _ hc hst ih => rw [← List.append_assoc]; exact ih.snoc hc hst

theorem Run.of_snoc {s u : σ} {a : α} (h : Run step C s (as ++ [a]) u) :
    ∃ t, Run step C s as t ∧ C t a ∧ step t a = some u := by
  generalize hlabels : as ++ [a] = labels at h
  cases h with
  | nil => simp at hlabels
  | snoc h hC hst =>
    obtain ⟨rfl, hlast⟩ := List.append_inj' hlabels rfl
    cases hlast
    exact ⟨_, h, hC, hst⟩

theorem Run.unique {s t t' : σ} (h : Run step C s as t) (h' : Run step C' s as t') : t = t' := by
  induction h generalizing t' with
  | nil =>
    generalize hlabels : [] = labels at h'
    cases h' with
    | nil => rfl
    | snoc => simp at hlabels
  | snoc _ _ hst ih =>
    obtain ⟨u, h', -, hst'⟩ := h'.of_snoc
    cases ih h'
    exact Option.some.inj (hst.symm.trans hst')

theorem Run.snoc_iff {s t u : σ} {a : α} (h : Run step C' s as t) (hst : step t a = some u) :
    Run step C s (as ++ [a]) u ↔ Run step C s as t ∧ C t a := by
  constructor
  · intro hrun
    obtain ⟨t', hrun', hC, -⟩ := hrun.of_snoc
    cases h.unique hrun'
    exact ⟨hrun', hC⟩
  · rintro ⟨hrun, hC⟩
    exact hrun.snoc hC hst

theorem Run.exists_of_measure {I G : σ → Prop} (μ : σ → ℕ)
    (h : ∀ s, I s → G s ∨ ∃ as t, Run step C s as t ∧ I t ∧ μ t < μ s) {s : σ} (hs : I s) :
    ∃ as t, Run step C s as t ∧ I t ∧ G t := by
  induction hn : μ s using Nat.strong_induction_on generalizing s with
  | _ n ih =>
    rcases h s hs with hg | ⟨as, t, hrun, ht, hlt⟩
    · exact ⟨[], s, .nil s, hs, hg⟩
    · obtain ⟨bs, u, hrun', hu⟩ := ih _ (hn ▸ hlt) ht rfl
      exact ⟨as ++ bs, u, hrun.append hrun', hu⟩

def exec (step : σ → α → Option σ) (ok : σ → α → Bool) : σ → List α → Option σ
  | s, [] => some s
  | s, a :: as => if ok s a then (step s a).bind fun t => exec step ok t as else none

theorem exec_run {ok : σ → α → Bool} (hok : ∀ s a, ok s a = true → C s a)
    (h : exec step ok s as = some t) : Run step C s as t := by
  induction as generalizing s with
  | nil => cases h; exact .nil _
  | cons a as ih =>
    simp only [exec, Option.ite_none_right_eq_some] at h
    obtain ⟨ha, h⟩ := h
    obtain ⟨u, hu, ht⟩ := Option.bind_eq_some_iff.mp h
    exact (Run.single (hok s a ha) hu).append (ih ht)

theorem exec_any (h : exec step (fun _ _ => true) s as = some t) : Run step Any s as t :=
  exec_run (fun _ _ _ => trivial) h

end Runs

end SkadiCore
