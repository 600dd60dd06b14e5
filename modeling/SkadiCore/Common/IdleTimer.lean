import SkadiCore.Common.Run

/-!
# Idle timers

A loop with an idle timer gives up when nothing was carried for a while. What it reports
is only right if the timer is set anew whenever something is carried.
-/

namespace SkadiCore

structure Clocked (σ α : Type*) where
  step : σ → α → Option σ
  now : σ → ℕ
  carries : σ → α → Prop
  idles : α → Prop

namespace Clocked

variable {σ α : Type*} (K : Clocked σ α) (C : σ → α → Prop) (d : ℕ)

/-- What was carried before the idle timeout fires was carried `d` earlier, or at that time. -/
def QuietAtIdle (s : σ) : Prop :=
  ∀ ⦃as bs : List α⦄ ⦃a b : α⦄ ⦃s₁ s₂ s₃ s₄ : σ⦄, Run K.step C s as s₁ → C s₁ a →
    K.step s₁ a = some s₂ → K.carries s₁ a → Run K.step C s₂ bs s₃ → C s₃ b →
    K.step s₃ b = some s₄ → K.idles b → ¬(K.now s₃ < K.now s₁ + d ∧ K.now s₁ < K.now s₃)

variable {K C d}

theorem quietAtIdle {s : σ} (I : σ → Prop) (Covered : ℕ → σ → Prop) (hs : I s)
    (hI : ∀ s a t, I s → K.step s a = some t → I t)
    (hcarry : ∀ s a, I s → C s a → K.carries s a → Covered (K.now s) s)
    (hkeep : ∀ T s a t, I s → Covered T s → K.step s a = some t → Covered T t)
    (hidle : ∀ T s a t, I s → Covered T s → K.idles a → K.step s a = some t →
      T + d ≤ K.now s) : K.QuietAtIdle C d s := by
  intro as bs a b s₁ s₂ s₃ s₄ hrun hC hst hcarries hrun' _ hst' hidles
  have hI₁ : I s₁ := hrun.invariant (fun s a t h _ => hI s a t h) hs
  have hinv : I s₃ ∧ Covered (K.now s₁) s₃ :=
    hrun'.invariant (I := fun s => I s ∧ Covered (K.now s₁) s)
      (fun s a t h _ hst => ⟨hI s a t h.1 hst, hkeep _ s a t h.1 h.2 hst⟩)
      ⟨hI _ _ _ hI₁ hst, hkeep _ _ _ _ hI₁ (hcarry _ _ hI₁ hC hcarries) hst⟩
  have hlate := hidle _ _ _ _ hinv.1 hinv.2 hidles hst'
  omega

end Clocked

/-! ## Adding a clock to a system -/

/-- How a loop uses its timers: the two durations, the steps that set the idle deadline
    anew, and the steps that are taken when a deadline has passed. -/
structure Timers (σ α : Type*) where
  idle : Option ℕ
  lifetime : Option ℕ
  resets : σ → α → Bool
  onIdle : α → Bool
  onLifetime : α → Bool

structure Timed (σ : Type*) where
  now : ℕ
  idleDeadline : ℕ
  lifetimeDeadline : ℕ
  sys : σ

inductive TimedAct (α : Type*)
  | tick (dt : ℕ)
  | act (a : α)

namespace Timed

variable {σ α : Type*}

def start (T : Timers σ α) (now : ℕ) (s : σ) : Timed σ :=
  ⟨now, now + T.idle.getD 0, now + T.lifetime.getD 0, s⟩

def due (T : Timers σ α) (s : Timed σ) (a : α) : Bool :=
  (!T.onIdle a || decide (s.idleDeadline ≤ s.now)) &&
    (!T.onLifetime a || decide (s.lifetimeDeadline ≤ s.now))

def nextIdle (T : Timers σ α) (s : Timed σ) (a : α) : ℕ :=
  if T.resets s.sys a then (T.idle.map (s.now + ·)).getD s.idleDeadline else s.idleDeadline

def step (inner : σ → α → Option σ) (T : Timers σ α) (s : Timed σ) :
    TimedAct α → Option (Timed σ)
  | .tick dt => some { s with now := s.now + dt }
  | .act a =>
    if s.due T a then
      (inner s.sys a).map fun t => { s with sys := t, idleDeadline := s.nextIdle T a }
    else none

def clocked (inner : σ → α → Option σ) (T : Timers σ α) (carries : σ → TimedAct α → Prop) :
    Clocked (Timed σ) (TimedAct α) where
  step := step inner T
  now := now
  carries s a := carries s.sys a
  idles a := ∃ b, a = .act b ∧ T.onIdle b = true

variable {inner : σ → α → Option σ} {T : Timers σ α} {s t : Timed σ} {a : TimedAct α}

theorem step_cases (h : step inner T s a = some t) :
    (∃ dt, a = .tick dt ∧ t = { s with now := s.now + dt }) ∨
      ∃ b u, a = .act b ∧ s.due T b = true ∧ inner s.sys b = some u ∧
        t = { s with sys := u, idleDeadline := s.nextIdle T b } := by
  cases a with
  | tick dt => exact .inl ⟨dt, rfl, (Option.some.inj h).symm⟩
  | act b =>
    simp only [step, Option.ite_none_right_eq_some, Option.map_eq_some_iff] at h
    obtain ⟨hdue, u, hu, rfl⟩ := h
    exact .inr ⟨b, u, rfl, hdue, hu, rfl⟩

theorem quietAtIdle {carries : σ → TimedAct α → Prop} {C : Timed σ → TimedAct α → Prop} {d : ℕ}
    (Away : σ → Prop) (hd : T.idle = some d)
    (hcarry : ∀ s a, C s a → carries s.sys a → Away s.sys ∨ s.now + d ≤ s.idleDeadline)
    (hback : ∀ s a t, Away s → inner s a = some t → Away t ∨ T.resets s a = true)
    (hidle : ∀ s a t, T.onIdle a = true → inner s a = some t → ¬Away s) (s : Timed σ) :
    (clocked inner T carries).QuietAtIdle C d s := by
  refine Clocked.quietAtIdle (fun _ => True)
    (fun t₀ s => t₀ ≤ s.now ∧ (Away s.sys ∨ t₀ + d ≤ s.idleDeadline)) trivial
    (fun _ _ _ _ _ => trivial) (fun s a _ hC hcarries => ⟨le_rfl, hcarry s a hC hcarries⟩) ?_ ?_
  · rintro t₀ s a t - ⟨hle, hcov⟩ hst
    obtain ⟨dt, -, rfl⟩ | ⟨b, u, -, -, hu, rfl⟩ := step_cases hst
    · exact ⟨Nat.le_add_right_of_le hle, hcov⟩
    · refine ⟨hle, ?_⟩
      by_cases hreset : T.resets s.sys b = true
      · exact .inr (by simpa [nextIdle, hreset, hd] using hle)
      · rcases hcov with haway | hcov
        · exact .inl ((hback _ _ _ haway hu).resolve_right hreset)
        · exact .inr (by simpa [nextIdle, hreset] using hcov)
  · rintro t₀ s a t - ⟨-, hcov⟩ ⟨b, rfl, honIdle⟩ (hst : step inner T s (.act b) = some t)
    obtain ⟨dt, hb, -⟩ | ⟨b', u, hb, hdue, hu, -⟩ := step_cases hst
    · cases hb
    · cases hb
      have hpassed : s.idleDeadline ≤ s.now := by
        simp only [due, honIdle, Bool.and_eq_true] at hdue
        simpa using hdue.1
      exact (hcov.resolve_left (hidle _ _ _ honIdle hu)).trans hpassed

end Timed

end SkadiCore
