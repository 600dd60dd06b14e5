import SkadiCore.Common.Run

/-!
# The connection gate

Model of `ConnectionGate` (`crates/skadi-server/src/connection_gate.rs`): a counter of
sessions with an optional limit, taken without waiting. Any number of threads call
`try_acquire` and drop permits. Each access to the atomic counter is a step of its own, and
so is the test between two accesses, so that a run is an interleaving of single steps. A
weak compare-exchange may fail although it finds the expected value.

* `Inv.run`: with the limit `max`, in every run the counter is the number of outstanding
  permits and at most `max`.
-/

namespace SkadiCore.Server

structure ConnectionPermit where
  active : Bool
  deriving DecidableEq

/-- Where a thread is in `try_acquire` (lines 27-50): not in it, before the load, before
    the test of `current`, before the exchange of `current`, behind it. -/
inductive AcquirePc
  | idle
  | load
  | test (current : UInt32)
  | exchange (current : UInt32)
  | returned (permit : Bool)
  deriving DecidableEq

def AcquirePc.inside : AcquirePc → Bool
  | load | test _ | exchange _ => true
  | idle | returned _ => false

structure ConnectionGate (τ : Type) where
  max : Option UInt32
  active : UInt32
  pc : τ → AcquirePc
  permits : List ConnectionPermit

inductive GateAct (τ : Type)
  | call (t : τ)
  | load (t : τ)
  | test (t : τ)
  | exchange (t : τ) (spurious : Bool)
  | drop (n : ℕ)

def GateAct.thread {τ : Type} : GateAct τ → Option τ
  | call t | load t | test t | exchange t _ => some t
  | drop _ => none

namespace ConnectionGate

variable {τ : Type} [DecidableEq τ]

def new (max : Option UInt32) : ConnectionGate τ := ⟨max, 0, fun _ => .idle, []⟩

def goto (g : ConnectionGate τ) (t : τ) (pc : AcquirePc) : ConnectionGate τ :=
  { g with pc := Function.update g.pc t pc }

def grant (g : ConnectionGate τ) (t : τ) (permit : ConnectionPermit) : ConnectionGate τ :=
  { g.goto t (.returned true) with permits := permit :: g.permits }

def step (g : ConnectionGate τ) (a : GateAct τ) : Option (ConnectionGate τ) :=
  match a with
  | .call t =>
    match g.pc t, g.max with
    | .idle, none | .returned _, none => some (g.grant t ⟨false⟩)
    | .idle, some _ | .returned _, some _ => some (g.goto t .load)
    | _, _ => none
  | .load t =>
    match g.pc t with
    | .load => some (g.goto t (.test g.active))
    | _ => none
  | .test t =>
    match g.pc t, g.max with
    | .test current, some max =>
      some (g.goto t (if current < max then .exchange current else .returned false))
    | _, _ => none
  | .exchange t spurious =>
    match g.pc t with
    | .exchange current =>
      if g.active = current ∧ spurious = false then
        some { g.grant t ⟨true⟩ with active := current + 1 }
      else some (g.goto t (.test g.active))
    | _ => none
  | .drop n =>
    -- `fetch_sub` wraps around
    (g.permits[n]?).map fun permit =>
      { g with
        permits := g.permits.eraseIdx n
        active := if permit.active then g.active - 1 else g.active }

/-! ## What a step does -/

variable {g g' : ConnectionGate τ} {a : GateAct τ} {as : List (GateAct τ)} {t : τ}
  {max : UInt32} {C : ConnectionGate τ → GateAct τ → Prop}

@[simp] theorem max_goto (pc : AcquirePc) : (g.goto t pc).max = g.max := rfl

@[simp] theorem active_goto (pc : AcquirePc) : (g.goto t pc).active = g.active := rfl

@[simp] theorem permits_goto (pc : AcquirePc) : (g.goto t pc).permits = g.permits := rfl

theorem pc_goto (pc : AcquirePc) (t' : τ) :
    (g.goto t pc).pc t' = if t' = t then pc else g.pc t' := by
  simp [goto, Function.update_apply]

theorem step_cases (h : g.step a = some g') :
    (∃ t, a = .call t ∧ (g.pc t).inside = false ∧ g.max = none ∧ g' = g.grant t ⟨false⟩) ∨
    (∃ t, a = .call t ∧ (g.pc t).inside = false ∧ g.max ≠ none ∧ g' = g.goto t .load) ∨
    (∃ t, a = .load t ∧ g.pc t = .load ∧ g' = g.goto t (.test g.active)) ∨
    (∃ t current max, a = .test t ∧ g.pc t = .test current ∧ g.max = some max ∧
      g' = g.goto t (if current < max then .exchange current else .returned false)) ∨
    (∃ t, a = .exchange t false ∧ g.pc t = .exchange g.active ∧
      g' = { g.grant t ⟨true⟩ with active := g.active + 1 }) ∨
    (∃ t current spurious, a = .exchange t spurious ∧ g.pc t = .exchange current ∧
      g' = g.goto t (.test g.active)) ∨
    (∃ n permit, a = .drop n ∧ g.permits[n]? = some permit ∧
      g' = { g with
        permits := g.permits.eraseIdx n
        active := if permit.active then g.active - 1 else g.active }) := by
  cases a with
  | call t =>
    cases hmax : g.max with
    | none =>
      cases hpc : g.pc t <;> simp only [step, hpc, hmax, Option.some.injEq, reduceCtorEq] at h
      · exact .inl ⟨t, rfl, hpc ▸ rfl, rfl, h.symm⟩
      · exact .inl ⟨t, rfl, hpc ▸ rfl, rfl, h.symm⟩
    | some max =>
      cases hpc : g.pc t <;> simp only [step, hpc, hmax, Option.some.injEq, reduceCtorEq] at h
      · exact .inr (.inl ⟨t, rfl, hpc ▸ rfl, by simp, h.symm⟩)
      · exact .inr (.inl ⟨t, rfl, hpc ▸ rfl, by simp, h.symm⟩)
  | load t =>
    cases hpc : g.pc t <;> simp only [step, hpc, Option.some.injEq, reduceCtorEq] at h
    exact .inr (.inr (.inl ⟨t, rfl, hpc, h.symm⟩))
  | test t =>
    cases hmax : g.max <;> cases hpc : g.pc t <;>
      simp only [step, hpc, hmax, Option.some.injEq, reduceCtorEq] at h
    exact .inr (.inr (.inr (.inl ⟨t, _, _, rfl, hpc, rfl, h.symm⟩)))
  | exchange t spurious =>
    cases hpc : g.pc t <;> simp only [step, hpc, reduceCtorEq] at h
    split_ifs at h with heq
    · obtain ⟨rfl, rfl⟩ := heq
      exact .inr (.inr (.inr (.inr (.inl ⟨t, rfl, hpc, (Option.some.inj h).symm⟩))))
    · exact .inr (.inr (.inr (.inr (.inr (.inl
        ⟨t, _, spurious, rfl, hpc, (Option.some.inj h).symm⟩)))))
  | drop n =>
    obtain ⟨permit, hn, rfl⟩ := Option.map_eq_some_iff.mp h
    exact .inr (.inr (.inr (.inr (.inr (.inr ⟨n, permit, rfl, hn, rfl⟩)))))

theorem pc_of_step (h : g.step a = some g') (ha : a.thread ≠ some t) : g'.pc t = g.pc t := by
  obtain ⟨t', rfl, -, -, rfl⟩ | ⟨t', rfl, -, -, rfl⟩ | ⟨t', rfl, -, rfl⟩ |
    ⟨t', current, max', rfl, -, -, rfl⟩ | ⟨t', rfl, -, rfl⟩ | ⟨t', current, spurious, rfl, -, rfl⟩ |
    ⟨n, permit, rfl, -, rfl⟩ := step_cases h
  all_goals first
    | rfl
    | have ht : t ≠ t' := fun ht => ha (ht ▸ rfl)
      simp [grant, pc_goto, ht]

/-! ## The invariant -/

/-- With the limit `max`, the counter is the number of outstanding permits, each of which
    holds the counter; who is about to exchange has seen the gate not full. -/
structure Inv (max : UInt32) (g : ConnectionGate τ) : Prop where
  max_eq : g.max = some max
  active_eq : g.active.toNat = g.permits.length
  active_le : g.active ≤ max
  holds : ∀ permit ∈ g.permits, permit.active = true
  below : ∀ t current, g.pc t = .exchange current → current < max

omit [DecidableEq τ] in
theorem inv_new (max : UInt32) : Inv max (new (some max) : ConnectionGate τ) :=
  ⟨rfl, rfl, UInt32.le_iff_toNat_le.mpr (Nat.zero_le _), by simp [new], by simp [new]⟩

theorem Inv.goto (hg : Inv max g) {pc : AcquirePc}
    (hpc : ∀ current, pc = .exchange current → current < max) : Inv max (g.goto t pc) := by
  refine ⟨hg.max_eq, hg.active_eq, hg.active_le, hg.holds, fun t' current h => ?_⟩
  rw [pc_goto] at h
  split_ifs at h
  · exact hpc current h
  · exact hg.below t' current h

theorem Inv.grant (hg : Inv max g) (hlt : g.active < max) :
    Inv max { g.grant t ⟨true⟩ with active := g.active + 1 } := by
  have hgoto : Inv max (g.goto t (.returned true)) := hg.goto (by simp)
  have hadd : (g.active + 1).toNat = g.active.toNat + 1 := by
    have := UInt32.lt_iff_toNat_lt.mp hlt
    have := max.toNat_lt
    rw [UInt32.toNat_add]
    exact Nat.mod_eq_of_lt (by simp; omega)
  refine ⟨hg.max_eq, ?_, ?_, ?_, hgoto.below⟩
  · simpa [ConnectionGate.grant, hadd] using hg.active_eq
  · exact UInt32.le_iff_toNat_le.mpr (hadd ▸ UInt32.lt_iff_toNat_lt.mp hlt)
  · simpa [ConnectionGate.grant] using hg.holds

omit [DecidableEq τ] in
theorem Inv.toNat_sub (hg : Inv max g) {n : ℕ} {permit : ConnectionPermit}
    (h : g.permits[n]? = some permit) : (g.active - 1).toNat + 1 = g.active.toNat := by
  have hn : n < g.permits.length := (List.getElem?_eq_some_iff.mp h).1
  have hpos : 1 ≤ g.active := UInt32.le_iff_toNat_le.mpr (by rw [hg.active_eq]; simp; omega)
  rw [UInt32.toNat_sub_of_le _ _ hpos, hg.active_eq]
  simp
  omega

omit [DecidableEq τ] in
theorem Inv.drop (hg : Inv max g) {n : ℕ} {permit : ConnectionPermit}
    (h : g.permits[n]? = some permit) :
    Inv max { g with
      permits := g.permits.eraseIdx n
      active := if permit.active then g.active - 1 else g.active } := by
  have hn : n < g.permits.length := (List.getElem?_eq_some_iff.mp h).1
  have hsub := hg.toNat_sub h
  have hactive := hg.active_eq
  rw [hg.holds permit (List.mem_of_getElem? h)]
  refine ⟨hg.max_eq, ?_, ?_, fun p hp => hg.holds p (List.mem_of_mem_eraseIdx hp), hg.below⟩
  · simp only [if_true, List.length_eraseIdx_of_lt hn]
    omega
  · have := UInt32.le_iff_toNat_le.mp hg.active_le
    exact UInt32.le_iff_toNat_le.mpr (by simp only [if_true]; omega)

theorem Inv.step (hg : Inv max g) (h : g.step a = some g') : Inv max g' := by
  obtain ⟨t, -, -, hnone, rfl⟩ | ⟨t, -, -, -, rfl⟩ | ⟨t, -, -, rfl⟩ |
    ⟨t, current, max', -, -, hmax, rfl⟩ | ⟨t, -, hpc, rfl⟩ | ⟨t, current, spurious, -, -, rfl⟩ |
    ⟨n, permit, -, hn, rfl⟩ := step_cases h
  · rw [hg.max_eq] at hnone
    cases hnone
  · exact hg.goto (by simp)
  · exact hg.goto (by simp)
  · obtain rfl : max = max' := Option.some.inj (hg.max_eq.symm.trans hmax)
    refine hg.goto fun c hc => ?_
    split_ifs at hc with hlt
    cases hc
    exact hlt
  · exact hg.grant (hg.below t _ hpc)
  · exact hg.goto (by simp)
  · exact hg.drop hn

theorem Inv.run (hg : Inv max g) (h : Run ConnectionGate.step C g as g') : Inv max g' :=
  h.invariant (fun _ _ _ hg _ hst => hg.step hst) hg

/-! ## Refused calls -/

def Saw (g₀ g : ConnectionGate τ) (as : List (GateAct τ)) (t : τ) (current : UInt32) : Prop :=
  ∃ as₁ as₂ g₁, as = as₁ ++ as₂ ∧ Run step Any g₀ as₁ g₁ ∧ Run step Any g₁ as₂ g ∧
    (g₁.pc t).inside = true ∧ .call t ∉ as₂ ∧ g₁.active = current

variable {g₀ : ConnectionGate τ} {current : UInt32}

theorem Saw.now (hrun : Run step Any g₀ as g) (hpc : (g.pc t).inside = true) :
    Saw g₀ g as t g.active :=
  ⟨as, [], g, (List.append_nil as).symm, hrun, .nil g, hpc, by simp, rfl⟩

theorem Saw.snoc (h : Saw g₀ g as t current) (hst : g.step a = some g') (ha : a ≠ .call t) :
    Saw g₀ g' (as ++ [a]) t current := by
  obtain ⟨as₁, as₂, g₁, rfl, hrun₁, hrun₂, hpc, hcall, hactive⟩ := h
  refine ⟨as₁, as₂ ++ [a], g₁, List.append_assoc .., hrun₁, hrun₂.snoc trivial hst, hpc, ?_,
    hactive⟩
  simpa using ⟨hcall, ha.symm⟩

def Honest (max : UInt32) (g₀ g : ConnectionGate τ) (as : List (GateAct τ)) (t : τ) : Prop :=
  (∀ current, g.pc t = .test current → Saw g₀ g as t current) ∧
    (g.pc t = .returned false → ∃ current, max ≤ current ∧ Saw g₀ g as t current)

theorem Honest.snoc (h : Honest max g₀ g as t) (hst : g.step a = some g')
    (hpc : g'.pc t = g.pc t) (ha : a ≠ .call t) : Honest max g₀ g' (as ++ [a]) t := by
  refine ⟨fun current htest => (h.1 current (hpc ▸ htest)).snoc hst ha, fun hret => ?_⟩
  obtain ⟨current, hle, hsaw⟩ := h.2 (hpc ▸ hret)
  exact ⟨current, hle, hsaw.snoc hst ha⟩

theorem Honest.read (hrun : Run step Any g₀ as g) (hpc : g.pc t = .test g.active) :
    Honest max g₀ g as t := by
  refine ⟨fun current htest => ?_, fun hret => by simp [hpc] at hret⟩
  obtain rfl : g.active = current := by simpa [hpc] using htest
  exact .now hrun (by simp [hpc, AcquirePc.inside])

theorem Honest.of_pc (htest : ∀ current, g.pc t ≠ .test current) (hret : g.pc t ≠ .returned false) :
    Honest max g₀ g as t :=
  ⟨fun current h => absurd h (htest current), fun h => absurd h hret⟩

theorem Honest.own (hh : Honest max g₀ g as t) (hg : Inv max g) (hrun : Run step Any g₀ as g)
    (hst : g.step a = some g') (ha : a.thread = some t) : Honest max g₀ g' (as ++ [a]) t := by
  have hrun' : Run step Any g₀ (as ++ [a]) g' := hrun.snoc trivial hst
  obtain ⟨t', -, -, hnone, -⟩ | ⟨t', rfl, -, -, rfl⟩ | ⟨t', rfl, -, rfl⟩ |
    ⟨t', current, max', rfl, hpc, hmax, rfl⟩ | ⟨t', rfl, -, rfl⟩ |
    ⟨t', current, spurious, rfl, -, rfl⟩ | ⟨n, permit, rfl, -, rfl⟩ := step_cases hst
  · simp [hg.max_eq] at hnone
  · cases ha
    exact .of_pc (by simp [pc_goto]) (by simp [pc_goto])
  · cases ha
    exact .read hrun' (by simp [pc_goto])
  · cases ha
    obtain rfl : max = max' := Option.some.inj (hg.max_eq.symm.trans hmax)
    refine ⟨fun c htest => ?_, fun hret => ?_⟩
    · simp only [pc_goto, if_true] at htest
      split_ifs at htest
    · simp only [pc_goto, if_true] at hret
      split_ifs at hret with hlt
      exact ⟨current, UInt32.not_lt.mp hlt, (hh.1 current hpc).snoc hst (by simp)⟩
  · cases ha
    exact .of_pc (by simp [grant, pc_goto]) (by simp [grant, pc_goto])
  · cases ha
    exact .read hrun' (by simp [pc_goto])
  · cases ha

theorem honest_run (hrun : Run step Any (new (some max)) as g) :
    ∀ t, Honest max (new (some max)) g as t := by
  induction hrun with
  | nil => exact fun t => .of_pc (by simp [new]) (by simp [new])
  | @snoc g g' as a hrun _ hst ih =>
    intro t
    by_cases ha : a.thread = some t
    · exact (ih t).own ((inv_new max).run hrun) hrun hst ha
    · exact (ih t).snoc hst (pc_of_step hst ha) (by rintro rfl; exact ha rfl)

/-! ## Results -/

/-- With a limit, any number of threads and any interleaving of their steps: the counter is
    the number of outstanding permits and at most the limit; a permit that is dropped takes
    it down by one; and a call that returned `None` went through a state in which the gate
    was full. -/
theorem gate_sound (max : UInt32) (hrun : Run step Any (new (some max)) as g) :
    g.active.toNat = g.permits.length ∧ g.active ≤ max ∧
    (∀ n g', g.step (.drop n) = some g' → g'.active.toNat + 1 = g.active.toNat) ∧
    ∀ t, g.pc t = .returned false →
      ∃ as₁ as₂ g₁, as = as₁ ++ as₂ ∧ Run step Any (new (some max)) as₁ g₁ ∧
        Run step Any g₁ as₂ g ∧ (g₁.pc t).inside = true ∧ .call t ∉ as₂ ∧
        g₁.active = max ∧ g₁.permits.length = max.toNat := by
  have hinv := (inv_new max).run hrun
  refine ⟨hinv.active_eq, hinv.active_le, fun n g' hst => ?_, fun t hret => ?_⟩
  · obtain ⟨permit, hn, rfl⟩ := Option.map_eq_some_iff.mp hst
    simpa [hinv.holds permit (List.mem_of_getElem? hn)] using hinv.toNat_sub hn
  · obtain ⟨current, hle, as₁, as₂, g₁, has, hrun₁, hrun₂, hpc, hcall, rfl⟩ :=
      (honest_run hrun t).2 hret
    have hinv₁ := (inv_new max).run hrun₁
    have hfull : g₁.active = max := UInt32.le_antisymm hinv₁.active_le hle
    exact ⟨as₁, as₂, g₁, has, hrun₁, hrun₂, hpc, hcall, hfull, by rw [← hinv₁.active_eq, hfull]⟩

theorem gate_sound_contended :
    ∃ as g, Run step Any (new (some 1) : ConnectionGate Bool) as g ∧ g.active.toNat = 1 ∧
      g.pc false = .returned false ∧
      ∃ as₁ as₂ g₁, as = as₁ ++ as₂ ∧ Run step Any (new (some 1)) as₁ g₁ ∧
        Run step Any g₁ as₂ g ∧ (g₁.pc false).inside = true ∧ .call false ∉ as₂ ∧
        g₁.active = 1 ∧ g₁.permits.length = (1 : UInt32).toNat := by
  have hrun : Run step Any (new (some 1) : ConnectionGate Bool)
      [.call false, .load false, .call true, .load true, .test true, .exchange true true,
        .test true, .exchange true false, .test false, .exchange false false, .test false] _ :=
    exec_any rfl
  exact ⟨_, _, hrun, rfl, rfl, (gate_sound 1 hrun).2.2.2 false rfl⟩

end ConnectionGate

end SkadiCore.Server
