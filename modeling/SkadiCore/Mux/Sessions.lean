import SkadiCore.Mux.RelayInv

/-!
# The session table and its reader tasks

A NEW frame spawns the reader task before the session is inserted, an entry under
the same id is overwritten without an abort, and a reader that ends removes
whatever is stored under its id.
-/

namespace SkadiCore.Mux.Relay

open SkadiCore.Relay

variable {s t : Relay} {a : Act} {limits : RelayLimits}

def opensAlone (s : Relay) (a : Act) : Bool :=
  (s.opensId a).all fun ki => s.table.keyFree ki.1 && !ki.2

/-- The entry of a live reader's id is its session, and no entry is of a finished one. -/
def OwnsReaders (s : Relay) : Prop :=
  (∀ u k, s.table.Live u k → s.table.entries k = some u) ∧
    ∀ k u, s.table.entries k = some u → (s.table.task u).map Task.status ≠ some .finished

/-- A reader that ends removes no entry of another session. -/
def RemovesOwn (limits : RelayLimits) (s : Relay) : Prop :=
  ∀ u t, s.step limits (.reader u .remove) = some t →
    ∀ k v, v ≠ u → s.table.entries k = some v → t.table.entries k = some v

theorem Effect.owned (he : Effect s a t) (hi : s.Inv) (hC : s.opensAlone a = true)
    (ho : s.table.Owned) : t.table.Owned := by
  cases he with
  | quiet h | registry h => rw [h.table]; exact ho
  | endSession => exact ho.remove _
  | eof => exact ho.drain
  | @spawn a f tcp i sent h =>
    simp only [opensAlone, h.opensId, Option.all_some, Bool.and_eq_true, Bool.not_eq_true'] at hC
    obtain ⟨hfree, rfl⟩ := hC
    exact ho.openTask (hi.fresh.keyFree_iff.mp hfree)
  | insert => simpa [TaskTable.insert, ho.closed] using ho
  | remove hu => exact ho.finish hu.running_key
  | dropReader hu ha => exact ho.drop hu.task ha
  | _ => exact ho

theorem owned_of_run {registry : XudpManager Handle} {as : List Act}
    (h : Run (step limits) (opensAlone · ·) (init registry) as s) : s.table.Owned := by
  have hboth := h.invariant (I := fun s => s.Inv ∧ s.table.Owned)
    (fun s a t hi hC hst => ⟨(step_effect hst).inv hi.1, (step_effect hst).owned hi.1 hC hi.2⟩)
    ⟨init_inv registry, TaskTable.init_owned⟩
  exact hboth.2

theorem ownsReaders_of_owned (ho : s.table.Owned) : s.OwnsReaders := by
  refine ⟨fun u k hu => ?_, fun k u hu hfin => ?_⟩
  · rcases ho.listed k u hu with h | h
    · exact h
    · rw [ho.closed] at h; cases h
  · have hlive : s.table.task u = _ := ho.live k u hu
    simp [hlive] at hfin

theorem removesOwn_of_owned (ho : s.table.Owned) : s.RemovesOwn limits := by
  intro u t hst k v hv hk
  cases step_effect hst with
  | @remove _ x hu =>
    have hne : k ≠ x.key := by
      rintro rfl
      exact hv (ho.entry_of_running hu.running_key hk)
    simpa [TaskTable.entries_finish hu.running_key, hne] using hk

/-- While sessions are opened alone and under free ids, the table owns the readers, and
    a reader that finishes removes no session but its own. -/
theorem sessions_own_readers {registry : XudpManager Handle} {as : List Act}
    (h : Run (step limits) (opensAlone · ·) (init registry) as s) :
    s.OwnsReaders ∧ s.RemovesOwn limits :=
  ⟨ownsReaders_of_owned (owned_of_run h), removesOwn_of_owned (owned_of_run h)⟩

theorem sessions_own_readers_reused :
    ∃ s, Run (step ⟨none, none⟩) (opensAlone · ·) (init .new)
        (openTcp 1 false ++ announceEof 0 ++ [.reader 0 .remove] ++ openTcp 1 false) s ∧
      s.OwnsReaders ∧ s.RemovesOwn ⟨none, none⟩ := by
  have hrun : Run (step ⟨none, none⟩) (opensAlone · ·) (init .new)
      (openTcp 1 false ++ announceEof 0 ++ [.reader 0 .remove] ++ openTcp 1 false) _ :=
    exec_run (fun _ _ h => h) rfl
  exact ⟨_, hrun, sessions_own_readers hrun⟩

theorem sessions_lose_readers :
    (∃ as s, Run (step ⟨none, none⟩) Any (init .new) as s ∧
      ∃ u k, s.table.Live u k ∧ s.table.entries k ≠ some u) ∧
    (∃ as s, Run (step ⟨none, none⟩) Any (init .new) as s ∧ ¬ s.RemovesOwn ⟨none, none⟩) ∧
    ∃ as s, Run (step ⟨none, none⟩) Any (init .new) as s ∧
      ∃ k u, s.table.entries k = some u ∧ (s.table.task u).map Task.status = some .finished := by
  refine ⟨?_, ?_, ?_⟩
  · exact ⟨openTcp 1 false ++ openTcp 1 false, _, exec_any rfl, 0, 1, rfl,
      fun h => by cases h⟩
  · obtain ⟨s, t, hs, hentry, hst, ht⟩ : ∃ s t, exec (step ⟨none, none⟩) (fun _ _ => true)
        (init .new) (openTcp 1 false ++ openTcp 1 false ++ announceEof 0) = some s ∧
        s.table.entries 1 = some 1 ∧ s.step ⟨none, none⟩ (.reader 0 .remove) = some t ∧
        t.table.entries 1 = none := ⟨_, _, rfl, rfl, rfl, rfl⟩
    refine ⟨_, s, exec_any hs, fun h => ?_⟩
    rw [h 0 t hst 1 1 (by simp) hentry] at ht
    cases ht
  · exact ⟨openTcp 1 true ++ announceEof 0 ++ [.reader 0 .remove, .main .insert], _, exec_any rfl,
      1, 0, rfl, rfl⟩

end SkadiCore.Mux.Relay
