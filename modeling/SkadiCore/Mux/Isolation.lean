import SkadiCore.Mux.RelayInv

/-!
# Failures of one session

A target that is refused or cannot be reached, a failing upstream write, a NEW
frame without a target and a datagram that cannot be sent concern one session. The
frame handler reports each of them by an error, and the loop returns every error of
the handler (`crates/skadi-transport/src/mux.rs`, lines 156-159).
-/

namespace SkadiCore.Mux.Relay

open SkadiCore.Relay

variable {s t : Relay} {a : Act} {limits : RelayLimits}

/-- The session whose frame fails in the step for a reason of its own: connect
    failure, failure to send the first payload, failing write of a KEEP payload, a
    datagram that is not sent, NEW without a target. -/
def failing (s : Relay) : Act → Option UInt16
  | .main (.connectErr _) => match s.main with
    | .connect f _ => some f.meta_.sessionId
    | _ => none
  | .main (.initialErr _) => match s.main with
    | .sendInitial f _ _ => some f.meta_.sessionId
    | _ => none
  | .main (.keepErr _) => match s.main with
    | .keep u _ => (s.table.task u).map Task.key
    | _ => none
  | .main (.sendToErr _) => some XUDP_SESSION_ID
  | .main (.frame f _) =>
    if f.meta_.status = SESSION_STATUS_NEW ∧ f.meta_.target = none then some f.meta_.sessionId
    else none
  | _ => none

/-- The failure of session `k` in the step from `s` to `t` stays with it: the relay
    goes on, the other sessions and the cone are as before, and END is written for
    `k` in some run from `t`. -/
def Isolated (limits : RelayLimits) (s t : Relay) (k : UInt16) : Prop :=
  (∀ r, t.main ≠ .returned r) ∧
    (∀ k', k' ≠ k → t.table.entries k' = s.table.entries k') ∧ t.xudp = s.xudp ∧
    ∃ as r, Run (step limits) Any t as r ∧
      (Party.main, endFrame k) ∈ r.writer.sent.drop s.writer.sent.length

theorem handleMuxFrame_of_no_target (s : Relay) {f : MuxFrame} (now : ℕ)
    (hnew : f.meta_.status = SESSION_STATUS_NEW) (htarget : f.meta_.target = none) :
    ∃ e, s.handleMuxFrame f now = s.fail e := by
  unfold handleMuxFrame handleXudpFrame
  simp only [hnew, htarget, if_true]
  split_ifs <;> exact ⟨_, rfl⟩

theorem main_of_failing {k : UInt16} (hk : s.failing a = some k)
    (hst : s.step limits a = some t) : ∃ e, t.main = .returned (.error e) := by
  cases a with
  | main m =>
    change s.mainStep limits m = some t at hst
    cases m with
    | frame f now =>
      simp only [failing, Option.ite_none_right_eq_some] at hk
      obtain ⟨e, he⟩ := handleMuxFrame_of_no_target s now hk.1.1 hk.1.2
      cases hm : s.main <;> simp only [mainStep, hm, reduceCtorEq] at hst
      rw [he] at hst
      cases hst
      exact ⟨e, rfl⟩
    | connectErr msg | initialErr e | sendToErr msg =>
      cases hm : s.main <;> simp only [mainStep, hm, reduceCtorEq, Option.some.injEq] at hst
      exact ⟨_, by rw [← hst]; rfl⟩
    | keepErr e =>
      cases hm : s.main <;> simp only [mainStep, hm, reduceCtorEq] at hst
      split_ifs at hst
      cases hst
      exact ⟨e, rfl⟩
    | _ => simp [failing] at hk
  | _ => simp [failing] at hk

variable {r : Except IoError (ℕ × ℕ)}

theorem step_returned (hs : s.main = .returned r) (hst : s.step limits a = some t) :
    t.main = .returned r := by
  cases a with
  | main m =>
    change s.mainStep limits m = some t at hst
    simp [mainStep, hs] at hst
  | _ =>
    rcases (step_effect hst).main_of_other (by simp) with hm | hm
    · rw [hm, hs]
    · rw [hs] at hm; cases hm

theorem sent_of_returned {f : MuxFrame} (hs : s.main = .returned r) (hst : s.step limits a = some t)
    (hf : (Party.main, f) ∈ t.writer.sent) : (Party.main, f) ∈ s.writer.sent := by
  rcases (step_effect hst).sent_cases with h | ⟨p, f', hp, h⟩
  · rwa [h] at hf
  · rw [h] at hf
    rcases List.mem_append.mp hf with hf | hf
    · exact hf
    · obtain ⟨rfl, -⟩ : Party.main = p ∧ f = f' := by simpa using hf
      rw [main_of_writes hp] at hs
      cases hs

/-- A failure of one session is never isolated: the relay has returned, and in no run
    from there does the main loop come back or write a frame. -/
theorem local_failure_ends_relay {k : UInt16} (hk : s.failing a = some k)
    (hst : s.step limits a = some t) :
    ¬ Isolated limits s t k ∧ ∃ e, t.main = .returned (.error e) ∧
      ∀ bs r, Run (step limits) Any t bs r → r.main = .returned (.error e) ∧
        ∀ f, (Party.main, f) ∈ r.writer.sent → (Party.main, f) ∈ t.writer.sent := by
  obtain ⟨e, he⟩ := main_of_failing hk hst
  refine ⟨fun hiso => hiso.1 _ he, e, he, fun bs r hrun => ?_⟩
  refine hrun.invariant (I := fun r => r.main = .returned (.error e) ∧
    ∀ f, (Party.main, f) ∈ r.writer.sent → (Party.main, f) ∈ t.writer.sent) ?_ ⟨he, fun _ h => h⟩
  rintro r a r' ⟨hr, hsent⟩ - hst'
  exact ⟨step_returned hr hst', fun f hf => hsent f (sent_of_returned hr hst' hf)⟩

def openSecond : List Act := openTcp 1 false ++ (openTcp 2 false).take 1

theorem local_failure_ends_relay_refused :
    ∃ s t, Run (step ⟨none, none⟩) Any (init .new) openSecond s ∧
      s.failing (.main (.connectErr "refused")) = some 2 ∧
      s.step ⟨none, none⟩ (.main (.connectErr "refused")) = some t ∧
      ¬ Isolated ⟨none, none⟩ s t 2 := by
  exact ⟨_, _, exec_any rfl, rfl, rfl,
    (local_failure_ends_relay (a := .main (.connectErr "refused")) rfl rfl).1⟩

theorem refused_connect_not_isolated :
    ∃ as s t, Run (step ⟨none, none⟩) Any (init .new) as s ∧
      s.failing (.main (.connectErr "refused")) = some 2 ∧
      s.step ⟨none, none⟩ (.main (.connectErr "refused")) = some t ∧
      t.table.entries 1 = some 0 ∧ t.table.Live 0 1 ∧ t.writer.sent = [] ∧
      ¬ Isolated ⟨none, none⟩ s t 2 := by
  exact ⟨openSecond, _, _, exec_any rfl, rfl, rfl, rfl, rfl, rfl, fun hiso => hiso.1 _ rfl⟩

end SkadiCore.Mux.Relay
