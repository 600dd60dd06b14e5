import SkadiCore.Mux.RelaySteps

/-!
# What the mux relay counts

`relay_vless_mux_with_limits` (`crates/skadi-transport/src/mux.rs`, lines 117-185) returns
two counters. The one for the direction to the upstreams is kept by the frame handlers. The
other one is never added to: what the reader tasks write to the client, they do not report.
-/

namespace SkadiCore.Mux

open SkadiCore.Relay

namespace Relay

variable {s t r : Relay} {a : Act} {limits : RelayLimits}

def payloadPushed (s : Relay) (p : Party) (k : ℕ) : ℕ :=
  match s.writer.pc p with
  | .write f _ rest =>
    min rest.length (f.payload.getD []).length - min (rest.length - k) (f.payload.getD []).length
  | _ => 0

def carried (s : Relay) (a : Act) : ℕ × ℕ :=
  match s.main, a with
  | .sendInitial _ _ payload, .main (.initialOk _) => (payload.length, 0)
  | .keep _ payload, .main .keepOk => (payload.length, 0)
  | .sendTo payload, .main .sendToOk => (payload.length, 0)
  | _, .write p (.push k) => (0, s.payloadPushed p k)
  | _, _ => (0, 0)

/-! ## Steps that count nothing -/

theorem handleMuxFrame_keeps (hs : s.main.busy = false) (f : MuxFrame) (now : ℕ) :
    Keeps s (s.handleMuxFrame f now) := by
  unfold handleMuxFrame
  split_ifs
  · exact (handleXudpFrame_handles hs f now).toKeeps
  · split
    · exact ⟨rfl, fun _ h => by cases h⟩
    · dsimp only
      split_ifs <;> exact ⟨rfl, fun _ h => by cases h⟩
  · unfold forwardKeepFrame
    split
    · exact ⟨rfl, fun _ h => by cases h⟩
    · split
      · exact ⟨rfl, fun _ h => by cases h⟩
      · exact .of_main rfl rfl
  · exact .of_main rfl rfl
  · exact .of_main rfl rfl
  · exact ⟨rfl, fun _ h => by cases h⟩

theorem Effect.keeps (he : Effect s a t) (ha : ∀ m, a ≠ .main m) : Keeps s t := by
  cases he with
  | quiet | answer | keep | endSession | eof | spawn | insert | keepRequest | keepEnter | keepOk
  | keepErr => exact absurd rfl (ha _)
  | registry h => exact h.toKeeps
  | wroteMain | failMain => exact ⟨rfl, fun _ h => by cases h⟩
  | _ => exact .of_main rfl rfl

/-! ## The main loop -/

def Reports (s : Relay) : Prop := ∀ n, s.main = .returned (.ok n) → n = (s.clientToUpstream, 0)

theorem Keeps.reports (h : Keeps s t) (hs : s.Reports) : t.Reports := by
  intro n hn
  rw [h.count]
  exact hs n (h.ok n hn)

structure Counts (s : Relay) (a : Act) (t : Relay) : Prop where
  count : t.clientToUpstream = s.clientToUpstream + (s.carried a).1
  reports : s.Reports → t.Reports

theorem Keeps.counts (h : Keeps s t) (hc : (s.carried a).1 = 0) : Counts s a t :=
  ⟨by rw [hc, h.count, Nat.add_zero], h.reports⟩

theorem spawnSession_counts {f : MuxFrame} {tcp i : Bool} {sent : List Bytes}
    (hc : (s.carried a).1 = sent.flatten.length) : Counts s a (s.spawnSession f tcp i sent) := by
  refine ⟨by rw [hc]; rfl, fun _ n hn => ?_⟩
  cases i <;> simp [spawnSession] at hn

theorem mainStep_counts {a : MainAct} (h : s.mainStep limits a = some t) :
    Counts s (.main a) t := by
  replace h := mainStep_cases h
  cases h with
  | frame hs f now =>
    exact (handleMuxFrame_keeps (by rw [hs]; rfl) f now).counts (by simp [carried, hs])
  | eof hs | connectOk hs | insert hs | readError hs | idleTimeout hs | lifetimeTimeout hs
  | connectErr hs | initialErr hs | bindErr hs | sendToErr hs | keepErr hs =>
    exact Keeps.counts ⟨rfl, fun _ h => by cases h⟩ (by simp [carried, hs])
  | spawn h =>
    obtain ⟨hs, -, rfl, rfl⟩ | ⟨payload, hs, rfl, rfl⟩ := h
    · exact spawnSession_counts (by simp [carried, hs])
    · exact spawnSession_counts (by simp [carried, hs])
  | keepRequest hs | keepEnter hs => exact Keeps.counts (.of_main rfl rfl) (by simp [carried, hs])
  | keepOk hs => exact ⟨by simp [carried, hs, setUpstream], fun _ _ h => by cases h⟩
  | @acquireErr f id bind e hs h =>
    have hregistry := registry_handles s (s.registry.acquireInner id bind).1 s.calls
      (s.registry.acquireInner id bind).2.1
    exact Keeps.counts ⟨hregistry.count, fun _ h => by cases h⟩ (by simp [carried, hs])
  | @acquireOk f id bind socket hit hs h =>
    have hregistry := registry_handles s (s.registry.acquireInner id bind).1 s.calls
      (s.registry.acquireInner id bind).2.1
    have hbusy := hregistry.busy (by rw [hs]; rfl)
    exact (hregistry.trans (setXudp_handles hbusy _ f)).toKeeps.counts (by simp [carried, hs])
  | bindOk hs socket =>
    exact (setXudp_handles (by rw [hs]; rfl) _ _).toKeeps.counts (by simp [carried, hs])
  | @sendToOk payload hs =>
    have hkeeps := (startXudpReaderIfNeeded_handles
      (s := { s with clientToUpstream := s.clientToUpstream + payload.length })
      (by simp only [hs]; rfl)).toKeeps
    refine ⟨by rw [hkeeps.count]; simp [carried, hs], fun _ => hkeeps.reports fun n hn => ?_⟩
    simp [hs] at hn
  | closeCone hs now =>
    refine ⟨by rw [(closeXudpCone_handles s now).count]; simp [carried, hs], fun _ n hn => ?_⟩
    simpa using hn.symm

theorem carried_of_other (ha : ∀ m, a ≠ .main m) : (s.carried a).1 = 0 := by
  unfold carried
  split <;> first | rfl | exact absurd rfl (ha _)

theorem step_counts (h : s.step limits a = some t) : Counts s a t := by
  by_cases hmain : ∃ m, a = .main m
  · obtain ⟨m, rfl⟩ := hmain
    exact mainStep_counts h
  · have ha : ∀ m, a ≠ .main m := fun m hm => hmain ⟨m, hm⟩
    exact ((step_effect h).keeps ha).counts (carried_of_other ha)

end Relay

end SkadiCore.Mux
