import SkadiCore.Mux.RelayInv

/-!
# The mux downlink and cancelled readers

A reader task holds the writer lock while `write_all` hands a frame to the client
stream. Dropping the task there drops the lock behind a part of a frame.
-/

namespace SkadiCore.Mux.Relay

open SkadiCore.Relay

variable {s t : Relay} {a : Act} {limits : RelayLimits}

/-- The client stream has the frames that were written to their end, in this order, and
    behind them at most the beginning of the frame that the holder of the lock writes. -/
def Aligned (s : Relay) : Prop :=
  ∃ tail, s.writer.out = s.writer.complete wire ++ tail ∧
    (tail = [] ∨
      ∃ p f, s.writer.mutex.holder = some p ∧ s.frameOf p = some f ∧ tail <+: wire f)

/-- A reader is not dropped (mux.rs 46-53, xudp.rs 71-83) behind a part of a frame. -/
def cleanDrop (s : Relay) : Act → Bool
  | .reader u .drop => !s.writer.midFrame (.reader u)
  | .cone c .drop => !s.writer.midFrame (.cone c)
  | _ => true

theorem midFrame_of_cleanDrop {p : Party} (hC : s.cleanDrop a = true) (h : Drops a p) :
    s.writer.midFrame p = false := by
  rcases h with ⟨u, rfl, rfl⟩ | ⟨c, rfl, rfl⟩ <;> simpa [cleanDrop] using hC

theorem Effect.framed (he : Effect s a t) (hi : s.Inv) (hC : s.cleanDrop a = true)
    (hf : s.writer.broken = false → s.writer.Framed wire) (hb : t.writer.broken = false) :
    t.writer.Framed wire := by
  rcases he.writer_op hi with h | h | ⟨p, o, h, -, hdrop⟩
  · rw [h] at hb ⊢; exact hf hb
  · rw [h] at hb; cases hb
  · have hb' : s.writer.broken = false := by rwa [FrameWriter.op_broken h] at hb
    exact FrameWriter.op_framed hi.frames (hf hb') hb'
      (fun ho => midFrame_of_cleanDrop hC (hdrop ho)) h

theorem framed_of_run {registry : XudpManager Handle} {as : List Act}
    (h : Run (step limits) (cleanDrop · ·) (init registry) as s) (hb : s.writer.broken = false) :
    s.writer.Framed wire := by
  have hboth := h.invariant
    (I := fun s => s.Inv ∧ (s.writer.broken = false → s.writer.Framed wire))
    (fun s a t hi hC hst =>
      ⟨(step_effect hst).inv hi.1, (step_effect hst).framed hi.1 hC hi.2⟩)
    ⟨init_inv registry, fun _ => FrameWriter.init_framed⟩
  exact hboth.2 hb

theorem aligned_of_framed (hi : s.Inv) (hf : s.writer.Framed wire) : s.Aligned := by
  by_cases hw : ∃ p f done rest, s.writer.pc p = .write f done rest
  · obtain ⟨p, f, done, rest, hp⟩ := hw
    refine ⟨done, hf.writing p f done rest hp, .inr ⟨p, f, ?_, ?_, rest, ?_⟩⟩
    · exact hi.frames.inside p (.inl ⟨f, done, rest, hp⟩)
    · simp [frameOf, hp, WritePc.frame]
    · exact (hi.frames.parts p f done rest hp).1
  · refine ⟨[], ?_, .inl rfl⟩
    rw [List.append_nil]
    exact hf.quiet fun p f done rest hp => hw ⟨p, f, done, rest, hp⟩

/-- While the client stream is up and no task is dropped in the middle of a frame,
    the stream is aligned, and a frame is only begun behind the frames written to their end. -/
theorem downlink_aligned {registry : XudpManager Handle} {as : List Act}
    (h : Run (step limits) (cleanDrop · ·) (init registry) as s) (hb : s.writer.broken = false) :
    s.Aligned ∧ ∀ p f rest, s.writer.pc p = .write f [] rest →
      s.writer.out = s.writer.complete wire := by
  have hi := inv_of_run h
  have hf := framed_of_run h hb
  refine ⟨aligned_of_framed hi hf, fun p f rest hp => ?_⟩
  rw [hf.writing p f [] rest hp, List.append_nil]

def endWhileWriting (k : ℕ) : List Act :=
  openTcp 1 false ++ [.reader 0 .request, .reader 0 .enter, .arrive 0 [65], .reader 0 (.data 1),
    .write (.reader 0) .request, .write (.reader 0) .enter, .write (.reader 0) (.push k),
    .main (.frame (endFrame 1) 0), .reader 0 .drop]

theorem downlink_aligned_endWhileFlushing :
    ∃ s, Run (step ⟨none, none⟩) (cleanDrop · ·) (init .new) (endWhileWriting 9) s ∧
      s.writer.broken = false ∧ s.Aligned := by
  have hrun : Run (step ⟨none, none⟩) (cleanDrop · ·) (init .new) (endWhileWriting 9) _ :=
    exec_run (fun _ _ h => h) rfl
  exact ⟨_, hrun, rfl, (downlink_aligned hrun rfl).1⟩

theorem downlink_misaligned : ∃ as s, Run (step ⟨none, none⟩) Any (init .new) as s ∧
    s.writer.broken = false ∧ ¬ s.Aligned := by
  obtain ⟨s, hs, hb, hout, hsent, hholder⟩ : ∃ s, exec (step ⟨none, none⟩) (fun _ _ => true)
      (init .new) (endWhileWriting 1) = some s ∧ s.writer.broken = false ∧ s.writer.out = [0] ∧
      s.writer.sent = [] ∧ s.writer.mutex.holder = none := ⟨_, rfl, rfl, rfl, rfl, rfl⟩
  refine ⟨_, s, exec_any hs, hb, ?_⟩
  rintro ⟨tail, heq, rfl | ⟨p, f, hp, -⟩⟩
  · rw [hout, FrameWriter.complete, hsent] at heq
    cases heq
  · rw [hholder] at hp
    cases hp

end SkadiCore.Mux.Relay
