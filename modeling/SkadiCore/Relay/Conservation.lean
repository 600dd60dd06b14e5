import SkadiCore.Relay.Copy

/-!
# What is read from one stream is written to the other

Conservation for `copy_bidirectional_with_limits` (`crates/skadi-transport/src/relay.rs`,
lines 29-111). A run of the call, seen from one direction, is a run of the pipe of this
direction: the steps of the other one, the clock and the timers do not touch it.
-/

namespace SkadiCore.Relay

def CopyAct.op (d : Dir) : CopyAct → Option Pipe.Op
  | read d' n => if d' = d then some (.read n) else none
  | eof d' => if d' = d then some .eof else none
  | write d' k => if d' = d then some (.write k) else none
  | close d' => if d' = d then some .close else none
  | _ => none

namespace Copy

variable {c c' : Copy} {act : CopyAct} {as : List CopyAct} {d d' : Dir} {o : Pipe.Op}
  {limits : RelayLimits} {now : ℕ} {fromA fromB : Bytes} {C : Copy → CopyAct → Prop}

@[simp] theorem op_ofOp : (CopyAct.ofOp d' o).op d = if d' = d then some o else none := by
  cases o <;> rfl

theorem op_of_not_benign (h : act.benign = false) : act.op d = none := by
  cases act <;> first | rfl | cases h

theorem pipe_start : (start limits now fromA fromB).pipe d = .start (stream fromA fromB d) := by
  cases d <;> rfl

theorem step_pipe (h : c.step act = some c') (d : Dir) :
    (act.op d = none ∧ c'.pipe d = c.pipe d) ∨
      ∃ o, act.op d = some o ∧ (c.pipe d).apply 8192 o = some (c'.pipe d) := by
  obtain ⟨-, ⟨dt, rfl, rfl⟩ | ⟨d', o, p, rfl, -, hp, rfl⟩ | ⟨e, hb, rfl⟩ | ⟨rfl, -, rfl⟩⟩ :=
    step_effect h
  · exact .inl ⟨rfl, by cases d <;> rfl⟩
  · by_cases hd : d' = d
    · subst hd
      exact .inr ⟨o, by simp, by simpa using hp⟩
    · exact .inl ⟨by simp [hd], by simp [Ne.symm hd]⟩
  · exact .inl ⟨op_of_not_benign hb, pipe_ret _⟩
  · exact .inl ⟨rfl, pipe_ret _⟩

theorem run_pipe (h : Run Copy.step C (start limits now fromA fromB) as c) (d : Dir) :
    Run (Pipe.apply 8192) Any (.start (stream fromA fromB d)) (as.filterMap (CopyAct.op d))
      (c.pipe d) := by
  induction h with
  | nil => exact pipe_start ▸ .nil _
  | snoc _ _ hst ih =>
    rw [List.filterMap_append]
    obtain ⟨hop, hpipe⟩ | ⟨o, hop, hp⟩ := step_pipe hst d
    · simpa [hop, hpipe] using ih
    · simpa [hop] using ih.snoc trivial hp

theorem result_eq_counts (h : Run Copy.step C (start limits now fromA fromB) as c) :
    ∀ r, c.result = some (.ok r) → r = (c.ab.count, c.ba.count) := by
  induction h with
  | nil => exact fun r hr => nomatch hr
  | snoc _ _ hst ih =>
    intro r hr
    obtain ⟨hres, ⟨dt, -, rfl⟩ | ⟨d, p, -, -, rfl⟩ | ⟨e, -, rfl⟩ | ⟨-, -, rfl⟩⟩ := step_cases hst
    · simp [hres] at hr
    · simp [hres] at hr
    · simp [ret] at hr
    · simpa [ret] using hr.symm

theorem result_eq_written (h : Run Copy.step C (start limits now fromA fromB) as c) {r : ℕ × ℕ}
    (hok : c.result = some (.ok r)) : r = (c.ab.written.length, c.ba.written.length) := by
  have hinv := (inv_start limits now fromA fromB).run h
  have hcount : ∀ d, (c.pipe d).count = (c.pipe d).written.length := by
    intro d
    have hcarries := Pipe.run_carries (run_pipe h d)
    have hdone := hinv.done r hok d
    rw [hcarries.written_eq (by simp [Pipe.readDone, hdone])]
    exact (Pipe.run_counts (run_pipe h d)).count_eq hcarries hdone
  rw [result_eq_counts h r hok]
  exact Prod.ext (hcount .aToB) (hcount .bToA)

/-- In every state of every run, what was written to each stream is a prefix of what was
    read from the other. When `Ok` is returned, each stream was read to its end, the
    other stream got all of it and was shut down once, behind the last write, and the
    lengths are returned. -/
theorem copy_conserves (limits : RelayLimits) (now : ℕ) (fromA fromB : Bytes)
    (hrun : Run Copy.step Any (start limits now fromA fromB) as c) :
    (∀ d, ∃ got, got ++ (c.pipe d).unread = stream fromA fromB d ∧ (c.pipe d).written <+: got) ∧
    ∀ x y, c.result = some (.ok (x, y)) →
      (∀ d, (c.pipe d).written = stream fromA fromB d ∧
        ∃ body, Pipe.Transfers body ∧ as.filterMap (CopyAct.op d) = body ++ [.eof, .close]) ∧
      x = fromA.length ∧ y = fromB.length := by
  have hinv := (inv_start limits now fromA fromB).run hrun
  have hcarries := fun d => Pipe.run_carries (run_pipe hrun d)
  constructor
  · intro d
    exact ⟨(c.pipe d).written ++ (c.pipe d).pending, (hcarries d).content, List.prefix_append _ _⟩
  · intro x y hok
    have hdone := hinv.done _ hok
    have hwritten : ∀ d, (c.pipe d).written = stream fromA fromB d := fun d =>
      (hcarries d).written_eq (by simp [Pipe.readDone, hdone d])
    obtain ⟨rfl, rfl⟩ := Prod.mk.inj (result_eq_written hrun hok)
    refine ⟨fun d => ⟨hwritten d, ?_⟩, congrArg List.length (hwritten .aToB),
      congrArg List.length (hwritten .bToA)⟩
    have hlog := Pipe.run_logged (run_pipe hrun d)
    rwa [hdone d] at hlog

theorem copy_conserves_both :
    ∃ as c, Run Copy.step Any (start ⟨some 10, some 100⟩ 0 [1, 2] [3]) as c ∧
      c.result = some (.ok (2, 1)) ∧ c.ab.written = [1, 2] ∧ c.ba.written = [3] ∧
      ∃ body, Pipe.Transfers body ∧
        as.filterMap (CopyAct.op .aToB) = body ++ [.eof, .close] := by
  have hrun : Run Copy.step Any (start ⟨some 10, some 100⟩ 0 [1, 2] [3])
      [.read .aToB 2, .write .aToB 1, .tick 5, .write .aToB 1, .eof .aToB, .close .aToB,
        .read .bToA 1, .write .bToA 1, .eof .bToA, .close .bToA, .finish] _ := exec_any rfl
  obtain ⟨hall, -, -⟩ := (copy_conserves _ _ _ _ hrun).2 2 1 rfl
  exact ⟨_, _, hrun, rfl, (hall .aToB).1, (hall .bToA).1, (hall .aToB).2⟩

end Copy

end SkadiCore.Relay
