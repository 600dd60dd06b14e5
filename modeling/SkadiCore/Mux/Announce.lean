import SkadiCore.Mux.ReaderView

/-!
# The announcement of ended sessions

When the upstream of a session ends, its reader writes END and then removes the
session from the table. The main loop writes an END of its own for every KEEP frame
for which no session is stored, and a TCP reader whose read fails writes none.
-/

namespace SkadiCore.Mux.Relay

open SkadiCore.Relay

variable {s t : Relay} {a : Act} {limits : RelayLimits} {u : ℕ} {k : UInt16}

/-- Reader `u` read an end that it has to announce: of a TCP stream only its end of file. -/
def SawEnd (s : Relay) (u : ℕ) : Prop :=
  ∃ e, (s.reader u).ended = some e ∧ (e = .eof ∨ (s.upstream u).source.isTcp = false)

theorem SawEnd.announces (h : s.SawEnd u) : (s.view u).Announces := by
  obtain ⟨e, he, h⟩ := h
  refine ⟨e, he, ?_⟩
  rcases h with rfl | h
  · rfl
  · cases e <;> simp [view, h, endPump]

/-! ## What the reader has written -/

variable {C : Relay → Act → Prop}

theorem ok_of_run {registry : XudpManager Handle} {as : List Act}
    (h : Run (step limits) C (init registry) as s) (u : ℕ) : (s.view u).Ok := by
  have hall := h.invariant (I := fun s => s.Inv ∧ ∀ u, (s.view u).Ok) ?_
    ⟨init_inv registry, fun u => ⟨rfl, rfl⟩⟩
  · exact hall.2 u
  · rintro s a t ⟨hi, hok⟩ - hst
    refine ⟨(step_effect hst).inv hi, fun u => ?_⟩
    rcases (step_effect hst).view hi.toTableInv u with h | h
    · rw [h]; exact hok u
    · exact h.ok (hok u)

variable {bs : List Act}

theorem announces_of_run (hi : s.Inv) (hok : (s.view u).Ok) (hu : s.table.task u ≠ none)
    (he : (s.view u).Announces) (h : Run (step limits) C s bs t) : (t.view u).Announces := by
  have hall := h.invariant (I := fun r : Relay => r.Inv ∧ (r.view u).Ok ∧
    (r.view u).Announces ∧ (r.view u).task ≠ none) ?_ ⟨hi, hok, he, hu⟩
  · exact hall.2.2.1
  · rintro r a r' ⟨hi, hok, he, hu⟩ - hst
    refine ⟨(step_effect hst).inv hi, ?_⟩
    rcases (step_effect hst).view hi.toTableInv u with h | h
    · rw [h]; exact ⟨hok, he, hu⟩
    · exact ⟨h.ok hok, h.announces hok hu he⟩

theorem log_of_finished {b : Bool} (hok : (s.view u).Ok)
    (hu : s.table.task u = some ⟨k, .finished, b⟩) (he : (s.view u).Announces)
    (hb : s.writer.broken = false) :
    ∃ ds, s.log (.reader u) = ds ++ [endFrame k] ∧
      ∀ f ∈ ds, ∃ chunk, f = dataFrame k none chunk := by
  have htask : (s.view u).task = some ⟨k, .finished, b⟩ := hu
  simp only [ReaderView.Ok, htask] at hok
  exact ReaderView.eq_append_endFrame hok.1 hok.2.1 (hok.2.2.2 he hb)

variable {x : Task UInt16}

theorem log_eq_of_finished (hi : s.Inv) (hu : s.table.task u = some x) (hx : x.status = .finished)
    (h : Run (step limits) Any s bs t) : t.log (.reader u) = s.log (.reader u) := by
  have hall := h.invariant (I := fun r : Relay => r.Inv ∧ r.log (.reader u) = s.log (.reader u) ∧
    ∃ x, r.table.task u = some x ∧ x.status = .finished) ?_ ⟨hi, rfl, x, hu, hx⟩
  · exact hall.2.1
  · rintro r a r' ⟨hi, hlog, x, hx⟩ - hst
    refine ⟨(step_effect hst).inv hi, ?_⟩
    rcases (step_effect hst).view hi.toTableInv u with h | h
    · rw [← hlog]
      exact ⟨congrArg ReaderView.log h, x, (congrArg ReaderView.task h).trans hx.1, hx.2⟩
    · obtain ⟨h1, h2⟩ := h.of_finished hx.1 hx.2
      exact ⟨h1.trans hlog, h2⟩

/-! ## The reader can finish -/

/-- Only the writers of frames take steps. -/
def Writers : Relay → Act → Prop := fun _ a => ∃ p b, a = .write p b

/-- Only reader `u` and the writers of frames take steps. -/
def ReaderAndWriters (u : ℕ) : Relay → Act → Prop :=
  fun _ a => (∃ p b, a = .write p b) ∨ ∃ b, a = .reader u b

structure TaskKept (s t : Relay) (p : Party) : Prop where
  table : t.table = s.table
  reader : ∀ u, p = .reader u → t.reader u = s.reader u
  cone : ∀ c, p = .cone c → t.cones c = s.cones c

theorem TaskKept.refl (s : Relay) (p : Party) : TaskKept s s p :=
  ⟨rfl, fun _ _ => rfl, fun _ _ => rfl⟩

theorem TaskKept.trans {r : Relay} {p : Party} (h : TaskKept s r p) (h' : TaskKept r t p) :
    TaskKept s t p :=
  ⟨h'.table.trans h.table, fun u hu => (h'.reader u hu).trans (h.reader u hu),
    fun c hc => (h'.cone c hc).trans (h.cone c hc)⟩

theorem wrote_same {p q : Party} (f : MuxFrame) (hq : p ≠ q) :
    (s.wrote p f).writer = s.writer ∧ TaskKept s (s.wrote p f) q := by
  cases p with
  | main => exact ⟨rfl, rfl, fun _ _ => rfl, fun _ _ => rfl⟩
  | reader v =>
    have hne : ∀ u, q = .reader u → u ≠ v := by rintro u rfl rfl; exact hq rfl
    unfold wrote
    dsimp only
    split_ifs <;> refine ⟨rfl, rfl, fun u hu => ?_, fun _ _ => rfl⟩ <;>
      exact Function.update_of_ne (hne u hu) _ _
  | cone c =>
    have hne : ∀ c', q = .cone c' → c' ≠ c := by rintro c' rfl rfl; exact hq rfl
    unfold wrote
    dsimp only
    split
    · exact ⟨rfl, .refl s q⟩
    · split_ifs <;> refine ⟨rfl, rfl, fun _ _ => rfl, fun c' hc => ?_⟩ <;>
        exact Function.update_of_ne (hne c' hc) _ _

variable {w : FrameWriter Party MuxFrame Byte}

theorem step_of_op (limits : RelayLimits) {p q : Party} {o : WriteOp MuxFrame} (hi : s.Inv)
    (ho : FrameWriter.Serves q s.writer (p, o)) (h : s.writer.op wire p o = some w) :
    ∃ b t, s.step limits (.write p b) = some t ∧ t.writer = w ∧ TaskKept s t q := by
  have hf : ∃ f, s.frameOf p = some f := by
    rcases FrameWriter.op_cases h with ⟨f, rfl, -⟩ | ⟨f, -, hpc, -⟩ | ⟨f, -, hpc, -⟩ |
      ⟨k, f, done, rest, -, hpc, -⟩ | ⟨f, done, rest, -, hpc, -⟩ |
      ⟨⟨rfl, -, f, hpc⟩ | ⟨rfl, -⟩ | rfl, -⟩
    case inr.inr.inr.inr.inr.inl => exact ⟨f, by simp [frameOf, hpc, WritePc.frame]⟩
    all_goals first | exact ho.elim | exact ⟨f, by simp [frameOf, hpc, WritePc.frame]⟩
  obtain ⟨f, hf⟩ := hf
  have hw : s.writes p = true := by
    by_contra hw
    rw [frameOf, hi.idle p (by simpa using hw)] at hf
    cases hf
  have hkept : TaskKept s { s with writer := w } q := ⟨rfl, fun _ _ => rfl, fun _ _ => rfl⟩
  cases o with
  | start | fail | cancel => exact ho.elim
  | request =>
    exact ⟨.request, { s with writer := w }, by simp [step, writeStep, hw, hf, WriteAct.op, h],
      rfl, hkept⟩
  | enter =>
    exact ⟨.enter, { s with writer := w }, by simp [step, writeStep, hw, hf, WriteAct.op, h],
      rfl, hkept⟩
  | push k =>
    exact ⟨.push k, { s with writer := w }, by simp [step, writeStep, hw, hf, WriteAct.op, h],
      rfl, hkept⟩
  | flushed =>
    obtain ⟨hwriter, htask⟩ := wrote_same (s := { s with writer := w }) f ho
    exact ⟨.flushed, wrote { s with writer := w } p f,
      by simp [step, writeStep, hw, hf, WriteAct.op, h], hwriter, hkept.trans htask⟩

theorem run_of_serves (limits : RelayLimits) {q : Party} {ops : List (Party × WriteOp MuxFrame)}
    (hi : s.Inv) (h : Run (FrameWriter.opStep wire) (FrameWriter.Serves q) s.writer ops w) :
    ∃ bs t, Run (step limits) Writers s bs t ∧ t.Inv ∧ t.writer = w ∧ TaskKept s t q := by
  generalize hw : s.writer = w₀ at h
  induction h with
  | nil => exact ⟨[], s, .nil s, hi, hw, .refl s q⟩
  | @snoc w₁ w₂ ops o hrun ho hst ih =>
    obtain ⟨bs, r, hrun', hri, rfl, hkept⟩ := ih
    obtain ⟨b, t, hstep, hw', hkept'⟩ := step_of_op limits hri ho hst
    exact ⟨_, t, hrun'.snoc ⟨_, b, rfl⟩ hstep, (step_effect hstep).inv hri, hw',
      hkept.trans hkept'⟩

theorem remove_step (limits : RelayLimits) (hx : s.At u x .removing) :
    ∃ t, s.step limits (.reader u .remove) = some t ∧
      t.table.task u = some { x with status := .finished } ∧ t.writer = s.writer := by
  refine ⟨{ s with table := s.table.finish u }, ?_, ?_, rfl⟩
  · simp [step, readerStep, hx.task, hx.running, pumpStep, hx.pump]
  · simp [TaskTable.finish_eq hx.task, TaskTable.setStatus, hx.task]

theorem finishes_of_writing (limits : RelayLimits) (hi : s.Inv) (hx : s.At u x .writing)
    (hf : s.frameOf (.reader u) = some (endFrame x.key)) (hb : s.writer.broken = false) :
    ∃ bs t, Run (step limits) (ReaderAndWriters u) s bs t ∧
      t.table.task u = some { x with status := .finished } ∧ t.writer.broken = false := by
  obtain ⟨ops, w, hserve, hpc⟩ := FrameWriter.exists_flush wire_ne_nil hi.frames hb hf
  have hbw : w.broken = false := (FrameWriter.serves_broken hserve).trans hb
  obtain ⟨bs, r, hrun, hri, rfl, hkept⟩ := run_of_serves limits hi hserve
  have hrx : r.At u x .writing :=
    ⟨by rw [hkept.table]; exact hx.task, hx.running, by rw [hkept.reader u rfl]; exact hx.pump⟩
  have hrun : Run (step limits) (ReaderAndWriters u) s bs r := hrun.mono fun _ _ => .inl
  -- the flush
  let w' : FrameWriter Party MuxFrame Byte := { r.writer with
    pc := Function.update r.writer.pc (.reader u) .idle, mutex := r.writer.mutex.leave (.reader u) }
  have hflush : r.step limits (.write (.reader u) .flushed) =
      some (setPump { r with writer := w' } u .removing) := by
    have hw : r.writes (.reader u) = true := by simp [writes, hrx.isRunning, hrx.pump]
    simp [step, writeStep, hw, frameOf, hpc, WritePc.frame, WriteAct.op, FrameWriter.op, hbw, wrote,
      isEnd_endFrame, w']
  obtain ⟨t, hst, ht, hwt⟩ := remove_step limits
    (s := setPump { r with writer := w' } u .removing) (u := u) (x := x)
    ⟨hrx.task, hx.running, by simp [setPump]⟩
  refine ⟨_, t, (hrun.snoc (.inl ⟨_, _, rfl⟩) hflush).snoc (.inr ⟨_, rfl⟩) hst, ht, ?_⟩
  rw [hwt]
  exact hbw

theorem finishes (limits : RelayLimits) {b : Bool} (hi : s.Inv) (hok : (s.view u).Ok)
    (hu : s.table.task u = some ⟨k, .running, b⟩) (he : s.SawEnd u)
    (hb : s.writer.broken = false) :
    ∃ bs t, Run (step limits) (ReaderAndWriters u) s bs t ∧
      t.table.task u = some ⟨k, .finished, b⟩ ∧ t.writer.broken = false := by
  have hat : ∀ {pump}, (s.reader u).pump = pump → s.At u ⟨k, .running, b⟩ pump := fun hp =>
    ⟨hu, rfl, hp⟩
  have hended : (s.reader u).ended ≠ none := by
    obtain ⟨e, he, -⟩ := he
    simp [he]
  obtain ⟨-, -, hphase⟩ := hok.at (hat rfl).view
  cases hp : (s.reader u).pump with
  | reading => simp [ReaderView.Phase, view, hp, hended] at hphase
  | writing =>
    simp only [ReaderView.Phase, view, hp] at hphase
    obtain ⟨f, hf, -, hend, -⟩ := hphase
    exact finishes_of_writing limits hi (hat hp) (by rw [← hend hended]; exact hf) hb
  | ending =>
    have hst : s.step limits (.reader u .announce) = some (s.readerWrites u (endFrame k)) := by
      simp [step, readerStep, hu, pumpStep, hp]
    obtain ⟨bs, t, hrun, ht⟩ := finishes_of_writing limits (u := u)
      (x := ⟨k, .running, b⟩) ((step_effect hst).inv hi)
      ⟨hu, rfl, by simp [readerWrites, setPump]⟩
      (by simp [frameOf, readerWrites, FrameWriter.start, WritePc.frame]) hb
    exact ⟨_, t, (Run.single (.inr ⟨_, rfl⟩) hst).append hrun, ht⟩
  | removing =>
    obtain ⟨t, hst, ht, hw⟩ := remove_step limits (hat hp)
    exact ⟨_, t, .single (.inr ⟨_, rfl⟩) hst, ht, by rw [hw]; exact hb⟩

/-! ## Other END frames -/

theorem Effect.mayEnd {p : Party} {f : MuxFrame} (he : Effect s a t) (h : s.frameOf p = none)
    (h' : t.frameOf p = some f) (hend : f.isEnd = true) : s.MayEnd a p f.meta_.sessionId := by
  rw [frameOf] at h h'
  cases he.writerStep with
  | same hw => rw [hw, h] at h'; cases h'
  | breaks _ hw => rw [hw, show s.writer.break_.pc p = s.writer.pc p from rfl, h] at h'; cases h'
  | @starts q g _ _ hmay hw =>
    -- the party that starts a frame is the one that begins it
    by_cases hpq : p = q
    · subst hpq
      obtain rfl : g = f := by simpa [hw, FrameWriter.start, WritePc.frame] using h'
      exact hmay hend
    · simp [hw, FrameWriter.start, hpq, h] at h'
  | op _ hop ho => rw [FrameWriter.op_frame_none hop ho.ne_start h] at h'; cases h'

/-! ## Payloads for a removed session -/

structure Gone (s : Relay) (u : ℕ) : Prop where
  stored : ∀ k, s.table.entries k ≠ some u
  opening : ∀ k, s.table.opening ≠ some (k, u)
  keeps : s.main.keeps ≠ some u
  spawned : u < s.table.next

theorem Effect.gone (he : Effect s a t) (hg : s.Gone u) :
    t.Gone u ∧ t.received u = s.received u := by
  have hmove : ∀ {t : Relay}, t.table = s.table → t.main.keeps ≠ some u →
      t.received u = s.received u → t.Gone u ∧ t.received u = s.received u :=
    fun h hm hr => ⟨⟨h ▸ hg.stored, h ▸ hg.opening, hm, h ▸ hg.spawned⟩, hr⟩
  cases he with
  | quiet h | registry h =>
    refine hmove h.table ?_ (congrFun h.received u)
    rcases h.main with hm | ⟨-, hm⟩
    · rw [hm]; exact hg.keeps
    · simp [Main.keeps_of_not_busy hm]
  | answer hs | wroteMain hs | failMain hs =>
    exact hmove rfl (by simp [writeEnd, fail, Main.keeps]) rfl
  | keepErr hs => exact hmove rfl (by simp [fail, Main.keeps]) rfl
  | @keep f now v payload hs hv =>
    refine hmove rfl ?_ rfl
    rintro h
    cases h
    exact hg.stored _ hv
  | @keepOk v payload hs h =>
    refine hmove rfl (by simp [setUpstream, Main.keeps]) ?_
    have hne : u ≠ v := by
      rintro rfl
      exact hg.keeps (by simp [hs, Main.keeps])
    simp [setUpstream, hne]
  | endSession hs =>
    exact ⟨⟨fun k h => hg.stored k (TaskTable.entries_remove h), by simpa using hg.opening,
      hg.keeps, by simpa using hg.spawned⟩, rfl⟩
  | eof hs => exact ⟨⟨by simp [TaskTable.drain], hg.opening, by simp [Main.keeps], hg.spawned⟩, rfl⟩
  | @spawn a f tcp i sent h =>
    have hne : u ≠ s.table.next := hg.spawned.ne
    have hnext : u < s.table.next + 1 := hg.spawned.trans (Nat.lt_succ_self _)
    refine ⟨?_, by simp [spawnSession, hne]⟩
    cases i with
    | true =>
      exact ⟨hg.stored, by simp [spawnSession, TaskTable.spawn, hne.symm],
        by simp [spawnSession, Main.keeps], hnext⟩
    | false =>
      refine ⟨fun k hk => ?_, by simp [spawnSession, TaskTable.openTask],
        by simp [spawnSession, Main.keeps], hnext⟩
      change Function.update s.table.entries f.meta_.sessionId (some s.table.next) k = some u at hk
      by_cases hkf : k = f.meta_.sessionId
      · subst hkf
        simp [hne.symm] at hk
      · exact hg.stored k (by simpa [hkf] using hk)
  | insert hs =>
    refine ⟨⟨fun k hk => ?_, by simp, by simp [Main.keeps], by simpa using hg.spawned⟩, rfl⟩
    rcases TaskTable.entries_insert hk with h | h
    · exact hg.stored k h
    · exact hg.opening k h
  | @remove v x hv =>
    have heq := TaskTable.finish_eq hv.task
    refine ⟨⟨fun k hk => ?_, ?_, hg.keeps, ?_⟩, rfl⟩
    · by_cases hkx : k = x.key
      · subst hkx; simp [heq] at hk
      · exact hg.stored k (by simpa [heq, hkx] using hk)
    · simpa [heq, TaskTable.setStatus] using hg.opening
    · simpa [heq, TaskTable.setStatus] using hg.spawned
  | dropReader => exact ⟨⟨hg.stored, hg.opening, hg.keeps, hg.spawned⟩, rfl⟩
  | _ => exact hmove rfl hg.keeps rfl

theorem Gone.of_remove (hi : s.Inv) (hu : s.table.task u = some x)
    (hopen : s.table.opening ≠ some (x.key, u)) (hkeep : s.main.keeps ≠ some u) :
    Gone { s with table := s.table.finish u } u := by
  have heq := TaskTable.finish_eq hu
  have hkey : (s.table.task u).map Task.key = some x.key := by rw [hu]; rfl
  refine ⟨fun k h => ?_, fun k h => ?_, hkeep, ?_⟩
  · by_cases hkx : k = x.key
    · subst hkx; simp [heq] at h
    · have hstored := hi.keyed.stored k u (by simpa [heq, hkx] using h)
      exact hkx (Option.some.inj (hstored.symm.trans hkey))
  · have h : s.table.opening = some (k, u) := by simpa [heq, TaskTable.setStatus] using h
    obtain rfl : k = x.key := Option.some.inj ((hi.keyed.opened k u h).1.symm.trans hkey)
    exact hopen h
  · have hlt : u < s.table.next := by
      by_contra hge
      rw [hi.fresh u (not_lt.mp hge)] at hu
      cases hu
    simpa [heq, TaskTable.setStatus] using hlt

theorem Gone.received (hg : s.Gone u) (h : Run (step limits) C s bs t) :
    t.received u = s.received u := by
  have hall := h.invariant (I := fun r : Relay => r.Gone u ∧ r.received u = s.received u) ?_
    ⟨hg, rfl⟩
  · exact hall.2
  · rintro r a r' ⟨hg, hr⟩ - hst
    obtain ⟨hg', hr'⟩ := (step_effect hst).gone hg
    exact ⟨hg', hr'.trans hr⟩

/-! ## The announcement -/

/-- Reader `u` wrote data frames and one END frame at last, and writes nothing further. -/
def EndWritten (limits : RelayLimits) (s : Relay) (u : ℕ) (k : UInt16) : Prop :=
  (∃ ds, s.log (.reader u) = ds ++ [endFrame k] ∧
    ∀ f ∈ ds, ∃ chunk, f = dataFrame k none chunk) ∧
  ∀ bs t, Run (step limits) Any s bs t → t.log (.reader u) = s.log (.reader u)

/-- The reader of a session that saw the end of its upstream, was not aborted and can
    write to the client: it can finish, and then END is written. Whoever else begins
    an END frame for the session may do so, and once the reader has removed the
    session it receives no payload. -/
theorem end_announced {registry : XudpManager Handle} {as : List Act} {st : TaskStatus}
    (h : Run (step limits) Any (init registry) as s)
    (hu : s.table.task u = some ⟨k, st, false⟩) (he : s.SawEnd u)
    (hb : s.writer.broken = false) :
    st ≠ .dropped ∧
    (st = .running → ∃ bs t, Run (step limits) (ReaderAndWriters u) s bs t ∧
      t.table.task u = some ⟨k, .finished, false⟩ ∧ t.EndWritten limits u k) ∧
    (st = .finished → s.EndWritten limits u k) ∧
    (∀ a t p f, s.step limits a = some t → s.frameOf p = none → t.frameOf p = some f →
      f.isEnd = true → s.MayEnd a p f.meta_.sessionId) ∧
    ∀ t, s.step limits (.reader u .remove) = some t → s.table.opening ≠ some (k, u) →
      s.main.keeps ≠ some u →
      ∀ bs t', Run (step limits) Any t bs t' → t'.received u = t.received u := by
  have hi := inv_of_run h
  have hok := ok_of_run h u
  have hwritten : ∀ {t : Relay}, t.Inv → (t.view u).Ok → (t.view u).Announces →
      t.table.task u = some ⟨k, .finished, false⟩ → t.writer.broken = false →
      t.EndWritten limits u k := fun hi hok he hu hb =>
    ⟨log_of_finished hok hu he hb, fun bs t' => log_eq_of_finished hi hu rfl⟩
  refine ⟨?_, ?_, ?_, ?_, ?_⟩
  · rintro rfl
    have htask : (s.view u).task = some ⟨k, .dropped, false⟩ := hu
    simp [ReaderView.Ok, htask] at hok
  · rintro rfl
    obtain ⟨bs, t, hrun, ht, htb⟩ := finishes limits hi hok hu he hb
    have hall := h.append hrun.any
    exact ⟨bs, t, hrun, ht, hwritten (inv_of_run hall) (ok_of_run hall u)
      (announces_of_run hi hok (by simp [hu]) he.announces hrun) ht htb⟩
  · rintro rfl
    exact hwritten hi hok he.announces hu hb
  · intro a t p f hst hp hp' hend
    exact (step_effect hst).mayEnd hp hp' hend
  · intro t hst hopen hkeep bs t' hrun
    obtain rfl : { s with table := s.table.finish u } = t := by
      simp only [step, readerStep, hu] at hst
      split_ifs at hst
      unfold pumpStep at hst
      split at hst <;> simp_all
    exact (Gone.of_remove hi hu hopen hkeep).received hrun

theorem end_announced_eof :
    ∃ as s, Run (step ⟨none, none⟩) Any (init .new) as s ∧ s.SawEnd 0 ∧
      ∃ bs t, Run (step ⟨none, none⟩) (ReaderAndWriters 0) s bs t ∧
        t.table.task 0 = some ⟨1, .finished, false⟩ ∧ t.EndWritten ⟨none, none⟩ 0 1 := by
  have hrun : Run (step ⟨none, none⟩) Any (init .new) (openTcp 1 false ++ [.reader 0 .request,
      .reader 0 .enter, .upstreamEnd 0 .eof, .reader 0 .readEnd]) _ := exec_any rfl
  exact ⟨_, _, hrun, ⟨.eof, rfl, .inl rfl⟩,
    (end_announced (u := 0) hrun rfl ⟨.eof, rfl, .inl rfl⟩ rfl).2.1 rfl⟩

theorem end_not_once :
    (∃ as s, Run (step ⟨none, none⟩) Any (init .new) as s ∧ s.SawEnd 0 ∧
      s.table.task 0 = some ⟨1, .finished, false⟩ ∧ s.writer.broken = false ∧
      s.writer.sent = [(.reader 0, endFrame 1), (.main, endFrame 1)]) ∧
    (∃ as s, Run (step ⟨none, none⟩) Any (init .new) as s ∧ s.SawEnd 0 ∧
      s.writer.sent = [(.reader 0, endFrame 1)] ∧ s.received 0 = [] ∧
      ∃ bs t, Run (step ⟨none, none⟩) Any s bs t ∧ t.received 0 = [[7]]) ∧
    ∃ as s, Run (step ⟨none, none⟩) Any (init .new) as s ∧
      (s.reader 0).ended = some (.error ⟨.connectionReset, ""⟩) ∧
      s.table.task 0 = some ⟨1, .finished, false⟩ ∧ s.writer.broken = false ∧
      s.writer.sent = [] := by
  refine ⟨?_, ?_, ?_⟩
  · have hrun : Run (step ⟨none, none⟩) Any (init .new) (openTcp 1 false ++ announceEof 0 ++
        [.reader 0 .remove, .main (.frame (keepFrame 1 [7]) 0)] ++ writeWhole .main 6) _ :=
      exec_any rfl
    exact ⟨_, _, hrun, ⟨.eof, rfl, .inl rfl⟩, rfl, rfl, rfl⟩
  · -- the reader has not removed its session yet when the KEEP frame comes
    have hrun : Run (step ⟨none, none⟩) Any (init .new) (openTcp 1 false ++ announceEof 0) _ :=
      exec_any rfl
    exact ⟨_, _, hrun, ⟨.eof, rfl, .inl rfl⟩, rfl, rfl, [.main (.frame (keepFrame 1 [7]) 0),
      .main .keepRequest, .main .keepEnter, .main .keepOk], _, exec_any rfl, rfl⟩
  · have hrun : Run (step ⟨none, none⟩) Any (init .new) (openTcp 1 false ++
        [.reader 0 .request, .reader 0 .enter, .upstreamEnd 0 (.error ⟨.connectionReset, ""⟩),
          .reader 0 .readEnd, .reader 0 .remove]) _ := exec_any rfl
    exact ⟨_, _, hrun, rfl, rfl, rfl, rfl⟩

end SkadiCore.Mux.Relay
