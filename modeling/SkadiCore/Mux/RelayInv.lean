import SkadiCore.Mux.RelaySteps

/-!
# Where the parties of the mux relay are

The components of the state keep their own record of where a party is: the client
stream of who is writing, an upstream of who is at its mutex. `Relay.Inv` says that
these records agree with where the main loop and the reader tasks are, and that
the two kinds of mutex are used as they should be. It holds in every state the
relay can reach (`inv_of_run`).
-/

namespace SkadiCore.Mux.Relay

open SkadiCore.Relay

structure TableInv (s : Relay) : Prop where
  fresh : s.table.Fresh
  keyed : s.table.Keyed
  opening : s.main ≠ .insert → s.table.opening = none

structure WriterInv (s : Relay) : Prop where
  conesFresh : s.ConesFresh
  idle : ∀ p, s.writes p = false → s.writer.pc p = .idle
  frames : s.writer.Inv wire

structure LocksInv (s : Relay) : Prop where
  reader : ∀ u, (s.upstream u).pc .reader ≠ .away ↔ s.reads u = true
  keep : ∀ u, (s.upstream u).pc .writer ≠ .away ↔ s.main.keeps = some u
  locks : ∀ u, (s.upstream u).Inv

structure Inv (s : Relay) : Prop extends s.TableInv, s.WriterInv, s.LocksInv

variable {s t : Relay} {a : Act} {limits : RelayLimits}

/-! ## The table -/

theorem Effect.tableInv (he : Effect s a t) (hi : s.TableInv) : t.TableInv := by
  obtain ⟨hf, hk, ho⟩ := hi
  cases he with
  | quiet h | registry h =>
    refine ⟨h.table ▸ hf, h.table ▸ hk, fun hm => ?_⟩
    rw [h.table]
    rcases h.main with h' | ⟨h', -⟩
    · exact ho (h' ▸ hm)
    · exact ho (by rintro heq; simp [heq, Main.busy] at h')
  | answer hs | keep hs | keepRequest hs | keepEnter hs | keepErr hs | keepOk hs | wroteMain hs
  | failMain hs => exact ⟨hf, hk, fun _ => ho (by simp [hs])⟩
  | endSession hs => exact ⟨hf.remove _, hk.remove _, fun _ => by simpa using ho (by simp [hs])⟩
  | eof hs => exact ⟨hf.drain, hk.drain, fun _ => ho (by simp [hs])⟩
  | @spawn a f tcp i sent h =>
    have hk' := hk.spawn hf f.meta_.sessionId
    cases i with
    | true => exact ⟨hf.spawn _, hk', fun hm => absurd rfl hm⟩
    | false => exact ⟨(hf.spawn f.meta_.sessionId).insert, hk'.insert, fun _ => by
        simp [spawnSession, TaskTable.openTask]⟩
  | insert hs => exact ⟨hf.insert, hk.insert, fun _ => TaskTable.opening_insert⟩
  | remove hu =>
    exact ⟨hf.finish hu.task, hk.finish hu.task, fun hm => by
      simpa [TaskTable.finish_eq hu.task, TaskTable.setStatus] using ho hm⟩
  | dropReader => exact ⟨hf.drop _, hk.drop _, ho⟩
  | _ => exact ⟨hf, hk, ho⟩

/-! ## The client stream -/

variable {u : ℕ} {x : Task UInt16} {pump : Pump}

theorem At.running_key (h : s.At u x pump) : s.table.Running u x.key := by
  obtain ⟨k, st, b⟩ := x
  obtain rfl : st = .running := h.running
  exact ⟨b, h.task⟩

theorem At.isRunning (h : s.At u x pump) : s.table.isRunning u = true := by
  simp [TaskTable.isRunning, h.task, h.running]

theorem WriterInv.of_eq (hi : s.WriterInv) (hw : t.writer = s.writer) (hc : t.ConesFresh)
    (h : ∀ p, s.writes p = true → t.writes p = true) : t.WriterInv := by
  refine ⟨hc, fun p hp => ?_, hw ▸ hi.frames⟩
  rw [hw]
  refine hi.idle p (Bool.eq_false_iff.mpr fun hs => ?_)
  rw [h p hs] at hp
  cases hp

variable {p : Party}

theorem WriterInv.of_op {o : WriteOp MuxFrame} (hi : s.WriterInv)
    (hop : s.writer.op wire p o = some t.writer) (hc : t.ConesFresh)
    (h : ∀ q, q ≠ p → s.writes q = true → t.writes q = true)
    (hp : t.writes p = true ∨ o = .flushed ∨ o = .fail ∨ o = .cancel) : t.WriterInv := by
  refine ⟨hc, fun q hq => ?_, FrameWriter.op_inv wire_ne_nil hi.frames hop⟩
  by_cases hqp : q = p
  · subst hqp
    rcases hp with hp | hp
    · rw [hp] at hq; cases hq
    · exact FrameWriter.op_pc_idle hop hp
  · rw [FrameWriter.op_pc_of_ne hop hqp]
    refine hi.idle q (Bool.eq_false_iff.mpr fun hs => ?_)
    rw [h q hqp hs] at hq
    cases hq

theorem WriterInv.of_start {f : MuxFrame} (hi : s.WriterInv) (hidle : s.writes p = false)
    (hw : t.writer = s.writer.start p f) (hc : t.ConesFresh)
    (h : ∀ q, q ≠ p → s.writes q = true → t.writes q = true) (hp : t.writes p = true) :
    t.WriterInv := by
  refine hi.of_op (p := p) (o := .start f) ?_ hc h (.inl hp)
  simp [FrameWriter.op, hi.idle p hidle, hw]

theorem Quiet.writes (hq : Quiet s t) (hf : s.ConesFresh) (p : Party) (h : s.writes p = true) :
    t.writes p = true := by
  cases p with
  | main =>
    rcases hq.main with hm | ⟨hm, -⟩
    · simpa [Relay.writes, hm] using h
    · rw [main_of_writes h] at hm; cases hm
  | reader u => simpa [Relay.writes, hq.table, hq.reader] using h
  | cone c =>
    have hc : c < s.nextCone := by
      by_contra hc
      simp [Relay.writes, hf c (not_lt.mp hc)] at h
    rcases hq.cones.kept c hc with hc | hc <;> simpa [Relay.writes, hc, Option.any_map] using h

theorem ConesFresh.setCone {c : ℕ} {r r' : ConeReader} (hf : s.ConesFresh)
    (hr : s.cones c = some r) : (s.setCone c r').ConesFresh := by
  intro c' hc'
  have hne : c' ≠ c := by
    rintro rfl
    rw [hf c' hc'] at hr
    cases hr
  simpa [Relay.setCone, hne] using hf c' hc'

theorem writes_of_ne_main (ht : ∀ v, t.table.isRunning v = s.table.isRunning v)
    (hr : t.reader = s.reader) (hc : t.cones = s.cones) (q : Party) (hq : q ≠ .main)
    (h : s.writes q = true) : t.writes q = true := by
  cases q with
  | main => exact absurd rfl hq
  | reader v => simpa [writes, ht, hr] using h
  | cone c => simpa [writes, hc] using h

theorem writes_of_ne_reader (hm : t.main = s.main) (hc : t.cones = s.cones)
    (ht : ∀ v, v ≠ u → t.table.isRunning v = s.table.isRunning v)
    (hr : ∀ v, v ≠ u → t.reader v = s.reader v) (q : Party) (hq : q ≠ .reader u)
    (h : s.writes q = true) : t.writes q = true := by
  cases q with
  | main => simpa [writes, hm] using h
  | reader v =>
    have hne : v ≠ u := by rintro rfl; exact hq rfl
    simpa [writes, ht v hne, hr v hne] using h
  | cone c => simpa [writes, hc] using h

theorem writes_of_ne_cone {c : ℕ} {r : ConeReader} (hm : t.main = s.main)
    (ht : t.table = s.table) (hr : t.reader = s.reader) (hc : t.cones = (s.setCone c r).cones)
    (q : Party) (hq : q ≠ .cone c) (h : s.writes q = true) : t.writes q = true := by
  cases q with
  | main => simpa [writes, hm] using h
  | reader v => simpa [writes, ht, hr] using h
  | cone c' =>
    have hne : c' ≠ c := by rintro rfl; exact hq rfl
    simpa [writes, hc, setCone, hne] using h

theorem WriterInv.of_other (hi : s.WriterInv) (hw : t.writer = s.writer) (hc : t.ConesFresh)
    (hp : s.writes p = false) (h : ∀ q, q ≠ p → s.writes q = true → t.writes q = true) :
    t.WriterInv := by
  refine hi.of_eq hw hc fun q hq => h q ?_ hq
  rintro rfl
  rw [hp] at hq
  cases hq

theorem Effect.writerInv (he : Effect s a t) (ht : s.TableInv) (hi : s.WriterInv) :
    t.WriterInv := by
  have hc := hi.conesFresh
  cases he with
  | quiet h => exact hi.of_eq h.writer (h.cones.fresh hc) (h.writes hc)
  | registry h => exact hi.of_eq h.writer (h.cones.fresh hc) (h.toQuiet.writes hc)
  | answer hs =>
    exact hi.of_start (by simp [writes, hs]) rfl hc (writes_of_ne_main (fun _ => rfl) rfl rfl) rfl
  | keep hs | keepRequest hs | keepEnter hs | keepOk hs | keepErr hs =>
    exact hi.of_other (p := .main) rfl hc (by simp [writes, hs])
      (writes_of_ne_main (fun _ => rfl) rfl rfl)
  | endSession hs | eof hs | insert hs =>
    exact hi.of_other (p := .main) rfl hc (by simp [writes, hs])
      (writes_of_ne_main (fun v => by simp) rfl rfl)
  | @spawn a f tcp i sent h =>
    have hnext := ht.fresh.isRunning_next
    refine hi.of_eq rfl hc fun p hp => ?_
    cases p with
    | main => rcases h with ⟨hs, -⟩ | ⟨payload, hs, -⟩ <;> simp [writes, hs] at hp
    | reader v =>
      -- the new reader has a number no reader had before
      have hne : v ≠ s.table.next := by rintro rfl; simp [writes, hnext] at hp
      cases i <;> simpa [writes, spawnSession, TaskTable.openTask, TaskTable.isRunning_spawn, hne]
        using hp
    | cone c => exact hp
  | write hp hf h ha => exact hi.of_op h hc (fun _ _ hq => hq) (.inl hp)
  | wroteMain hs hf h | failMain hs hf h =>
    exact hi.of_op h hc (writes_of_ne_main (fun _ => rfl) rfl rfl) (.inr (by simp))
  | wroteEnd hu hf hend h | wroteData hu hf hend h | failReader hu hf hpump h =>
    exact hi.of_op h hc (writes_of_ne_reader rfl rfl (fun _ _ => rfl)
      fun v hv => by simp [setPump, setUpstream, hv]) (.inr (by simp))
  | leaveCone hr ha _ h =>
    refine hi.of_op h (hc.setCone hr) (writes_of_ne_cone rfl rfl rfl rfl) ?_
    rcases ha with rfl | ⟨e, rfl⟩ <;> simp [WriteAct.op]
  | readRequest | readEnter | arrive | upstreamEnd => exact hi.of_eq rfl hc fun p hp => hp
  | readData hu | announce hu =>
    have hrun := hu.isRunning
    exact hi.of_start (by simp [writes, hu.pump]) rfl hc
      (writes_of_ne_reader rfl rfl (fun _ _ => rfl)
        fun v hv => by simp [readerWrites, setPump, setUpstream, hv])
      (by simpa [writes, readerWrites, setPump, setUpstream] using hrun)
  | @readLarge u _ _ _ _ hu | @readEnd u _ _ hu =>
    exact hi.of_other (p := .reader u) rfl hc (by simp [writes, hu.pump])
      (writes_of_ne_reader rfl rfl (fun _ _ => rfl)
        fun v hv => by simp [setPump, readerGotEnd, setUpstream, hv])
  | @remove u _ hu =>
    exact hi.of_other (p := .reader u) rfl hc (by simp [writes, hu.pump])
      (writes_of_ne_reader rfl rfl
        (fun v hv => by simp [TaskTable.isRunning_finish hu.task, hv]) fun _ _ => rfl)
  | dropReader hu ha h =>
    exact hi.of_op h hc (writes_of_ne_reader rfl rfl
      (fun v hv => by simp [TaskTable.drop, TaskTable.isRunning_setStatus, hv])
      fun _ _ => rfl) (.inr (by simp))
  | coneWrites hr hrun hp =>
    exact hi.of_start (by simp [writes, hr, hp]) rfl (hc.setCone hr)
      (writes_of_ne_cone rfl rfl rfl rfl) (by simp [writes, Relay.coneWrites, setCone, hrun])
  | @coneEnds c r a hr hp =>
    exact hi.of_other (p := .cone c) rfl (hc.setCone hr) (by simp [writes, hr, hp])
      (writes_of_ne_cone rfl rfl rfl rfl)
  | dropCone hr h =>
    exact hi.of_op h (hc.setCone hr) (writes_of_ne_cone rfl rfl rfl rfl) (.inr (by simp))
  | clientBreaks => exact ⟨hc, hi.idle, hi.frames.break_⟩

/-! ## The upstreams -/

theorem LocksInv.of_update {d : DuplexLock Source} (hi : s.LocksInv)
    (hup : t.upstream = Function.update s.upstream u d) (hd : d.Inv)
    (hr : d.pc .reader ≠ .away ↔ t.reads u = true)
    (hk : d.pc .writer ≠ .away ↔ t.main.keeps = some u)
    (hreads : ∀ v, v ≠ u → t.reads v = s.reads v)
    (hkeep : ∀ v, v ≠ u → (t.main.keeps = some v ↔ s.main.keeps = some v)) : t.LocksInv := by
  refine ⟨fun v => ?_, fun v => ?_, fun v => ?_⟩ <;> rw [hup] <;> by_cases hvu : v = u
  · subst hvu; simpa using hr
  · rw [Function.update_of_ne hvu, hreads v hvu]; exact hi.reader v
  · subst hvu; simpa using hk
  · rw [Function.update_of_ne hvu, hkeep v hvu]; exact hi.keep v
  · subst hvu; simpa using hd
  · rw [Function.update_of_ne hvu]; exact hi.locks v

theorem LocksInv.of_eq (hi : s.LocksInv) (hup : t.upstream = s.upstream)
    (hreads : ∀ v, t.reads v = s.reads v) (hkeep : t.main.keeps = s.main.keeps) : t.LocksInv :=
  ⟨fun v => by rw [hup, hreads]; exact hi.reader v, fun v => by rw [hup, hkeep]; exact hi.keep v,
    fun v => hup ▸ hi.locks v⟩

theorem LocksInv.away_of_select (hi : s.LocksInv) (hs : s.main = .select) (u : ℕ) :
    (s.upstream u).pc .writer = .away :=
  not_not.mp (mt (hi.keep u).mp (by simp [hs, Main.keeps]))

theorem LocksInv.away_of_at (hi : s.LocksInv) (hu : s.At u x pump) (hp : pump ≠ .reading) :
    (s.upstream u).pc .reader = .away :=
  not_not.mp (mt (hi.reader u).mp (by simp [reads, hu.pump, hp]))

theorem LocksInv.request {p : Side} {d : DuplexLock Source} (hi : s.LocksInv)
    (h : (s.upstream u).request p = some d) : (s.setUpstream u d).LocksInv := by
  refine hi.of_update rfl ((hi.locks u).request h) ?_ ?_ (fun _ _ => rfl) (fun _ _ => Iff.rfl)
  · rw [DuplexLock.request_eq h]
    exact hi.reader u
  · rw [DuplexLock.request_eq h]
    exact hi.keep u

theorem LocksInv.source (hi : s.LocksInv) (u : ℕ) (src : Source) :
    (s.setUpstream u { s.upstream u with source := src }).LocksInv :=
  hi.of_update rfl ⟨(hi.locks u).nodup, (hi.locks u).waits, (hi.locks u).inside⟩
    (hi.reader u) (hi.keep u) (fun _ _ => rfl) (fun _ _ => Iff.rfl)

theorem LocksInv.of_readerLeaves {src : Source} (hi : s.LocksInv)
    (hup : t.upstream = Function.update s.upstream u
      { (s.upstream u).leave .reader with source := src }) (hmain : t.main = s.main)
    (hu : t.reads u = false) (hreads : ∀ v, v ≠ u → t.reads v = s.reads v) : t.LocksInv := by
  have hl := (hi.locks u).leave .reader
  refine hi.of_update hup ⟨hl.nodup, hl.waits, hl.inside⟩ ?_ ?_ hreads (fun _ _ => by rw [hmain])
  · simp [DuplexLock.leave, hu]
  · rw [hmain]
    exact hi.keep u

theorem endPump_cases (e : ReadEnd) (tcp : Bool) :
    endPump e tcp = .ending ∨ endPump e tcp = .removing := by
  cases e <;> cases tcp <;> simp [endPump]

theorem Effect.locksInv (he : Effect s a t) (hi : s.LocksInv) : t.LocksInv := by
  cases he with
  | quiet h | registry h =>
    refine hi.of_eq h.upstream (fun v => by simp [reads, h.table, h.reader]) ?_
    rcases h.main with hm | ⟨hm, hm'⟩
    · rw [hm]
    · rw [Main.keeps_of_not_busy hm, Main.keeps_of_not_busy hm']
  | answer hs => exact hi.of_eq rfl (fun _ => rfl) (by rw [hs]; rfl)
  | @keep f now u payload hs hu hp =>
    have haway := hi.away_of_select hs u
    refine hi.of_update rfl ((hi.locks u).start haway) ?_ ?_ (fun _ _ => rfl) ?_
    · simpa [DuplexLock.start, reads, setUpstream] using hi.reader u
    · simp [DuplexLock.start, setUpstream, Main.keeps]
    · intro v hv; simp [setUpstream, Main.keeps, hs, hv.symm]
  | endSession | eof hs | insert hs =>
    exact hi.of_eq rfl (fun v => by simp [reads]) (by simp [*, Main.keeps])
  | @spawn a f tcp i sent h =>
    have hm : s.main.keeps = none := by
      rcases h with ⟨hm, -⟩ | ⟨payload, hm, -⟩ <;> rw [hm] <;> rfl
    have hm' : (s.spawnSession f tcp i sent).main.keeps = none := by cases i <;> rfl
    refine hi.of_update rfl ((DuplexLock.new_inv _).start rfl) ?_ ?_ ?_ ?_
    · cases i <;> simp [DuplexLock.start, reads, spawnSession, TaskTable.openTask,
        TaskTable.isRunning_spawn]
    · simp [DuplexLock.start, DuplexLock.new, hm']
    · intro v hv
      cases i <;> simp [reads, spawnSession, TaskTable.openTask, TaskTable.isRunning_spawn, hv]
    · intro v _; rw [hm, hm']
  | keepRequest hs h | readRequest hs h => exact hi.request h
  | @keepEnter u payload d hs h =>
    refine hi.of_update rfl ((hi.locks u).enter h) ?_ ?_ (fun _ _ => rfl) (fun _ _ => Iff.rfl)
    · rw [DuplexLock.enter_eq h]; simpa [reads, setUpstream] using hi.reader u
    · rw [DuplexLock.enter_eq h]; simp [setUpstream, hs, Main.keeps]
  | @keepOk u payload hs | @keepErr u payload e hs =>
    refine hi.of_update rfl ((hi.locks u).leave .writer) ?_ ?_ (fun _ _ => rfl) ?_
    · simpa [DuplexLock.leave, reads, setUpstream, fail] using hi.reader u
    · simp [DuplexLock.leave, setUpstream, fail, Main.keeps]
    · intro v hv; simp [setUpstream, fail, hs, Main.keeps, hv.symm]
  | write | leaveCone | coneWrites | coneEnds | dropCone | clientBreaks =>
    exact hi.of_eq rfl (fun _ => rfl) rfl
  | wroteMain hs | failMain hs => exact hi.of_eq rfl (fun _ => rfl) (by rw [hs]; rfl)
  | @wroteEnd u _ _ _ hu | @announce u _ hu =>
    refine hi.of_eq rfl (fun v => ?_) rfl
    by_cases hvu : v = u
    · subst hvu; simp [reads, readerWrites, setPump, hu.pump]; rfl
    · simp [reads, readerWrites, setPump, hvu]
  | @failReader u _ _ _ _ _ hu _ hpump =>
    refine hi.of_eq rfl (fun v => ?_) rfl
    by_cases hvu : v = u
    · subst hvu; rcases hpump with rfl | ⟨rfl, -⟩ <;>
        simp [reads, setPump, hu.pump] <;> rfl
    · simp [reads, setPump, hvu]
  | @wroteData u _ _ _ hu =>
    refine hi.of_update rfl ((hi.locks u).start (hi.away_of_at hu (by simp))) ?_ (hi.keep u) ?_
      (fun _ _ => Iff.rfl)
    · simp [DuplexLock.start, reads, setPump, setUpstream, hu.isRunning]
    · intro v hv; simp [reads, setPump, setUpstream, hv]
  | @readEnter u _ d hu h =>
    refine hi.of_update rfl ((hi.locks u).enter h) ?_ ?_ (fun _ _ => rfl) (fun _ _ => Iff.rfl)
    · rw [DuplexLock.enter_eq h]; simp [reads, setUpstream, hu.isRunning, hu.pump]
    · rw [DuplexLock.enter_eq h]; exact hi.keep u
  | readData | readLarge =>
    refine hi.of_readerLeaves rfl rfl (by simp [reads, readerWrites, setPump]) fun v hv => ?_
    simp [reads, readerWrites, setPump, setUpstream, hv]
  | @readEnd u _ e hu =>
    refine hi.of_readerLeaves rfl rfl ?_ fun v hv => by simp [reads, readerGotEnd, setUpstream, hv]
    rcases endPump_cases e (s.upstream u).source.isTcp with hp | hp <;>
      simp [reads, readerGotEnd, hp]
  | @remove u _ hu =>
    refine hi.of_eq rfl (fun v => ?_) rfl
    by_cases hvu : v = u
    · have hne : (Pump.removing == .reading) = false := rfl
      subst hvu; simp [reads, hu.pump, hne]
    · simp [reads, TaskTable.isRunning_finish hu.task, hvu]
  | dropReader =>
    refine hi.of_readerLeaves rfl rfl ?_ fun v hv => ?_ <;>
      simp [reads, TaskTable.drop, TaskTable.isRunning_setStatus, setUpstream, *]
  | arrive => exact hi.source _ _
  | upstreamEnd => exact hi.source _ _

/-! ## Every reachable state -/

theorem init_inv (registry : XudpManager Handle) : (init registry).Inv where
  fresh := fun _ _ => rfl
  keyed := TaskTable.init_keyed
  opening := fun _ => rfl
  conesFresh := fun _ _ => rfl
  idle := fun _ _ => rfl
  frames := FrameWriter.init_inv
  reader := fun _ => by simp [init, DuplexLock.new, reads, TaskTable.init, TaskTable.isRunning]
  keep := fun _ => by simp [init, DuplexLock.new, Main.keeps]
  locks := fun _ => DuplexLock.new_inv _

theorem Effect.inv (he : Effect s a t) (hi : s.Inv) : t.Inv where
  toTableInv := he.tableInv hi.toTableInv
  toWriterInv := he.writerInv hi.toTableInv hi.toWriterInv
  toLocksInv := he.locksInv hi.toLocksInv

theorem inv_of_run {C : Relay → Act → Prop} {registry : XudpManager Handle} {as : List Act}
    (h : Run (step limits) C (init registry) as s) : s.Inv :=
  h.invariant (fun _ _ _ hi _ hst => (step_effect hst).inv hi) (init_inv registry)

def Drops (a : Act) (p : Party) : Prop :=
  (∃ u, a = .reader u .drop ∧ p = .reader u) ∨ ∃ c, a = .cone c .drop ∧ p = .cone c

def actor : Act → Option Party
  | .main _ => some .main
  | .write p _ => some p
  | .reader u _ => some (.reader u)
  | .cone c _ => some (.cone c)
  | _ => none

/-- The step `a` is one in which the party `p` may begin an END frame for the id `k`:
    the main loop answers a frame, a reader was spawned for `k`, a cone reader writes
    under the id of XUDP. -/
def MayEnd (s : Relay) (a : Act) (p : Party) (k : UInt16) : Prop :=
  (p = .main ∧ ∃ f now, a = .main (.frame f now) ∧ f.meta_.sessionId = k ∧ s.Refused f) ∨
    (∃ v x, p = .reader v ∧ s.table.task v = some x ∧ x.key = k) ∨
    ∃ c, p = .cone c ∧ k = XUDP_SESSION_ID

/-- The operation `o` of the party `p`, which begins no frame, is one of the step `a`. -/
def Performs (s : Relay) (a : Act) (p : Party) : WriteOp MuxFrame → Prop
  | .start _ => False
  | .push k => a = .write p (.push k) ∧ s.writes p = true
  | .cancel => Drops a p
  | _ => True

theorem Performs.ne_start {o : WriteOp MuxFrame} (h : s.Performs a p o) (f : MuxFrame) :
    o ≠ .start f := by
  rintro rfl
  exact h

/-- What a step of the relay does to the client stream. -/
inductive WriterStep (s : Relay) (a : Act) (w : FrameWriter Party MuxFrame Byte) : Prop
  | same (h : w = s.writer)
  | breaks (ha : a = .clientBreaks) (h : w = s.writer.break_)
  | starts {p : Party} {f : MuxFrame} (ha : actor a = some p) (hp : s.writes p = false)
      (hend : f.isEnd = true → s.MayEnd a p f.meta_.sessionId) (h : w = s.writer.start p f)
  | op {p : Party} {o : WriteOp MuxFrame} (ha : actor a = some p)
      (h : s.writer.op wire p o = some w) (ho : s.Performs a p o)

theorem isEnd_endFrame (k : UInt16) : (endFrame k).isEnd = true := by
  simp [MuxFrame.isEnd, endFrame, endMeta]

theorem isEnd_dataFrame (k : UInt16) (target : Option Endpoint) (chunk : Bytes) :
    (dataFrame k target chunk).isEnd = false := by
  simp [MuxFrame.isEnd, dataFrame, SESSION_STATUS_KEEP, SESSION_STATUS_END]

theorem Effect.writerStep (he : Effect s a t) : WriterStep s a t.writer := by
  cases he with
  | quiet h | registry h => exact .same h.writer
  | answer hs href =>
    exact .starts (f := endFrame _) rfl (by simp [writes, hs])
      (fun _ => .inl ⟨rfl, _, _, rfl, rfl, href⟩) rfl
  | write hp hf h ha =>
    refine .op rfl h ?_
    rcases ha with rfl | rfl | ⟨k, rfl⟩
    exacts [trivial, trivial, ⟨rfl, hp⟩]
  | wroteMain hs hf h | failMain hs hf h => exact .op rfl h trivial
  | wroteEnd hu hf hend h | wroteData hu hf hend h => exact .op rfl h trivial
  | failReader hu hf hpump h => exact .op rfl h trivial
  | leaveCone hr ha _ h => exact .op rfl h (by rcases ha with rfl | ⟨e, rfl⟩ <;> trivial)
  | readData hu =>
    exact .starts rfl (by simp [writes, hu.pump]) (fun h => by simp [isEnd_dataFrame] at h) rfl
  | announce hu =>
    exact .starts rfl (by simp [writes, hu.pump]) (fun _ => .inr (.inl ⟨_, _, rfl, hu.task, rfl⟩))
      rfl
  | dropReader hu ha h => exact .op rfl h (.inl ⟨_, rfl, rfl⟩)
  | coneWrites hr hrun hp hid =>
    exact .starts rfl (by simp [writes, hr, hp]) (fun _ => .inr (.inr ⟨_, rfl, hid⟩)) rfl
  | dropCone hr h => exact .op rfl h (.inr ⟨_, rfl, rfl⟩)
  | clientBreaks => exact .breaks rfl rfl
  | _ => exact .same rfl

theorem Effect.writer_op (he : Effect s a t) (hi : s.Inv) :
    t.writer = s.writer ∨ t.writer = s.writer.break_ ∨
      ∃ p o, s.writer.op wire p o = some t.writer ∧ actor a = some p ∧
        (o = .cancel → Drops a p) := by
  cases he.writerStep with
  | same h => exact .inl h
  | breaks _ h => exact .inr (.inl h)
  | @starts p f ha hp _ h =>
    exact .inr (.inr ⟨p, .start f, by simp [FrameWriter.op, hi.idle p hp, h], ha, by simp⟩)
  | @op p o ha h ho => exact .inr (.inr ⟨p, o, h, ha, by rintro rfl; exact ho⟩)

/-- The frames that a party has written. -/
def log (s : Relay) (p : Party) : List MuxFrame :=
  s.writer.sent.filterMap fun pf => if pf.1 = p then some pf.2 else none

theorem Effect.writer_of_other {p : Party} (he : Effect s a t) (ha : actor a ≠ some p) :
    t.writer.pc p = s.writer.pc p ∧ t.log p = s.log p ∧
      (a ≠ .clientBreaks → t.writer.broken = s.writer.broken) := by
  have hne : ∀ {q}, actor a = some q → p ≠ q := by rintro q hq rfl; exact ha hq
  unfold log
  cases he.writerStep with
  | same h => rw [h]; exact ⟨rfl, rfl, fun _ => rfl⟩
  | breaks hbreaks h => rw [h]; exact ⟨rfl, rfl, fun ha => absurd hbreaks ha⟩
  | starts hq _ _ h => rw [h]; exact ⟨Function.update_of_ne (hne hq) _ _, rfl, fun _ => rfl⟩
  | op hq h _ =>
    refine ⟨FrameWriter.op_pc_of_ne h (hne hq), ?_, fun _ => FrameWriter.op_broken h⟩
    rcases FrameWriter.op_sent h with h | ⟨f, done, rest, -, -, h, -⟩
    · rw [h]
    · simp [h, (hne hq).symm]

theorem Effect.sent_cases (he : Effect s a t) :
    t.writer.sent = s.writer.sent ∨
      ∃ p f, s.writes p = true ∧ t.writer.sent = s.writer.sent ++ [(p, f)] := by
  cases he.writerStep with
  | same h | breaks _ h | starts _ _ _ h => rw [h]; exact .inl rfl
  | @op p o _ h ho =>
    rcases FrameWriter.op_sent h with h | ⟨f, done, rest, rfl, -, hsent, -⟩
    · exact .inl h
    · exact .inr ⟨p, f, ho.2, hsent⟩

end SkadiCore.Mux.Relay
