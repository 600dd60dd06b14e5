import SkadiCore.Mux.RelayInv

/-!
# One session reader

What the mux relay does to the reader task of one session, seen from that task: a
small machine of its own. `ReaderView` is the part of the state that concerns the
reader, `ReaderView.Step` lists what can happen to it, and `Effect.view` says that
every step of the relay is one of these, or does not concern the reader.

* `ReaderView.Step.ok`: the reader writes data frames of its session, then at most
  one END frame, and nothing behind it. If it finishes after the end of its upstream
  and the client stream took what it wrote, then END is written, unless a TCP read
  failed.
-/

namespace SkadiCore.Mux

open SkadiCore.Relay

/-- The part of the state that concerns one reader: its task, where it is, what it is
    writing, the frames it has written, the kind of its upstream, and whether the
    client stream is broken. -/
structure ReaderView where
  task : Option (Task UInt16)
  reader : Reader
  pc : WritePc MuxFrame Byte
  log : List MuxFrame
  tcp : Bool
  broken : Bool

namespace ReaderView

structure At (v : ReaderView) (x : Task UInt16) (pump : Pump) : Prop where
  task : v.task = some x
  running : x.status = .running
  pump : v.reader.pump = pump

/-- What others do: the main loop spawns the reader or aborts it, the client goes away. -/
inductive Outside (v : ReaderView) : ReaderView → Prop
  | spawn {k tcp} (h : v.task = none) :
      Outside v { v with task := some ⟨k, .running, false⟩, reader := ⟨.reading, none⟩, tcp := tcp }
  | abort {x} (h : v.task = some x) : Outside v { v with task := some { x with aborted := true } }
  | breaks : Outside v { v with broken := true }

/-- What can happen to a reader. -/
inductive Step (v : ReaderView) : ReaderView → Prop
  | outside {v'} (h : Outside v v') : Step v v'
  | data {x chunk} (h : v.At x .reading) :
      Step v { v with
        reader := { v.reader with pump := .writing }, pc := .lock (dataFrame x.key none chunk) }
  | large {x} (h : v.At x .reading) : Step v { v with reader := { v.reader with pump := .ending } }
  | ended {x e} (h : v.At x .reading) :
      Step v { v with reader := ⟨Relay.endPump e v.tcp, some e⟩ }
  | announce {x} (h : v.At x .ending) :
      Step v { v with reader := { v.reader with pump := .writing }, pc := .lock (endFrame x.key) }
  | move {x f pc} (h : v.At x .writing) (hf : v.pc.frame = some f) (hf' : pc.frame = some f)
      (hflush : ∀ g, v.pc ≠ .flush g ∧ pc ≠ .flush g) : Step v { v with pc := pc }
  | sent {x f done rest} (h : v.At x .writing) (hpc : v.pc = .write f done rest) :
      Step v { v with pc := .flush f, log := v.log ++ [f] }
  | wroteEnd {x f} (h : v.At x .writing) (hpc : v.pc = .flush f) (hend : f.isEnd = true) :
      Step v { v with reader := { v.reader with pump := .removing }, pc := .idle }
  | wroteData {x f} (h : v.At x .writing) (hpc : v.pc = .flush f) (hend : f.isEnd = false) :
      Step v { v with reader := { v.reader with pump := .reading }, pc := .idle }
  | failed {x f pump} (h : v.At x .writing) (hf : v.pc.frame = some f) (hb : v.broken = true)
      (hpump : pump = .removing ∨ (pump = .ending ∧ f.isEnd = false)) :
      Step v { v with reader := { v.reader with pump := pump }, pc := .idle }
  | removed {x} (h : v.At x .removing) :
      Step v { v with task := some { x with status := .finished } }
  | dropped {x pump} (h : v.At x pump) (ha : x.aborted = true) :
      Step v { v with task := some { x with status := .dropped }, pc := .idle }

def NoEnd (fs : List MuxFrame) : Prop := ∀ f ∈ fs, f.isEnd = false

def Shape (k : UInt16) (f : MuxFrame) : Prop :=
  f = endFrame k ∨ ∃ chunk, f = dataFrame k none chunk

def Announces (v : ReaderView) : Prop :=
  ∃ e, v.reader.ended = some e ∧ Relay.endPump e v.tcp = .ending

def Announced (v : ReaderView) (k : UInt16) : Prop :=
  v.Announces → v.broken = false → endFrame k ∈ v.log

def Phase (v : ReaderView) (k : UInt16) : Prop :=
  match v.reader.pump with
  | .reading => v.reader.ended = none ∧ v.pc = .idle ∧ NoEnd v.log
  | .ending => v.pc = .idle ∧ NoEnd v.log
  | .writing => ∃ f, v.pc.frame = some f ∧ Shape k f ∧ (v.reader.ended ≠ none → f = endFrame k) ∧
      ((v.pc ≠ .flush f ∧ NoEnd v.log) ∨
        (v.pc = .flush f ∧ ∃ fs, v.log = fs ++ [f] ∧ NoEnd fs))
  | .removing => v.pc = .idle ∧ v.Announced k

def Ok (v : ReaderView) : Prop :=
  match v.task with
  | none => v.log = [] ∧ v.pc = .idle
  | some x => (∀ f ∈ v.log, Shape x.key f) ∧ NoEnd v.log.dropLast ∧
    match x.status with
    | .running => v.Phase x.key
    | .finished => v.pc = .idle ∧ v.Announced x.key
    | .dropped => v.pc = .idle ∧ x.aborted = true

variable {v v' : ReaderView} {x : Task UInt16} {k : UInt16} {f : MuxFrame} {fs : List MuxFrame}

theorem Shape.eq_endFrame (h : Shape k f) (hend : f.isEnd = true) : f = endFrame k := by
  rcases h with rfl | ⟨chunk, rfl⟩
  · rfl
  · rw [Relay.isEnd_dataFrame] at hend; cases hend

theorem NoEnd.snoc (h : NoEnd fs) (hf : f.isEnd = false) : NoEnd (fs ++ [f]) := by
  intro g hg
  rcases List.mem_append.mp hg with hg | hg
  · exact h g hg
  · rw [List.mem_singleton.mp hg]; exact hf

theorem eq_append_endFrame (hshape : ∀ f ∈ fs, Shape k f) (hlast : NoEnd fs.dropLast)
    (hend : endFrame k ∈ fs) :
    ∃ ds, fs = ds ++ [endFrame k] ∧ ∀ f ∈ ds, ∃ chunk, f = dataFrame k none chunk := by
  have hne : fs ≠ [] := List.ne_nil_of_mem hend
  have heq := List.dropLast_append_getLast hne
  have hget : fs.getLast hne = endFrame k := by
    rw [← heq] at hend
    rcases List.mem_append.mp hend with h | h
    · have := hlast _ h
      rw [Relay.isEnd_endFrame] at this
      cases this
    · exact (List.mem_singleton.mp h).symm
  refine ⟨fs.dropLast, by rw [← hget]; exact heq.symm, fun f hf => ?_⟩
  rcases hshape f (List.mem_of_mem_dropLast hf) with rfl | h
  · have := hlast _ hf
    rw [Relay.isEnd_endFrame] at this
    cases this
  · exact h

theorem Ok.at {pump : Pump} (hok : v.Ok) (h : v.At x pump) :
    (∀ f ∈ v.log, Shape x.key f) ∧ NoEnd v.log.dropLast ∧ v.Phase x.key := by
  simpa [Ok, h.task, h.running] using hok

theorem Ok.of_running (ht : v.task = some x) (hr : x.status = .running)
    (hshape : ∀ f ∈ v.log, Shape x.key f) (hlast : NoEnd v.log.dropLast)
    (hphase : v.Phase x.key) : v.Ok := by
  simpa [Ok, ht, hr] using ⟨hshape, hlast, hphase⟩

theorem writing_phase (hphase : v.Phase k) (hp : v.reader.pump = .writing)
    (hf : v.pc.frame = some f) :
    Shape k f ∧ (v.reader.ended ≠ none → f = endFrame k) ∧
      ((v.pc ≠ .flush f ∧ NoEnd v.log) ∨
        (v.pc = .flush f ∧ ∃ fs, v.log = fs ++ [f] ∧ NoEnd fs)) := by
  simp only [Phase, hp] at hphase
  obtain ⟨g, hg, hphase⟩ := hphase
  obtain rfl : f = g := Option.some.inj (hf.symm.trans hg)
  exact hphase

theorem flush_phase (hphase : v.Phase k) (hp : v.reader.pump = .writing) (hpc : v.pc = .flush f) :
    Shape k f ∧ (v.reader.ended ≠ none → f = endFrame k) ∧ ∃ fs, v.log = fs ++ [f] ∧ NoEnd fs := by
  obtain ⟨hsf, hend, ⟨hne, -⟩ | ⟨-, hlog⟩⟩ :=
    writing_phase hphase hp (f := f) (by rw [hpc]; rfl)
  · exact absurd hpc hne
  · exact ⟨hsf, hend, hlog⟩

theorem Outside.ok (h : Outside v v') (hok : v.Ok) : v'.Ok := by
  cases h with
  | spawn h =>
    obtain ⟨hlog, hpc⟩ : v.log = [] ∧ v.pc = .idle := by simpa [Ok, h] using hok
    refine .of_running rfl rfl ?_ ?_ ?_ <;> simp [hlog, hpc, NoEnd, Phase]
  | @abort x h =>
    cases hs : x.status <;> simp only [Ok, h, hs, Phase] at hok ⊢
    · exact hok
    · exact hok
    · exact ⟨hok.1, hok.2.1, hok.2.2.1, trivial⟩
  | breaks =>
    have hann : ∀ k, Announced { v with broken := true } k := fun k _ hb => by cases hb
    cases ht : v.task with
    | none => simpa [Ok, ht] using hok
    | some x =>
      cases hs : x.status <;> simp only [Ok, ht, hs, Phase] at hok ⊢
      · cases hp : v.reader.pump <;> simp only [hp] at hok ⊢
        case removing => exact ⟨hok.1, hok.2.1, hok.2.2.1, hann _⟩
        all_goals exact hok
      · exact ⟨hok.1, hok.2.1, hok.2.2.1, hann _⟩
      · exact hok

theorem Ok.sent {done rest : Bytes} (hok : v.Ok) (h : v.At x .writing)
    (hpc : v.pc = .write f done rest) : Ok { v with pc := .flush f, log := v.log ++ [f] } := by
  obtain ⟨hshape, -, hphase⟩ := hok.at h
  obtain ⟨hsf, hend, ⟨-, hno⟩ | ⟨hpc', -⟩⟩ :=
    writing_phase hphase h.pump (f := f) (by rw [hpc]; rfl)
  · refine .of_running h.task h.running ?_ (by simpa using hno) ?_
    · intro f' hf'
      rcases List.mem_append.mp hf' with hf' | hf'
      · exact hshape f' hf'
      · rw [List.mem_singleton.mp hf']
        exact hsf
    · simp only [Phase, h.pump]
      exact ⟨f, rfl, hsf, hend, .inr ⟨rfl, v.log, rfl, hno⟩⟩
  · rw [hpc] at hpc'
    cases hpc'

theorem Step.ok (hst : Step v v') (hok : v.Ok) : v'.Ok := by
  cases hst with
  | outside h => exact h.ok hok
  | @data x chunk h =>
    obtain ⟨hshape, hlast, hphase⟩ := hok.at h
    simp only [Phase, h.pump] at hphase
    refine .of_running h.task h.running hshape hlast ?_
    refine ⟨_, rfl, .inr ⟨chunk, rfl⟩, fun he => absurd hphase.1 he, .inl ⟨by simp, hphase.2.2⟩⟩
  | large h =>
    obtain ⟨hshape, hlast, hphase⟩ := hok.at h
    simp only [Phase, h.pump] at hphase
    exact .of_running h.task h.running hshape hlast hphase.2
  | @ended x e h =>
    obtain ⟨hshape, hlast, hphase⟩ := hok.at h
    simp only [Phase, h.pump] at hphase
    refine .of_running h.task h.running hshape hlast ?_
    rcases Relay.endPump_cases e v.tcp with hp | hp <;> simp only [Phase, hp]
    · exact hphase.2
    · refine ⟨hphase.2.1, ?_⟩
      rintro ⟨e', he', hp'⟩
      cases he'
      rw [hp] at hp'
      cases hp'
  | announce h =>
    obtain ⟨hshape, hlast, hphase⟩ := hok.at h
    simp only [Phase, h.pump] at hphase
    refine .of_running h.task h.running hshape hlast ?_
    exact ⟨_, rfl, .inl rfl, fun _ => rfl, .inl ⟨by simp, hphase.2⟩⟩
  | @move x f pc h hf hf' hflush =>
    obtain ⟨hshape, hlast, hphase⟩ := hok.at h
    refine .of_running h.task h.running hshape hlast ?_
    simp only [Phase, h.pump]
    obtain ⟨hsf, hend, ⟨-, hno⟩ | ⟨hpc, -⟩⟩ := writing_phase hphase h.pump hf
    · exact ⟨f, hf', hsf, hend, .inl ⟨(hflush f).2, hno⟩⟩
    · exact absurd hpc (hflush f).1
  | sent h hpc => exact hok.sent h hpc
  | @wroteEnd x f h hpc hend =>
    obtain ⟨hshape, hlast, hphase⟩ := hok.at h
    obtain ⟨hsf, -, fs, hlog, -⟩ := flush_phase hphase h.pump hpc
    refine .of_running h.task h.running hshape hlast ⟨rfl, fun _ _ => ?_⟩
    rw [← hsf.eq_endFrame hend]
    show f ∈ v.log
    simp [hlog]
  | @wroteData x f h hpc hend =>
    obtain ⟨hshape, hlast, hphase⟩ := hok.at h
    obtain ⟨-, hended, fs, hlog, hno⟩ := flush_phase hphase h.pump hpc
    refine .of_running h.task h.running hshape hlast ⟨?_, rfl, hlog ▸ hno.snoc hend⟩
    by_contra he
    rw [hended he, Relay.isEnd_endFrame] at hend
    cases hend
  | @failed x f pump h hf hb hpump =>
    obtain ⟨hshape, hlast, hphase⟩ := hok.at h
    refine .of_running h.task h.running hshape hlast ?_
    rcases hpump with rfl | ⟨rfl, hend⟩
    · exact ⟨rfl, fun _ hb' => by rw [hb] at hb'; cases hb'⟩
    · refine ⟨rfl, ?_⟩
      obtain ⟨-, -, ⟨-, hno⟩ | ⟨-, fs, hlog, hno⟩⟩ := writing_phase hphase h.pump hf
      · exact hno
      · exact hlog ▸ hno.snoc hend
  | removed h =>
    obtain ⟨hshape, hlast, hphase⟩ := hok.at h
    simp only [Phase, h.pump] at hphase
    exact ⟨hshape, hlast, hphase⟩
  | dropped h ha =>
    obtain ⟨hshape, hlast, -⟩ := hok.at h
    exact ⟨hshape, hlast, rfl, ha⟩

theorem Step.of_finished (hst : Step v v') (h : v.task = some x) (hx : x.status = .finished) :
    v'.log = v.log ∧ ∃ x', v'.task = some x' ∧ x'.status = .finished := by
  have hat : ∀ {y pump}, ¬ v.At y pump := by
    intro y pump hy
    have htask := hy.task
    rw [h] at htask
    cases htask
    rw [hy.running] at hx
    cases hx
  cases hst with
  | outside hout =>
    cases hout with
    | spawn h' => rw [h] at h'; cases h'
    | abort h' => rw [h] at h'; cases h'; exact ⟨rfl, _, rfl, hx⟩
    | breaks => exact ⟨rfl, x, h, hx⟩
  | data h' | large h' | ended h' | announce h' | move h' | sent h' | wroteEnd h' | wroteData h'
  | failed h' | removed h' | dropped h' => exact absurd h' hat

theorem Step.aborted (hst : Step v v') (h : v.task = some x) (hx : x.aborted = true) :
    ∃ x', v'.task = some x' ∧ x'.aborted = true := by
  have heq : ∀ {y pump}, v.At y pump → y = x := fun hy =>
    Option.some.inj (hy.task.symm.trans h)
  cases hst with
  | outside hout =>
    cases hout with
    | spawn h' => rw [h] at h'; cases h'
    | abort h' => exact ⟨_, rfl, rfl⟩
    | breaks => exact ⟨x, h, hx⟩
  | removed h' | dropped h' => exact ⟨_, rfl, by rw [heq h']; exact hx⟩
  | _ => exact ⟨x, h, hx⟩

theorem Step.announces (hst : Step v v') (hok : v.Ok) (ht : v.task ≠ none) (h : v.Announces) :
    v'.Announces ∧ v'.task ≠ none := by
  cases hst with
  | outside hout =>
    cases hout with
    | spawn h' => exact absurd h' ht
    | abort => exact ⟨h, by simp⟩
    | breaks => exact ⟨h, ht⟩
  | ended h' =>
    obtain ⟨-, -, hphase⟩ := hok.at h'
    obtain ⟨e, he, -⟩ := h
    simp [Phase, h'.pump, he] at hphase
  | removed | dropped => exact ⟨h, by simp⟩
  | _ => exact ⟨h, ht⟩

end ReaderView

/-! ## The relay, seen from a reader -/

namespace Relay

variable {s t : Relay} {a : Act} {u : ℕ}

def view (s : Relay) (u : ℕ) : ReaderView where
  task := s.table.task u
  reader := s.reader u
  pc := s.writer.pc (.reader u)
  log := s.log (.reader u)
  tcp := (s.upstream u).source.isTcp
  broken := s.writer.broken

theorem view_of_eq (htask : t.table.task u = s.table.task u) (hreader : t.reader u = s.reader u)
    (hwriter : t.writer = s.writer)
    (htcp : (t.upstream u).source.isTcp = (s.upstream u).source.isTcp) : t.view u = s.view u := by
  simp [view, log, htask, hreader, hwriter, htcp]

theorem isTcp_update {f : ℕ → DuplexLock Source} {v : ℕ} {d : DuplexLock Source}
    (h : d.source.isTcp = (f v).source.isTcp) :
    (Function.update f v d u).source.isTcp = (f u).source.isTcp := by
  by_cases hu : u = v
  · subst hu; simpa using h
  · simp [hu]

variable {w : FrameWriter Party MuxFrame Byte}

theorem At.view {x : Task UInt16} {pump : Pump} (h : s.At u x pump) : (s.view u).At x pump :=
  ⟨h.task, h.running, h.pump⟩

theorem view_of_write {x : Task UInt16} {a : WriteAct} (hx : s.At u x .writing)
    (h : s.writer.op wire (.reader u) (WriteAct.op a) = some w)
    (ha : a = .request ∨ a = .enter ∨ ∃ k, a = .push k) :
    view { s with writer := w } u = s.view u ∨
      ReaderView.Step (s.view u) (view { s with writer := w } u) := by
  rcases FrameWriter.op_cases h with ⟨f, ho, -, rfl⟩ | ⟨f, -, hpc, -, rfl⟩ | ⟨f, -, hpc, -, rfl⟩ |
    ⟨k, f, done, rest, -, hpc, -, -, -, rfl⟩ | ⟨f, done, rest, -, hpc, -, rfl⟩ | ⟨ho, -⟩
  · rcases ha with rfl | rfl | ⟨k, rfl⟩ <;> cases ho
  · exact .inl rfl
  · have := @ReaderView.Step.move _ _ f (.write f [] (wire f)) hx.view
      (by simp [view, hpc, WritePc.frame]) rfl (fun g => by simp [view, hpc])
    exact .inr (by simpa [view, log] using this)
  · have := @ReaderView.Step.move _ _ f (.write f (done ++ rest.take k) (rest.drop k)) hx.view
      (by simp [view, hpc, WritePc.frame]) rfl (fun g => by simp [view, hpc])
    exact .inr (by simpa [view, log] using this)
  · have := @ReaderView.Step.sent _ _ f done rest hx.view hpc
    exact .inr (by simpa [view, log] using this)
  · rcases ha with rfl | rfl | ⟨k, rfl⟩ <;> simp [WriteAct.op] at ho

theorem pc_of_flushed {p : Party} {f : MuxFrame} (hf : s.frameOf p = some f)
    (h : s.writer.op wire p .flushed = some w) : s.writer.pc p = .flush f := by
  obtain ⟨f', hpc⟩ := (FrameWriter.op_leave h (.inl rfl)).2.1 rfl
  rw [frameOf, hpc] at hf
  cases hf
  exact hpc

theorem Effect.view_of_taken (he : Effect s a t) (ha : actor a = some (.reader u)) :
    t.view u = s.view u ∨ ReaderView.Step (s.view u) (t.view u) := by
  cases he with
  | readRequest hx h =>
    exact .inl (view_of_eq rfl rfl rfl (isTcp_update (by rw [DuplexLock.request_eq h])))
  | readEnter hx h =>
    exact .inl (view_of_eq rfl rfl rfl (isTcp_update (by rw [DuplexLock.enter_eq h])))
  | @write p a f w hp hf h hop =>
    obtain rfl : p = .reader u := Option.some.inj ha
    obtain ⟨x, hx⟩ := At.of_writes hp
    exact view_of_write hx h hop
  | wroteEnd hx hf hend h =>
    cases ha
    have := ReaderView.Step.wroteEnd hx.view (pc_of_flushed hf h) hend
    obtain ⟨rfl, -⟩ := FrameWriter.op_leave h (.inl rfl)
    exact .inr (by simpa [Relay.view, log, setPump] using this)
  | wroteData hx hf hend h =>
    cases ha
    have := ReaderView.Step.wroteData hx.view (pc_of_flushed hf h) hend
    obtain ⟨rfl, -⟩ := FrameWriter.op_leave h (.inl rfl)
    exact .inr (by simpa [Relay.view, log, setPump, setUpstream, DuplexLock.start] using this)
  | failReader hx hf hpump h =>
    cases ha
    obtain ⟨rfl, -, hb⟩ := FrameWriter.op_leave h (.inr (.inl rfl))
    have := ReaderView.Step.failed hx.view hf (hb rfl) hpump
    exact .inr (by simpa [Relay.view, log, setPump] using this)
  | @readData _ x n chunk src hx hin h =>
    cases ha
    have := @ReaderView.Step.data _ _ chunk hx.view
    exact .inr (by simpa [Relay.view, log, readerWrites, setPump, setUpstream, FrameWriter.start,
      Source.isTcp_readData h] using this)
  | readLarge hx hin h =>
    cases ha
    have := ReaderView.Step.large hx.view
    exact .inr (by simpa [Relay.view, log, setPump, setUpstream, Source.isTcp_readData h]
      using this)
  | @readEnd _ x e hx hin h =>
    cases ha
    have := ReaderView.Step.ended (e := e) hx.view
    exact .inr (by simpa [Relay.view, log, readerGotEnd, setUpstream, DuplexLock.leave] using this)
  | announce hx =>
    cases ha
    have := ReaderView.Step.announce hx.view
    exact .inr (by simpa [Relay.view, log, readerWrites, setPump, FrameWriter.start] using this)
  | remove hx =>
    cases ha
    have := ReaderView.Step.removed hx.view
    exact .inr (by simpa [Relay.view, log, TaskTable.finish_eq hx.task, TaskTable.setStatus,
      hx.task] using this)
  | dropReader hx haborted h =>
    cases ha
    obtain ⟨rfl, -⟩ := FrameWriter.op_leave h (.inr (.inr rfl))
    have := ReaderView.Step.dropped hx.view haborted
    exact .inr (by simpa [Relay.view, log, setUpstream, TaskTable.drop, TaskTable.setStatus,
      hx.task, DuplexLock.leave] using this)
  | _ => cases ha

theorem Effect.view_of_other (he : Effect s a t) (hi : s.TableInv)
    (ha : actor a ≠ some (.reader u)) :
    t.view u = s.view u ∨ ReaderView.Outside (s.view u) (t.view u) := by
  have hne : ∀ {v}, actor a = some (.reader v) → u ≠ v := fun hv hu => ha (hu ▸ hv)
  -- what the reader has to do with the client stream is as before
  obtain ⟨hpc, hlog, hbroken⟩ := he.writer_of_other ha
  have hsame (htask : t.table.task u = s.table.task u) (hreader : t.reader u = s.reader u)
      (htcp : (t.upstream u).source.isTcp = (s.upstream u).source.isTcp)
      (hact : a ≠ .clientBreaks) : t.view u = s.view u := by
    simp [Relay.view, htask, hreader, hpc, hlog, htcp, hbroken hact]
  cases he with
  | quiet h | registry h =>
    exact .inl (view_of_eq (by rw [h.table]) (by rw [h.reader]) h.writer (by rw [h.upstream]))
  | @endSession f now hs =>
    rcases TaskTable.task_remove (t := s.table) (k := f.meta_.sessionId) u with h | ⟨x, hx, hx'⟩
    · exact .inl (view_of_eq h rfl rfl rfl)
    · have := ReaderView.Outside.abort (v := s.view u) hx
      exact .inr (by simpa [Relay.view, log, hx'] using this)
  | eof hs =>
    rcases TaskTable.task_drain (t := s.table) u with h | ⟨x, hx, hx'⟩
    · exact .inl (view_of_eq h rfl rfl rfl)
    · have := ReaderView.Outside.abort (v := s.view u) hx
      exact .inr (by simpa [Relay.view, log, hx'] using this)
  | @spawn a f tcp i sent h =>
    by_cases hu : u = s.table.next
    · subst hu
      have := @ReaderView.Outside.spawn (s.view s.table.next) f.meta_.sessionId tcp
        (hi.fresh _ le_rfl)
      refine .inr ?_
      cases i <;> cases tcp <;> simpa [Relay.view, log, spawnSession, TaskTable.openTask,
        TaskTable.spawn, DuplexLock.start, DuplexLock.new, Source.isTcp] using this
    · refine .inl (hsame ?_ ?_ ?_ (by simp))
      · cases i <;> simp [spawnSession, TaskTable.openTask, TaskTable.spawn, hu]
      · simp [spawnSession, hu]
      · simp [spawnSession, hu]
  | insert => exact .inl (hsame (by simp) rfl rfl (by simp))
  | keepRequest hs h | readRequest hs h =>
    exact .inl (hsame rfl rfl (isTcp_update (by rw [DuplexLock.request_eq h])) (by simp))
  | keepEnter hs h | readEnter hs h =>
    exact .inl (hsame rfl rfl (isTcp_update (by rw [DuplexLock.enter_eq h])) (by simp))
  | keep | keepOk | keepErr => exact .inl (hsame rfl rfl (isTcp_update rfl) (by simp))
  | answer | write | wroteMain | failMain | leaveCone | dropCone | coneWrites | coneEnds =>
    exact .inl (hsame rfl rfl rfl (by simp))
  | wroteEnd | failReader | announce =>
    exact .inl (hsame rfl (by simp [readerWrites, setPump, hne rfl]) rfl (by simp))
  | wroteData =>
    exact .inl (hsame rfl (by simp [setPump, setUpstream, hne rfl]) (isTcp_update rfl) (by simp))
  | readData hx hin h | readLarge hx hin h =>
    exact .inl (hsame rfl (by simp [readerWrites, setPump, setUpstream, hne rfl])
      (isTcp_update (Source.isTcp_readData h)) (by simp))
  | readEnd =>
    exact .inl (hsame rfl (by simp [readerGotEnd, setUpstream, hne rfl]) (isTcp_update rfl)
      (by simp))
  | remove hx =>
    exact .inl (hsame (by simp [TaskTable.finish_eq hx.task, TaskTable.setStatus, hne rfl]) rfl rfl
      (by simp))
  | dropReader =>
    exact .inl (hsame (by simp [TaskTable.drop, TaskTable.setStatus, hne rfl]) rfl
      (isTcp_update rfl) (by simp))
  | arrive | upstreamEnd => exact .inl (hsame rfl rfl (isTcp_update (by simp)) (by simp))
  | clientBreaks => exact .inr .breaks

theorem Effect.view (he : Effect s a t) (hi : s.TableInv) (u : ℕ) :
    t.view u = s.view u ∨ ReaderView.Step (s.view u) (t.view u) := by
  by_cases ha : actor a = some (.reader u)
  · exact he.view_of_taken ha
  · exact (he.view_of_other hi ha).imp_right .outside

end Relay

end SkadiCore.Mux
