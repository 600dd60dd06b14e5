import SkadiCore.Mux.RelayInv

/-!
# The upstream lock between the main loop and a reader

A reader task waits for its upstream with the upstream lock held, and the main
loop needs the same lock to forward a KEEP payload. While it waits for the lock it
reads no frames and watches no timer.
-/

namespace SkadiCore.Mux.Relay

open SkadiCore.Relay

variable {s t : Relay} {a : Act} {limits : RelayLimits} {u : ℕ}

/-- The main loop waits to write a payload behind a reader that waits for its socket. -/
def SelfBlocked (s : Relay) : Prop :=
  ∃ u payload, s.main = .keep u payload ∧ (s.upstream u).Blocked Source.readable

def asksSafely (s : Relay) : Act → Bool
  | .main .keepRequest => match s.main with
    | .keep u _ => (s.upstream u).mutex.holder != some .reader || (s.upstream u).source.readable
    | _ => true
  | _ => true

/-- Only the main loop and reader `u` take steps. -/
def MainAndReader (u : ℕ) : Relay → Act → Prop :=
  fun _ a => (∃ m, a = .main m) ∨ ∃ r, a = .reader u r

/-! ## Safety -/

theorem safe_update {f : ℕ → DuplexLock Source} {d : DuplexLock Source}
    (h : ∀ v, (f v).Safe Source.readable) (hd : d.Safe Source.readable) (v : ℕ) :
    (Function.update f u d v).Safe Source.readable :=
  (Function.forall_update_iff f (p := fun _ d => d.Safe Source.readable)).mpr
    ⟨hd, fun v _ => h v⟩ v

theorem Effect.safe (he : Effect s a t) (hi : s.Inv) (hC : s.asksSafely a = true)
    (h : ∀ v, (s.upstream v).Safe Source.readable) (v : ℕ) :
    (t.upstream v).Safe Source.readable := by
  cases he with
  | quiet hq | registry hq => rw [hq.upstream]; exact h v
  | keep | wroteData => exact safe_update h ((h _).start _) v
  | spawn => exact safe_update h ((DuplexLock.new_safe _).start _) v
  | @keepRequest u payload d hs hd =>
    refine safe_update h ((h u).request (fun _ hr => ?_) hd) v
    simpa [asksSafely, hs, hr] using hC
  | keepEnter hs hd | readEnter hs hd => exact safe_update h ((h _).enter hd) v
  | keepOk | keepErr => exact safe_update h ((hi.locks _).leave_safe .writer _) v
  | readRequest hu hd => exact safe_update h ((h _).request (by simp) hd) v
  | readData | readLarge | readEnd | dropReader =>
    exact safe_update h ((hi.locks _).leave_safe .reader _) v
  | @arrive u data => exact safe_update h ((h u).of_readable (Source.readable_arrive data)) v
  | @upstreamEnd u e => exact safe_update h ((h u).of_readable (Source.readable_finish e)) v
  | _ => exact h v

theorem safe_of_run {registry : XudpManager Handle} {as : List Act}
    (h : Run (step limits) (asksSafely · ·) (init registry) as s) (v : ℕ) :
    (s.upstream v).Safe Source.readable := by
  have hboth := h.invariant (I := fun s => s.Inv ∧ ∀ v, (s.upstream v).Safe Source.readable)
    (fun s a t hi hC hst => ⟨(step_effect hst).inv hi.1, (step_effect hst).safe hi.1 hC hi.2⟩)
    ⟨init_inv registry, fun _ => DuplexLock.new_safe _⟩
  exact hboth.2 v

/-! ## Progress -/

/-- The main loop writes the payload of a KEEP frame. -/
def WritesPayload : Relay → Act → Prop := fun _ a => a = .main .keepEnter ∨ a = .main .keepOk

theorem WritesPayload.mainAndReader {a : Act} (h : WritesPayload s a) : MainAndReader u s a := by
  rcases h with rfl | rfl
  · exact .inl ⟨_, rfl⟩
  · exact .inl ⟨_, rfl⟩

structure TasksKept (s t : Relay) : Prop where
  table : t.table = s.table
  reader : t.reader = s.reader
  writer : t.writer = s.writer

variable {payload : Bytes}

theorem keep_of_holder (limits : RelayLimits) (hi : s.Inv) (hm : s.main = .keep u payload)
    (hh : (s.upstream u).mutex.holder = some .writer) :
    ∃ as t, Run (step limits) WritesPayload s as t ∧ t.main = .select ∧
      t.received u = s.received u ++ [payload] ∧ t.upstream u = (s.upstream u).leave .writer ∧
      TasksKept s t := by
  have hwrite : ∀ {r : Relay}, r.main = .keep u payload → (r.upstream u).pc .writer = .inside →
      r.received = s.received → ∃ t, r.step limits (.main .keepOk) = some t ∧
        t.main = .select ∧ t.received u = s.received u ++ [payload] ∧
        t.upstream u = (r.upstream u).leave .writer ∧ TasksKept r t := by
    intro r hr hin hrec
    refine ⟨setUpstream { r with
        main := .select
        clientToUpstream := r.clientToUpstream + payload.length
        received := Function.update r.received u (r.received u ++ [payload]) }
        u ((r.upstream u).leave .writer), ?_, rfl, ?_, ?_, rfl, rfl, rfl⟩
    · simp [step, mainStep, hr, hin]
    · simp [setUpstream, hrec]
    · simp [setUpstream]
  cases hpc : (s.upstream u).pc .writer with
  | away => exact absurd hpc ((hi.keep u).mpr (by simp [hm, Main.keeps]))
  | inside =>
    obtain ⟨t, hst, ht⟩ := hwrite hm hpc rfl
    exact ⟨_, t, .single (.inr rfl) hst, ht⟩
  | waiting =>
    obtain ⟨t, hst, htm, hrec, hup, htasks⟩ := hwrite
      (r := s.setUpstream u
        { s.upstream u with pc := Function.update (s.upstream u).pc .writer .inside })
      hm (by simp [setUpstream]) rfl
    refine ⟨_, t, (Run.single (a := .main .keepEnter) (.inl rfl) ?_).snoc (.inr rfl) hst, htm,
      hrec, ?_, htasks.table, htasks.reader, htasks.writer⟩
    · simp [step, mainStep, hm, DuplexLock.enter_of_holder hpc hh]
    · simpa [setUpstream, DuplexLock.leave] using hup

theorem read_completes (limits : RelayLimits) {x : Task UInt16} (hx : s.At u x .reading)
    (hin : (s.upstream u).pc .reader = .inside) (hr : (s.upstream u).source.readable = true) :
    ∃ a t, s.step limits (.reader u a) = some t ∧ t.main = s.main ∧ t.received = s.received ∧
      (t.upstream u).mutex = (s.upstream u).mutex.leave .reader := by
  rcases Source.readable_iff.mp hr with ⟨n, ⟨chunk, src⟩, hd⟩ | ⟨e, he⟩
  · refine ⟨.data n, s.readerGotData u x.key chunk src, ?_, ?_⟩
    · simp [step, readerStep, hx.task, hx.running, pumpStep, hx.pump, hin, hd]
    · unfold readerGotData
      dsimp only
      split <;> exact ⟨rfl, rfl, by
        simp [readerWrites, dataFailed, setPump, setUpstream, DuplexLock.leave]⟩
  · refine ⟨.readEnd, s.readerGotEnd u e, ?_, rfl, rfl, ?_⟩
    · simp [step, readerStep, hx.task, hx.running, pumpStep, hx.pump, hin, he]
    · simp [readerGotEnd, setUpstream, DuplexLock.leave]

theorem reader_leaves (limits : RelayLimits) (hi : s.Inv)
    (hh : (s.upstream u).mutex.holder = some .reader)
    (hr : (s.upstream u).source.readable = true) :
    ∃ as t, Run (step limits) (MainAndReader u) s as t ∧ t.main = s.main ∧
      t.received = s.received ∧ (t.upstream u).mutex = (s.upstream u).mutex.leave .reader := by
  have hpc := (hi.locks u).waits .reader (AsyncMutex.mem_of_holder hh)
  obtain ⟨x, hx⟩ := At.of_reads ((hi.reader u).mp hpc)
  cases hp : (s.upstream u).pc .reader with
  | away => exact absurd hp hpc
  | inside =>
    obtain ⟨a, t, hst, ht⟩ := read_completes limits hx hp hr
    exact ⟨_, t, .single (.inr ⟨a, rfl⟩) hst, ht⟩
  | waiting =>
    let r := s.setUpstream u
      { s.upstream u with pc := Function.update (s.upstream u).pc .reader .inside }
    have hup : r.upstream u =
        { s.upstream u with pc := Function.update (s.upstream u).pc .reader .inside } := by
      simp [r, setUpstream]
    have hst : s.step limits (.reader u .enter) = some r := by
      simp [r, step, readerStep, hx.task, hx.running, pumpStep, hx.pump,
        DuplexLock.enter_of_holder hp hh]
    obtain ⟨a, t, hst', hm, hrec, hmut⟩ := read_completes limits (s := r)
      ⟨hx.task, hx.running, hx.pump⟩ (by simp [hup]) (by rw [hup]; exact hr)
    refine ⟨_, t, (Run.single (.inr ⟨_, rfl⟩) hst).append (.single (.inr ⟨a, rfl⟩) hst'),
      hm, hrec, ?_⟩
    rw [hmut, hup]

theorem keep_of_queued (limits : RelayLimits) (hi : s.Inv)
    (hs : (s.upstream u).Safe Source.readable) (hm : s.main = .keep u payload)
    (hw : .writer ∈ (s.upstream u).mutex.queue) :
    ∃ as t, Run (step limits) (MainAndReader u) s as t ∧ t.main = .select ∧
      t.received u = s.received u ++ [payload] := by
  rcases hs.writer_next (hi.locks u) hw with hh | ⟨hh, hr, hnext⟩
  · obtain ⟨as, t, hrun, ht, hrec, -⟩ := keep_of_holder limits hi hm hh
    exact ⟨as, t, hrun.mono fun _ _ => WritesPayload.mainAndReader, ht, hrec⟩
  · obtain ⟨as, r, hrun, hrm, hrec, hmut⟩ := reader_leaves limits hi hh hr
    have hri := hrun.invariant (I := Inv) (fun _ _ _ hi _ hst => (step_effect hst).inv hi) hi
    obtain ⟨bs, t, hrun', ht, htrec, -⟩ := keep_of_holder limits hri (hrm.trans hm)
      (by rw [hmut]; exact hnext)
    exact ⟨_, t, hrun.append (hrun'.mono fun _ _ => WritesPayload.mainAndReader), ht,
      by rw [htrec, hrec]⟩

theorem keep_completes (hi : s.Inv) (hs : ∀ v, (s.upstream v).Safe Source.readable)
    (hm : s.main = .keep u payload) (hC : s.asksSafely (.main .keepRequest) = true) :
    ∃ as t, Run (step limits) (MainAndReader u) s as t ∧ t.main = .select ∧
      t.received u = s.received u ++ [payload] := by
  by_cases hw : .writer ∈ (s.upstream u).mutex.queue
  · exact keep_of_queued limits hi (hs u) hm hw
  · have hpc := (hi.locks u).waiting ((hi.keep u).mpr (by simp [hm, Main.keeps])) hw
    let r := s.setUpstream u { s.upstream u with mutex := (s.upstream u).mutex.lock .writer }
    have hst : s.step limits (.main .keepRequest) = some r := by
      simp [r, step, mainStep, hm, DuplexLock.request_of_waiting hpc hw]
    have he := step_effect hst
    obtain ⟨as, t, hrun, ht, htrec⟩ := keep_of_queued limits (s := r) (he.inv hi)
      (he.safe hi hC hs u) hm (by simp [r, setUpstream, AsyncMutex.lock])
    exact ⟨_, t, (Run.single (.inl ⟨_, rfl⟩) hst).append hrun, ht, htrec⟩

/-- While the main loop asks for an upstream only when its reader is not waiting there
    for data, the relay does not block itself, and the payload of a KEEP frame can be
    written by the main loop and that reader alone. -/
theorem keep_not_blocked {registry : XudpManager Handle} {as : List Act}
    (h : Run (step limits) (asksSafely · ·) (init registry) as s) :
    ¬ s.SelfBlocked ∧ ∀ u payload, s.main = .keep u payload →
      s.asksSafely (.main .keepRequest) = true →
      ∃ as t, Run (step limits) (MainAndReader u) s as t ∧ t.main = .select ∧
        t.received u = s.received u ++ [payload] := by
  refine ⟨?_, fun u payload hm hC => keep_completes (inv_of_run h) (safe_of_run h) hm hC⟩
  rintro ⟨u, payload, -, hb⟩
  exact (safe_of_run h u).not_blocked hb

/-- The client opens a session and sends it a payload; the reader has taken the lock,
    and `arrived` came from the upstream before the main loop asks for it. -/
def keepWhileReading (arrived : List Bytes) : List Act :=
  openTcp 1 false ++ [.reader 0 .request, .reader 0 .enter] ++ arrived.map (.arrive 0) ++
    [.main (.frame (keepFrame 1 [65]) 0), .main .keepRequest]

theorem keep_not_blocked_readable :
    ∃ s, Run (step ⟨none, none⟩) (asksSafely · ·) (init .new) (keepWhileReading [[66]]) s ∧
      s.main = .keep 0 [65] ∧ ∃ as t, Run (step ⟨none, none⟩) (MainAndReader 0) s as t ∧
        t.main = .select ∧ t.received 0 = s.received 0 ++ [[65]] := by
  have hrun : Run (step ⟨none, none⟩) (asksSafely · ·) (init .new) (keepWhileReading [[66]]) _ :=
    exec_run (fun _ _ h => h) rfl
  exact ⟨_, hrun, rfl, (keep_not_blocked hrun).2 0 [65] rfl rfl⟩

theorem keep_blocked : ∃ as s, Run (step ⟨none, none⟩) Any (init .new) as s ∧ s.SelfBlocked := by
  exact ⟨keepWhileReading [], _, exec_any rfl, 0, [65], rfl, by decide, rfl, rfl, rfl⟩

end SkadiCore.Mux.Relay
