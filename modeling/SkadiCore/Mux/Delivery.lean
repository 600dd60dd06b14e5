import SkadiCore.Mux.Datagrams
import SkadiCore.Mux.ReaderLock

/-!
# Delivery of datagrams to the client
-/

namespace SkadiCore.Mux.Relay

open SkadiCore.Relay

variable {s t : Relay} {a : Act} {limits : RelayLimits} {p : Party} {k : UInt16}

/-- The steps that bring the waiting datagrams of `p` to the client. -/
def Delivers (p : Party) : Relay → Act → Prop := fun s a =>
  s.fits p a = true ∧ (Writers s a ∨ ∃ u, p = .reader u ∧
    (TowardsSocket u s a ∨ ∃ n, a = .reader u (.data n)))

theorem Delivers.environment (h : Delivers p s a) :
    arrived k p a = none ∧ recvFails p a = false := by
  rcases h.2 with ⟨q, b, rfl⟩ | ⟨u, rfl, ((rfl | rfl) | rfl | rfl) | ⟨n, rfl⟩⟩ <;>
    simp [arrived, recvFails]

structure Ready (s : Relay) (p : Party) (k : UInt16) : Prop where
  inv : s.Inv
  isOpen : s.Open p k
  live : s.aborted p = false
  works : s.writer.broken = false

theorem Ready.run {as : List Act} (h : s.Ready p k) (hrun : Run (step limits) (Delivers p) s as t)
    (hlive : t.aborted p = false) (hworks : t.writer.broken = false) :
    t.Ready p k ∧ t.due k p = s.due k p := by
  have henv : as.filterMap (arrived k p) = [] ∧ as.any (recvFails p) = false := by
    clear hlive hworks
    induction hrun with
    | nil => exact ⟨rfl, rfl⟩
    | snoc _ hC _ ih =>
      obtain ⟨ha, hf⟩ := hC.environment (k := k)
      rw [List.filterMap_append, List.any_append, ih.1, ih.2]
      simp [ha, hf]
  obtain ⟨hi, hint | ⟨hopen, hdue⟩⟩ := h.isOpen.run h.inv (hrun.mono fun _ _ hC => hC.1)
  · rcases hint with hf | hf | hf
    · rw [henv.2] at hf; cases hf
    · rw [hlive] at hf; cases hf
    · rw [hworks] at hf; cases hf
  · exact ⟨⟨hi, hopen, hlive, hworks⟩, by simpa [henv.1] using hdue⟩

/-! ## Handing over a frame -/

theorem TaskKept.aborted (h : TaskKept s t p) : t.aborted p = s.aborted p := by
  cases p with
  | main => rfl
  | reader u => simp [Relay.aborted, h.table]
  | cone c => simp [Relay.aborted, h.cone c rfl]

theorem serves_issued {ops : List (Party × WriteOp MuxFrame)}
    {w w' : FrameWriter Party MuxFrame Byte}
    (h : Run (FrameWriter.opStep wire) (FrameWriter.Serves p) w ops w') :
    w'.issued p = w.issued p := by
  refine h.invariant (I := fun v => v.issued p = w.issued p) ?_ rfl
  rintro v ⟨q, o⟩ v' hv ho hst
  rw [← hv]
  by_cases hq : p = q
  · subst hq
    cases o with
    | start | fail | cancel => exact ho.elim
    | request | enter | push | flushed =>
      exact FrameWriter.op_issued hst (by simp) (by simp) (by simp)
  · exact FrameWriter.op_issued_of_ne hst hq

theorem flush_step (limits : RelayLimits) {f : MuxFrame} (h : s.UdpAt p k .writing)
    (hpc : s.writer.pc p = .flush f) (hend : f.isEnd = false) (hb : s.writer.broken = false) :
    ∃ t, s.step limits (.write p .flushed) = some t ∧ t.UdpAt p k .reading ∧
      t.aborted p = s.aborted p ∧ t.waiting p = s.waiting p ∧ t.writer.broken = false := by
  let w : FrameWriter Party MuxFrame Byte := { s.writer with
    pc := Function.update s.writer.pc p .idle, mutex := s.writer.mutex.leave p }
  have hst : s.step limits (.write p .flushed) = some (wrote { s with writer := w } p f) := by
    simp [step, writeStep, h.writes_iff, frameOf, hpc, WritePc.frame, WriteAct.op, FrameWriter.op,
      hb, w]
  refine ⟨_, hst, ?_⟩
  cases h with
  | @session u x _ hx hudp =>
    simp only [wrote, hend, Bool.false_eq_true, if_false]
    refine ⟨.session ⟨hx.task, hx.running, by simp [setPump, setUpstream]⟩ ?_, rfl, ?_, hb⟩
    · simpa [setPump, setUpstream, DuplexLock.start] using hudp
    · simp [waiting, setPump, setUpstream, DuplexLock.start]
  | @cone c r _ hr hrun hp =>
    simp only [wrote, hr, hend, Bool.false_eq_true, if_false]
    exact ⟨.cone (r := { r with pump := .reading }) (by simp [setCone]) hrun rfl,
      by simp [aborted, setCone, hr], rfl, hb⟩

theorem Ready.to_reading (limits : RelayLimits) (h : s.Ready p k) :
    ∃ as t, Run (step limits) (Delivers p) s as t ∧ t.Ready p k ∧ t.UdpAt p k .reading ∧
      t.due k p = s.due k p ∧ t.waiting p = s.waiting p := by
  rcases h.isOpen with hat | ⟨hat, f, hf, hend⟩
  · exact ⟨[], s, .nil s, h, hat, rfl, rfl⟩
  · obtain ⟨ops, w, hserve, hpc⟩ := FrameWriter.exists_flush wire_ne_nil h.inv.frames h.works hf
    have hbw : w.broken = false := (FrameWriter.serves_broken hserve).trans h.works
    obtain ⟨as, r, hrun, hri, rfl, hkept⟩ := run_of_serves limits h.inv hserve
    have hrun : Run (step limits) (Delivers p) s as r :=
      hrun.mono fun _ _ ⟨q, b, ha⟩ => ⟨by rw [ha]; rfl, .inl ⟨q, b, ha⟩⟩
    have hlive : r.aborted p = false := hkept.aborted.trans h.live
    obtain ⟨hr, hdue⟩ := h.run hrun hlive hbw
    -- the reader takes nothing from its socket meanwhile
    have hwait : r.waiting p = s.waiting p := by
      rw [due, due, serves_issued hserve] at hdue
      refine List.map_injective_iff.mpr (fun d d' hd => ?_) (List.append_cancel_left hdue)
      simpa [dataFrame] using hd
    obtain ⟨hrat, -⟩ := hr.isOpen.of_frame hri (f := f) (by rw [frameOf, hpc]; rfl)
    obtain ⟨t, hst, htat, hta, htw, htb⟩ := flush_step limits hrat hpc hend hbw
    have hrun' := hrun.snoc ⟨rfl, .inl ⟨_, _, rfl⟩⟩ hst
    obtain ⟨ht, htdue⟩ := h.run hrun' (hta.trans hlive) htb
    exact ⟨_, t, hrun', ht, htat, htdue, htw.trans hwait⟩

/-! ## Receiving a datagram -/

theorem Ready.receive (limits : RelayLimits) {d : Bytes} {ds : List Bytes} (h : s.Ready p k)
    (hat : s.UdpAt p k .reading) (hwait : s.waiting p = d :: ds)
    (hd : d.length ≤ MAX_CHUNK_SIZE) :
    ∃ as t, Run (step limits) (Delivers p) s as t ∧ t.Ready p k ∧ t.due k p = s.due k p ∧
      t.waiting p = ds := by
  cases hat with
  | cone => cases hwait
  | @session u x _ hx hudp =>
    obtain ⟨as, r, hrun, hr⟩ := reader_enters limits h.inv hx
    have hrun : Run (step limits) (Delivers (.reader u)) s as r := by
      refine hrun.mono fun _ a ha => ⟨?_, .inr ⟨u, rfl, .inl ha⟩⟩
      rcases ha with (rfl | rfl) | rfl | rfl <;> rfl
    obtain ⟨failed, hsource⟩ : ∃ failed, (r.upstream u).source = .udp (d :: ds) failed := by
      rw [hr.source]
      cases hs : (s.upstream u).source with
      | tcp => rw [hs] at hudp; cases hudp
      | udp ds' failed =>
        simp only [waiting, hs] at hwait
        exact ⟨failed, by rw [hwait]⟩
    have hst : r.step limits (.reader u (.data 0)) =
        some (r.readerGotData u x.key d (.udp ds failed)) := by
      simp [step, readerStep, hr.table, hx.task, hx.running, pumpStep, hr.reader, hx.pump, hr.pc,
        hsource, Source.readData]
    have hgot : r.readerGotData u x.key d (.udp ds failed) =
        readerWrites
          (r.setUpstream u { (r.upstream u).leave .reader with source := .udp ds failed })
          u (dataFrame x.key none d) := by
      simp [readerGotData, encodeDataFrame, dataFrame, hd.not_gt]
    have hfit : r.fits (.reader u) (.reader u (.data 0)) = true := by
      simp [fits, datagram, hsource, Source.readData, hd]
    have hrun' := hrun.snoc ⟨hfit, .inr ⟨u, rfl, .inr ⟨0, rfl⟩⟩⟩ hst
    rw [hgot] at hrun'
    obtain ⟨ht, hdue⟩ := h.run hrun'
      (by simpa [aborted, readerWrites, setPump, setUpstream, hr.table] using h.live)
      (by simpa [readerWrites, FrameWriter.start, setPump, setUpstream, hr.writer] using h.works)
    exact ⟨_, _, hrun', ht, hdue, by simp [waiting, readerWrites, setPump, setUpstream]⟩

theorem Ready.delivers (limits : RelayLimits) (h : s.Ready p k)
    (hsmall : ∀ d ∈ s.waiting p, d.length ≤ MAX_CHUNK_SIZE) :
    ∃ as t, Run (step limits) (Delivers p) s as t ∧ t.log p = s.due k p := by
  -- by induction on the datagrams at the socket
  induction hw : s.waiting p generalizing s with
  | nil =>
    obtain ⟨as, t, hrun, ht, hat, hdue, hwait⟩ := h.to_reading limits
    refine ⟨as, t, hrun, ?_⟩
    rw [← hdue, due, hwait, hw, FrameWriter.issued, hat.idle ht.inv (by simp)]
    simp [WritePc.pending, log]
  | cons d ds ih =>
    obtain ⟨as, r, hrun, hr, hat, hdue, hwait⟩ := h.to_reading limits
    obtain ⟨bs, r', hrun', hr', hdue', hwait'⟩ := hr.receive limits hat (hwait.trans hw)
      (hsmall d (by simp [hw]))
    obtain ⟨cs, t, hrun'', hlog⟩ := ih hr' (fun d' hd' => hsmall d' (by
      rw [hw]
      exact List.mem_cons_of_mem d (hwait' ▸ hd'))) hwait'
    exact ⟨_, t, (hrun.append hrun').append hrun'', by rw [hlog, hdue', hdue]⟩

/-! ## The size of a datagram -/

theorem open_iff_of_ite {n : ℕ} {q : Prop}
    (h : if n ≤ MAX_CHUNK_SIZE then t.Open p k ∧ q else t.UdpAt p k .ending) :
    t.Open p k ↔ n ≤ MAX_CHUNK_SIZE := by
  split_ifs at h with hn
  · exact ⟨fun _ => hn, fun _ => h.1⟩
  · exact ⟨fun ho => (ho.not_at h (by simp) (by simp)).elim, fun hn' => absurd hn' hn⟩

theorem Open.receives_iff {d : Bytes} (h : s.Open p k) (hi : s.Inv)
    (hd : s.datagram p a = some d) (hst : s.step limits a = some t) :
    t.Open p k ↔ d.length ≤ MAX_CHUNK_SIZE := by
  obtain ⟨pump, hat, hpump⟩ := h.udpAt
  have hidle := hat.idle hi
  cases hat with
  | @session u x _ hx hudp =>
    obtain ⟨n, src, rfl, hread⟩ : ∃ n src, a = .reader u (.data n) ∧
        (s.upstream u).source.readData n = some (d, src) := by
      unfold datagram at hd
      split at hd
      · split_ifs at hd with hp
        cases hp
        obtain ⟨⟨d', src⟩, hread, rfl⟩ := Option.map_eq_some_iff.mp hd
        exact ⟨_, src, rfl, hread⟩
      · simp at hd
      · cases hd
    simp only [Relay.step, readerStep, hx.task, hx.running, if_true, pumpStep, hx.pump] at hst
    rcases hpump with rfl | rfl <;> simp only [reduceCtorEq] at hst
    split_ifs at hst
    simp only [hread, Option.map_some, Option.some.injEq] at hst
    subst hst
    exact open_iff_of_ite (readData_udp hx hi hudp hread)
  | @cone c r _ hr hrun hp =>
    obtain ⟨source, rfl⟩ : ∃ source, a = .cone c (.recv source d) := by
      unfold datagram at hd
      split at hd
      · simp at hd
      · split_ifs at hd with hp
        cases hp
        cases hd
        exact ⟨_, rfl⟩
      · cases hd
    simp only [Relay.step, coneStep, hr, hrun, if_true, conePumpStep, hp] at hst
    rcases hpump with rfl | rfl <;> simp only [reduceCtorEq, Option.some.injEq] at hst
    subst hst
    exact open_iff_of_ite (coneGotData_udp hrun (hidle (by simp)))

/-- From every reachable state: the reader of a UDP session or of an XUDP cone leaves its
    loop at a datagram above 8192 bytes and at no other. As long as it receives none such,
    and its socket, its task and the stream to the client are left alone, every datagram
    that arrives becomes a frame of its session, in order, and can be delivered. -/
theorem datagrams_pass {registry : XudpManager Handle} {as₀ : List Act}
    (hs : Run (step limits) Any (init registry) as₀ s) (ho : s.Open p k) :
    (∀ a d t, s.datagram p a = some d → s.step limits a = some t →
      (t.Open p k ↔ d.length ≤ MAX_CHUNK_SIZE)) ∧
    (∀ as t, Run (step limits) (fun s a => s.fits p a = true) s as t →
      t.Interrupted p as ∨
        (t.Open p k ∧ t.due k p = s.due k p ++ as.filterMap (arrived k p))) ∧
    (s.aborted p = false → s.writer.broken = false →
      (∀ d ∈ s.waiting p, d.length ≤ MAX_CHUNK_SIZE) →
      ∃ as t, Run (step limits) (Delivers p) s as t ∧ t.log p = s.due k p) := by
  have hi := inv_of_run hs
  refine ⟨fun a d t hd hst => ho.receives_iff hi hd hst, fun as t hrun => (ho.run hi hrun).2, ?_⟩
  intro hlive hworks hsmall
  exact Ready.delivers limits ⟨hi, ho, hlive, hworks⟩ hsmall

def openUdp (k : UInt16) : List Act :=
  [.main (.frame (newFrame k NETWORK_UDP (.ip (.v4 (ipv4Addr 1 1 1 1) 53)) none none) 0),
    .main (.connectOk false)]

theorem datagrams_pass_short :
    ∃ s, Run (step ⟨none, none⟩) Any (init .new) (openUdp 1 ++ [.arrive 0 [], .arrive 0 [7]]) s ∧
      ∃ as t, Run (step ⟨none, none⟩) (Delivers (.reader 0)) s as t ∧
        t.log (.reader 0) = [dataFrame 1 none [], dataFrame 1 none [7]] := by
  have hrun : Run (step ⟨none, none⟩) Any (init .new)
      (openUdp 1 ++ [.arrive 0 [], .arrive 0 [7]]) _ := exec_any rfl
  have hpass := datagrams_pass hrun (p := .reader 0) (k := 1)
    (.inl (.session (x := ⟨1, .running, false⟩) ⟨rfl, rfl, rfl⟩ rfl))
  exact ⟨_, hrun, hpass.2.2 rfl rfl (by decide)⟩

def receiveAndEnd : List Act :=
  [.reader 0 .request, .reader 0 .enter, .reader 0 (.data 0), .reader 0 .announce] ++
    writeWhole (.reader 0) 6 ++ [.reader 0 .remove]

theorem receiveAndEnd_run {d : Bytes} (hd : MAX_CHUNK_SIZE < d.length) :
    ∃ t, Run (step ⟨none, none⟩) Any (init .new)
        (openUdp 1 ++ [.arrive 0 d, .arrive 0 [7]] ++ receiveAndEnd) t ∧
      t.table.task 0 = some ⟨1, .finished, false⟩ ∧ t.writer.broken = false ∧
      t.log (.reader 0) = [endFrame 1] := by
  -- up to the datagram, the step that receives it, and what is left
  obtain ⟨r, t, hr, hread, ht, htask, hworks, hlog⟩ : ∃ r t,
      exec (step ⟨none, none⟩) (fun _ _ => true) (init .new)
        (openUdp 1 ++ [.arrive 0 d, .arrive 0 [7]] ++ [.reader 0 .request, .reader 0 .enter]) =
          some r ∧
      r.step ⟨none, none⟩ (.reader 0 (.data 0)) =
        some (r.readerGotData 0 1 d (.udp [[7]] none)) ∧
      exec (step ⟨none, none⟩) (fun _ _ => true)
        ((r.setUpstream 0 { (r.upstream 0).leave .reader with source := .udp [[7]] none }).setPump 0
          .ending)
        ([.reader 0 .announce] ++ writeWhole (.reader 0) 6 ++ [.reader 0 .remove]) = some t ∧
      t.table.task 0 = some ⟨1, .finished, false⟩ ∧ t.writer.broken = false ∧
      t.log (.reader 0) = [endFrame 1] :=
    ⟨_, _, rfl, rfl, rfl, rfl, rfl, rfl⟩
  have hlarge : r.readerGotData 0 1 d (.udp [[7]] none) =
      (r.setUpstream 0 { (r.upstream 0).leave .reader with source := .udp [[7]] none }).setPump 0
        .ending := by
    simp [readerGotData, encodeDataFrame, hd, dataFailed, setUpstream, Source.isTcp]
  rw [hlarge] at hread
  have hbefore := exec_any hr
  have hbehind := exec_any ht
  exact ⟨t, (hbefore.snoc trivial hread).append hbehind, htask, hworks, hlog⟩

theorem large_datagram_ends : ∃ d t, d.length = 8193 ∧
    Run (step ⟨none, none⟩) Any (init .new)
      (openUdp 1 ++ [.arrive 0 d, .arrive 0 [7]] ++ receiveAndEnd) t ∧
    ¬ t.Interrupted (.reader 0) receiveAndEnd ∧
    ∀ bs r, Run (step ⟨none, none⟩) Any t bs r → r.log (.reader 0) = [endFrame 1] := by
  obtain ⟨t, hrun, htask, hworks, hlog⟩ := receiveAndEnd_run (d := List.replicate 8193 0)
    (by rw [List.length_replicate]; decide)
  refine ⟨_, t, List.length_replicate, hrun, ?_, fun bs r hrun' => ?_⟩
  · rintro (h | h | h)
    · exact absurd h (by decide)
    · simp [aborted, htask] at h
    · simp [hworks] at h
  · rw [log_eq_of_finished (inv_of_run hrun) htask rfl hrun', hlog]

end SkadiCore.Mux.Relay
