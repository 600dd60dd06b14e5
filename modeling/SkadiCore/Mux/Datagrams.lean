import SkadiCore.Mux.Announce

/-!
# Datagrams from the upstream

`pump_udp_upstream_to_client` and `pump_xudp_upstream_to_client`
(`crates/skadi-transport/src/mux.rs`, lines 618-653 and 407-442) receive into a buffer
of 65535 bytes, and `encode_data_frame` refuses a payload of more than 8192
(`crates/skadi-protocol/src/vless/mux/frame.rs`, lines 153-163). Both loops take the
refusal for a dead client: they leave the loop, write END and are done.

* `Effect.cone_of_other`: nobody but the reader of a cone moves it; the main loop and the
  registry can abort it (lines 291-298 and 349-378).
* `Open.run`: while all datagrams fit in a frame, a reader of UDP stays in its loop, and what it
  owes the client grows by what arrives, until the socket fails, the reader is aborted or the
  stream to the client breaks.
-/

namespace SkadiCore.Mux.Relay

open SkadiCore.Relay

variable {s t : Relay} {a : Act} {limits : RelayLimits} {p : Party} {k : UInt16}

/-- Task `p` runs for the UDP session `k` and is at this point. -/
inductive UdpAt (s : Relay) : Party → UInt16 → Pump → Prop
  | session {u x pump} (h : s.At u x pump) (hudp : (s.upstream u).source.isTcp = false) :
      UdpAt s (.reader u) x.key pump
  | cone {c r pump} (hr : s.cones c = some r) (hrun : r.status = .running) (h : r.pump = pump) :
      UdpAt s (.cone c) XUDP_SESSION_ID pump

/-- The UDP task `p` has not come to write its END frame. -/
def Open (s : Relay) (p : Party) (k : UInt16) : Prop :=
  s.UdpAt p k .reading ∨ s.UdpAt p k .writing ∧ ∃ f, s.frameOf p = some f ∧ f.isEnd = false

def aborted (s : Relay) : Party → Bool
  | .main => false
  | .reader u => (s.table.task u).any Task.aborted
  | .cone c => (s.cones c).any ConeReader.aborted

/-- The datagrams that arrived for the party and are not received yet. The socket of a
    cone hands over a datagram in the step that receives it. -/
def waiting (s : Relay) : Party → List Bytes
  | .reader u => match (s.upstream u).source with
    | .udp datagrams _ => datagrams
    | .tcp .. => []
  | _ => []

/-- What the reader of session `k` has to deliver, from its first frame on: the frames it
    has written, the one it is writing, a frame for each datagram not received yet. -/
def due (s : Relay) (k : UInt16) (p : Party) : List MuxFrame :=
  s.writer.issued p ++ (s.waiting p).map (dataFrame k none)

def datagram (s : Relay) (p : Party) : Act → Option Bytes
  | .reader u (.data n) =>
    if p = .reader u then ((s.upstream u).source.readData n).map Prod.fst else none
  | .cone c (.recv _ payload) => if p = .cone c then some payload else none
  | _ => none

def fits (s : Relay) (p : Party) (a : Act) : Bool :=
  (s.datagram p a).all fun d => d.length ≤ MAX_CHUNK_SIZE

def arrived (k : UInt16) (p : Party) : Act → Option MuxFrame
  | .arrive u d => if p = .reader u then some (dataFrame k none d) else none
  | .cone c (.recv source d) =>
    if p = .cone c then some (dataFrame k (some (.ip source)) d) else none
  | _ => none

def recvFails : Party → Act → Bool
  | .reader u, .reader v .readEnd => u = v
  | .cone c, .cone d .recvErr => c = d
  | _, _ => false

/-- A receive failed, the task was aborted, or the writer is broken. -/
def Interrupted (s : Relay) (p : Party) (as : List Act) : Prop :=
  as.any (recvFails p) = true ∨ s.aborted p = true ∨ s.writer.broken = true

/-! ## Cone readers -/

section Cones

variable {c : ℕ} {q : ConeReader}

theorem Effect.aborted_of_own (he : Effect s a t) (ha : actor a = some (.cone c))
    (hq : s.cones c = some q) : ∃ q', t.cones c = some q' ∧ q'.aborted = q.aborted := by
  cases he with
  | write => exact ⟨q, hq, rfl⟩
  | leaveCone hr _ habort =>
    cases ha
    cases hr.symm.trans hq
    exact ⟨_, Function.update_self .., habort⟩
  | coneWrites hr | coneEnds hr | dropCone hr =>
    cases ha
    cases hr.symm.trans hq
    exact ⟨_, Function.update_self .., rfl⟩
  | _ => cases ha

theorem Effect.cone_of_other (he : Effect s a t) (hf : s.ConesFresh)
    (ha : actor a ≠ some (.cone c)) (hq : s.cones c = some q) :
    t.cones c = some q ∨ t.cones c = some { q with aborted := true } := by
  have hc : c < s.nextCone := by
    by_contra hc
    rw [hf c (not_lt.mp hc)] at hq
    cases hq
  have hne : ∀ {c'}, actor a = some (.cone c') → c ≠ c' := by rintro c' hc' rfl; exact ha hc'
  cases he with
  | quiet h | registry h => simpa [hq] using h.cones.kept c hc
  | leaveCone | coneWrites | coneEnds | dropCone =>
    exact .inl ((Function.update_of_ne (hne rfl) _ _).trans hq)
  | _ => exact .inl hq

theorem Effect.cone_aborted (he : Effect s a t) (hf : s.ConesFresh) (hq : s.cones c = some q)
    (hab : q.aborted = true) : ∃ q', t.cones c = some q' ∧ q'.aborted = true := by
  by_cases hc : actor a = some (.cone c)
  · exact hab ▸ he.aborted_of_own hc hq
  · rcases he.cone_of_other hf hc hq with h | h
    · exact ⟨q, h, hab⟩
    · exact ⟨_, h, rfl⟩

end Cones

/-! ## Where a reader of UDP is -/

variable {pump : Pump}

theorem UdpAt.writes_iff (h : s.UdpAt p k pump) : s.writes p = true ↔ pump = .writing := by
  cases h with
  | session h => simp [writes, h.isRunning, h.pump]
  | cone hr hrun h => simp [writes, hr, hrun, h]

theorem UdpAt.unique {pump pump' : Pump} {k' : UInt16} (h : s.UdpAt p k pump)
    (h' : s.UdpAt p k' pump') : pump = pump' := by
  cases h with
  | session h =>
    cases h' with
    | session h' => exact h.pump.symm.trans h'.pump
  | cone hr hrun h =>
    cases h' with
    | cone hr' hrun' h' =>
      cases hr.symm.trans hr'
      exact h.symm.trans h'

theorem Open.udpAt (h : s.Open p k) : ∃ pump, s.UdpAt p k pump ∧
    (pump = .reading ∨ pump = .writing) := by
  rcases h with h | ⟨h, -⟩
  · exact ⟨_, h, .inl rfl⟩
  · exact ⟨_, h, .inr rfl⟩

theorem Open.not_at (h : s.Open p k) (h' : s.UdpAt p k pump) (hp : pump ≠ .reading)
    (hp' : pump ≠ .writing) : False := by
  obtain ⟨pump', hat, rfl | rfl⟩ := h.udpAt
  · exact hp (h'.unique hat)
  · exact hp' (h'.unique hat)

theorem UdpAt.idle (h : s.UdpAt p k pump) (hi : s.Inv) (hp : pump ≠ .writing) :
    s.writer.pc p = .idle :=
  hi.idle p (Bool.eq_false_iff.mpr fun hw => hp (h.writes_iff.mp hw))

theorem Open.of_frame {f : MuxFrame} (h : s.Open p k) (hi : s.Inv) (hf : s.frameOf p = some f) :
    s.UdpAt p k .writing ∧ f.isEnd = false := by
  rcases h with h | ⟨h, g, hg, hend⟩
  · rw [frameOf, h.idle hi (by simp)] at hf
    cases hf
  · cases hg.symm.trans hf
    exact ⟨h, hend⟩

structure PartKept (s t : Relay) (p : Party) : Prop where
  pc : t.writer.pc p = s.writer.pc p
  issued : t.writer.issued p = s.writer.issued p
  session : ∀ u, p = .reader u → t.table.task u = s.table.task u ∧ t.reader u = s.reader u ∧
    (t.upstream u).source = (s.upstream u).source
  cone : ∀ c, p = .cone c → t.cones c = s.cones c

theorem UdpAt.of_kept (h : s.UdpAt p k pump)
    (hs : ∀ u, p = .reader u → t.table.task u = s.table.task u ∧ t.reader u = s.reader u ∧
      (t.upstream u).source = (s.upstream u).source)
    (hc : ∀ c, p = .cone c → t.cones c = s.cones c) : t.UdpAt p k pump := by
  cases h with
  | @session u x pump h hudp =>
    obtain ⟨htask, hreader, hsource⟩ := hs u rfl
    exact .session ⟨htask.trans h.task, h.running, by rw [hreader]; exact h.pump⟩
      (by rw [hsource]; exact hudp)
  | cone hr hrun h => exact .cone ((hc _ rfl).trans hr) hrun h

theorem waiting_of_kept (hs : ∀ u, p = .reader u →
    (t.upstream u).source = (s.upstream u).source) : t.waiting p = s.waiting p := by
  cases p with
  | main | cone => rfl
  | reader u => simp only [waiting, hs u rfl]

theorem PartKept.open_due (hk : PartKept s t p) (h : s.Open p k) :
    t.Open p k ∧ t.due k p = s.due k p := by
  refine ⟨?_, by rw [due, due, hk.issued, waiting_of_kept fun u hu => (hk.session u hu).2.2]⟩
  have hframe : t.frameOf p = s.frameOf p := congrArg WritePc.frame hk.pc
  rcases h with h | ⟨h, f, hf, hend⟩
  · exact .inl (h.of_kept hk.session hk.cone)
  · exact .inr ⟨h.of_kept hk.session hk.cone, f, hframe.trans hf, hend⟩

/-! ## Steps of the reader -/

theorem Open.write {b : WriteAct} (h : s.Open p k) (hi : s.Inv)
    (hst : s.writeStep p b = some t) :
    t.writer.broken = true ∨ (t.Open p k ∧ t.due k p = s.due k p) := by
  unfold writeStep at hst
  split_ifs at hst
  obtain ⟨f, hf, hst⟩ := Option.bind_eq_some_iff.mp hst
  obtain ⟨w, hw, rfl⟩ := Option.map_eq_some_iff.mp hst
  obtain ⟨hat, hend⟩ := h.of_frame hi hf
  -- on the way to the stream
  have hmove : WriteAct.op b = .request ∨ WriteAct.op b = .enter ∨ (∃ n, WriteAct.op b = .push n) →
      Open { s with writer := w } p k ∧ due { s with writer := w } k p = s.due k p := by
    intro hb
    have hissued : w.issued p = s.writer.issued p := by
      refine FrameWriter.op_issued hw (fun g hg => ?_) (fun hg => ?_) (fun hg => ?_) <;>
        simp [hg] at hb
    refine ⟨.inr ⟨hat.of_kept (fun _ _ => ⟨rfl, rfl, rfl⟩) (fun _ _ => rfl), f, ?_, hend⟩, ?_⟩
    · exact (FrameWriter.op_frame hw hb).trans hf
    · exact congrArg₂ (· ++ ·) hissued rfl
  cases b with
  | request => exact .inr (hmove (.inl rfl))
  | enter => exact .inr (hmove (.inr (.inl rfl)))
  | push n => exact .inr (hmove (.inr (.inr ⟨n, rfl⟩)))
  | flushed =>
    have hissued : w.issued p = s.writer.issued p :=
      FrameWriter.op_issued hw (by simp [WriteAct.op]) (by simp [WriteAct.op])
        (by simp [WriteAct.op])
    refine .inr ?_
    cases hat with
    | @session u x _ hx hudp =>
      simp only [wrote, hend, Bool.false_eq_true, if_false]
      refine ⟨.inl (.session ⟨hx.task, hx.running, by simp [setPump, setUpstream]⟩ ?_), ?_⟩
      · simpa [setPump, setUpstream, DuplexLock.start] using hudp
      · simp [due, waiting, setPump, setUpstream, DuplexLock.start, hissued]
    | @cone c r _ hr hrun hpump =>
      simp only [wrote, hr, hend, Bool.false_eq_true, if_false]
      refine ⟨.inl (.cone (r := { r with pump := .reading }) (by simp [setCone]) hrun rfl), ?_⟩
      exact congrArg₂ (· ++ ·) hissued rfl
  | failed e =>
    have hbroken : w.broken = true :=
      (FrameWriter.op_broken hw).trans ((FrameWriter.op_leave hw (.inr (.inl rfl))).2.2 rfl)
    refine .inl ?_
    cases p with
    | main => exact hbroken
    | reader u => dsimp only [writeFailed]; split_ifs <;> exact hbroken
    | cone c =>
      dsimp only [writeFailed]
      split
      · exact hbroken
      · split_ifs <;> exact hbroken

theorem readData_udp {u n : ℕ} {x : Task UInt16} {d : Bytes} {src : Source}
    (hx : s.At u x .reading) (hi : s.Inv) (hudp : (s.upstream u).source.isTcp = false)
    (hd : (s.upstream u).source.readData n = some (d, src)) :
    if d.length ≤ MAX_CHUNK_SIZE then
      (s.readerGotData u x.key d src).Open (.reader u) x.key ∧
        (s.readerGotData u x.key d src).due x.key (.reader u) = s.due x.key (.reader u)
    else (s.readerGotData u x.key d src).UdpAt (.reader u) x.key .ending := by
  obtain ⟨ds, failed, hsource⟩ : ∃ ds failed, (s.upstream u).source = .udp (d :: ds) failed ∧
      src = .udp ds failed := by
    cases hs : (s.upstream u).source with
    | tcp => rw [hs] at hudp; cases hudp
    | udp ds failed =>
      rw [hs] at hd
      cases ds with
      | nil => cases hd
      | cons d ds => cases hd; exact ⟨ds, failed, rfl, rfl⟩
  obtain ⟨hsource, rfl⟩ := hsource
  have hidle : s.writer.pc (.reader u) = .idle := (UdpAt.session hx hudp).idle hi (by simp)
  unfold readerGotData
  split_ifs with hlen
  · simp only [encodeDataFrame, dataFrame, hlen.not_gt, if_false]
    refine ⟨.inr ⟨.session ⟨hx.task, hx.running, by simp [readerWrites, setPump]⟩ ?_,
      dataFrame x.key none d, ?_, isEnd_dataFrame _ _ _⟩, ?_⟩
    · simp [readerWrites, setPump, setUpstream, Source.isTcp]
    · simp [frameOf, readerWrites, FrameWriter.start, WritePc.frame, dataFrame]
    · have hstart := FrameWriter.start_issued (dataFrame x.key none d) hidle
      simp only [due, waiting, hsource, List.map_cons]
      simp only [readerWrites, setPump, setUpstream, Function.update_self]
      rw [← dataFrame, hstart, List.append_assoc]
      rfl
  · simp only [encodeDataFrame, dataFrame, not_le.mp hlen, if_true, dataFailed]
    refine .session ⟨hx.task, hx.running, ?_⟩ ?_ <;>
      simp [setPump, setUpstream, Source.isTcp]

variable {u : ℕ}

theorem dropReader_aborted {x : Task UInt16} (htask : s.table.task u = some x)
    (hx : x.aborted = true) (h : s.dropReader u = some t) : t.aborted (.reader u) = true := by
  obtain ⟨w, -, rfl⟩ := Option.map_eq_some_iff.mp h
  simp [aborted, TaskTable.drop, TaskTable.setStatus, htask, hx]

theorem Open.reader {b : ReaderAct} (h : s.Open (.reader u) k) (hi : s.Inv)
    (hfit : s.fits (.reader u) (.reader u b) = true) (hst : s.readerStep u b = some t) :
    recvFails (.reader u) (.reader u b) = true ∨ t.aborted (.reader u) = true ∨
      (t.Open (.reader u) k ∧ t.due k (.reader u) = s.due k (.reader u)) := by
  -- at the mutex of its upstream
  have hlock : ∀ {d : DuplexLock Source}, d.source = (s.upstream u).source →
      PartKept s (s.setUpstream u d) (.reader u) := by
    refine fun hd => ⟨rfl, rfl, fun v hv => ⟨rfl, rfl, ?_⟩, fun _ _ => rfl⟩
    cases hv
    simpa [setUpstream] using hd
  obtain ⟨pump, hat, hpump⟩ := h.udpAt
  obtain ⟨hx, hudp⟩ := hat
  rename_i x
  simp only [readerStep, hx.task, hx.running, if_true, pumpStep, hx.pump] at hst
  rcases hpump with rfl | rfl <;> cases b <;> simp only [reduceCtorEq] at hst
  case inl.request =>
    obtain ⟨d, hd, rfl⟩ := Option.map_eq_some_iff.mp hst
    exact .inr (.inr ((hlock (by rw [DuplexLock.request_eq hd])).open_due h))
  case inl.enter =>
    obtain ⟨d, hd, rfl⟩ := Option.map_eq_some_iff.mp hst
    exact .inr (.inr ((hlock (by rw [DuplexLock.enter_eq hd])).open_due h))
  case inl.data n =>
    split_ifs at hst
    obtain ⟨⟨d, src⟩, hd, rfl⟩ := Option.map_eq_some_iff.mp hst
    have hlen : d.length ≤ MAX_CHUNK_SIZE := by simpa [fits, datagram, hd] using hfit
    have hnext := readData_udp hx hi hudp hd
    rw [if_pos hlen] at hnext
    exact .inr (.inr hnext)
  case inl.readEnd => exact .inl (by simp [recvFails])
  case inl.drop | inr.drop =>
    split_ifs at hst with ha
    exact .inr (.inl (dropReader_aborted hx.task ha hst))

theorem coneGotData_udp {c : ℕ} {r : ConeReader} {source : SocketAddr} {d : Bytes}
    (hrun : r.status = .running) (hidle : s.writer.pc (.cone c) = .idle) :
    if d.length ≤ MAX_CHUNK_SIZE then
      (s.coneGotData c r source d).Open (.cone c) XUDP_SESSION_ID ∧
        (s.coneGotData c r source d).due XUDP_SESSION_ID (.cone c) =
          s.due XUDP_SESSION_ID (.cone c) ++ [dataFrame XUDP_SESSION_ID (some (.ip source)) d]
    else (s.coneGotData c r source d).UdpAt (.cone c) XUDP_SESSION_ID .ending := by
  unfold coneGotData
  split_ifs with hlen
  · simp only [encodeDataFrame, hlen.not_gt, if_false]
    refine ⟨.inr ⟨.cone (r := { r with pump := .writing }) (by simp [coneWrites, setCone]) hrun rfl,
      dataFrame XUDP_SESSION_ID (some (.ip source)) d, ?_, isEnd_dataFrame _ _ _⟩, ?_⟩
    · simp [frameOf, coneWrites, FrameWriter.start, WritePc.frame]
    · have hstart :=
        FrameWriter.start_issued (dataFrame XUDP_SESSION_ID (some (.ip source)) d) hidle
      simpa [due, waiting, coneWrites, setCone] using hstart
  · simp only [encodeDataFrame, not_le.mp hlen, if_true]
    exact .cone (r := { r with pump := .ending }) (by simp [setCone]) hrun rfl

theorem Open.cone {c : ℕ} {b : ConeAct} (h : s.Open (.cone c) k) (hi : s.Inv)
    (hfit : s.fits (.cone c) (.cone c b) = true) (hst : s.coneStep c b = some t) :
    recvFails (.cone c) (.cone c b) = true ∨ t.aborted (.cone c) = true ∨
      (t.Open (.cone c) k ∧
        t.due k (.cone c) = s.due k (.cone c) ++ (arrived k (.cone c) (.cone c b)).toList) := by
  obtain ⟨pump, hat, hpump⟩ := h.udpAt
  have hidle := hat.idle hi
  cases hat with
  | @cone _ r _ hr hrun hp =>
    have hdrop : r.aborted = true → t.aborted (.cone c) = true := by
      intro ha
      obtain ⟨r', hr', ha'⟩ := (coneStep_effect hst).aborted_of_own rfl hr
      simp [aborted, hr', ha', ha]
    simp only [coneStep, hr, hrun, if_true, conePumpStep, hp] at hst
    rcases hpump with rfl | rfl <;> cases b <;> simp only [reduceCtorEq] at hst
    case inl.recv source d =>
      cases hst
      have hlen : d.length ≤ MAX_CHUNK_SIZE := by simpa [fits, datagram] using hfit
      have hnext := @coneGotData_udp s c r source d hrun (hidle (by simp))
      rw [if_pos hlen] at hnext
      exact .inr (.inr (by simpa [arrived] using hnext))
    case inl.recvErr => exact .inl (by simp [recvFails])
    case inl.drop | inr.drop =>
      split_ifs at hst with ha
      exact .inr (.inl (hdrop ha))

/-! ## Steps of others -/

theorem Effect.source_of_other (he : Effect s a t) (hi : s.TableInv) (hu : s.table.task u ≠ none)
    (ha : actor a ≠ some (.reader u)) (henv : ∀ d e, a ≠ .arrive u d ∧ a ≠ .upstreamEnd u e) :
    (t.upstream u).source = (s.upstream u).source := by
  have hupdate : ∀ {v : ℕ} {d : DuplexLock Source}, d.source = (s.upstream v).source →
      (Function.update s.upstream v d u).source = (s.upstream u).source := by
    intro v d hd
    by_cases huv : u = v
    · subst huv; simpa using hd
    · rw [Function.update_of_ne huv]
  have hne : ∀ {v : ℕ} {d : DuplexLock Source}, u ≠ v →
      (Function.update s.upstream v d u).source = (s.upstream u).source :=
    fun huv => by rw [Function.update_of_ne huv]
  cases he with
  | quiet h | registry h => rw [h.upstream]
  | keep | keepOk | keepErr | wroteData => exact hupdate rfl
  | keepRequest hs h | readRequest hs h => exact hupdate (by rw [DuplexLock.request_eq h])
  | keepEnter hs h | readEnter hs h => exact hupdate (by rw [DuplexLock.enter_eq h])
  | spawn h =>
    refine hne ?_
    rintro rfl
    exact hu (hi.fresh _ le_rfl)
  | readData | readLarge => exact hne (by rintro rfl; exact ha rfl)
  | readEnd | dropReader => exact hupdate rfl
  | @arrive v d => exact hne (by rintro rfl; exact (henv d .eof).1 rfl)
  | @upstreamEnd v e => exact hne (by rintro rfl; exact (henv [] e).2 rfl)
  | _ => rfl

theorem UdpAt.of_other (h : s.UdpAt p k pump) (hi : s.Inv) (hst : s.step limits a = some t)
    (ha : actor a ≠ some p)
    (henv : ∀ u d e, p = .reader u → a ≠ .arrive u d ∧ a ≠ .upstreamEnd u e) :
    t.aborted p = true ∨ t.writer.broken = true ∨ PartKept s t p := by
  have he := step_effect hst
  obtain ⟨hpc, hlog, -⟩ := he.writer_of_other ha
  have hissued : t.writer.issued p = s.writer.issued p := by
    rw [FrameWriter.issued, FrameWriter.issued, hpc]
    exact congrArg (· ++ _) hlog
  cases h with
  | @session u x _ hx hudp =>
    have hsource := he.source_of_other hi.toTableInv (by simp [hx.task]) ha
      fun d e => henv u d e rfl
    rcases he.view_of_other hi.toTableInv ha with hv | hv
    · refine .inr (.inr ⟨hpc, hissued, fun v hv' => ?_, fun _ hc => by cases hc⟩)
      cases hv'
      exact ⟨congrArg ReaderView.task hv, congrArg ReaderView.reader hv, hsource⟩
    · generalize hw : t.view u = w at hv
      cases hv with
      | spawn h => exact absurd (hx.task.symm.trans h) (by simp)
      | abort h =>
        refine .inl ?_
        have htask : t.table.task u = _ := congrArg ReaderView.task hw
        simp [aborted, htask]
      | breaks => exact .inr (.inl (congrArg ReaderView.broken hw))
  | @cone c r _ hr hrun hp =>
    rcases he.cone_of_other hi.conesFresh ha hr with h | h
    · refine .inr (.inr ⟨hpc, hissued, fun _ hv => (by cases hv), fun c' hc => ?_⟩)
      cases hc
      rw [h, hr]
    · exact .inl (by simp [aborted, h])

theorem Open.of_source {src : Source} (h : s.Open p k)
    (hudp : src.isTcp = (s.upstream u).source.isTcp) :
    (s.setUpstream u { s.upstream u with source := src }).Open p k := by
  have hat : ∀ {pump}, s.UdpAt p k pump →
      (s.setUpstream u { s.upstream u with source := src }).UdpAt p k pump := by
    intro pump hat
    cases hat with
    | session hx hv => exact .session ⟨hx.task, hx.running, hx.pump⟩ ((isTcp_update hudp).trans hv)
    | cone hr hrun hp => exact .cone hr hrun hp
  rcases h with h | ⟨h, hf⟩
  · exact .inl (hat h)
  · exact .inr ⟨hat h, hf⟩

theorem waiting_arrive {d : Bytes} (h : s.Open p k) :
    (waiting (s.setUpstream u { s.upstream u with source := (s.upstream u).source.arrive d }) p).map
        (dataFrame k none) =
      (s.waiting p).map (dataFrame k none) ++ (arrived k p (.arrive u d)).toList := by
  obtain ⟨pump, hat, -⟩ := h.udpAt
  cases hat with
  | cone => rfl
  | @session v x _ hx hudp =>
    by_cases hvu : v = u
    · subst hvu
      cases hs : (s.upstream v).source with
      | tcp => rw [hs] at hudp; cases hudp
      | udp ds failed => simp [waiting, setUpstream, hs, Source.arrive, arrived]
    · simp [waiting, setUpstream, arrived, hvu]

theorem waiting_finish {e : ReadEnd} (h : s.Open p k) :
    waiting (s.setUpstream u { s.upstream u with source := (s.upstream u).source.finish e }) p =
      s.waiting p := by
  obtain ⟨pump, hat, -⟩ := h.udpAt
  cases hat with
  | cone => rfl
  | @session v x _ hx hudp =>
    by_cases hvu : v = u
    · subst hvu
      cases hs : (s.upstream v).source with
      | tcp => rw [hs] at hudp; cases hudp
      | udp ds failed =>
        cases failed <;> cases e <;> simp [waiting, setUpstream, hs, Source.finish]
    · simp [waiting, setUpstream, hvu]

theorem Open.step (h : s.Open p k) (hi : s.Inv) (hfit : s.fits p a = true)
    (hst : s.step limits a = some t) :
    t.Interrupted p [a] ∨
      (t.Open p k ∧ t.due k p = s.due k p ++ (arrived k p a).toList) := by
  obtain ⟨pump, hat, -⟩ := h.udpAt
  have hsame : arrived k p a = none → t.Open p k ∧ t.due k p = s.due k p →
      t.Interrupted p [a] ∨ (t.Open p k ∧ t.due k p = s.due k p ++ (arrived k p a).toList) := by
    intro ha hnext
    rw [ha]
    exact .inr ⟨hnext.1, by simpa using hnext.2⟩
  have hother : actor a ≠ some p → arrived k p a = none →
      (∀ u d e, p = .reader u → a ≠ .arrive u d ∧ a ≠ .upstreamEnd u e) →
      t.Interrupted p [a] ∨ (t.Open p k ∧ t.due k p = s.due k p ++ (arrived k p a).toList) := by
    intro ha harr henv
    rcases hat.of_other hi hst ha henv with h' | h' | h'
    · exact .inl (.inr (.inl h'))
    · exact .inl (.inr (.inr h'))
    · exact hsame harr (h'.open_due h)
  cases a with
  | main m => exact hother (by rintro ⟨⟩; cases hat) rfl fun _ _ _ _ => by simp
  | registry op => exact hother (by simp [actor]) rfl fun _ _ _ _ => by simp
  | clientBreaks => cases hst; exact .inl (.inr (.inr rfl))
  | write q b =>
    by_cases hq : q = p
    · subst hq
      rcases h.write hi hst with h' | h'
      · exact .inl (.inr (.inr h'))
      · exact hsame rfl h'
    · exact hother (by simpa [actor] using hq) rfl fun _ _ _ _ => by simp
  | reader u b =>
    by_cases hu : p = .reader u
    · subst hu
      rcases h.reader hi hfit hst with h' | h' | h'
      · exact .inl (.inl (by simpa using h'))
      · exact .inl (.inr (.inl h'))
      · exact hsame rfl h'
    · exact hother (by simpa [actor] using Ne.symm hu) rfl fun _ _ _ _ => by simp
  | cone c b =>
    by_cases hc : p = .cone c
    · subst hc
      rcases h.cone hi hfit hst with h' | h' | h'
      · exact .inl (.inl (by simpa using h'))
      · exact .inl (.inr (.inl h'))
      · exact .inr h'
    · refine hother (by simpa [actor] using Ne.symm hc) ?_ fun _ _ _ _ => by simp
      cases b <;> simp [arrived, hc]
  | arrive u d =>
    cases hst
    refine .inr ⟨h.of_source (by simp), ?_⟩
    rw [due, due, waiting_arrive h, List.append_assoc]
    rfl
  | upstreamEnd u e =>
    cases hst
    refine hsame rfl ⟨h.of_source (by simp), ?_⟩
    rw [due, due, waiting_finish h]
    rfl

/-! ## Runs -/

theorem step_aborted (hi : s.Inv) (hst : s.step limits a = some t) (h : s.aborted p = true) :
    t.aborted p = true := by
  cases p with
  | main => cases h
  | reader u =>
    cases hx : s.table.task u with
    | none => simp [aborted, hx] at h
    | some x =>
      have ha : x.aborted = true := by simpa [aborted, hx] using h
      rcases (step_effect hst).view hi.toTableInv u with hv | hv
      · have htask : t.table.task u = some x := (congrArg ReaderView.task hv).trans hx
        simp [aborted, htask, ha]
      · obtain ⟨x', hx', ha'⟩ := hv.aborted hx ha
        have htask : t.table.task u = some x' := hx'
        simp [aborted, htask, ha']
  | cone c =>
    cases hc : s.cones c with
    | none => simp [aborted, hc] at h
    | some q =>
      obtain ⟨q', hq', ha⟩ := (step_effect hst).cone_aborted hi.conesFresh hc
        (by simpa [aborted, hc] using h)
      simp [aborted, hq', ha]

theorem step_broken (hi : s.Inv) (hst : s.step limits a = some t) (h : s.writer.broken = true) :
    t.writer.broken = true := by
  rcases (step_effect hst).writer_op hi with hw | hw | ⟨q, o, hw, -⟩
  · rw [hw]; exact h
  · rw [hw]; rfl
  · rw [FrameWriter.op_broken hw]; exact h

theorem Interrupted.step {as : List Act} (h : s.Interrupted p as) (hi : s.Inv)
    (hst : s.step limits a = some t) : t.Interrupted p (as ++ [a]) := by
  rcases h with h | h | h
  · exact .inl (by rw [List.any_append, h]; rfl)
  · exact .inr (.inl (step_aborted hi hst h))
  · exact .inr (.inr (step_broken hi hst h))

theorem Open.run {as : List Act} (h : s.Open p k) (hi : s.Inv)
    (hrun : Run (Relay.step limits) (fun s a => s.fits p a = true) s as t) :
    t.Inv ∧ (t.Interrupted p as ∨
      (t.Open p k ∧ t.due k p = s.due k p ++ as.filterMap (arrived k p))) := by
  induction hrun with
  | nil => exact ⟨hi, .inr ⟨h, by simp⟩⟩
  | @snoc r t as a _ hfit hst ih =>
    obtain ⟨hri, hr⟩ := ih
    refine ⟨(step_effect hst).inv hri, ?_⟩
    rcases hr with hr | ⟨hopen, hdue⟩
    · exact .inl (hr.step hri hst)
    · rcases hopen.step hri hfit hst with hr | ⟨hopen', hdue'⟩
      · refine .inl (hr.imp_left fun hfail => ?_)
        rw [List.any_append, hfail, Bool.or_true]
      · refine .inr ⟨hopen', ?_⟩
        rw [hdue', hdue, List.filterMap_append, List.append_assoc]
        cases ha : arrived k p a <;> simp [ha]

end SkadiCore.Mux.Relay
