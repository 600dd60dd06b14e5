import SkadiCore.Mux.Relay

/-!
# What a step of the mux relay can do

* `MainStep`, `mainStep_cases`: the steps of the main loop, by where it is.
* `Handles`: what the handlers of XUDP frames and the registry may change.
* `Effect`, `step_effect`: every step is one of a few changes to the components of the state, or
  a quiet one of the main loop. Every invariant is derived from this.
-/

namespace SkadiCore.Mux

open SkadiCore.Relay

def Main.busy : Main → Bool
  | .insert | .keep .. | .writeEnd => true
  | _ => false

def Main.keeps : Main → Option ℕ
  | .keep u _ => some u
  | _ => none

theorem Main.keeps_of_not_busy {m : Main} (h : m.busy = false) : m.keeps = none := by
  cases m <;> first | rfl | cases h

namespace Relay

def ConesFresh (s : Relay) : Prop := ∀ c, s.nextCone ≤ c → s.cones c = none

/-- From `s` to `t` cone readers were started and aborted, and nothing else. -/
structure ConesKept (s t : Relay) : Prop where
  fresh : s.ConesFresh → t.ConesFresh
  le : s.nextCone ≤ t.nextCone
  kept : ∀ c < s.nextCone, t.cones c = s.cones c ∨
    t.cones c = (s.cones c).map fun r => { r with aborted := true }

/-- From `s` to `t` nothing changed but XUDP and the place of a main loop that is at
    no session. -/
structure Quiet (s t : Relay) : Prop where
  table : t.table = s.table
  reader : t.reader = s.reader
  upstream : t.upstream = s.upstream
  received : t.received = s.received
  writer : t.writer = s.writer
  main : t.main = s.main ∨ (s.main.busy = false ∧ t.main.busy = false)
  cones : ConesKept s t

/-- From `s` to `t` no payload was counted and the main loop returned no counters. -/
structure Keeps (s t : Relay) : Prop where
  count : t.clientToUpstream = s.clientToUpstream
  ok : ∀ n, t.main = .returned (.ok n) → s.main = .returned (.ok n)

/-- What the handlers of XUDP frames and the registry do. -/
structure Handles (s t : Relay) : Prop extends Quiet s t, Keeps s t

section Quiet

variable {s t r : Relay}

theorem ConesKept.of_eq (hcones : t.cones = s.cones) (hnext : t.nextCone = s.nextCone) :
    ConesKept s t :=
  ⟨fun hf c hc => hcones ▸ hf c (hnext ▸ hc), hnext.ge, fun _ _ => .inl (by rw [hcones])⟩

theorem ConesKept.trans (h : ConesKept s r) (h' : ConesKept r t) : ConesKept s t := by
  refine ⟨h'.fresh ∘ h.fresh, h.le.trans h'.le, fun c hc => ?_⟩
  rcases h.kept c hc with h1 | h1 <;> rcases h'.kept c (hc.trans_le h.le) with h2 | h2
  · exact .inl (h2.trans h1)
  · exact .inr (h2.trans (by rw [h1]))
  · exact .inr (h2.trans h1)
  · exact .inr (h2.trans (by rw [h1, Option.map_map]; rfl))

theorem Quiet.trans (h : Quiet s r) (h' : Quiet r t) : Quiet s t where
  table := h'.table.trans h.table
  reader := h'.reader.trans h.reader
  upstream := h'.upstream.trans h.upstream
  received := h'.received.trans h.received
  writer := h'.writer.trans h.writer
  main := by
    rcases h.main with h1 | h1 <;> rcases h'.main with h2 | h2
    · exact .inl (h2.trans h1)
    · exact .inr (h1 ▸ h2)
    · exact .inr ⟨h1.1, h2 ▸ h1.2⟩
    · exact .inr ⟨h1.1, h2.2⟩
  cones := h.cones.trans h'.cones

theorem Quiet.busy (h : Quiet s t) (hs : s.main.busy = false) : t.main.busy = false := by
  rcases h.main with hm | hm
  · rw [hm, hs]
  · exact hm.2

theorem Keeps.of_main (hc : t.clientToUpstream = s.clientToUpstream) (hm : t.main = s.main) :
    Keeps s t :=
  ⟨hc, fun _ h => hm ▸ h⟩

theorem Handles.trans (h : Handles s r) (h' : Handles r t) : Handles s t where
  toQuiet := h.toQuiet.trans h'.toQuiet
  count := h'.count.trans h.count
  ok := fun n hn => h.ok n (h'.ok n hn)

variable {main : Main} {xudp : Option XudpCone} {registry : XudpManager Handle} {calls : List Call}
  {n : ℕ}

theorem handles_of_same : Handles s { s with xudp, registry, calls } :=
  ⟨⟨rfl, rfl, rfl, rfl, rfl, .inl rfl, .of_eq rfl rfl⟩, .of_main rfl rfl⟩

theorem abortCone_handles (s : Relay) (c : ℕ) : Handles s (s.abortCone c) := by
  refine ⟨⟨rfl, rfl, rfl, rfl, rfl, .inl rfl, fun hf c' hc' => ?_, le_rfl, fun c' _ => ?_⟩,
    .of_main rfl rfl⟩
  · by_cases h : c' = c
    · subst h; simp [abortCone, hf c' hc']
    · simpa [abortCone, h] using hf c' hc'
  · by_cases h : c' = c
    · subst h; exact .inr (by simp [abortCone])
    · exact .inl (by simp [abortCone, h])

theorem abortHandles_handles (s : Relay) (hs : List Handle) : Handles s (s.abortHandles hs) := by
  induction hs generalizing s with
  | nil => exact handles_of_same
  | cons h hs ih =>
    cases h with
    | own c => exact (abortCone_handles s c).trans (ih _)
    | other n => exact ih s

theorem registry_handles (s : Relay) (m : XudpManager Handle) (calls : List Call)
    (hs : List Handle) : Handles s (abortHandles { s with registry := m, calls := calls } hs) :=
  handles_of_same.trans (abortHandles_handles _ hs)

theorem closeXudpCone_handles (s : Relay) (now : ℕ) : Handles s (s.closeXudpCone now) := by
  unfold closeXudpCone
  cases s.xudp with
  | none => exact handles_of_same
  | some cone =>
    obtain ⟨globalId, socket, readerTask⟩ := cone
    have htake : Handles s { s with xudp := none } := handles_of_same
    cases readerTask <;> cases globalId
    · exact htake
    · exact htake.trans (registry_handles _ _ _ _)
    · exact htake.trans (abortCone_handles _ _)
    · exact htake.trans ((abortCone_handles _ _).trans (registry_handles _ _ _ _))

section

variable (hs : s.main.busy = false)
include hs

theorem quiet_of_main (ht : main.busy = false) :
    Quiet s { s with main, xudp, registry, calls, clientToUpstream := n } :=
  ⟨rfl, rfl, rfl, rfl, rfl, .inr ⟨hs, ht⟩, .of_eq rfl rfl⟩

theorem handles_of_main (ht : main.busy = false)
    (hok : ∀ n, main ≠ .returned (.ok n)) : Handles s { s with main, xudp, registry, calls } :=
  ⟨quiet_of_main hs ht, rfl, fun n h => absurd h (hok n)⟩

theorem fail_handles (e : IoError) : Handles s (s.fail e) :=
  handles_of_main hs rfl fun _ h => by cases h

theorem startXudpReaderIfNeeded_handles : Handles s s.startXudpReaderIfNeeded := by
  unfold startXudpReaderIfNeeded
  split
  · exact fail_handles hs _
  · split
    · exact handles_of_main hs rfl fun _ h => by cases h
    · -- the new reader has a number no reader had before
      refine ⟨⟨rfl, rfl, rfl, rfl, rfl, .inr ⟨hs, rfl⟩, fun hf c hc => ?_, Nat.le_succ _,
        fun c hc => .inl (Function.update_of_ne hc.ne _ _)⟩, rfl, fun _ h => by cases h⟩
      have hc : s.nextCone + 1 ≤ c := hc
      have hne : c ≠ s.nextCone := by omega
      simpa [hne] using hf c (by omega)

theorem xudpSend_handles (f : MuxFrame) : Handles s (s.xudpSend f) := by
  unfold xudpSend
  split
  · exact handles_of_main hs rfl fun _ h => by cases h
  · exact startXudpReaderIfNeeded_handles hs

theorem setXudp_handles (cone : Option XudpCone) (f : MuxFrame) :
    Handles s (xudpSend { s with xudp := cone } f) :=
  handles_of_same.trans (xudpSend_handles (s := { s with xudp := cone }) hs f)

theorem ensureXudpCone_handles (f : MuxFrame) (id : Option GlobalId) :
    Handles s (s.ensureXudpCone f id) := by
  unfold ensureXudpCone
  split
  · exact setXudp_handles hs _ f
  · split <;> exact handles_of_main hs rfl fun _ h => by cases h

theorem handleXudpFrame_handles (f : MuxFrame) (now : ℕ) :
    Handles s (s.handleXudpFrame f now) := by
  unfold handleXudpFrame
  split_ifs
  · split
    · exact fail_handles hs _
    · exact ensureXudpCone_handles hs f _
  · split
    · exact ensureXudpCone_handles hs f none
    · exact handles_of_same
  · split
    · exact xudpSend_handles hs f
    · exact handles_of_same
  · exact closeXudpCone_handles s now
  · exact handles_of_same
  · exact fail_handles hs _

end

theorem registryStep_handles (s : Relay) (op : RegistryOp) : Handles s (s.registryStep op) := by
  cases op with
  | registerReader id n => exact handles_of_same
  | acquire | detach | cleanup => exact registry_handles s _ s.calls _

theorem abortHandles_eq (s : Relay) (hs : List Handle) :
    s.abortHandles hs = { s with cones := (s.abortHandles hs).cones } := by
  induction hs generalizing s with
  | nil => rfl
  | cons h hs ih =>
    cases h with
    | own c => exact ih (s.abortCone c)
    | other n => exact ih s

theorem registryStep_eq (s : Relay) (op : RegistryOp) :
    s.registryStep op =
      { s with registry := (s.registryStep op).registry, cones := (s.registryStep op).cones } := by
  cases op with
  | registerReader id n => rfl
  | acquire | detach | cleanup => simp only [registryStep]; rw [abortHandles_eq]

end Quiet

/-! ## All steps -/

def Opens (s : Relay) (a : MainAct) (f : MuxFrame) (tcp interleaved : Bool)
    (sent : List Bytes) : Prop :=
  (s.main = .connect f tcp ∧ f.nonEmptyPayload = none ∧ a = .connectOk interleaved ∧ sent = []) ∨
    ∃ payload, s.main = .sendInitial f tcp payload ∧ a = .initialOk interleaved ∧ sent = [payload]

def opensId (s : Relay) : Act → Option (UInt16 × Bool)
  | .main (.connectOk i) => match s.main with
    | .connect f _ => if f.nonEmptyPayload.isNone then some (f.meta_.sessionId, i) else none
    | _ => none
  | .main (.initialOk i) => match s.main with
    | .sendInitial f _ _ => some (f.meta_.sessionId, i)
    | _ => none
  | _ => none

theorem Opens.opensId {s : Relay} {a : MainAct} {f : MuxFrame} {tcp i : Bool} {sent : List Bytes}
    (h : s.Opens a f tcp i sent) : s.opensId (.main a) = some (f.meta_.sessionId, i) := by
  rcases h with ⟨hs, hp, rfl, -⟩ | ⟨payload, hs, rfl, -⟩
  · simp [Relay.opensId, hs, hp]
  · simp [Relay.opensId, hs]

/-- The frames the main loop answers with an END frame. -/
def Refused (s : Relay) (f : MuxFrame) : Prop :=
  (f.meta_.status = SESSION_STATUS_KEEP ∧ s.table.entries f.meta_.sessionId = none) ∨
    (f.meta_.status = SESSION_STATUS_NEW ∧ f.meta_.network.getD NETWORK_TCP ≠ NETWORK_TCP ∧
      f.meta_.network.getD NETWORK_TCP ≠ NETWORK_UDP)

/-- Reader `u` runs and is at this point. -/
structure At (s : Relay) (u : ℕ) (x : Task UInt16) (pump : Pump) : Prop where
  task : s.table.task u = some x
  running : x.status = .running
  pump : (s.reader u).pump = pump

inductive Effect (s : Relay) : Act → Relay → Prop
  | quiet {a t} (h : Quiet s t) : Effect s (.main a) t
  | registry {op} (h : Handles s (s.registryStep op)) : Effect s (.registry op) (s.registryStep op)
  | answer {f now} (hs : s.main = .select) (h : s.Refused f) :
      Effect s (.main (.frame f now)) (s.writeEnd f.meta_.sessionId)
  | keep {f now u payload} (hs : s.main = .select)
      (hu : s.table.entries f.meta_.sessionId = some u) (hp : f.nonEmptyPayload = some payload) :
      Effect s (.main (.frame f now))
        (setUpstream { s with main := .keep u payload } u ((s.upstream u).start .writer))
  | endSession {f now} (hs : s.main = .select) :
      Effect s (.main (.frame f now)) { s with table := s.table.remove f.meta_.sessionId }
  | eof (hs : s.main = .select) :
      Effect s (.main .eof) { s with main := .closeCone, table := s.table.drain }
  | spawn {a f tcp i sent} (h : s.Opens a f tcp i sent) :
      Effect s (.main a) (s.spawnSession f tcp i sent)
  | insert (hs : s.main = .insert) :
      Effect s (.main .insert) { s with main := .select, table := s.table.insert }
  | keepRequest {u payload d} (hs : s.main = .keep u payload)
      (h : (s.upstream u).request .writer = some d) :
      Effect s (.main .keepRequest) (s.setUpstream u d)
  | keepEnter {u payload d} (hs : s.main = .keep u payload)
      (h : (s.upstream u).enter .writer = some d) : Effect s (.main .keepEnter) (s.setUpstream u d)
  | keepOk {u payload} (hs : s.main = .keep u payload) (h : (s.upstream u).pc .writer = .inside) :
      Effect s (.main .keepOk)
        (setUpstream { s with
          main := .select
          clientToUpstream := s.clientToUpstream + payload.length
          received := Function.update s.received u (s.received u ++ [payload]) }
          u ((s.upstream u).leave .writer))
  | keepErr {u payload e} (hs : s.main = .keep u payload) :
      Effect s (.main (.keepErr e)) ((s.setUpstream u ((s.upstream u).leave .writer)).fail e)
  | write {p a f w} (hp : s.writes p = true) (hf : s.frameOf p = some f)
      (h : s.writer.op wire p (WriteAct.op a) = some w)
      (ha : a = .request ∨ a = .enter ∨ ∃ k, a = .push k) :
      Effect s (.write p a) { s with writer := w }
  | wroteMain {f w} (hs : s.main = .writeEnd) (hf : s.frameOf .main = some f)
      (h : s.writer.op wire .main .flushed = some w) :
      Effect s (.write .main .flushed) { s with writer := w, main := .select }
  | wroteEnd {u x f w} (hu : s.At u x .writing) (hf : s.frameOf (.reader u) = some f)
      (hend : f.isEnd = true) (h : s.writer.op wire (.reader u) .flushed = some w) :
      Effect s (.write (.reader u) .flushed) (setPump { s with writer := w } u .removing)
  | wroteData {u x f w} (hu : s.At u x .writing) (hf : s.frameOf (.reader u) = some f)
      (hend : f.isEnd = false) (h : s.writer.op wire (.reader u) .flushed = some w) :
      Effect s (.write (.reader u) .flushed)
        ((setPump { s with writer := w } u .reading).setUpstream u ((s.upstream u).start .reader))
  | failMain {e f w} (hs : s.main = .writeEnd) (hf : s.frameOf .main = some f)
      (h : s.writer.op wire .main .fail = some w) :
      Effect s (.write .main (.failed e)) (fail { s with writer := w } e)
  | failReader {u x f e w pump} (hu : s.At u x .writing) (hf : s.frameOf (.reader u) = some f)
      (hpump : pump = .removing ∨ (pump = .ending ∧ f.isEnd = false))
      (h : s.writer.op wire (.reader u) .fail = some w) :
      Effect s (.write (.reader u) (.failed e)) (setPump { s with writer := w } u pump)
  | leaveCone {c r r' a w} (hr : s.cones c = some r) (ha : a = .flushed ∨ ∃ e, a = .failed e)
      (habort : r'.aborted = r.aborted) (h : s.writer.op wire (.cone c) (WriteAct.op a) = some w) :
      Effect s (.write (.cone c) a) (setCone { s with writer := w } c r')
  | readRequest {u x d} (hu : s.At u x .reading) (h : (s.upstream u).request .reader = some d) :
      Effect s (.reader u .request) (s.setUpstream u d)
  | readEnter {u x d} (hu : s.At u x .reading) (h : (s.upstream u).enter .reader = some d) :
      Effect s (.reader u .enter) (s.setUpstream u d)
  | readData {u x n chunk src} (hu : s.At u x .reading) (hin : (s.upstream u).pc .reader = .inside)
      (h : (s.upstream u).source.readData n = some (chunk, src)) :
      Effect s (.reader u (.data n))
        ((s.setUpstream u { (s.upstream u).leave .reader with source := src }).readerWrites u
          (dataFrame x.key none chunk))
  | readLarge {u x n chunk src} (hu : s.At u x .reading)
      (hin : (s.upstream u).pc .reader = .inside)
      (h : (s.upstream u).source.readData n = some (chunk, src)) (hudp : src.isTcp = false)
      (hlen : MAX_CHUNK_SIZE < chunk.length) :
      Effect s (.reader u (.data n))
        ((s.setUpstream u { (s.upstream u).leave .reader with source := src }).setPump u .ending)
  | readEnd {u x e} (hu : s.At u x .reading) (hin : (s.upstream u).pc .reader = .inside)
      (h : (s.upstream u).source.readEnd = some e) :
      Effect s (.reader u .readEnd) (s.readerGotEnd u e)
  | announce {u x} (hu : s.At u x .ending) :
      Effect s (.reader u .announce) (s.readerWrites u (endFrame x.key))
  | remove {u x} (hu : s.At u x .removing) :
      Effect s (.reader u .remove) { s with table := s.table.finish u }
  | dropReader {u x pump w} (hu : s.At u x pump) (ha : x.aborted = true)
      (h : s.writer.op wire (.reader u) .cancel = some w) :
      Effect s (.reader u .drop)
        { s.setUpstream u ((s.upstream u).leave .reader) with writer := w, table := s.table.drop u }
  | coneWrites {c r f a} (hr : s.cones c = some r) (hrun : r.status = .running)
      (hp : r.pump ≠ .writing) (hid : f.meta_.sessionId = XUDP_SESSION_ID) :
      Effect s (.cone c a) (s.coneWrites c r f)
  | coneEnds {c r a} (hr : s.cones c = some r) (hp : r.pump ≠ .writing) :
      Effect s (.cone c a) (s.setCone c { r with pump := .ending })
  | dropCone {c r w} (hr : s.cones c = some r)
      (h : s.writer.op wire (.cone c) .cancel = some w) :
      Effect s (.cone c .drop) { s.setCone c { r with status := .dropped } with writer := w }
  | arrive {u data} :
      Effect s (.arrive u data)
        (s.setUpstream u { s.upstream u with source := (s.upstream u).source.arrive data })
  | upstreamEnd {u e} :
      Effect s (.upstreamEnd u e)
        (s.setUpstream u { s.upstream u with source := (s.upstream u).source.finish e })
  | clientBreaks : Effect s .clientBreaks { s with writer := s.writer.break_ }

variable {s t : Relay} {a : Act} {limits : RelayLimits}

theorem handleMuxFrame_effect (hs : s.main = .select) (f : MuxFrame) (now : ℕ) :
    Effect s (.main (.frame f now)) (s.handleMuxFrame f now) := by
  have hbusy : s.main.busy = false := by rw [hs]; rfl
  unfold handleMuxFrame
  split_ifs with hx hnew hkeep hend hka
  · exact .quiet (handleXudpFrame_handles hbusy f now).toQuiet
  · split
    · exact .quiet (fail_handles hbusy _).toQuiet
    · dsimp only
      split_ifs with htcp hudp
      · exact .quiet (quiet_of_main hbusy rfl)
      · exact .quiet (quiet_of_main hbusy rfl)
      · exact .answer hs (.inr ⟨hnew, htcp, hudp⟩)
  · unfold forwardKeepFrame
    split
    · exact .answer hs (.inl ⟨hkeep, ‹_›⟩)
    · split
      · exact .keep hs ‹_› ‹_›
      · exact .quiet handles_of_same.toQuiet
  · exact .endSession hs
  · exact .quiet handles_of_same.toQuiet
  · exact .quiet (fail_handles hbusy _).toQuiet

inductive MainStep (limits : RelayLimits) (s : Relay) : MainAct → Relay → Prop
  | frame (hs : s.main = .select) (f : MuxFrame) (now : ℕ) :
      MainStep limits s (.frame f now) (s.handleMuxFrame f now)
  | eof (hs : s.main = .select) :
      MainStep limits s .eof { s with main := .closeCone, table := s.table.drain }
  | readError (hs : s.main = .select) (e : IoError) : MainStep limits s (.readError e) (s.fail e)
  | idleTimeout (hs : s.main = .select) (hl : limits.idle.isSome = true) :
      MainStep limits s .idleTimeout (s.fail ⟨.timedOut, IDLE_TIMEOUT_MSG⟩)
  | lifetimeTimeout (hs : s.main = .select) (hl : limits.maxLifetime.isSome = true) :
      MainStep limits s .lifetimeTimeout (s.fail ⟨.timedOut, SESSION_LIFETIME_MSG⟩)
  | connectOk {f tcp payload i} (hs : s.main = .connect f tcp)
      (hp : f.nonEmptyPayload = some payload) :
      MainStep limits s (.connectOk i) { s with main := .sendInitial f tcp payload }
  | connectErr {f tcp} (hs : s.main = .connect f tcp) (msg : String) :
      MainStep limits s (.connectErr msg) (s.fail ⟨.other, msg⟩)
  | spawn {a f tcp i sent} (h : s.Opens a f tcp i sent) :
      MainStep limits s a (s.spawnSession f tcp i sent)
  | initialErr {f tcp payload} (hs : s.main = .sendInitial f tcp payload) (e : IoError) :
      MainStep limits s (.initialErr e) (s.fail e)
  | insert (hs : s.main = .insert) :
      MainStep limits s .insert { s with main := .select, table := s.table.insert }
  | keepRequest {u payload d} (hs : s.main = .keep u payload)
      (h : (s.upstream u).request .writer = some d) :
      MainStep limits s .keepRequest (s.setUpstream u d)
  | keepEnter {u payload d} (hs : s.main = .keep u payload)
      (h : (s.upstream u).enter .writer = some d) :
      MainStep limits s .keepEnter (s.setUpstream u d)
  | keepOk {u payload} (hs : s.main = .keep u payload) (h : (s.upstream u).pc .writer = .inside) :
      MainStep limits s .keepOk
        (setUpstream { s with
          main := .select
          clientToUpstream := s.clientToUpstream + payload.length
          received := Function.update s.received u (s.received u ++ [payload]) }
          u ((s.upstream u).leave .writer))
  | keepErr {u payload} (hs : s.main = .keep u payload) (e : IoError) :
      MainStep limits s (.keepErr e) ((s.setUpstream u ((s.upstream u).leave .writer)).fail e)
  | acquireErr {f id bind e} (hs : s.main = .acquire f id)
      (h : (s.registry.acquireInner id bind).2.2 = .error e) :
      MainStep limits s (.acquire bind)
        ((abortHandles { s with registry := (s.registry.acquireInner id bind).1 }
          (s.registry.acquireInner id bind).2.1).fail e)
  | acquireOk {f id bind socket hit} (hs : s.main = .acquire f id)
      (h : (s.registry.acquireInner id bind).2.2 = .ok (socket, hit)) :
      MainStep limits s (.acquire bind)
        (xudpSend { abortHandles { s with registry := (s.registry.acquireInner id bind).1 }
          (s.registry.acquireInner id bind).2.1 with xudp := some ⟨some id, socket, none⟩ } f)
  | bindErr {f} (hs : s.main = .bind f) (msg : String) :
      MainStep limits s (.bind (.error msg)) (s.fail ⟨.other, msg⟩)
  | bindOk {f} (hs : s.main = .bind f) (socket : ℕ) :
      MainStep limits s (.bind (.ok socket))
        (xudpSend { s with xudp := some ⟨none, socket, none⟩ } f)
  | sendToOk {payload} (hs : s.main = .sendTo payload) :
      MainStep limits s .sendToOk (startXudpReaderIfNeeded
        { s with clientToUpstream := s.clientToUpstream + payload.length })
  | sendToErr {payload} (hs : s.main = .sendTo payload) (msg : String) :
      MainStep limits s (.sendToErr msg) (s.fail ⟨.other, msg⟩)
  | closeCone (hs : s.main = .closeCone) (now : ℕ) :
      MainStep limits s (.closeCone now) { s.closeXudpCone now with
        main := .returned (.ok ((s.closeXudpCone now).clientToUpstream, 0)) }

theorem mainStep_cases {a : MainAct} (h : s.mainStep limits a = some t) :
    MainStep limits s a t := by
  unfold mainStep at h
  split at h
  case h_1 f now hs => cases h; exact .frame hs f now
  case h_2 hs => cases h; exact .eof hs
  case h_3 e hs => cases h; exact .readError hs e
  case h_4 hs => split_ifs at h with hl; cases h; exact .idleTimeout hs hl
  case h_5 hs => split_ifs at h with hl; cases h; exact .lifetimeTimeout hs hl
  case h_6 f tcp i hs =>
    split at h
    · cases h; exact .connectOk hs ‹_›
    · cases h; exact .spawn (.inl ⟨hs, ‹_›, rfl, rfl⟩)
  case h_7 msg hs => cases h; exact .connectErr hs msg
  case h_8 f tcp payload i hs => cases h; exact .spawn (.inr ⟨payload, hs, rfl, rfl⟩)
  case h_9 e hs => cases h; exact .initialErr hs e
  case h_10 hs => cases h; exact .insert hs
  case h_11 u payload hs =>
    obtain ⟨d, hd, rfl⟩ := Option.map_eq_some_iff.mp h
    exact .keepRequest hs hd
  case h_12 u payload hs =>
    obtain ⟨d, hd, rfl⟩ := Option.map_eq_some_iff.mp h
    exact .keepEnter hs hd
  case h_13 u payload hs => split_ifs at h with hin; cases h; exact .keepOk hs hin
  case h_14 u payload e hs => split_ifs at h; cases h; exact .keepErr hs e
  case h_15 f id bind hs =>
    dsimp only at h
    split at h
    · cases h; exact .acquireErr hs ‹_›
    · cases h; exact .acquireOk hs ‹_›
  case h_16 f result hs =>
    split at h
    · cases h; exact .bindErr hs _
    · cases h; exact .bindOk hs _
  case h_17 payload hs => cases h; exact .sendToOk hs
  case h_18 msg hs => cases h; exact .sendToErr hs msg
  case h_19 now hs => cases h; exact .closeCone hs now
  case h_20 => cases h

theorem mainStep_effect {a : MainAct} (h : s.mainStep limits a = some t) :
    Effect s (.main a) t := by
  replace h := mainStep_cases h
  cases h with
  | frame hs f now => exact handleMuxFrame_effect hs f now
  | eof hs => exact .eof hs
  | readError hs | idleTimeout hs | lifetimeTimeout hs | connectErr hs | initialErr hs
  | bindErr hs | sendToErr hs => exact .quiet (fail_handles (by rw [hs]; rfl) _).toQuiet
  | connectOk hs => exact .quiet (quiet_of_main (by rw [hs]; rfl) rfl)
  | spawn h => exact .spawn h
  | insert hs => exact .insert hs
  | keepRequest hs h => exact .keepRequest hs h
  | keepEnter hs h => exact .keepEnter hs h
  | keepOk hs h => exact .keepOk hs h
  | keepErr hs e => exact .keepErr hs
  | @acquireErr f id bind e hs h =>
    have hq := registry_handles s (s.registry.acquireInner id bind).1 s.calls
      (s.registry.acquireInner id bind).2.1
    exact .quiet (hq.trans (fail_handles (hq.busy (by rw [hs]; rfl)) e)).toQuiet
  | @acquireOk f id bind socket hit hs h =>
    have hq := registry_handles s (s.registry.acquireInner id bind).1 s.calls
      (s.registry.acquireInner id bind).2.1
    exact .quiet (hq.trans (setXudp_handles (hq.busy (by rw [hs]; rfl)) _ f)).toQuiet
  | bindOk hs socket => exact .quiet (setXudp_handles (by rw [hs]; rfl) _ _).toQuiet
  | @sendToOk payload hs =>
    have hs : s.main.busy = false := by rw [hs]; rfl
    exact .quiet ((quiet_of_main hs hs).trans (startXudpReaderIfNeeded_handles
      (s := { s with clientToUpstream := s.clientToUpstream + payload.length }) hs).toQuiet)
  | closeCone hs now =>
    have hq := (closeXudpCone_handles s now).toQuiet
    exact .quiet (hq.trans (quiet_of_main (hq.busy (by rw [hs]; rfl)) rfl))

theorem readerGotData_effect {u n : ℕ} {x : Task UInt16} {chunk : Bytes} {src : Source}
    (hu : s.At u x .reading) (hin : (s.upstream u).pc .reader = .inside)
    (h : (s.upstream u).source.readData n = some (chunk, src)) :
    Effect s (.reader u (.data n)) (s.readerGotData u x.key chunk src) := by
  unfold readerGotData
  dsimp only
  split
  · exact .readData hu hin h
  · rename_i e he
    have hlen : MAX_CHUNK_SIZE < chunk.length := by
      unfold encodeDataFrame at he
      split_ifs at he with hlen
      exact hlen
    -- the TCP buffer holds no more than a chunk, so the datagram came from UDP
    have hudp : src.isTcp = false := Source.isTcp_of_large h hlen
    have hpump := Effect.readLarge hu hin h hudp hlen
    simpa [dataFailed, setUpstream, hudp] using hpump

theorem readerStep_effect {u : ℕ} {a : ReaderAct} (h : s.readerStep u a = some t) :
    Effect s (.reader u a) t := by
  unfold readerStep at h
  split at h
  · cases h
  · rename_i x hx
    split_ifs at h with hrun
    unfold pumpStep at h
    split at h
    case h_1 hp =>
      obtain ⟨d, hd, rfl⟩ := Option.map_eq_some_iff.mp h
      exact .readRequest ⟨hx, hrun, hp⟩ hd
    case h_2 hp =>
      obtain ⟨d, hd, rfl⟩ := Option.map_eq_some_iff.mp h
      exact .readEnter ⟨hx, hrun, hp⟩ hd
    case h_3 n hp =>
      split_ifs at h with hin
      obtain ⟨⟨chunk, src⟩, hd, rfl⟩ := Option.map_eq_some_iff.mp h
      exact readerGotData_effect ⟨hx, hrun, hp⟩ hin hd
    case h_4 hp =>
      split_ifs at h with hin
      obtain ⟨e, he, rfl⟩ := Option.map_eq_some_iff.mp h
      exact .readEnd ⟨hx, hrun, hp⟩ hin he
    case h_5 hp => cases h; exact .announce ⟨hx, hrun, hp⟩
    case h_6 hp => cases h; exact .remove ⟨hx, hrun, hp⟩
    case h_7 =>
      split_ifs at h with ha
      obtain ⟨w, hw, rfl⟩ := Option.map_eq_some_iff.mp h
      exact .dropReader ⟨hx, hrun, rfl⟩ ha hw
    case h_8 => cases h

theorem coneStep_effect {c : ℕ} {a : ConeAct} (h : s.coneStep c a = some t) :
    Effect s (.cone c a) t := by
  unfold coneStep at h
  split at h
  · cases h
  · rename_i r hr
    split_ifs at h with hrun
    unfold conePumpStep at h
    split at h
    case h_1 source payload hp =>
      cases h
      unfold coneGotData
      dsimp only
      split
      · exact .coneWrites hr hrun (by simp [hp]) rfl
      · exact .coneEnds hr (by simp [hp])
    case h_2 hp => cases h; exact .coneEnds hr (by simp [hp])
    case h_3 hp => cases h; exact .coneWrites hr hrun (by simp [hp]) rfl
    case h_4 =>
      split_ifs at h with ha
      obtain ⟨w, hw, rfl⟩ := Option.map_eq_some_iff.mp h
      exact .dropCone hr hw
    case h_5 => cases h

theorem At.of_writes {u : ℕ} (h : s.writes (.reader u) = true) : ∃ x, s.At u x .writing := by
  obtain ⟨hrun, hp⟩ : s.table.isRunning u = true ∧ (s.reader u).pump = .writing := by
    simpa [writes] using h
  obtain ⟨k, b, hk⟩ := TaskTable.isRunning_iff.mp hrun
  exact ⟨_, hk, rfl, hp⟩

theorem At.of_reads {u : ℕ} (h : s.reads u = true) : ∃ x, s.At u x .reading := by
  obtain ⟨hrun, hp⟩ : s.table.isRunning u = true ∧ (s.reader u).pump = .reading := by
    simpa [reads] using h
  obtain ⟨k, b, hk⟩ := TaskTable.isRunning_iff.mp hrun
  exact ⟨_, hk, rfl, hp⟩

theorem main_of_writes (h : s.writes .main = true) : s.main = .writeEnd := by
  cases hm : s.main <;> simp [writes, hm] at h ⊢

theorem cone_of_writes {c : ℕ} (h : s.writes (.cone c) = true) : ∃ r, s.cones c = some r := by
  cases hc : s.cones c with
  | none => simp [writes, hc] at h
  | some r => exact ⟨r, rfl⟩

theorem wrote_effect {p : Party} {f : MuxFrame} {w : FrameWriter Party MuxFrame Byte}
    (hp : s.writes p = true) (hf : s.frameOf p = some f)
    (h : s.writer.op wire p .flushed = some w) :
    Effect s (.write p .flushed) (wrote { s with writer := w } p f) := by
  cases p with
  | main => exact .wroteMain (main_of_writes hp) hf h
  | reader u =>
    obtain ⟨x, hx⟩ := At.of_writes hp
    cases hend : f.isEnd with
    | true => simpa [wrote, hend] using Effect.wroteEnd hx hf hend h
    | false => simpa [wrote, hend] using Effect.wroteData hx hf hend h
  | cone c =>
    obtain ⟨r, hr⟩ := cone_of_writes hp
    simp only [wrote, hr]
    split_ifs <;> exact .leaveCone hr (.inl rfl) rfl h

theorem writeFailed_effect {p : Party} {f : MuxFrame} {w : FrameWriter Party MuxFrame Byte}
    {e : IoError} (hp : s.writes p = true) (hf : s.frameOf p = some f)
    (h : s.writer.op wire p .fail = some w) :
    Effect s (.write p (.failed e)) (writeFailed { s with writer := w } p f e) := by
  cases p with
  | main => exact .failMain (main_of_writes hp) hf h
  | reader u =>
    obtain ⟨x, hx⟩ := At.of_writes hp
    unfold writeFailed dataFailed
    dsimp only
    split_ifs with hend htcp
    · exact .failReader hx hf (.inl rfl) h
    · exact .failReader hx hf (.inl rfl) h
    · exact .failReader hx hf (.inr ⟨rfl, by simpa using hend⟩) h
  | cone c =>
    obtain ⟨r, hr⟩ := cone_of_writes hp
    simp only [writeFailed, hr]
    split_ifs <;> exact .leaveCone hr (.inr ⟨e, rfl⟩) rfl h

theorem writeStep_effect {p : Party} {a : WriteAct} (h : s.writeStep p a = some t) :
    Effect s (.write p a) t := by
  unfold writeStep at h
  split_ifs at h with hp
  obtain ⟨f, hf, h⟩ := Option.bind_eq_some_iff.mp h
  obtain ⟨w, hw, rfl⟩ := Option.map_eq_some_iff.mp h
  cases a with
  | request => exact .write hp hf hw (.inl rfl)
  | enter => exact .write hp hf hw (.inr (.inl rfl))
  | push k => exact .write hp hf hw (.inr (.inr ⟨k, rfl⟩))
  | flushed => exact wrote_effect hp hf hw
  | failed e => exact writeFailed_effect hp hf hw

theorem step_effect (h : s.step limits a = some t) : Effect s a t := by
  cases a with
  | main a => exact mainStep_effect h
  | write p a => exact writeStep_effect h
  | reader u a => exact readerStep_effect h
  | cone c a => exact coneStep_effect h
  | arrive u data => cases h; exact .arrive
  | upstreamEnd u e => cases h; exact .upstreamEnd
  | clientBreaks => cases h; exact .clientBreaks
  | registry op => cases h; exact .registry (registryStep_handles s op)

theorem Effect.main_of_other (he : Effect s a t) (ha : ∀ m, a ≠ .main m) :
    t.main = s.main ∨ s.main = .writeEnd := by
  cases he with
  | quiet | answer | keep | endSession | eof | spawn | insert | keepRequest | keepEnter | keepOk
  | keepErr => exact absurd rfl (ha _)
  | registry => exact .inl (by rw [registryStep_eq])
  | wroteMain hs | failMain hs => exact .inr hs
  | _ => exact .inl rfl

end Relay

end SkadiCore.Mux
