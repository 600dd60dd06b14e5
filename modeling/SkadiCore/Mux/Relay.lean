import SkadiCore.Common.FrameWriter
import SkadiCore.Common.TaskTable
import SkadiCore.Mux.Upstream
import SkadiCore.Mux.Xudp
import SkadiCore.Relay.Limits

/-!
# The VLESS mux relay

Model of `relay_vless_mux_with_limits` and of everything it runs
(`crates/skadi-transport/src/mux.rs`), as one step function.

The parties are the main frame loop, one reader task per session
(`pump_tcp_upstream_to_client`, `pump_udp_upstream_to_client`) and the reader
tasks of XUDP cones (`pump_xudp_upstream_to_client`). A step is the code a party
runs from one await point to the next; the label names the party and resolves
what the environment decides: the frame the client sent, how many bytes a socket
took, whether a connect succeeded.

The shared state is made of components, each with its own laws:

* `table : TaskTable UInt16` is the `sessions` map together with the reader tasks
  spawned so far. Sessions are numbered in the order they are opened, since an id
  may be used again. Critical sections of the map contain no await point, so each
  is one step.
* `upstream u : DuplexLock Source` is the `Arc<Mutex<_>>` around the socket of
  session `u`, shared by the main loop (the writing side) and the reader task.
* `writer : FrameWriter Party MuxFrame Byte` is the `MuxWriter` with its mutex and
  the bytes the client stream took.
* `registry : XudpManager Handle` is the process-wide XUDP registry, which other
  connections use as well.

The `xudp` mutex is only used by the main loop, so its content is main loop state.

`JoinHandle::abort` only requests the end of a task: a task that is being polled
runs on to its next await point. An aborted task may take further steps here until
a `drop` step drops its future. Tasks also run on after the main loop returned.
-/

namespace SkadiCore.Mux

open SkadiCore.Relay

/-- Who writes to the client. -/
inductive Party
  | main
  | reader (u : ℕ)
  | cone (c : ℕ)
  deriving DecidableEq

/-- The task behind a handle in the registry: a cone reader of this relay, or another's. -/
inductive Handle
  | own (c : ℕ)
  | other (n : ℕ)
  deriving DecidableEq

/-- Where a reader task is: at its socket, in `write_frame`, behind the loop with
    END still to write, about to remove its session from the table. -/
inductive Pump
  | reading
  | writing
  | ending
  | removing
  deriving DecidableEq

/-- A reader task, and the end its socket returned. -/
structure Reader where
  pump : Pump
  ended : Option ReadEnd
  deriving DecidableEq

structure ConeReader where
  pump : Pump
  status : TaskStatus
  aborted : Bool
  deriving DecidableEq

/-- `XudpCone` (lines 40-44), with the number of its reader. -/
structure XudpCone where
  globalId : Option GlobalId
  socket : ℕ
  readerTask : Option ℕ
  deriving DecidableEq

/-- The calls to the registry. -/
inductive Call
  | acquire (id : GlobalId)
  | detach (id : GlobalId)
  deriving DecidableEq

/-- Where the main loop is. -/
inductive Main
  /-- `tokio::select!` (line 128). -/
  | select
  /-- `outbound_tcp.connect` or `outbound_udp.connect` (lines 455, 503). -/
  | connect (frame : MuxFrame) (tcp : Bool)
  /-- The payload of a NEW frame is written (lines 461, 510). -/
  | sendInitial (frame : MuxFrame) (tcp : Bool) (payload : Bytes)
  /-- `sessions.lock()` after the reader was spawned (lines 480, 530). -/
  | insert
  /-- The payload of a KEEP frame: at the upstream mutex or writing (lines 567-576). -/
  | keep (u : ℕ) (payload : Bytes)
  /-- `writer.write_end` (lines 230, 565). -/
  | writeEnd
  /-- `XudpManager::acquire` (line 328). -/
  | acquire (frame : MuxFrame) (id : GlobalId)
  /-- `UdpSocket::bind` (line 334). -/
  | bind (frame : MuxFrame)
  /-- `resolve_endpoint` and `send_to` (lines 392-402). -/
  | sendTo (payload : Bytes)
  /-- Behind the loop, with the sessions drained (line 175). -/
  | closeCone
  | returned (result : Except IoError (ℕ × ℕ))

/-- The state of a relay and its tasks. -/
structure Relay where
  main : Main
  table : TaskTable UInt16
  reader : ℕ → Reader
  upstream : ℕ → DuplexLock Source
  /-- The payloads written to the upstream of a session. -/
  received : ℕ → List Bytes
  writer : FrameWriter Party MuxFrame Byte
  xudp : Option XudpCone
  cones : ℕ → Option ConeReader
  nextCone : ℕ
  registry : XudpManager Handle
  clientToUpstream : ℕ
  /-- The registry calls made so far. -/
  calls : List Call

def Relay.init (registry : XudpManager Handle) : Relay where
  main := .select
  table := .init
  reader := fun _ => ⟨.reading, none⟩
  upstream := fun _ => .new (.tcp [] none)
  received := fun _ => []
  writer := .init
  xudp := none
  cones := fun _ => none
  nextCone := 0
  registry := registry
  clientToUpstream := 0
  calls := []

/-! ## Frames of the server -/

/-- The KEEP frame of `write_mux_data` (lines 85-92). -/
def dataFrame (sessionId : UInt16) (target : Option Endpoint) (payload : Bytes) : MuxFrame :=
  { meta_ :=
      { sessionId := sessionId
        status := SESSION_STATUS_KEEP
        option := OPTION_DATA
        network := target.map fun _ => NETWORK_UDP
        target := target
        globalId := none }
    payload := some payload }

def MuxFrame.isEnd (f : MuxFrame) : Bool := f.meta_.status == SESSION_STATUS_END

def MuxFrame.nonEmptyPayload (f : MuxFrame) : Option Bytes := f.payload.filter fun p => !p.isEmpty

/-! ## Labels -/

inductive MainAct
  /-- `select!`: a frame was read; `now` is the instant of its handling. -/
  | frame (f : MuxFrame) (now : ℕ)
  /-- `select!`: `read_mux_frame` returned `Ok(None)`. -/
  | eof
  /-- `select!`: `read_mux_frame` failed (malformed frame, truncated frame, I/O). -/
  | readError (e : IoError)
  | idleTimeout
  | lifetimeTimeout
  /-- `connect` succeeded. `interleaved`: other tasks run between the spawn of the
      reader and the insertion of the session, if it comes to that. -/
  | connectOk (interleaved : Bool)
  /-- Refused by the outbound policy, not resolved, not connected. -/
  | connectErr (msg : String)
  | initialOk (interleaved : Bool)
  | initialErr (e : IoError)
  | insert
  /-- The payload of a KEEP frame: `upstream.lock()` is called, the lock is there,
      the payload is written, the write fails. -/
  | keepRequest
  | keepEnter
  | keepOk
  | keepErr (e : IoError)
  | acquire (bind : Except String ℕ)
  | bind (result : Except String ℕ)
  | sendToOk
  /-- `resolve_endpoint` or `send_to` failed. -/
  | sendToErr (msg : String)
  | closeCone (now : ℕ)

inductive WriteAct
  | request
  | enter
  | push (k : ℕ)
  | flushed
  | failed (e : IoError)

inductive ReaderAct
  | request
  | enter
  /-- A read returned data (for TCP `n` bytes). -/
  | data (n : ℕ)
  /-- A read returned EOF or an error. -/
  | readEnd
  /-- `write_end` is called behind the loop. -/
  | announce
  | remove
  | drop

inductive ConeAct
  | recv (source : SocketAddr) (payload : Bytes)
  | recvErr
  | announce
  | drop

inductive RegistryOp
  | acquire (id : GlobalId) (bind : Except String ℕ)
  | detach (id : GlobalId) (now : ℕ)
  | registerReader (id : GlobalId) (n : ℕ)
  | cleanup (now : ℕ)

inductive Act
  | main (a : MainAct)
  | write (p : Party) (a : WriteAct)
  | reader (u : ℕ) (a : ReaderAct)
  | cone (c : ℕ) (a : ConeAct)
  | arrive (u : ℕ) (data : Bytes)
  | upstreamEnd (u : ℕ) (e : ReadEnd)
  | clientBreaks
  | registry (op : RegistryOp)

namespace Relay

/-! ## XUDP frames -/

variable (s : Relay)

/-- The loop returns the error; nothing else is done (lines 156-159). -/
def fail (e : IoError) : Relay := { s with main := .returned (.error e) }

def abortCone (c : ℕ) : Relay :=
  { s with
    cones := Function.update s.cones c ((s.cones c).map fun r => { r with aborted := true }) }

def abortHandles (s : Relay) : List Handle → Relay
  | [] => s
  | .own c :: hs => (s.abortCone c).abortHandles hs
  | .other _ :: hs => s.abortHandles hs

/-- `is_xudp_frame` (lines 258-260). -/
def isXudpFrame (m : MuxMeta) : Bool :=
  m.sessionId == XUDP_SESSION_ID && m.network == some NETWORK_UDP

/-- `start_xudp_reader_if_needed` (lines 349-378), the end of the handler. -/
def startXudpReaderIfNeeded : Relay :=
  match s.xudp with
  | none => s.fail ⟨.notConnected, "xudp cone missing"⟩
  | some cone =>
    match cone.readerTask with
    | some _ => { s with main := .select }
    | none =>
      { s with
        main := .select
        cones := Function.update s.cones s.nextCone (some ⟨.reading, .running, false⟩)
        nextCone := s.nextCone + 1
        registry := match cone.globalId with
          | some id => s.registry.registerReaderInner id (.own s.nextCone)
          | none => s.registry
        xudp := some { cone with readerTask := some s.nextCone } }

/-- `xudp_send` (lines 380-405) up to its first await point; without a payload the
    handler goes on to its end. -/
def xudpSend (f : MuxFrame) : Relay :=
  match f.nonEmptyPayload with
  | some payload => { s with main := .sendTo payload }
  | none => s.startXudpReaderIfNeeded

/-- `ensure_xudp_cone` (lines 315-347) up to its first await point; if the cone is
    open the handler goes on. -/
def ensureXudpCone (f : MuxFrame) (globalId : Option GlobalId) : Relay :=
  match s.xudp with
  | some cone =>
    xudpSend
      { s with xudp := some { cone with globalId := globalId.orElse fun _ => cone.globalId } } f
  | none =>
    match globalId with
    | some id => { s with main := .acquire f id, calls := s.calls ++ [.acquire id] }
    | none => { s with main := .bind f }

def detach (id : GlobalId) (now : ℕ) : Relay :=
  let r := s.registry.detachInner id now
  abortHandles { s with registry := r.1, calls := s.calls ++ [.detach id] } r.2

/-- The cone is taken, its reader aborted, its GlobalID detached (lines 291-298
    and 175-182). -/
def closeXudpCone (now : ℕ) : Relay :=
  match s.xudp with
  | none => s
  | some cone =>
    let s := { s with xudp := none }
    let s := match cone.readerTask with
      | some c => s.abortCone c
      | none => s
    match cone.globalId with
    | some id => s.detach id now
    | none => s

/-- `handle_xudp_frame` (lines 262-313). -/
def handleXudpFrame (f : MuxFrame) (now : ℕ) : Relay :=
  if f.meta_.status = SESSION_STATUS_NEW then
    match f.meta_.target with
    | none => s.fail ⟨.invalidData, "xudp new frame without target"⟩
    | some _ => s.ensureXudpCone f f.meta_.globalId
  else if f.meta_.status = SESSION_STATUS_KEEP then
    match f.meta_.target with
    | some _ => if s.xudp.isNone then s.ensureXudpCone f none else s.xudpSend f
    | none => s
  else if f.meta_.status = SESSION_STATUS_END then s.closeXudpCone now
  else if f.meta_.status = SESSION_STATUS_KEEP_ALIVE then s
  else s.fail ⟨.invalidData, s!"unknown xudp status: 0x{hex02 f.meta_.status}"⟩

/-! ## Frames of sessions -/

def setUpstream (u : ℕ) (d : DuplexLock Source) : Relay :=
  { s with upstream := Function.update s.upstream u d }

def writeEnd (sessionId : UInt16) : Relay :=
  { s with main := .writeEnd, writer := s.writer.start .main (endFrame sessionId) }

/-- `forward_keep_frame` (lines 542-581) up to the upstream mutex. -/
def forwardKeepFrame (f : MuxFrame) : Relay :=
  match s.table.entries f.meta_.sessionId with
  | none => s.writeEnd f.meta_.sessionId
  | some u =>
    match f.nonEmptyPayload with
    | some payload =>
      { s with main := .keep u payload }.setUpstream u ((s.upstream u).start .writer)
    | none => s

/-- `handle_mux_frame` (lines 192-256) up to its first await point that blocks. -/
def handleMuxFrame (f : MuxFrame) (now : ℕ) : Relay :=
  if isXudpFrame f.meta_ then s.handleXudpFrame f now
  else if f.meta_.status = SESSION_STATUS_NEW then
    match f.meta_.target with
    | none => s.fail ⟨.invalidData, "mux new frame without target"⟩
    | some _ =>
      let network := f.meta_.network.getD NETWORK_TCP
      if network = NETWORK_TCP then { s with main := .connect f true }
      else if network = NETWORK_UDP then { s with main := .connect f false }
      else s.writeEnd f.meta_.sessionId
  else if f.meta_.status = SESSION_STATUS_KEEP then s.forwardKeepFrame f
  else if f.meta_.status = SESSION_STATUS_END then
    { s with table := s.table.remove f.meta_.sessionId }
  else if f.meta_.status = SESSION_STATUS_KEEP_ALIVE then s
  else s.fail ⟨.invalidData, s!"unknown mux status: 0x{hex02 f.meta_.status}"⟩

/-- The reader task is spawned behind the optional first payload (lines 465-478,
    515-528). Unless other tasks run before the main loop locks the table, the
    session is inserted in the same step. -/
def spawnSession (f : MuxFrame) (tcp interleaved : Bool) (sent : List Bytes) : Relay :=
  let k := f.meta_.sessionId
  let u := s.table.next
  { s with
    main := if interleaved then .insert else .select
    table := if interleaved then s.table.spawn k else s.table.openTask k
    reader := Function.update s.reader u ⟨.reading, none⟩
    upstream := Function.update s.upstream u
      (DuplexLock.start (.new (if tcp then .tcp [] none else .udp [] none)) .reader)
    received := Function.update s.received u sent
    clientToUpstream := s.clientToUpstream + sent.flatten.length }

/-! ## The main loop -/

/-- A step of `relay_vless_mux_with_limits` (lines 104-185). -/
def mainStep (limits : RelayLimits) (s : Relay) (a : MainAct) : Option Relay :=
  match s.main, a with
  | .select, .frame f now => some (s.handleMuxFrame f now)
  | .select, .eof => some { s with main := .closeCone, table := s.table.drain }
  | .select, .readError e => some (s.fail e)
  | .select, .idleTimeout =>
    if limits.idle.isSome then some (s.fail ⟨.timedOut, IDLE_TIMEOUT_MSG⟩) else none
  | .select, .lifetimeTimeout =>
    if limits.maxLifetime.isSome then some (s.fail ⟨.timedOut, SESSION_LIFETIME_MSG⟩) else none
  | .connect f tcp, .connectOk interleaved =>
    -- of an empty payload `write_all` writes nothing, and `send` is not called
    match f.nonEmptyPayload with
    | some payload => some { s with main := .sendInitial f tcp payload }
    | none => some (s.spawnSession f tcp interleaved [])
  | .connect _ _, .connectErr msg => some (s.fail ⟨.other, msg⟩)
  | .sendInitial f tcp payload, .initialOk interleaved =>
    some (s.spawnSession f tcp interleaved [payload])
  | .sendInitial _ _ _, .initialErr e => some (s.fail e)
  | .insert, .insert => some { s with main := .select, table := s.table.insert }
  | .keep u _, .keepRequest => ((s.upstream u).request .writer).map (s.setUpstream u)
  | .keep u _, .keepEnter => ((s.upstream u).enter .writer).map (s.setUpstream u)
  | .keep u payload, .keepOk =>
    if (s.upstream u).pc .writer = .inside then
      some (setUpstream { s with
        main := .select
        clientToUpstream := s.clientToUpstream + payload.length
        received := Function.update s.received u (s.received u ++ [payload]) }
        u ((s.upstream u).leave .writer))
    else none
  | .keep u _, .keepErr e =>
    if (s.upstream u).pc .writer = .inside then
      some ((s.setUpstream u ((s.upstream u).leave .writer)).fail e)
    else none
  | .acquire f id, .acquire bind =>
    let r := s.registry.acquireInner id bind
    let s := abortHandles { s with registry := r.1 } r.2.1
    match r.2.2 with
    | .error e => some (s.fail e)
    | .ok (socket, _) => some (xudpSend { s with xudp := some ⟨some id, socket, none⟩ } f)
  | .bind f, .bind result =>
    match result with
    | .error e => some (s.fail ⟨.other, e⟩)
    | .ok socket => some (xudpSend { s with xudp := some ⟨none, socket, none⟩ } f)
  | .sendTo payload, .sendToOk =>
    some (startXudpReaderIfNeeded
      { s with clientToUpstream := s.clientToUpstream + payload.length })
  | .sendTo _, .sendToErr msg => some (s.fail ⟨.other, msg⟩)
  | .closeCone, .closeCone now =>
    let s := s.closeXudpCone now
    some { s with main := .returned (.ok (s.clientToUpstream, 0)) }
  | _, _ => none

/-! ## The reader tasks -/

def setPump (u : ℕ) (pump : Pump) : Relay :=
  { s with reader := Function.update s.reader u { s.reader u with pump := pump } }

def readerWrites (u : ℕ) (f : MuxFrame) : Relay :=
  { s.setPump u .writing with writer := s.writer.start (.reader u) f }

/-- Writing a data frame failed: the TCP pump returns the error (lines 609-611),
    the UDP pump leaves its loop (lines 636-642). -/
def dataFailed (u : ℕ) : Relay :=
  s.setPump u (if (s.upstream u).source.isTcp then .removing else .ending)

/-- A read returned data (lines 605-611, 634-642). -/
def readerGotData (u : ℕ) (sessionId : UInt16) (chunk : Bytes) (src : Source) :
    Relay :=
  let s := s.setUpstream u { (s.upstream u).leave .reader with source := src }
  let f := dataFrame sessionId none chunk
  match encodeDataFrame f.meta_ chunk with
  | .ok _ => s.readerWrites u f
  | .error _ => s.dataFailed u

/-- Where the pump goes when a read returns the end: END is still to write, except
    after an error of a TCP upstream (`?` in line 602). -/
def endPump (e : ReadEnd) (tcp : Bool) : Pump :=
  match e, tcp with
  | .error _, true => .removing
  | _, _ => .ending

def readerGotEnd (u : ℕ) (e : ReadEnd) : Relay :=
  { s.setUpstream u ((s.upstream u).leave .reader) with
    reader := Function.update s.reader u ⟨endPump e (s.upstream u).source.isTcp, some e⟩ }

def dropReader (u : ℕ) : Option Relay :=
  (s.writer.op wire (.reader u) .cancel).map fun w =>
    { s.setUpstream u ((s.upstream u).leave .reader) with writer := w, table := s.table.drop u }

/-- A step of the running reader task `u`, which is `x` (lines 470-478, 520-528 and
    589-653). -/
def pumpStep (u : ℕ) (x : Task UInt16) (a : ReaderAct) : Option Relay :=
  match (s.reader u).pump, a with
  | .reading, .request => ((s.upstream u).request .reader).map (s.setUpstream u)
  | .reading, .enter => ((s.upstream u).enter .reader).map (s.setUpstream u)
  | .reading, .data n =>
    if (s.upstream u).pc .reader = .inside then
      ((s.upstream u).source.readData n).map fun r => s.readerGotData u x.key r.1 r.2
    else none
  | .reading, .readEnd =>
    if (s.upstream u).pc .reader = .inside then
      (s.upstream u).source.readEnd.map (s.readerGotEnd u)
    else none
  | .ending, .announce => some (s.readerWrites u (endFrame x.key))
  | .removing, .remove => some { s with table := s.table.finish u }
  | _, .drop => if x.aborted then s.dropReader u else none
  | _, _ => none

/-- A step of reader `u`, if it is running. -/
def readerStep (u : ℕ) (a : ReaderAct) : Option Relay :=
  match s.table.task u with
  | none => none
  | some x => if x.status = .running then s.pumpStep u x a else none

def setCone (c : ℕ) (r : ConeReader) : Relay :=
  { s with cones := Function.update s.cones c (some r) }

def coneWrites (c : ℕ) (r : ConeReader) (f : MuxFrame) : Relay :=
  { s.setCone c { r with pump := .writing } with writer := s.writer.start (.cone c) f }

/-- `recv_from` returned a datagram (lines 417-431). -/
def coneGotData (c : ℕ) (r : ConeReader) (source : SocketAddr) (payload : Bytes) :
    Relay :=
  let f := dataFrame XUDP_SESSION_ID (some (.ip source)) payload
  match encodeDataFrame f.meta_ payload with
  | .ok _ => s.coneWrites c r f
  | .error _ => s.setCone c { r with pump := .ending }

/-- A step of the running cone reader `c` (lines 407-442). -/
def conePumpStep (c : ℕ) (r : ConeReader) (a : ConeAct) : Option Relay :=
  match r.pump, a with
  | .reading, .recv source payload => some (s.coneGotData c r source payload)
  | .reading, .recvErr => some (s.setCone c { r with pump := .ending })
  | .ending, .announce => some (s.coneWrites c r (endFrame XUDP_SESSION_ID))
  | _, .drop =>
    if r.aborted then
      (s.writer.op wire (.cone c) .cancel).map fun w =>
        { s.setCone c { r with status := .dropped } with writer := w }
    else none
  | _, _ => none

def coneStep (c : ℕ) (a : ConeAct) : Option Relay :=
  match s.cones c with
  | none => none
  | some r => if r.status = .running then s.conePumpStep c r a else none

/-! ## Writing to the client -/

def reads (u : ℕ) : Bool := s.table.isRunning u && (s.reader u).pump == .reading

def writes : Party → Bool
  | .main => match s.main with
    | .writeEnd => true
    | _ => false
  | .reader u => s.table.isRunning u && (s.reader u).pump == .writing
  | .cone c => (s.cones c).any fun r => r.status == .running && r.pump == .writing

def WriteAct.op : WriteAct → WriteOp MuxFrame
  | .request => .request
  | .enter => .enter
  | .push k => .push k
  | .flushed => .flushed
  | .failed _ => .fail

def frameOf (p : Party) : Option MuxFrame := (s.writer.pc p).frame

/-- `write_frame` has returned. -/
def wrote (p : Party) (f : MuxFrame) : Relay :=
  match p with
  | .main => { s with main := .select }
  | .reader u =>
    if f.isEnd then s.setPump u .removing
    else (s.setPump u .reading).setUpstream u ((s.upstream u).start .reader)
  | .cone c =>
    match s.cones c with
    | none => s
    | some r =>
      if f.isEnd then s.setCone c { r with status := .finished }
      else s.setCone c { r with pump := .reading }

def writeFailed (p : Party) (f : MuxFrame) (e : IoError) : Relay :=
  match p with
  | .main => s.fail e
  | .reader u => if f.isEnd then s.setPump u .removing else s.dataFailed u
  | .cone c =>
    match s.cones c with
    | none => s
    | some r =>
      if f.isEnd then s.setCone c { r with status := .finished }
      else s.setCone c { r with pump := .ending }

/-- A step of `write_frame` (lines 67-72). -/
def writeStep (p : Party) (a : WriteAct) : Option Relay :=
  if s.writes p then
    (s.frameOf p).bind fun f =>
      (s.writer.op wire p (WriteAct.op a)).map fun w =>
        let s := { s with writer := w }
        match a with
        | .flushed => s.wrote p f
        | .failed e => s.writeFailed p f e
        | _ => s
  else none

/-! ## All steps -/

/-- A call of another connection to the registry. -/
def registryStep : RegistryOp → Relay
  | .acquire id bind =>
    let r := s.registry.acquireInner id bind
    abortHandles { s with registry := r.1 } r.2.1
  | .detach id now =>
    let r := s.registry.detachInner id now
    abortHandles { s with registry := r.1 } r.2
  | .registerReader id n => { s with registry := s.registry.registerReaderInner id (.other n) }
  | .cleanup now =>
    let r := s.registry.cleanupExpired now
    abortHandles { s with registry := r.1 } r.2

/-- A step of the relay, its tasks or their environment. -/
def step (limits : RelayLimits) (s : Relay) (a : Act) : Option Relay :=
  match a with
  | .main a => s.mainStep limits a
  | .write p a => s.writeStep p a
  | .reader u a => s.readerStep u a
  | .cone c a => s.coneStep c a
  | .arrive u data =>
    some (s.setUpstream u { s.upstream u with source := (s.upstream u).source.arrive data })
  | .upstreamEnd u e =>
    some (s.setUpstream u { s.upstream u with source := (s.upstream u).source.finish e })
  | .clientBreaks => some { s with writer := s.writer.break_ }
  | .registry op => some (s.registryStep op)

/-! ## Labels of some runs -/

def openTcp (k : UInt16) (interleaved : Bool) : List Act :=
  [.main (.frame (newFrame k NETWORK_TCP (.ip (.v4 (ipv4Addr 1 1 1 1) 80)) none none) 0),
    .main (.connectOk interleaved)]

def writeWhole (p : Party) (n : ℕ) : List Act :=
  [.write p .request, .write p .enter, .write p (.push n), .write p .flushed]

def announceEof (u : ℕ) : List Act :=
  [.reader u .request, .reader u .enter, .upstreamEnd u .eof, .reader u .readEnd,
    .reader u .announce] ++ writeWhole (.reader u) 6

end Relay

end SkadiCore.Mux
