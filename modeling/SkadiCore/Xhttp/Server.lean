import SkadiCore.Xhttp.Request
import SkadiCore.Xhttp.Session

/-!
# XHTTP connections

Model of `accept_xhttp` and the handlers of its requests (`crates/skadi-transport/src/xhttp/
accept.rs`, lines 73-331), of `XhttpSession` and `XhttpSessionManager` (`xhttp/session.rs`,
lines 42-110) and of `UploadReader` (`xhttp/common.rs`, lines 154-194), for all connections
of a server.

Each connection has an HTTP task that calls a handler for each request, and under HTTP/2 for
several at a time. The handlers share the registry of sessions. A handler does not wait,
except that the one for packets reads its body first; so a call is one step, or two. A
stream-up `POST` leaves a task behind that copies its body into the session.

Sessions are shared by reference: `cells` is the heap, and the registry and the `POST` tasks
refer to it. A session is gone, with the sender of its queue, when none of them does.

* `Handled`, `handleRequest_cases`: everything a request can do.
-/

namespace SkadiCore.Xhttp

structure Cell where
  sid : String
  session : XhttpSession
  uploadRx : Bool

/-- `XhttpSession::new` (`session.rs`, lines 50-57). -/
def Cell.new (sid : String) : Cell := ⟨sid, .new, true⟩

def Cell.queue (cell : Cell) : UploadQueue := cell.session.uploadTx

def Cell.setQueue (cell : Cell) (q : UploadQueue) : Cell :=
  { cell with session := { cell.session with uploadTx := q } }

inductive AcceptResult
  | upgraded (io : ℕ)
  | postHandled
  deriving DecidableEq

structure HttpConn where
  serving : Bool
  upgradeTx : Bool
  result : Option AcceptResult

/-- `send_upgrade` (lines 324-331): only the first report of a connection is sent. -/
def HttpConn.report (conn : HttpConn) (result : AcceptResult) : HttpConn :=
  if conn.upgradeTx then { conn with upgradeTx := false, result := some result } else conn

/-- Where the task of a stream-up `POST` is in `attach_post_body` (`session.rs`, lines 65-77). -/
inductive PostPhase
  | reading
  | sending (chunk : Bytes)
  | ended
  deriving DecidableEq

/-- The task of a stream-up `POST` (`accept.rs`, lines 305-308); `body` is what it has read. -/
structure Post where
  conn : ℕ
  sid : String
  ref : ℕ
  phase : PostPhase
  body : Bytes

structure Packet where
  conn : ℕ
  sid : String
  seq : ℕ

inductive Source
  | body
  | upload (sid : String) (ref : ℕ)
  deriving DecidableEq

/-- An `XhttpIo`: whether anyone holds it, the `buf` of its `UploadReader`, what reads have
    returned so far, and whether a read returned the end. -/
structure Io where
  conn : ℕ
  source : Source
  held : Bool
  buf : Bytes
  got : Bytes
  eof : Bool

/-- The registry of sessions, with the bodies being read and the streams handed over. -/
structure Sessions where
  registry : AList fun _ : String => ℕ
  cells : List Cell
  posts : List Post
  ios : List Io

namespace Sessions

def new : Sessions := ⟨∅, [], [], []⟩

variable (r : Sessions)

/-- `get_or_create` (`session.rs`, lines 97-105). -/
def getOrCreate (sid : String) : Sessions × ℕ :=
  match r.registry.lookup sid with
  | some ref => (r, ref)
  | none =>
    let ref := r.cells.length
    ({ r with registry := r.registry.insert sid ref, cells := r.cells ++ [.new sid] }, ref)

def remove (sid : String) : Sessions :=
  { r with registry := r.registry.erase sid }

def modifyCell (ref : ℕ) (f : Cell → Cell) : Sessions :=
  { r with cells := r.cells.modify ref f }

def addPost (post : Post) : Sessions := { r with posts := r.posts ++ [post] }

def setPost (k : ℕ) (post : Post) : Sessions :=
  { r with posts := r.posts.set k post }

def setIo (i : ℕ) (io : Io) : Sessions := { r with ios := r.ios.set i io }

def referred (ref : ℕ) : Bool :=
  r.registry.entries.any (·.2 = ref) || r.posts.any fun post => post.ref = ref ∧ post.phase ≠ .ended

def closeSource : Source → Sessions
  | .body => r
  | .upload _ ref => r.modifyCell ref fun cell => cell.setQueue cell.queue.close

def addIo (c : ℕ) (source : Source) (held : Bool) : Sessions :=
  let io : Io := ⟨c, source, held, [], [], false⟩
  let r := { r with ios := r.ios ++ [io] }
  if held then r else r.closeSource source

/-- `upload_tx.send(chunk).await` (`session.rs`, lines 71-75): waits for a free slot. If the
    receiver is gone, the chunk is lost. -/
def postSend (k : ℕ) (post : Post) (chunk : Bytes) : Option Sessions :=
  (r.cells[post.ref]?).bind fun cell =>
    if cell.queue.free then
      some ((r.setPost k { post with phase := .reading }).modifyCell post.ref fun cell =>
        cell.setQueue (cell.queue.offer chunk))
    else none

/-- One step of the task of a `POST`: it reads (`some chunk`, at most 8192 bytes), or
    `stream.read` returns the end or an error and the session is removed
    (`accept.rs`, lines 305-308). -/
def postRead (k : ℕ) (post : Post) (chunk : Option Bytes) : Option Sessions :=
  match post.phase, chunk with
  | .reading, some chunk =>
    if 0 < chunk.length ∧ chunk.length ≤ 8192 then
      some (r.setPost k { post with phase := .sending chunk, body := post.body ++ chunk })
    else none
  | .reading, none => some ((r.setPost k { post with phase := .ended }).remove post.sid)
  | _, _ => none

def take (io : Io) (bytes : Bytes) (n : ℕ) : Io :=
  { io with
    buf := bytes.drop n
    got := io.got ++ bytes.take n
    eof := io.eof || (decide (0 < n) && bytes.isEmpty) }

/-- `UploadReader::poll_read` (`common.rs`, lines 169-193) with a buffer of `n` bytes; it
    waits if the queue is empty while the session exists. -/
def readUpload (i n : ℕ) (io : Io) (ref : ℕ) : Option Sessions :=
  if io.buf ≠ [] then some (r.setIo i (take io io.buf n))
  else
    (r.cells[ref]?).bind fun cell =>
      match cell.queue.recv with
      | some q =>
        let chunk := cell.queue.queue.headD []
        some ((r.setIo i (take io chunk n)).modifyCell ref fun cell => cell.setQueue q)
      | none => if r.referred ref then none else some (r.setIo i (take io [] n))

end Sessions

/-! ## Connections -/

structure Answer where
  conn : ℕ
  method : Method
  response : Response

/-- The state of an XHTTP inbound. -/
structure XhttpServer where
  reg : Sessions
  conns : List HttpConn
  packets : List (Option Packet)
  answers : List Answer

/-- The steps: a connection is accepted, or its HTTP task ends; a request comes (`random` is
    for the padding of the answer); the body of a packet has been read, or the request goes
    away; the task of a `POST` reads a chunk or the end of its body, or sends what it has
    read; an `XhttpIo` is read with a buffer of `n` bytes, or is dropped. -/
inductive XhttpAct
  | accept
  | httpEnds (c : ℕ)
  | request (c : ℕ) (req : Request) (random : UInt32)
  | packetBody (p : ℕ) (chunks : List Bytes) (failed : Bool)
  | packetGone (p : ℕ)
  | postRead (k : ℕ) (chunk : Option Bytes)
  | postSent (k : ℕ)
  | read (i n : ℕ)
  | dropIo (i : ℕ)

namespace XhttpServer

def new : XhttpServer := ⟨.new, [], [], []⟩

def respond (s : XhttpServer) (c : ℕ) (method : Method) (response : Response) : XhttpServer :=
  { s with answers := s.answers ++ [⟨c, method, response⟩] }

def canReport (s : XhttpServer) (c : ℕ) : Bool := (s.conns[c]?).any HttpConn.upgradeTx

def sendUpgrade (s : XhttpServer) (c : ℕ) (result : AcceptResult) : XhttpServer :=
  { s with conns := s.conns.modify c (·.report result) }

def upgrade (s : XhttpServer) (c : ℕ) (source : Source) : XhttpServer :=
  { s with reg := s.reg.addIo c source (s.canReport c) }.sendUpgrade c (.upgraded s.reg.ios.length)

/-! ## The handlers -/

section Handlers

variable (config : XhttpConfig)

def streaming (random : UInt32) : Response :=
  streamingResponse (config.padding.sampleLen random) config.noSseHeader

variable (s : XhttpServer)

/-- `handle_stream_one` (lines 188-209). -/
def handleStreamOne (c : ℕ) (method : Method) (random : UInt32) :
    XhttpServer :=
  if !config.mode.allowsStreamOne then s.respond c method (errorResponse BAD_REQUEST)
  else (s.upgrade c .body).respond c method (streaming config random)

/-- `handle_packet_up` up to the body (lines 211-232). -/
def handlePacketUp (c : ℕ) (method : Method) (sid seqStr : String) :
    XhttpServer :=
  if !config.mode.allowsPacketUp then s.respond c method (errorResponse BAD_REQUEST)
  else if method ≠ .post then s.respond c method (errorResponse METHOD_NOT_ALLOWED)
  else
    match parseU64 seqStr with
    | none => s.respond c method (errorResponse BAD_REQUEST)
    | some seq => { s with packets := s.packets ++ [some ⟨c, sid, seq⟩] }

def handlePacketBody (packet : Packet) (body : Except ℕ Bytes) :
    XhttpServer :=
  match body with
  | .error status => s.respond packet.conn .post (errorResponse status)
  | .ok payload =>
    let (reg, ref) := s.reg.getOrCreate packet.sid
    let reg := reg.modifyCell ref fun cell =>
      { cell with session := cell.session.pushPacket packet.seq payload }
    ({ s with reg := reg }.sendUpgrade packet.conn .postHandled).respond packet.conn .post
      packetResponse

/-- `handle_stream_up`, `GET` (lines 278-298). -/
def handleGet (c : ℕ) (sid : String) (ref : ℕ) (random : UInt32) :
    XhttpServer :=
  if !config.mode.allowsStreamUp && !config.mode.allowsPacketUp then
    s.respond c .get (errorResponse BAD_REQUEST)
  else if (s.reg.cells[ref]?).any Cell.uploadRx then
    let reg := s.reg.modifyCell ref fun cell => { cell with uploadRx := false }
    ({ s with reg := reg }.upgrade c (.upload sid ref)).respond c .get (streaming config random)
  else s.respond c .get (errorResponse CONFLICT)

/-- `handle_stream_up`, `POST` (lines 299-319). -/
def handlePost (c : ℕ) (sid : String) (ref : ℕ) : XhttpServer :=
  if !config.mode.allowsStreamUp then s.respond c .post (errorResponse BAD_REQUEST)
  else
    ({ s with reg := s.reg.addPost ⟨c, sid, ref, .reading, []⟩ }.sendUpgrade c
      .postHandled).respond c .post postResponse

/-- `handle_stream_up` (lines 265-322). The session is created before anything is tested. -/
def handleStreamUp (c : ℕ) (method : Method) (sid : String)
    (random : UInt32) : XhttpServer :=
  let (reg, ref) := s.reg.getOrCreate sid
  let s := { s with reg := reg }
  match method with
  | .get => handleGet config s c sid ref random
  | .post => handlePost config s c sid ref
  | _ => s.respond c method (errorResponse METHOD_NOT_ALLOWED)

/-- `handle_request` (lines 132-186). -/
def handleRequest (c : ℕ) (req : Request) (random : UInt32) : XhttpServer :=
  match route config req with
  | .answer response => s.respond c req.method response
  | .streamOne => handleStreamOne config s c req.method random
  | .packetUp sid seq => handlePacketUp config s c req.method sid seq
  | .streamUp sid => handleStreamUp config s c req.method sid random

def step (a : XhttpAct) : Option XhttpServer :=
  match a with
  | .accept => some { s with conns := s.conns ++ [⟨true, true, none⟩] }
  | .httpEnds c =>
    if (s.conns[c]?).any HttpConn.serving then
      some { s with conns := s.conns.modify c fun conn => { conn with serving := false } }
    else none
  | .request c req random =>
    if (s.conns[c]?).any HttpConn.serving then some (handleRequest config s c req random)
    else none
  | .packetBody p chunks failed =>
    match s.packets[p]? with
    | some (some packet) =>
      some (handlePacketBody { s with packets := s.packets.set p none } packet
        (readBodyLimited DEFAULT_MAX_POST_BYTES failed [] chunks))
    | _ => none
  | .packetGone p =>
    match s.packets[p]? with
    | some (some _) => some { s with packets := s.packets.set p none }
    | _ => none
  | .postRead k chunk =>
    (s.reg.posts[k]?).bind fun post =>
      (s.reg.postRead k post chunk).map fun reg => { s with reg := reg }
  | .postSent k =>
    (s.reg.posts[k]?).bind fun post =>
      match post.phase with
      | .sending chunk => (s.reg.postSend k post chunk).map fun reg => { s with reg := reg }
      | _ => none
  | .read i n =>
    (s.reg.ios[i]?).bind fun io =>
      match io.held, io.source with
      | true, .upload _ ref => (s.reg.readUpload i n io ref).map fun reg => { s with reg := reg }
      | _, _ => none
  | .dropIo i =>
    (s.reg.ios[i]?).bind fun io =>
      if io.held then
        some { s with reg := (s.reg.setIo i { io with held := false }).closeSource io.source }
      else none

end Handlers

/-! ## What a request does -/

variable {config : XhttpConfig} {s t u : XhttpServer} {a : XhttpAct} {as : List XhttpAct}
  {c c' : ℕ} {req : Request} {random : UInt32}

def opened (s : XhttpServer) (sid : String) : XhttpServer :=
  { s with reg := (s.reg.getOrCreate sid).1 }

def refOf (s : XhttpServer) (sid : String) : ℕ := (s.reg.getOrCreate sid).2

def RefusedUp (config : XhttpConfig) (s : XhttpServer) (sid : String) : Method → Prop
  | .get => (config.mode.allowsStreamUp = false ∧ config.mode.allowsPacketUp = false) ∨
      ((s.opened sid).reg.cells[s.refOf sid]?).any Cell.uploadRx = false
  | .post => config.mode.allowsStreamUp = false
  | .options | .other _ => True

def takeRx (s : XhttpServer) (sid : String) : XhttpServer :=
  { s with reg := (s.opened sid).reg.modifyCell (s.refOf sid) fun cell =>
      { cell with uploadRx := false } }

def spawnPost (s : XhttpServer) (c : ℕ) (sid : String) : XhttpServer :=
  { s with reg := (s.opened sid).reg.addPost ⟨c, sid, s.refOf sid, .reading, []⟩ }

inductive Handled (config : XhttpConfig) (s : XhttpServer) (c : ℕ) (req : Request) :
    XhttpServer → Prop
  | answered (response : Response) : route config req = .answer response →
      Handled config s c req (s.respond c req.method response)
  | refused (status : ℕ) : status ≠ OK → (∀ sid, route config req ≠ .streamUp sid) →
      Handled config s c req (s.respond c req.method (errorResponse status))
  | refusedUp (sid : String) (method : Method) (status : ℕ) : status ≠ OK →
      route config req = .streamUp sid → req.method = method → RefusedUp config s sid method →
      Handled config s c req ((s.opened sid).respond c method (errorResponse status))
  | packet (packet : Packet) (seq : String) : route config req = .packetUp packet.sid seq →
      packet.conn = c →
      Handled config s c req { s with packets := s.packets ++ [some packet] }
  | streamOne (random : UInt32) : route config req = .streamOne →
      Handled config s c req ((s.upgrade c .body).respond c req.method (streaming config random))
  | get (sid : String) (random : UInt32) : route config req = .streamUp sid → req.method = .get →
      ((s.opened sid).reg.cells[s.refOf sid]?).any Cell.uploadRx = true →
      Handled config s c req
        (((s.takeRx sid).upgrade c (.upload sid (s.refOf sid))).respond c .get
          (streaming config random))
  | post (sid : String) : route config req = .streamUp sid → req.method = .post →
      Handled config s c req
        (((s.spawnPost c sid).sendUpgrade c .postHandled).respond c .post postResponse)

theorem handleStreamUp_cases (sid : String) (hroute : route config req = .streamUp sid) :
    Handled config s c req (handleStreamUp config s c req.method sid random) := by
  unfold handleStreamUp
  dsimp only
  cases hmethod : req.method with
  | get =>
    dsimp only
    unfold handleGet
    split_ifs with hmode hrx
    · refine .refusedUp sid _ BAD_REQUEST (by decide) hroute hmethod (.inl ?_)
      simpa using hmode
    · exact .get sid random hroute hmethod hrx
    · refine .refusedUp sid _ CONFLICT (by decide) hroute hmethod (.inr ?_)
      exact Bool.eq_false_iff.mpr hrx
  | post =>
    dsimp only
    unfold handlePost
    split_ifs with hmode
    · refine .refusedUp sid _ BAD_REQUEST (by decide) hroute hmethod ?_
      simpa [RefusedUp] using hmode
    · exact .post sid hroute hmethod
  | options => exact .refusedUp sid _ METHOD_NOT_ALLOWED (by decide) hroute hmethod trivial
  | other name => exact .refusedUp sid _ METHOD_NOT_ALLOWED (by decide) hroute hmethod trivial

theorem handlePacketUp_cases {sid seqStr : String}
    (hroute : route config req = .packetUp sid seqStr) :
    Handled config s c req (handlePacketUp config s c req.method sid seqStr) := by
  have hne : ∀ sid, route config req ≠ .streamUp sid := by simp [hroute]
  unfold handlePacketUp
  split_ifs
  · exact .refused BAD_REQUEST (by decide) hne
  · exact .refused METHOD_NOT_ALLOWED (by decide) hne
  · split
    · exact .refused BAD_REQUEST (by decide) hne
    · exact .packet _ seqStr hroute rfl

theorem handleRequest_cases : Handled config s c req (handleRequest config s c req random) := by
  unfold handleRequest
  split
  · rename_i response hroute
    exact .answered response hroute
  · rename_i hroute
    unfold handleStreamOne
    split_ifs
    · exact .refused BAD_REQUEST (by decide) (by simp [hroute])
    · exact .streamOne random hroute
  · rename_i sid seq hroute
    exact handlePacketUp_cases hroute
  · rename_i sid hroute
    exact handleStreamUp_cases sid hroute

/-! ## What a step does -/

inductive Steps (config : XhttpConfig) (s : XhttpServer) : XhttpAct → XhttpServer → Prop
  | accept : Steps config s .accept { s with conns := s.conns ++ [⟨true, true, none⟩] }
  | httpEnds (c : ℕ) : Steps config s (.httpEnds c)
      { s with conns := s.conns.modify c fun conn => { conn with serving := false } }
  | request (c : ℕ) (req : Request) (random : UInt32) {t : XhttpServer} :
      (s.conns[c]?).any HttpConn.serving = true → Handled config s c req t →
      Steps config s (.request c req random) t
  | packetBody (p : ℕ) (chunks : List Bytes) (failed : Bool) (packet : Packet) :
      s.packets[p]? = some (some packet) →
      Steps config s (.packetBody p chunks failed)
        (handlePacketBody { s with packets := s.packets.set p none } packet
          (readBodyLimited DEFAULT_MAX_POST_BYTES failed [] chunks))
  | packetGone (p : ℕ) (packet : Packet) : s.packets[p]? = some (some packet) →
      Steps config s (.packetGone p) { s with packets := s.packets.set p none }
  | postRead (k : ℕ) (chunk : Option Bytes) (post : Post) (reg : Sessions) :
      s.reg.posts[k]? = some post → s.reg.postRead k post chunk = some reg →
      Steps config s (.postRead k chunk) { s with reg := reg }
  | postSent (k : ℕ) (chunk : Bytes) (post : Post) (reg : Sessions) :
      s.reg.posts[k]? = some post → post.phase = .sending chunk →
      s.reg.postSend k post chunk = some reg → Steps config s (.postSent k) { s with reg := reg }
  | read (i n : ℕ) (io : Io) (sid : String) (ref : ℕ) (reg : Sessions) :
      s.reg.ios[i]? = some io → io.held = true → io.source = .upload sid ref →
      s.reg.readUpload i n io ref = some reg → Steps config s (.read i n) { s with reg := reg }
  | dropIo (i : ℕ) (io : Io) : s.reg.ios[i]? = some io → io.held = true →
      Steps config s (.dropIo i)
        { s with reg := (s.reg.setIo i { io with held := false }).closeSource io.source }

theorem step_cases (h : s.step config a = some t) : Steps config s a t := by
  cases a with
  | accept =>
    cases h
    exact .accept
  | httpEnds c =>
    simp only [step, Option.ite_none_right_eq_some, Option.some.injEq] at h
    obtain ⟨-, rfl⟩ := h
    exact .httpEnds c
  | request c req random =>
    simp only [step, Option.ite_none_right_eq_some, Option.some.injEq] at h
    obtain ⟨hserving, rfl⟩ := h
    exact .request c req random hserving handleRequest_cases
  | packetBody p chunks failed =>
    simp only [step] at h
    split at h
    · cases h
      exact .packetBody p chunks failed _ ‹_›
    · cases h
  | packetGone p =>
    simp only [step] at h
    split at h
    · cases h
      exact .packetGone p _ ‹_›
    · cases h
  | postRead k chunk =>
    obtain ⟨post, hk, h⟩ := Option.bind_eq_some_iff.mp h
    obtain ⟨reg, hreg, rfl⟩ := Option.map_eq_some_iff.mp h
    exact .postRead k chunk post reg hk hreg
  | postSent k =>
    obtain ⟨post, hk, h⟩ := Option.bind_eq_some_iff.mp h
    split at h
    · obtain ⟨reg, hreg, rfl⟩ := Option.map_eq_some_iff.mp h
      exact .postSent k _ post reg hk ‹_› hreg
    · cases h
  | read i n =>
    obtain ⟨io, hi, h⟩ := Option.bind_eq_some_iff.mp h
    split at h
    · obtain ⟨reg, hreg, rfl⟩ := Option.map_eq_some_iff.mp h
      exact .read i n io _ _ reg hi ‹_› ‹_› hreg
    · cases h
  | dropIo i =>
    obtain ⟨io, hi, h⟩ := Option.bind_eq_some_iff.mp h
    split_ifs at h with hheld
    cases h
    exact .dropIo i io hi hheld

end XhttpServer

namespace Sessions

variable {r r' : Sessions} {k i n ref : ℕ} {post : Post} {io : Io}

theorem postRead_cases {chunk : Option Bytes} (h : r.postRead k post chunk = some r') :
    post.phase = .reading ∧
      ((∃ bytes, chunk = some bytes ∧ 0 < bytes.length ∧
          r' = r.setPost k { post with phase := .sending bytes, body := post.body ++ bytes }) ∨
        (chunk = none ∧ r' = (r.setPost k { post with phase := .ended }).remove post.sid)) := by
  unfold postRead at h
  split at h
  · split_ifs at h with hlen
    cases h
    exact ⟨‹_›, .inl ⟨_, rfl, hlen.1, rfl⟩⟩
  · cases h
    exact ⟨‹_›, .inr ⟨rfl, rfl⟩⟩
  · cases h

theorem postSend_cases {chunk : Bytes} (h : r.postSend k post chunk = some r') :
    ∃ cell, r.cells[post.ref]? = some cell ∧ cell.queue.free = true ∧
      r' = (r.setPost k { post with phase := .reading }).modifyCell post.ref fun cell =>
        cell.setQueue (cell.queue.offer chunk) := by
  obtain ⟨cell, hcell, h⟩ := Option.bind_eq_some_iff.mp h
  split_ifs at h with hfree
  cases h
  exact ⟨cell, hcell, hfree, rfl⟩

theorem readUpload_cases (h : r.readUpload i n io ref = some r') :
    (io.buf ≠ [] ∧ r' = r.setIo i (take io io.buf n)) ∨
      (io.buf = [] ∧ ∃ cell, r.cells[ref]? = some cell ∧
        ((∃ q, cell.queue.recv = some q ∧
            r' = (r.setIo i (take io (cell.queue.queue.headD []) n)).modifyCell ref fun cell =>
              cell.setQueue q) ∨
          (cell.queue.recv = none ∧ r.referred ref = false ∧ r' = r.setIo i (take io [] n)))) := by
  unfold readUpload at h
  by_cases hbuf : io.buf = []
  · rw [if_neg (not_not_intro hbuf)] at h
    obtain ⟨cell, hcell, h⟩ := Option.bind_eq_some_iff.mp h
    refine .inr ⟨hbuf, cell, hcell, ?_⟩
    split at h
    · cases h
      exact .inl ⟨_, ‹_›, rfl⟩
    · split_ifs at h with href
      cases h
      exact .inr ⟨‹_›, by simpa using href, rfl⟩
  · rw [if_pos hbuf] at h
    cases h
    exact .inl ⟨hbuf, rfl⟩

/-! ## What the operations leave alone -/

@[simp] theorem registry_closeSource (source : Source) :
    (r.closeSource source).registry = r.registry := by
  cases source <;> rfl

@[simp] theorem posts_closeSource (source : Source) : (r.closeSource source).posts = r.posts := by
  cases source <;> rfl

@[simp] theorem ios_closeSource (source : Source) : (r.closeSource source).ios = r.ios := by
  cases source <;> rfl

@[simp] theorem registry_addIo (c : ℕ) (source : Source) (held : Bool) :
    (r.addIo c source held).registry = r.registry := by
  simp only [addIo]
  split_ifs <;> simp

@[simp] theorem posts_addIo (c : ℕ) (source : Source) (held : Bool) :
    (r.addIo c source held).posts = r.posts := by
  simp only [addIo]
  split_ifs <;> simp

@[simp] theorem ios_addIo (c : ℕ) (source : Source) (held : Bool) :
    (r.addIo c source held).ios = r.ios ++ [⟨c, source, held, [], [], false⟩] := by
  simp only [addIo]
  split_ifs <;> simp

@[simp] theorem posts_getOrCreate (sid : String) : (r.getOrCreate sid).1.posts = r.posts := by
  unfold getOrCreate
  split <;> rfl

@[simp] theorem ios_getOrCreate (sid : String) : (r.getOrCreate sid).1.ios = r.ios := by
  unfold getOrCreate
  split <;> rfl

end Sessions

namespace XhttpServer

variable {config : XhttpConfig} {s t u : XhttpServer} {a : XhttpAct} {as bs : List XhttpAct}
  {c c' : ℕ} {req : Request} {random : UInt32}

/-! ## Reports -/

/-- Connection `c` was answered with 200 before, other than to an OPTIONS. -/
def Reported (s : XhttpServer) (c : ℕ) : Prop :=
  ∃ answer ∈ s.answers, answer.conn = c ∧ answer.method ≠ .options ∧ answer.response.status = OK

def AnswersWith (s t : XhttpServer) (response : Response) : AcceptResult → Prop
  | .upgraded i => response.streaming = true ∧ i = s.reg.ios.length ∧
      t.reg.ios.length = s.reg.ios.length + 1
  | .postHandled => response.streaming = false ∧ t.reg.ios.length = s.reg.ios.length

inductive ConnStep (s : XhttpServer) : XhttpServer → Prop
  | quiet {t : XhttpServer} : t.conns = s.conns → t.answers = s.answers →
      t.reg.ios.length = s.reg.ios.length → ConnStep s t
  | accept {t : XhttpServer} : t.conns = s.conns ++ [⟨true, true, none⟩] →
      t.answers = s.answers → t.reg.ios.length = s.reg.ios.length → ConnStep s t
  | httpEnds {t : XhttpServer} (c : ℕ) :
      t.conns = s.conns.modify c (fun conn => { conn with serving := false }) →
      t.answers = s.answers → t.reg.ios.length = s.reg.ios.length → ConnStep s t
  | answer {t : XhttpServer} (answer : Answer) : answer.conn < s.conns.length →
      t.conns = s.conns → t.answers = s.answers ++ [answer] →
      t.reg.ios.length = s.reg.ios.length → answer.response.streaming = false →
      (answer.response.status = OK → answer.method = .options) → ConnStep s t
  | report {t : XhttpServer} (answer : Answer) (result : AcceptResult) :
      answer.conn < s.conns.length →
      t.conns = (s.sendUpgrade answer.conn result).conns → t.answers = s.answers ++ [answer] →
      answer.method ≠ .options → answer.response.status = OK →
      AnswersWith s t answer.response result → ConnStep s t

theorem Handled.connStep (hc : c < s.conns.length) (h : Handled config s c req t) :
    ConnStep s t := by
  cases h with
  | answered response hroute =>
    obtain ⟨hstreaming, hoptions⟩ := route_answer hroute
    exact .answer ⟨c, req.method, response⟩ hc rfl rfl rfl hstreaming hoptions
  | refused status hne _ =>
    exact .answer ⟨c, req.method, errorResponse status⟩ hc rfl rfl rfl rfl fun h => absurd h hne
  | refusedUp sid method status hne _ _ _ =>
    exact .answer ⟨c, method, errorResponse status⟩ hc rfl rfl (by simp [opened, respond]) rfl
      fun h => absurd h hne
  | packet packet seq _ => exact .quiet rfl rfl rfl
  | streamOne random hroute =>
    have hmethod : req.method ≠ .options := fun h => by simp [route_options h] at hroute
    exact .report ⟨c, req.method, streaming config random⟩ (.upgraded s.reg.ios.length) hc rfl rfl
      hmethod rfl ⟨rfl, rfl, by simp [upgrade, respond, sendUpgrade]⟩
  | get sid random _ _ _ =>
    refine .report ⟨c, .get, streaming config random⟩ (.upgraded s.reg.ios.length) hc ?_ rfl
      (by simp) rfl ⟨rfl, rfl, ?_⟩
    · simp [upgrade, respond, sendUpgrade, takeRx, opened, Sessions.modifyCell]
    · simp [upgrade, respond, sendUpgrade, takeRx, opened, Sessions.modifyCell]
  | post sid _ _ =>
    refine .report ⟨c, .post, postResponse⟩ .postHandled hc rfl rfl (by simp) rfl ⟨rfl, ?_⟩
    simp [respond, sendUpgrade, spawnPost, opened, Sessions.addPost]

theorem connStep_of_packetBody {packets : List (Option Packet)} {packet : Packet}
    (hc : packet.conn < s.conns.length) {body : Except ℕ Bytes}
    (hbody : ∀ status, body = .error status → status ≠ OK) :
    ConnStep s (handlePacketBody { s with packets := packets } packet body) := by
  unfold handlePacketBody
  cases body with
  | error status =>
    exact .answer ⟨packet.conn, .post, errorResponse status⟩ hc rfl rfl rfl rfl
      fun h => absurd h (hbody status rfl)
  | ok payload =>
    refine .report ⟨packet.conn, .post, packetResponse⟩ .postHandled hc rfl rfl (by simp) rfl
      ⟨rfl, ?_⟩
    simp [respond, sendUpgrade, Sessions.modifyCell]

def PacketsKnown (s : XhttpServer) : Prop :=
  ∀ packet, some packet ∈ s.packets → packet.conn < s.conns.length

theorem lt_of_serving (h : (s.conns[c]?).any HttpConn.serving = true) : c < s.conns.length := by
  by_contra hle
  simp [List.getElem?_eq_none (not_lt.mp hle)] at h

theorem connStep_of_step (hp : s.PacketsKnown) (h : s.step config a = some t) : ConnStep s t := by
  replace h := step_cases h
  cases h with
  | accept => exact .accept rfl rfl rfl
  | httpEnds c => exact .httpEnds c rfl rfl rfl
  | request c req random hserving h => exact h.connStep (lt_of_serving hserving)
  | packetBody p chunks failed packet hpacket =>
    exact connStep_of_packetBody (hp packet (List.mem_of_getElem? hpacket))
      fun status h => readBodyLimited_error h
  | packetGone p packet _ => exact .quiet rfl rfl rfl
  | postRead k chunk post reg _ h =>
    obtain ⟨-, ⟨bytes, -, -, rfl⟩ | ⟨-, rfl⟩⟩ := Sessions.postRead_cases h
    · exact .quiet rfl rfl rfl
    · exact .quiet rfl rfl rfl
  | postSent k chunk post reg _ _ h =>
    obtain ⟨cell, -, -, rfl⟩ := Sessions.postSend_cases h
    exact .quiet rfl rfl rfl
  | read i n io sid ref reg _ _ _ h =>
    refine .quiet rfl rfl ?_
    obtain ⟨-, rfl⟩ | ⟨-, cell, -, ⟨q, -, rfl⟩ | ⟨-, -, rfl⟩⟩ := Sessions.readUpload_cases h <;>
      simp [Sessions.setIo, Sessions.modifyCell]
  | dropIo i io _ _ => exact .quiet rfl rfl (by simp [Sessions.setIo])

theorem ConnStep.length_le (h : ConnStep s t) : s.conns.length ≤ t.conns.length := by
  cases h with
  | quiet hconns _ _ => rw [hconns]
  | accept hconns _ _ => simp [hconns]
  | httpEnds c hconns _ _ => simp [hconns]
  | answer _ _ hconns _ _ _ _ => rw [hconns]
  | report _ _ _ hconns _ _ _ _ => simp [hconns, sendUpgrade]

theorem packets_of_step (h : s.step config a = some t) {packet : Packet}
    (hp : some packet ∈ t.packets) :
    some packet ∈ s.packets ∨ (s.conns[packet.conn]?).any HttpConn.serving = true := by
  have hset : ∀ p, some packet ∈ s.packets.set p none → some packet ∈ s.packets :=
    fun p hp => (List.mem_or_eq_of_mem_set hp).resolve_right (by simp)
  replace h := step_cases h
  cases h with
  | accept | httpEnds c | postRead k chunk post reg _ _ | postSent k chunk post reg _ _ _
  | read i n io sid ref reg _ _ _ _ | dropIo i io _ _ => exact .inl hp
  | packetGone p packet' _ => exact .inl (hset p hp)
  | packetBody p chunks failed packet' _ =>
    unfold handlePacketBody at hp
    split at hp
    · exact .inl (hset p hp)
    · exact .inl (hset p hp)
  | request c req random hserving h =>
    cases h with
    | packet packet' seq _ hconn =>
      rcases List.mem_append.mp hp with hp | hp
      · exact .inl hp
      · cases List.mem_singleton.mp hp
        exact .inr (hconn ▸ hserving)
    | answered | refused | refusedUp | streamOne | get | post => exact .inl hp

theorem packetsKnown_step (hp : s.PacketsKnown) (h : s.step config a = some t) :
    t.PacketsKnown := by
  have hle := (connStep_of_step hp h).length_le
  intro packet hpacket
  rcases packets_of_step h hpacket with hpacket | hserving
  · exact (hp packet hpacket).trans_le hle
  · exact (lt_of_serving hserving).trans_le hle

theorem reported_append {answer : Answer} (h : t.answers = s.answers ++ [answer]) :
    t.Reported c ↔ s.Reported c ∨
      (answer.conn = c ∧ answer.method ≠ .options ∧ answer.response.status = OK) := by
  simp [Reported, h, or_and_right, exists_or]

theorem reported_congr (h : t.answers = s.answers) : t.Reported c ↔ s.Reported c := by
  simp [Reported, h]

structure ConnInv (s : XhttpServer) : Prop where
  known : ∀ answer ∈ s.answers, answer.conn < s.conns.length
  used : ∀ (c : ℕ) (conn : HttpConn), s.conns[c]? = some conn →
    (conn.upgradeTx = false ↔ s.Reported c)
  named : ∀ (c i : ℕ) (conn : HttpConn), s.conns[c]? = some conn →
    conn.result = some (.upgraded i) → i < s.reg.ios.length

theorem ConnInv.not_reported (h : ConnInv s) : ¬ s.Reported s.conns.length := by
  rintro ⟨answer, hmem, hconn, -⟩
  exact (h.known answer hmem).ne hconn

theorem result_of_report {conn : HttpConn} {result result' : AcceptResult}
    (h : (conn.report result).result = some result') :
    conn.result = some result' ∨ result = result' := by
  unfold HttpConn.report at h
  split_ifs at h
  · exact .inr (Option.some.inj h)
  · exact .inl h

theorem AnswersWith.length_le {response : Response} {result : AcceptResult}
    (h : AnswersWith s t response result) : s.reg.ios.length ≤ t.reg.ios.length := by
  cases result with
  | upgraded i => exact h.2.2 ▸ Nat.le_succ _
  | postHandled => exact h.2.ge

theorem exists_of_modify {conns : List HttpConn} {f : HttpConn → HttpConn} {conn : HttpConn}
    (h : (conns.modify c f)[c']? = some conn) :
    ∃ conn₀, conns[c']? = some conn₀ ∧ conn = if c = c' then f conn₀ else conn₀ := by
  rw [List.getElem?_modify] at h
  obtain ⟨conn₀, hconn, heq⟩ := Option.map_eq_some_iff.mp h
  exact ⟨conn₀, hconn, heq.symm⟩

theorem eq_of_append {conns : List HttpConn} {new conn : HttpConn}
    (h : (conns ++ [new])[c]? = some conn) :
    conns[c]? = some conn ∨ c = conns.length ∧ conn = new := by
  rw [List.getElem?_append] at h
  split_ifs at h with hlt
  · exact .inl h
  · rw [List.getElem?_singleton] at h
    split_ifs at h with hzero
    exact .inr ⟨by omega, (Option.some.inj h).symm⟩

theorem upgradeTx_report (conn : HttpConn) (result : AcceptResult) :
    (conn.report result).upgradeTx = false := by
  unfold HttpConn.report
  split_ifs with htx
  · rfl
  · simpa using htx

theorem ConnInv.known_append {answer : Answer} (h : ConnInv s)
    (hlen : s.conns.length ≤ t.conns.length) (hc : answer.conn < s.conns.length)
    (hanswers : t.answers = s.answers ++ [answer]) :
    ∀ answer' ∈ t.answers, answer'.conn < t.conns.length := by
  intro answer' ha
  rw [hanswers] at ha
  rcases List.mem_append.mp ha with ha | ha
  · exact (h.known answer' ha).trans_le hlen
  · rw [List.mem_singleton.mp ha]
    exact hc.trans_le hlen

theorem ConnInv.keep (h : ConnInv s) (hle : s.conns.length ≤ t.conns.length)
    (hanswers : t.answers = s.answers) (hios : t.reg.ios.length = s.reg.ios.length)
    (hconns : ∀ (c : ℕ) (conn : HttpConn), t.conns[c]? = some conn → ∃ conn₀ : HttpConn,
      s.conns[c]? = some conn₀ ∧ conn₀.upgradeTx = conn.upgradeTx ∧ conn₀.result = conn.result) :
    ConnInv t := by
  refine ⟨fun answer ha => ?_, fun c conn hc => ?_, fun c i conn hc hi => ?_⟩
  · exact (h.known answer (hanswers ▸ ha)).trans_le hle
  · obtain ⟨conn₀, hc₀, htx, -⟩ := hconns c conn hc
    rw [reported_congr hanswers, ← htx]
    exact h.used c conn₀ hc₀
  · obtain ⟨conn₀, hc₀, -, hresult⟩ := hconns c conn hc
    exact hios ▸ h.named c i conn₀ hc₀ (hresult.trans hi)

theorem ConnInv.step (h : ConnInv s) (hst : ConnStep s t) : ConnInv t := by
  have hlen := hst.length_le
  cases hst with
  | quiet hconns hanswers hios =>
    exact h.keep hlen hanswers hios fun c conn hc => ⟨conn, hconns ▸ hc, rfl, rfl⟩
  | httpEnds c hconns hanswers hios =>
    refine h.keep hlen hanswers hios fun c' conn hc => ?_
    obtain ⟨conn₀, hc₀, rfl⟩ := exists_of_modify (hconns ▸ hc)
    exact ⟨conn₀, hc₀, by split_ifs <;> rfl, by split_ifs <;> rfl⟩
  | accept hconns hanswers hios =>
    refine ⟨fun answer ha => ?_, fun c conn hc => ?_, fun c i conn hc hi => ?_⟩
    · exact (h.known answer (hanswers ▸ ha)).trans_le hlen
    · rw [reported_congr hanswers]
      obtain hc | ⟨rfl, rfl⟩ := eq_of_append (hconns ▸ hc)
      · exact h.used c conn hc
      · simpa using h.not_reported
    · obtain hc | ⟨-, rfl⟩ := eq_of_append (hconns ▸ hc)
      · exact hios ▸ h.named c i conn hc hi
      · cases hi
  | answer answer hc hconns hanswers hios hstreaming hoptions =>
    refine ⟨h.known_append hlen hc hanswers, fun c' conn hc' => ?_, fun c' i conn hc' hi => ?_⟩
    · have hno : ¬(answer.conn = c' ∧ answer.method ≠ .options ∧ answer.response.status = OK) :=
        fun hrep => hrep.2.1 (hoptions hrep.2.2)
      rw [reported_append hanswers, or_iff_left hno]
      exact h.used c' conn (hconns ▸ hc')
    · exact hios ▸ h.named c' i conn (hconns ▸ hc') hi
  | report answer result hc hconns hanswers hmethod hok hwith =>
    refine ⟨h.known_append hlen hc hanswers, fun c' conn hc' => ?_, fun c' i conn hc' hi => ?_⟩
    · rw [reported_append hanswers]
      obtain ⟨conn₀, hc₀, rfl⟩ := exists_of_modify (hconns ▸ hc')
      have hused := h.used c' conn₀ hc₀
      split_ifs with heq
      · simp [upgradeTx_report, heq, hmethod, hok]
      · rw [hused]
        simp [heq]
    · obtain ⟨conn₀, hc₀, rfl⟩ := exists_of_modify (hconns ▸ hc')
      have hor : conn₀.result = some (.upgraded i) ∨ result = .upgraded i := by
        split_ifs at hi
        · exact result_of_report hi
        · exact .inl hi
      rcases hor with hold | rfl
      · exact (h.named c' i conn₀ hc₀ hold).trans_le hwith.length_le
      · obtain ⟨-, rfl, hlt⟩ := hwith
        omega

theorem connInv_run (hrun : Run (step config) Any new as s) : s.PacketsKnown ∧ ConnInv s := by
  refine hrun.invariant (I := fun s => s.PacketsKnown ∧ ConnInv s) ?_ ?_
  · rintro s a t ⟨hp, hs⟩ - hst
    exact ⟨packetsKnown_step hp hst, hs.step (connStep_of_step hp hst)⟩
  · exact ⟨by simp [PacketsKnown, new], ⟨by simp [new], by simp [new], by simp [new]⟩⟩

/-- `serve_connection` on `c` returned `result`. -/
def Delivered (s : XhttpServer) (c : ℕ) (result : Option AcceptResult) : Prop :=
  ∃ conn : HttpConn, s.conns[c]? = some conn ∧ conn.upgradeTx = false ∧ conn.result = result

variable {result : Option AcceptResult}

theorem ConnStep.delivered (hst : ConnStep s t) (h : s.Delivered c result) :
    t.Delivered c result := by
  obtain ⟨conn, hc, htx, hresult⟩ := h
  have hlt : c < s.conns.length := (List.getElem?_eq_some_iff.mp hc).1
  cases hst with
  | quiet hconns _ _ => exact ⟨conn, hconns ▸ hc, htx, hresult⟩
  | accept hconns _ _ =>
    exact ⟨conn, by rw [hconns, List.getElem?_append_left hlt]; exact hc, htx, hresult⟩
  | httpEnds c' hconns _ _ =>
    refine ⟨if c' = c then { conn with serving := false } else conn, ?_, ?_, ?_⟩
    · simp [hconns, List.getElem?_modify, hc]
    · split_ifs <;> exact htx
    · split_ifs <;> exact hresult
  | answer _ _ hconns _ _ _ _ => exact ⟨conn, hconns ▸ hc, htx, hresult⟩
  | report answer result' _ hconns _ _ _ _ =>
    have hsame : conn.report result' = conn := by simp [HttpConn.report, htx]
    refine ⟨conn, ?_, htx, hresult⟩
    simp [hconns, sendUpgrade, List.getElem?_modify, hc, hsame]

theorem delivered_run (hs : s.PacketsKnown) (h : s.Delivered c result)
    (hrun : Run (step config) Any s as t) : t.Delivered c result := by
  refine (hrun.invariant (I := fun s => s.PacketsKnown ∧ s.Delivered c result) ?_ ⟨hs, h⟩).2
  rintro s a t ⟨hp, hs⟩ - hst
  exact ⟨packetsKnown_step hp hst, (connStep_of_step hp hst).delivered hs⟩

theorem Delivered.eq {result result' : Option AcceptResult} (h : s.Delivered c result)
    (h' : s.Delivered c result') : result = result' := by
  obtain ⟨conn, hc, -, rfl⟩ := h
  obtain ⟨conn', hc', -, rfl⟩ := h'
  rw [hc, Option.some.injEq] at hc'
  rw [hc']

theorem delivered_of_report {result : AcceptResult} (hinv : ConnInv s) (hc : c < s.conns.length)
    (hconns : t.conns = (s.sendUpgrade c result).conns) :
    (¬ s.Reported c → t.Delivered c (some result)) ∧
      (s.Reported c → ∃ result' : Option AcceptResult, t.Delivered c result' ∧
        ∀ i, result' = some (.upgraded i) → i < s.reg.ios.length) := by
  obtain ⟨conn, hconn⟩ : ∃ conn, s.conns[c]? = some conn :=
    ⟨_, List.getElem?_eq_getElem hc⟩
  have ht : t.conns[c]? = some (conn.report result) := by
    simp [hconns, sendUpgrade, hconn]
  have hused := hinv.used c conn hconn
  constructor
  · intro hfirst
    have htx : conn.upgradeTx = true := by simpa using fun h => hfirst (hused.mp h)
    exact ⟨_, ht, by simp [HttpConn.report, htx], by simp [HttpConn.report, htx]⟩
  · intro hreported
    have htx : conn.upgradeTx = false := hused.mpr hreported
    have hsame : conn.report result = conn := by simp [HttpConn.report, htx]
    exact ⟨conn.result, ⟨conn, hsame ▸ ht, htx, rfl⟩, fun i hi => hinv.named c i conn hconn hi⟩

/-- In every run: when a request is answered with 200 and a streaming body, the `XhttpIo`
    made for it is what the caller of `accept_xhttp` gets, from then on, exactly if no
    request of the connection, `OPTIONS` apart, was answered with 200 before. -/
theorem upgrade_delivered_iff {response : Response} (hrun : Run (step config) Any new as s)
    (hst : s.step config (.request c req random) = some t)
    (hanswer : t.answers = s.answers ++ [⟨c, req.method, response⟩])
    (hstreaming : response.streaming = true) (hrun' : Run (step config) Any t bs u) :
    t.reg.ios.length = s.reg.ios.length + 1 ∧
      (u.Delivered c (some (.upgraded s.reg.ios.length)) ↔ ¬ s.Reported c) := by
  obtain ⟨hp, hinv⟩ := connInv_run hrun
  have hp' := packetsKnown_step hp hst
  cases connStep_of_step hp hst with
  | quiet _ hanswers _ => simp [hanswer] at hanswers
  | accept _ hanswers _ => simp [hanswer] at hanswers
  | httpEnds _ _ hanswers _ => simp [hanswer] at hanswers
  | answer answer _ _ hanswers _ hno _ =>
    obtain rfl : ⟨c, req.method, response⟩ = answer := by simpa [hanswer] using hanswers
    simp [hstreaming] at hno
  | report answer result hc hconns hanswers _ _ hwith =>
    obtain rfl : ⟨c, req.method, response⟩ = answer := by simpa [hanswer] using hanswers
    cases result with
    | postHandled => simp [AnswersWith, hstreaming] at hwith
    | upgraded i =>
      obtain ⟨-, rfl, hlen⟩ := hwith
      obtain ⟨hfirst, hlater⟩ := delivered_of_report hinv hc hconns
      refine ⟨hlen, fun hdelivered hreported => ?_, fun h => delivered_run hp' (hfirst h) hrun'⟩
      obtain ⟨result', hresult, hlt⟩ := hlater hreported
      have heq := (delivered_run hp' hresult hrun').eq hdelivered
      exact (hlt _ heq).false

theorem upgrade_delivered_first :
    ∃ s t : XhttpServer, Run (step .auto) Any new [.accept] s ∧
      s.step .auto (.request 0 (.plain .post "/xhttp") 0) = some t ∧
      t.Delivered 0 (some (.upgraded 0)) := by
  obtain ⟨s, hrun, hanswers, hios, t, ht, response, hanswer, hstreaming⟩ :
      ∃ s : XhttpServer, Run (step .auto) Any new [.accept] s ∧
        s.answers = [] ∧ s.reg.ios.length = 0 ∧
        ∃ t : XhttpServer, s.step .auto (.request 0 (.plain .post "/xhttp") 0) = some t ∧
        ∃ response : Response, t.answers = s.answers ++ [⟨0, .post, response⟩] ∧
          response.streaming = true :=
    ⟨_, exec_any rfl, rfl, rfl, _, rfl, _, rfl, rfl⟩
  have hfirst : ¬ s.Reported 0 := by simp [Reported, hanswers]
  obtain ⟨-, hiff⟩ := upgrade_delivered_iff hrun ht hanswer hstreaming (.nil t)
  exact ⟨s, t, hrun, ht, hios ▸ hiff.mpr hfirst⟩

theorem upgrade_lost :
    ∃ s t : XhttpServer,
      Run (step .auto) Any new [.accept, .request 0 (.plain .post "/xhttp") 0] s ∧
      s.step .auto (.request 0 (.plain .post "/xhttp") 0) = some t ∧
      (∃ response : Response, t.answers = s.answers ++ [⟨0, .post, response⟩] ∧
        response.status = OK ∧ response.streaming = true) ∧
      (t.reg.ios[1]?).map Io.held = some false ∧ ¬ t.Delivered 0 (some (.upgraded 1)) := by
  refine ⟨_, _, exec_any rfl, rfl, ⟨_, rfl, rfl, rfl⟩, rfl, ?_⟩
  rintro ⟨conn, hc, -, hresult⟩
  cases hc
  cases hresult

end XhttpServer

end SkadiCore.Xhttp
