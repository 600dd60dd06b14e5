import SkadiCore.Mux.Counters
import SkadiCore.Relay.Conservation
import SkadiCore.Server.Connection
import SkadiCore.Udp.Relay

/-!
# Connection accounting

Model of the metrics that `handle_connection` and `finish_relay` report
(`crates/skadi-server/src/lib.rs`, lines 576-772; `observability/metrics.rs`, lines 41-83),
over whole runs of a connection: the handshake, the outbound connection, the SOCKS5 replies
and the relays, whose own steps are those of `Copy`, `UdpRelay` and `Mux.Relay`.

* `Steps`, `step_cases`: the steps of a connection, by where the handler is; what a step
  reports and forwards is read off from this.
* `Booked.run`: in every run, what was reported is determined by where the handler is.
* `run_agrees`: a run of `Handler`, the network side, has a run of this model beside it.
-/

namespace SkadiCore

open Relay

/-! ## What the UDP relay counts -/

namespace Udp.UdpRelay

variable {s t : UdpRelay} {a : RelayAct} {limits : RelayLimits}

def carried (s : UdpRelay) (a : RelayAct) : ℕ × ℕ :=
  match s.pc, a with
  | .send payload, .sendOk => (payload.length, 0)
  | .write data, .writeOk =>
    match writeVlessUdpFrame data with
    | .ok _ => (0, data.length)
    | .error _ => (0, 0)
  | _, _ => (0, 0)

structure Counts (s : UdpRelay) (a : RelayAct) (t : UdpRelay) : Prop where
  up : t.clientToUpstream = s.clientToUpstream + (s.carried a).1
  down : t.upstreamToClient = s.upstreamToClient + (s.carried a).2
  ok : ∀ n, t.pc = .returned (.ok n) → n = (t.clientToUpstream, t.upstreamToClient)

theorem Counts.of_same (hc : s.carried a = (0, 0)) (hup : t.clientToUpstream = s.clientToUpstream)
    (hdown : t.upstreamToClient = s.upstreamToClient) (hok : ∀ n, t.pc ≠ .returned (.ok n)) :
    Counts s a t :=
  ⟨by simp [hc, hup], by simp [hc, hdown], fun n hn => absurd hn (hok n)⟩

theorem onRead_counts (hc : s.carried a = (0, 0)) (reader : FrameLoop)
    (r : Except IoError (Option Bytes)) : Counts s a ({ s with reader := reader }.onRead r) := by
  cases r with
  | error e => exact .of_same hc rfl rfl (by simp [onRead, finish])
  | ok p =>
    cases p with
    | none =>
      refine ⟨by rw [hc]; rfl, by rw [hc]; rfl, fun n hn => ?_⟩
      simpa [onRead, finish] using hn.symm
    | some payload => exact .of_same hc rfl rfl (by simp [onRead])

theorem step_counts (h : s.step limits a = some t) : Counts s a t := by
  have hselect (hs : s.pc = .select) : s.carried a = (0, 0) := by simp [carried, hs]
  unfold step at h
  split at h
  case h_1 hs | h_2 hs =>
    split_ifs at h
    cases h
    exact .of_same (hselect hs) rfl rfl (by simp [finish])
  case h_3 k hs =>
    split at h
    · cases h
    · cases h
      exact .of_same (hselect hs) rfl rfl (by simp [hs])
    · cases h
      exact onRead_counts (hselect hs) _ _
  case h_4 e hs =>
    obtain ⟨r, -, rfl⟩ := Option.map_eq_some_iff.mp h
    exact onRead_counts (hselect hs) s.reader r
  case h_5 data hs =>
    split_ifs at h <;> cases h <;> exact .of_same (hselect hs) rfl rfl (by simp [hs])
  case h_6 e hs => cases h; exact .of_same (hselect hs) rfl rfl (by simp [finish])
  case h_7 payload hs => cases h; exact ⟨by simp [carried, hs], by simp [carried, hs], by simp⟩
  case h_8 e hs | h_10 e hs =>
    cases h
    exact .of_same (by simp [carried, hs]) rfl rfl (by simp [finish])
  case h_9 data hs =>
    split at h
    case h_1 e hw => cases h; exact .of_same (by simp [carried, hs, hw]) rfl rfl (by simp [finish])
    case h_2 bytes hw =>
      cases h
      exact ⟨by simp [carried, hs, hw], by simp [carried, hs, hw], by simp⟩
  case h_11 => cases h

end Udp.UdpRelay

namespace Server

open Mux Outbound Socks5 Udp

/-! ## Metrics -/

inductive MetricCall
  | opened (label : String)
  | closed (label : String) (up down : ℕ)
  | failed (label : String)
  deriving DecidableEq

def MetricCall.delta : MetricCall → ℤ
  | opened _ => 1
  | closed .. | failed _ => -1

def activeConnections (calls : List MetricCall) : ℤ := (calls.map MetricCall.delta).sum

/-- `Protocol::metric_label` (`protocol.rs`, lines 36-41). -/
def Protocol.metricLabel : Protocol → String
  | socks5 => "socks5"
  | vless => "vless"

/-- `vless_metric_label` (lines 774-783). -/
def vlessMetricLabel (protocol : Protocol) (vlessCommand : Byte) : String :=
  if protocol = .socks5 then protocol.metricLabel
  else if vlessCommand = Vless.CMD_UDP then "vless-udp"
  else if vlessCommand = Vless.CMD_MUX then "vless-mux"
  else protocol.metricLabel

inductive ServeError
  | io (e : IoError)
  | outbound (e : OutboundError)
  | other (msg : String)
  deriving DecidableEq

/-- `finish_relay` (lines 743-772): what is reported, and what the handler returns. -/
def finishRelay (label : String) : Except IoError (ℕ × ℕ) → MetricCall × Except ServeError Unit
  | .ok (up, down) => (.closed label up down, .ok ())
  | .error e =>
    if e.kind = .timedOut ∧ e.msg = IDLE_TIMEOUT_MSG then (.closed label 0 0, .ok ())
    else if e.kind = .timedOut ∧ e.msg = SESSION_LIFETIME_MSG then (.closed label 0 0, .ok ())
    else (.failed label, .error (.io e))

/-! ## The handler -/

/-- Where the handler of a connection is. -/
inductive Stage
  | handshake
  /-- The listener of a BIND, its replies and `accept` (`socks5_relay.rs`, lines 24-37). -/
  | bind
  | bindRelay (relay : Copy)
  | associate
  /-- `send_error` for a literal that is not allowed (line 665). -/
  | refused (e : ServeError)
  | connect
  /-- `send_error` for a connect that failed (line 711). -/
  | connectFailed (e : ServeError)
  /-- `send_reply` with `REP_SUCCEEDED` (line 722). -/
  | reply
  | tcp (relay : Copy)
  | udp (relay : UdpRelay)
  | mux (relay : Mux.Relay)
  | ended (result : Except ServeError Unit)

/-- A connection, with the metrics reported and the bytes forwarded. -/
structure Served where
  allowPrivate : Bool
  limits : RelayLimits
  request : Request
  stage : Stage
  calls : List MetricCall
  up : ℕ
  down : ℕ

inductive ServedAct
  | handshakeFails (e : ServeError)
  | handshakeOk (registry : XudpManager Handle)
  /-- `send_error` returned; what it returned is ignored. -/
  | errorReplied
  | connectOk (now : ℕ) (fromClient fromUpstream : Bytes)
  | connectErr (e : ServeError)
  | replyOk (now : ℕ) (fromClient fromUpstream : Bytes)
  | replyErr (e : ServeError)
  | accepted (now : ℕ) (fromClient fromRemote : Bytes)
  | bindErr (msg : String)
  /-- A datagram of an association: what was sent upstream and what was sent back. -/
  | datagram (payload resp : Bytes)
  | associateEnds (result : Except String Unit)
  | tcp (act : CopyAct)
  | udp (act : RelayAct)
  | mux (act : Mux.Act)
  /-- The relay returned. -/
  | finish

namespace Served

def start (allowPrivate : Bool) (limits : RelayLimits) (request : Request) : Served :=
  ⟨allowPrivate, limits, request, .handshake, [], 0, 0⟩

variable (s : Served)

def label : String :=
  if s.request.protocol = .socks5 ∧ s.request.command = CMD_BIND then "socks5-bind"
  else if s.request.protocol = .socks5 ∧ s.request.command = CMD_UDP_ASSOCIATE then "socks5-udp"
  else vlessMetricLabel s.request.protocol s.request.command

def opens (stage : Stage) : Served :=
  { s with stage := stage, calls := s.calls ++ [.opened s.label] }

def fails (e : ServeError) : Served :=
  { s with stage := .ended (.error e), calls := s.calls ++ [.failed s.label] }

def finish (relay : Except IoError (ℕ × ℕ)) : Served :=
  { s with
    stage := .ended (finishRelay s.label relay).2
    calls := s.calls ++ [(finishRelay s.label relay).1] }

/-- Behind the handshake (lines 636-683). -/
def accept (registry : XudpManager Handle) : Served :=
  let r := s.request
  if r.protocol = .socks5 ∧ r.command = CMD_BIND then s.opens .bind
  else if r.protocol = .socks5 ∧ r.command = CMD_UDP_ASSOCIATE then s.opens .associate
  else
    match validateOutboundLiteral r.target s.allowPrivate with
    | .error e =>
      { s with stage :=
          if r.protocol = .socks5 then .refused (.outbound e) else .ended (.error (.outbound e)) }
    | .ok _ =>
      if r.protocol = .vless ∧ r.command = Vless.CMD_MUX then s.opens (.mux (.init registry))
      else s.opens .connect

/-- Behind the outbound connect (lines 686-739). -/
def connected (now : ℕ) (fromClient fromUpstream : Bytes) : Served :=
  let r := s.request
  if r.protocol = .vless ∧ r.command = Vless.CMD_UDP then
    { s with stage := .udp (.init fromClient) }
  else if r.protocol = .socks5 then { s with stage := .reply }
  else { s with stage := .tcp (.start s.limits now fromClient fromUpstream) }

/-- The outbound connect failed (lines 689-692, 708-715). -/
def notConnected (e : ServeError) : Served :=
  if s.request.protocol = .socks5 then { s with stage := .connectFailed e } else s.fails e

def copied (stage : Copy → Stage) (c : Copy) : Served :=
  { s with stage := stage c, up := c.ab.written.length, down := c.ba.written.length }

/-- What the relay of a BIND returned is dropped, an error becomes `ErrorKind::Other` with
    the context of `socks5_relay.rs`, line 41 (lines 642-646). -/
def bindResult : Except IoError (ℕ × ℕ) → Except IoError (ℕ × ℕ)
  | .ok _ => .ok (0, 0)
  | .error _ => .error ⟨.other, "SOCKS5 BIND relay"⟩

def udpResult (u : UdpRelay) : Option (Except IoError (ℕ × ℕ)) :=
  match u.pc with
  | .returned r => some r
  | _ => none

def muxResult (m : Mux.Relay) : Option (Except IoError (ℕ × ℕ)) :=
  match m.main with
  | .returned r => some r
  | _ => none

variable {r : Except IoError (ℕ × ℕ)}

theorem udpResult_eq_some_iff {u : UdpRelay} : udpResult u = some r ↔ u.pc = .returned r := by
  cases h : u.pc <;> simp [udpResult, h]

theorem muxResult_eq_some_iff {m : Mux.Relay} : muxResult m = some r ↔ m.main = .returned r := by
  cases h : m.main <;> simp [muxResult, h]

/-- A step of `handle_connection`. -/
def step (act : ServedAct) : Option Served :=
  match s.stage, act with
  | .handshake, .handshakeFails e => some { s with stage := .ended (.error e) }
  | .handshake, .handshakeOk registry => some (s.accept registry)
  | .refused e, .errorReplied => some { s with stage := .ended (.error e) }
  | .connect, .connectOk now fromClient fromUpstream =>
    some (s.connected now fromClient fromUpstream)
  | .connect, .connectErr e => some (s.notConnected e)
  | .connectFailed e, .errorReplied => some (s.fails e)
  | .reply, .replyOk now fromClient fromUpstream =>
    some { s with stage := .tcp (.start s.limits now fromClient fromUpstream) }
  -- the `?` of line 722
  | .reply, .replyErr e => some { s with stage := .ended (.error e) }
  | .bind, .accepted now fromClient fromRemote =>
    some { s with stage := .bindRelay (.start s.limits now fromClient fromRemote) }
  | .bind, .bindErr msg => some (s.finish (.error ⟨.other, msg⟩))
  | .bindRelay c, .tcp a => (c.step a).map (s.copied .bindRelay)
  | .bindRelay c, .finish =>
    c.result.map fun r => s.finish (bindResult r)
  | .associate, .datagram payload resp =>
    some { s with up := s.up + payload.length, down := s.down + resp.length }
  | .associate, .associateEnds (.ok _) => some (s.finish (.ok (0, 0)))
  | .associate, .associateEnds (.error msg) => some (s.finish (.error ⟨.other, msg⟩))
  | .tcp c, .tcp a => (c.step a).map (s.copied .tcp)
  | .tcp c, .finish => c.result.map s.finish
  | .udp u, .udp a =>
    (u.step s.limits a).map fun u' =>
      { s with stage := .udp u', up := s.up + (u.carried a).1, down := s.down + (u.carried a).2 }
  | .udp u, .finish => (udpResult u).map s.finish
  | .mux m, .mux a =>
    (m.step s.limits a).map fun m' =>
      { s with stage := .mux m', up := s.up + (m.carried a).1, down := s.down + (m.carried a).2 }
  | .mux m, .finish => (muxResult m).map s.finish
  | _, _ => none

/-! ## What a step does -/

inductive Status
  | fresh
  | opened
  | ended
  deriving DecidableEq

def status : Status :=
  match s.stage with
  | .handshake | .refused _ => .fresh
  | .ended _ => .ended
  | _ => .opened

/-- The stages in which nothing has been forwarded yet and the call `opened` is made. -/
inductive Starts (s : Served) : Stage → Prop
  | bind : Starts s .bind
  | associate : Starts s .associate
  | connect : Starts s .connect
  | connectFailed (e : ServeError) : Starts s (.connectFailed e)
  | reply : Starts s .reply
  | tcp (now : ℕ) (fromA fromB : Bytes) : Starts s (.tcp (.start s.limits now fromA fromB))
  | udp (stream : Bytes) : Starts s (.udp (.init stream))
  | mux (registry : XudpManager Handle) : Starts s (.mux (.init registry))

inductive Steps (s : Served) : ServedAct → Served → Prop
  | opens {act stage} (hs : s.stage = .handshake) (h : s.Starts stage) : Steps s act (s.opens stage)
  | refuse {act} (hs : s.stage = .handshake) (e : ServeError) :
      Steps s act { s with stage := .refused e }
  | leave {act} (hs : s.status = .fresh) (e : ServeError) :
      Steps s act { s with stage := .ended (.error e) }
  | goes {act stage} (hs : s.stage = .connect ∨ s.stage = .reply) (h : s.Starts stage) :
      Steps s act { s with stage := stage }
  | fails {act} (hs : s.status = .opened) (e : ServeError) : Steps s act (s.fails e)
  | replyErr (hs : s.stage = .reply) (e : ServeError) :
      Steps s (.replyErr e) { s with stage := .ended (.error e) }
  | accepted (hs : s.stage = .bind) (now : ℕ) (fromClient fromRemote : Bytes) :
      Steps s (.accepted now fromClient fromRemote)
        { s with stage := .bindRelay (.start s.limits now fromClient fromRemote) }
  | bindRelay {c c' a} (hs : s.stage = .bindRelay c) (h : c.step a = some c') :
      Steps s (.tcp a) (s.copied .bindRelay c')
  | datagram (hs : s.stage = .associate) (payload resp : Bytes) :
      Steps s (.datagram payload resp)
        { s with up := s.up + payload.length, down := s.down + resp.length }
  | tcp {c c' a} (hs : s.stage = .tcp c) (h : c.step a = some c') :
      Steps s (.tcp a) (s.copied .tcp c')
  | udp {u u' a} (hs : s.stage = .udp u) (h : u.step s.limits a = some u') :
      Steps s (.udp a) { s with
        stage := .udp u', up := s.up + (u.carried a).1, down := s.down + (u.carried a).2 }
  | mux {m m' a} (hs : s.stage = .mux m) (h : m.step s.limits a = some m') :
      Steps s (.mux a) { s with
        stage := .mux m', up := s.up + (m.carried a).1, down := s.down + (m.carried a).2 }
  | finish {act} (hs : s.status = .opened) (r : Except IoError (ℕ × ℕ)) : Steps s act (s.finish r)

variable {s} {s' : Served} {act : ServedAct} {as : List ServedAct} {allowPrivate : Bool}
  {limits : RelayLimits} {request : Request}

theorem accept_cases (hs : s.stage = .handshake) (registry : XudpManager Handle) :
    s.Steps act (s.accept registry) := by
  unfold accept
  dsimp only
  split
  · exact .opens hs .bind
  split
  · exact .opens hs .associate
  split
  · split_ifs
    · exact .refuse hs _
    · exact .leave (by simp [status, hs]) _
  · split_ifs
    · exact .opens hs (.mux registry)
    · exact .opens hs .connect

theorem connected_cases (hs : s.stage = .connect) (now : ℕ) (fromClient fromUpstream : Bytes) :
    s.Steps act (s.connected now fromClient fromUpstream) := by
  unfold connected
  dsimp only
  split_ifs
  · exact .goes (.inl hs) (.udp fromClient)
  · exact .goes (.inl hs) .reply
  · exact .goes (.inl hs) (.tcp now fromClient fromUpstream)

theorem notConnected_cases (hs : s.stage = .connect) (e : ServeError) :
    s.Steps act (s.notConnected e) := by
  unfold notConnected
  split_ifs
  · exact .goes (.inl hs) (.connectFailed e)
  · exact .fails (by simp [status, hs]) e

theorem step_cases (h : s.step act = some s') : s.Steps act s' := by
  -- the relay has returned
  have hfinish : ∀ {r : Option (Except IoError (ℕ × ℕ))}
      (f : Except IoError (ℕ × ℕ) → Except IoError (ℕ × ℕ)), s.status = .opened →
      (r.map fun x => s.finish (f x)) = some s' → s.Steps act s' := by
    intro r f hs h
    obtain ⟨x, -, rfl⟩ := Option.map_eq_some_iff.mp h
    exact .finish hs (f x)
  unfold step at h
  split at h
  case h_1 e hs => cases h; exact .leave (by simp [status, hs]) e
  case h_2 registry hs => cases h; exact accept_cases hs registry
  case h_3 e hs => cases h; exact .leave (by simp [status, hs]) e
  case h_4 now fromClient fromUpstream hs =>
    cases h; exact connected_cases hs now fromClient fromUpstream
  case h_5 e hs => cases h; exact notConnected_cases hs e
  case h_6 e hs => cases h; exact .fails (by simp [status, hs]) e
  case h_7 now fromClient fromUpstream hs =>
    cases h; exact .goes (.inr hs) (.tcp now fromClient fromUpstream)
  case h_8 e hs => cases h; exact .replyErr hs e
  case h_9 now fromClient fromRemote hs => cases h; exact .accepted hs now fromClient fromRemote
  case h_10 msg hs => cases h; exact .finish (by simp [status, hs]) _
  case h_11 c a hs =>
    obtain ⟨c', hc', rfl⟩ := Option.map_eq_some_iff.mp h
    exact .bindRelay hs hc'
  case h_12 c hs => exact hfinish bindResult (by simp [status, hs]) h
  case h_13 payload resp hs => cases h; exact .datagram hs payload resp
  case h_14 hs => cases h; exact .finish (by simp [status, hs]) _
  case h_15 hs => cases h; exact .finish (by simp [status, hs]) _
  case h_16 c a hs =>
    obtain ⟨c', hc', rfl⟩ := Option.map_eq_some_iff.mp h
    exact .tcp hs hc'
  case h_17 c hs => exact hfinish id (by simp [status, hs]) h
  case h_18 u a hs =>
    obtain ⟨u', hu', rfl⟩ := Option.map_eq_some_iff.mp h
    exact .udp hs hu'
  case h_19 u hs => exact hfinish id (by simp [status, hs]) h
  case h_20 m a hs =>
    obtain ⟨m', hm', rfl⟩ := Option.map_eq_some_iff.mp h
    exact .mux hs hm'
  case h_21 m hs => exact hfinish id (by simp [status, hs]) h
  case h_22 => cases h

/-! ## What a step reports -/

/-- The call ends a connection of this label. -/
def Ends (label : String) (call : MetricCall) : Prop :=
  call = .failed label ∨ ∃ up down, call = .closed label up down

inductive Effect (s s' : Served) : Prop
  | opens (hs : s.status = .fresh) (hs' : s'.status = .opened)
      (hcalls : s'.calls = s.calls ++ [.opened s.label])
  | quits (hs : s.status = .fresh) (hs' : s'.status ≠ .opened) (hcalls : s'.calls = s.calls)
  | stays (hs : s.status = .opened) (hs' : s'.status = .opened) (hcalls : s'.calls = s.calls)
  | closes {call : MetricCall} (hs : s.status = .opened) (hs' : s'.status = .ended)
      (hcall : Ends s.label call) (hcalls : s'.calls = s.calls ++ [call])

theorem ends_finishRelay (label : String) (r : Except IoError (ℕ × ℕ)) :
    Ends label (finishRelay label r).1 := by
  unfold finishRelay
  split
  · exact .inr ⟨_, _, rfl⟩
  · split_ifs
    · exact .inr ⟨_, _, rfl⟩
    · exact .inr ⟨_, _, rfl⟩
    · exact .inl rfl

theorem Starts.status (h : s.Starts s'.stage) : s'.status = .opened := by
  unfold Served.status
  generalize s'.stage = stage at h
  cases h <;> rfl

theorem step_effect (h : s.step act = some s') (ha : ∀ e, act ≠ .replyErr e) : Effect s s' := by
  replace h := step_cases h
  cases h with
  | opens hs hstage => exact .opens (by simp [status, hs]) (Starts.status (s := s) hstage) rfl
  | refuse hs e => exact .quits (by simp [status, hs]) (by simp [status]) rfl
  | leave hs e => exact .quits hs (by simp [status]) rfl
  | goes hs hstage =>
    exact .stays (by rcases hs with hs | hs <;> simp [status, hs]) (Starts.status (s := s) hstage)
      rfl
  | fails hs e => exact .closes hs rfl (.inl rfl) rfl
  | replyErr hs e => exact absurd rfl (ha e)
  | accepted hs | bindRelay hs | tcp hs | udp hs | mux hs =>
    exact .stays (by simp [status, hs]) rfl rfl
  | datagram hs => exact .stays (by simp [status, hs]) (by simp [status, hs]) rfl
  | finish hs r => exact .closes hs rfl (ends_finishRelay s.label r) rfl

theorem step_replyErr {e : ServeError} (h : s.step (.replyErr e) = some s') :
    s.status = .opened ∧ s'.status = .ended ∧ s'.calls = s.calls := by
  cases hs : s.stage <;> simp only [step, hs, reduceCtorEq] at h
  cases h
  exact ⟨by simp [status, hs], rfl, rfl⟩

theorem step_fixed (h : s.step act = some s') : s'.request = s.request ∧
    s'.limits = s.limits ∧ s'.allowPrivate = s.allowPrivate := by
  replace h := step_cases h
  cases h <;> exact ⟨rfl, rfl, rfl⟩

/-! ## The network side -/

variable {h h' : Handler} {allowPrivate : Bool} {limits : RelayLimits} {request : Request}

theorem run_fixed {acts : List ServedAct}
    (hrun : Run step Any (start allowPrivate limits request) acts s) :
    s.request = request ∧ s.limits = limits ∧ s.allowPrivate = allowPrivate := by
  refine hrun.invariant (I := fun s => s.request = request ∧ s.limits = limits ∧
    s.allowPrivate = allowPrivate) (fun s _ t hs _ hstep => ?_) ⟨rfl, rfl, rfl⟩
  obtain ⟨hr, hl, hp⟩ := step_fixed hstep
  rwa [hr, hl, hp]

/-- The stage at which `Handler`, the model of the network side, is in this phase. It may have
    ended before. -/
def Agrees : Stage → Phase → Prop
  | _, .ended | .handshake, .accepted | .bind, .bind | .associate, .associate
  | .connect, .relaying => True
  | .mux m, .mux m' _ => m = m'
  | _, _ => False

theorem accept_agrees (hrequest : h.request = s.request)
    (hprivate : h.config.allowPrivate = s.allowPrivate) (choice : NetChoice)
    (registry : XudpManager Handle) :
    Agrees (s.accept registry).stage (h.serve choice registry).phase := by
  have hconnected : ∀ r, Agrees .connect (h.connected r).phase := by
    intro r
    simp only [Handler.connected]
    split_ifs <;> trivial
  unfold accept Handler.serve
  dsimp only
  rw [hrequest, hprivate]
  by_cases hbind : s.request.protocol = .socks5 ∧ s.request.command = CMD_BIND
  · rw [if_pos hbind, if_pos hbind]
    trivial
  by_cases hassoc : s.request.protocol = .socks5 ∧ s.request.command = CMD_UDP_ASSOCIATE
  · rw [if_neg hbind, if_neg hbind, if_pos hassoc, if_pos hassoc]
    trivial
  rw [if_neg hbind, if_neg hbind, if_neg hassoc, if_neg hassoc]
  cases validateOutboundLiteral s.request.target s.allowPrivate with
  | error e => trivial
  | ok _ =>
    dsimp only
    by_cases hmux : s.request.protocol = .vless ∧ s.request.command = Vless.CMD_MUX
    · rw [if_pos hmux, if_pos hmux]
      rfl
    · rw [if_neg hmux, if_neg hmux]
      split_ifs <;> exact hconnected _

/-- A step of the network side is one of the accounting, or leaves its stage as it is. -/
theorem step_agrees {act : HandlerAct} (hrequest : h.request = s.request)
    (hlimits : h.limits = s.limits) (hprivate : h.config.allowPrivate = s.allowPrivate)
    (hagrees : Agrees s.stage h.phase) (hstep : h.step act = some h') :
    ∃ acts s', Run step Any s acts s' ∧ Agrees s'.stage h'.phase := by
  unfold Handler.step at hstep
  split at hstep
  · next registry hphase =>
    cases hstep
    cases hs : s.stage <;> rw [hs, hphase] at hagrees <;> try cases hagrees
    have hst : s.step (.handshakeOk registry) = some (s.accept registry) := by simp only [step, hs]
    exact ⟨_, _, .single trivial hst, accept_agrees hrequest hprivate _ _⟩
  · cases hstep
    exact ⟨[], s, .nil s, hagrees⟩
  · next act _ hphase =>
    split at hstep
    · next m _ hm _ =>
      cases hstep
      cases hs : s.stage <;> rw [hs, hphase] at hagrees <;> try cases hagrees
      obtain ⟨s', hst, hs'⟩ : ∃ s', s.step (.mux act) = some s' ∧ s'.stage = .mux m := by
        simp [step, hs, ← hlimits, hm]
      exact ⟨_, s', .single trivial hst, by rw [hs']; rfl⟩
    · cases hstep
  all_goals
    cases hstep
    try exact ⟨[], s, .nil s, trivial⟩

/-- The two models of `handle_connection`: whatever the network side does, a run of the
    accounting goes along with it. -/
theorem run_agrees {config : OutboundConfig} {acts : List HandlerAct}
    (hrun : Run Handler.step Any (.start config limits request) acts h) :
    ∃ acts' s, Run step Any (start config.allowPrivate limits request) acts' s ∧
      Agrees s.stage h.phase := by
  induction hrun with
  | nil => exact ⟨[], _, .nil _, trivial⟩
  | snoc hrun _ hstep ih =>
    obtain ⟨acts', s, hs, hagrees⟩ := ih
    obtain ⟨rfl, rfl, rfl, -⟩ := Handler.Serves.run hrun
    obtain ⟨hr, hl, hp⟩ := run_fixed hs
    obtain ⟨_, s', hs', hagrees'⟩ := step_agrees hr.symm hl.symm hp.symm hagrees hstep
    exact ⟨_, s', hs.append hs', hagrees'⟩

/-! ## The calls of a run -/

def Replied (as : List ServedAct) : Prop := ∀ e, .replyErr e ∉ as

/-- No call, or one opening and one end under the same label. -/
def Balanced (calls : List MetricCall) : Prop :=
  calls = [] ∨ ∃ label call, Ends label call ∧ calls = [.opened label, call]

/-- What was reported, by where the handler is. -/
def Booked (as : List ServedAct) (s : Served) : Prop :=
  match s.status with
  | .fresh => s.calls = [] ∧ Replied as
  | .opened => s.calls = [.opened s.label] ∧ Replied as
  | .ended => (Balanced s.calls ∧ Replied as) ∨ (s.calls = [.opened s.label] ∧ ¬Replied as)

theorem label_eq (h : s'.request = s.request) : s'.label = s.label := by
  unfold label
  rw [h]

theorem Replied.snoc (h : Replied as) (ha : ∀ e, act ≠ .replyErr e) : Replied (as ++ [act]) := by
  intro e he
  rcases List.mem_append.mp he with he | he
  · exact h e he
  · exact ha e (List.mem_singleton.mp he).symm

theorem Booked.step (hb : Booked as s) (h : s.step act = some s') : Booked (as ++ [act]) s' := by
  have hlabel := label_eq (step_fixed h).1
  by_cases ha : ∃ e, act = .replyErr e
  · obtain ⟨e, rfl⟩ := ha
    obtain ⟨hs, hs', hcalls⟩ := step_replyErr h
    simp only [Booked, hs, hs'] at hb ⊢
    exact .inr ⟨by rw [hcalls, hlabel, hb.1], fun hr => hr e (by simp)⟩
  · have ha : ∀ e, act ≠ .replyErr e := fun e he => ha ⟨e, he⟩
    cases step_effect h ha with
    | opens hs hs' hcalls =>
      simp only [Booked, hs, hs'] at hb ⊢
      exact ⟨by rw [hcalls, hlabel, hb.1, List.nil_append], hb.2.snoc ha⟩
    | quits hs hs' hcalls =>
      simp only [Booked, hs] at hb
      unfold Booked
      split
      · exact ⟨hcalls.trans hb.1, hb.2.snoc ha⟩
      · exact absurd ‹_› hs'
      · exact .inl ⟨.inl (hcalls.trans hb.1), hb.2.snoc ha⟩
    | stays hs hs' hcalls =>
      simp only [Booked, hs, hs'] at hb ⊢
      exact ⟨by rw [hcalls, hlabel, hb.1], hb.2.snoc ha⟩
    | closes hs hs' hcall hcalls =>
      simp only [Booked, hs, hs'] at hb ⊢
      exact .inl ⟨.inr ⟨s.label, _, hcall, by rw [hcalls, hb.1]; rfl⟩, hb.2.snoc ha⟩

theorem Booked.run (h : Run Served.step Any (start allowPrivate limits request) as s) :
    Booked as s := by
  induction h with
  | nil => exact ⟨rfl, by simp [Replied]⟩
  | snoc _ _ hst ih => exact ih.step hst

theorem activeConnections_of_balanced {calls : List MetricCall} (h : Balanced calls) :
    activeConnections calls = 0 := by
  obtain rfl | ⟨label, call, rfl | ⟨up, down, rfl⟩, rfl⟩ := h <;> rfl

theorem Booked.gauge_nonneg (h : Booked as s) : 0 ≤ activeConnections s.calls := by
  unfold Booked at h
  split at h
  · rw [h.1]
    exact le_rfl
  · rw [h.1]
    exact zero_le_one
  · rcases h with ⟨hb, -⟩ | ⟨hc, -⟩
    · exact (activeConnections_of_balanced hb).ge
    · rw [hc]
      exact zero_le_one

theorem Booked.balanced_iff (h : Booked as s) {r : Except ServeError Unit}
    (hs : s.stage = .ended r) :
    (Balanced s.calls ∧ activeConnections s.calls = 0) ↔ Replied as := by
  have hstatus : s.status = .ended := by simp [status, hs]
  simp only [Booked, hstatus] at h
  rcases h with ⟨hb, hr⟩ | ⟨hc, hr⟩
  · exact iff_of_true ⟨hb, activeConnections_of_balanced hb⟩ hr
  · refine iff_of_false (fun hb => ?_) hr
    rw [hc] at hb
    exact absurd hb.2 one_ne_zero

/-! ## The bytes of a run -/

def Forwards (s : Served) : Prop :=
  match s.stage with
  | .tcp c =>
    (∃ limits now fromA fromB as, Run Copy.step Any (Copy.start limits now fromA fromB) as c) ∧
      s.up = c.ab.written.length ∧ s.down = c.ba.written.length
  | .udp u =>
    s.up = u.clientToUpstream ∧ s.down = u.upstreamToClient ∧
      ∀ n, u.pc = .returned (.ok n) → n = (u.clientToUpstream, u.upstreamToClient)
  | .mux m => s.up = m.clientToUpstream ∧ m.Reports
  | .bindRelay _ | .associate | .ended _ => True
  | _ => s.up = 0 ∧ s.down = 0

theorem Starts.forwards {stage : Stage} (h : s.Starts stage) (hs : s.up = 0 ∧ s.down = 0)
    (calls : List MetricCall) : Forwards { s with stage := stage, calls := calls } := by
  cases h with
  | bind | connect | connectFailed | reply => exact hs
  | associate => trivial
  | tcp now fromA fromB => exact ⟨⟨s.limits, now, fromA, fromB, [], .nil _⟩, hs.1, hs.2⟩
  | udp => exact ⟨hs.1, hs.2, fun n hn => by simp [UdpRelay.init] at hn⟩
  | mux => exact ⟨hs.1, fun n hn => by simp [Mux.Relay.init] at hn⟩

theorem Forwards.step (hf : s.Forwards) (h : s.step act = some s') : s'.Forwards := by
  replace h := step_cases h
  cases h with
  | opens hs hstage => exact hstage.forwards (by simpa [Forwards, hs] using hf) _
  | refuse hs => exact (by simpa [Forwards, hs] using hf : s.up = 0 ∧ s.down = 0)
  | goes hs hstage =>
    exact hstage.forwards (by rcases hs with hs | hs <;> simpa [Forwards, hs] using hf) s.calls
  | tcp hs hc =>
    simp only [Forwards, hs] at hf
    obtain ⟨⟨limits, now, fromA, fromB, as, hrun⟩, -, -⟩ := hf
    exact ⟨⟨limits, now, fromA, fromB, _, hrun.snoc trivial hc⟩, rfl, rfl⟩
  | udp hs hu =>
    simp only [Forwards, hs] at hf
    obtain ⟨hup, hdown, hok⟩ := UdpRelay.step_counts hu
    exact ⟨by rw [hup, hf.1], by rw [hdown, hf.2.1], hok⟩
  | mux hs hm =>
    simp only [Forwards, hs] at hf
    obtain ⟨hup, hok⟩ := Mux.Relay.step_counts hm
    exact ⟨by rw [hup, hf.1], hok hf.2⟩
  | datagram hs => simp [Forwards, hs]
  -- the handler ends, or a BIND relays
  | leave | fails | replyErr | accepted | bindRelay | finish => trivial

theorem forwards_start (allowPrivate : Bool) (limits : RelayLimits) (request : Request) :
    (start allowPrivate limits request).Forwards :=
  ⟨rfl, rfl⟩

theorem Forwards.run (h : Run Served.step Any (start allowPrivate limits request) as s) :
    s.Forwards :=
  h.invariant (fun _ _ _ hf _ hst => hf.step hst) (forwards_start allowPrivate limits request)

/-- The step by which a relay returns without an error. -/
def NormalClose (s : Served) (act : ServedAct) : Prop :=
  match s.stage, act with
  | .tcp c, .finish | .bindRelay c, .finish => ∃ n, c.result = some (.ok n)
  | .udp u, .finish => ∃ n, udpResult u = some (.ok n)
  | .mux m, .finish => ∃ n, muxResult m = some (.ok n)
  | .associate, .associateEnds (.ok _) => True
  | _, _ => False

/-- The byte counts that the metrics leave out are 0. -/
def Reported (s : Served) : Prop :=
  match s.stage with
  | .mux _ => s.down = 0
  | .bindRelay _ | .associate => s.up = 0 ∧ s.down = 0
  | _ => True

theorem finish_reports_iff (s : Served) (up down : ℕ) :
    (s.finish (.ok (up, down))).calls = s.calls ++ [.closed s.label s.up s.down] ↔
      up = s.up ∧ down = s.down := by
  simp [finish, finishRelay]

theorem normalClose_reports_iff (hf : s.Forwards) (hclose : s.NormalClose act)
    (h : s.step act = some s') :
    s'.calls = s.calls ++ [.closed s.label s.up s.down] ↔ s.Reported := by
  unfold NormalClose at hclose
  split at hclose
  case h_1 c hs =>
    obtain ⟨⟨x, y⟩, hok⟩ := hclose
    simp only [step, hs, hok, Option.map_some, Option.some.injEq] at h
    simp only [Forwards, hs] at hf
    obtain ⟨⟨limits, now, fromA, fromB, as, hrun⟩, hup, hdown⟩ := hf
    obtain ⟨rfl, rfl⟩ := Prod.mk.inj (Copy.result_eq_written hrun hok)
    rw [← h, finish_reports_iff]
    simp [Reported, hs, hup, hdown]
  case h_2 c hs =>
    obtain ⟨n, hok⟩ := hclose
    simp only [step, hs, hok, Option.map_some, Option.some.injEq, bindResult] at h
    rw [← h, finish_reports_iff]
    simp [Reported, hs, eq_comm]
  case h_3 u hs =>
    obtain ⟨⟨x, y⟩, hok⟩ := hclose
    simp only [step, hs, hok, Option.map_some, Option.some.injEq] at h
    simp only [Forwards, hs] at hf
    obtain ⟨rfl, rfl⟩ := Prod.mk.inj (hf.2.2 _ (udpResult_eq_some_iff.mp hok))
    rw [← h, finish_reports_iff]
    simp [Reported, hs, hf.1, hf.2.1]
  case h_4 m hs =>
    obtain ⟨⟨x, y⟩, hok⟩ := hclose
    simp only [step, hs, hok, Option.map_some, Option.some.injEq] at h
    simp only [Forwards, hs] at hf
    obtain ⟨rfl, rfl⟩ := Prod.mk.inj (hf.2 _ (muxResult_eq_some_iff.mp hok))
    rw [← h, finish_reports_iff]
    simp [Reported, hs, hf.1, eq_comm]
  case h_5 hs =>
    simp only [step, hs, Option.some.injEq] at h
    rw [← h, finish_reports_iff]
    simp [Reported, hs, eq_comm]
  case h_6 => cases hclose

/-! ## Results -/

def sampleRequest (protocol : Protocol) (command : Byte) : Request :=
  ⟨protocol, command, .ip (.v4 (ipv4Addr 1 1 1 1) 80)⟩

def oneByteUp : List ServedAct :=
  [.tcp (.read .aToB 1), .tcp (.write .aToB 1), .tcp (.eof .aToB), .tcp (.close .aToB),
    .tcp (.eof .bToA), .tcp (.close .bToA), .tcp .finish, .finish]

def oneByteDown : List Mux.Act :=
  Mux.Relay.openTcp 1 false ++
    [.reader 0 .request, .reader 0 .enter, .arrive 0 [7], .reader 0 (.data 1)] ++
    Mux.Relay.writeWhole (.reader 0) 9 ++ [.main .eof, .main (.closeCone 0)]

end Served

end Server

end SkadiCore
