import SkadiCore.Server.ConnectionGate
import SkadiCore.Xhttp.Server

/-!
# Sessions and their permits

Model of `accept_loop` and `serve_inbound` (`crates/skadi-server/src/lib.rs`, lines 335-556):
a connection that gets a permit is served by a session task, which holds the permit until it
ends. With XHTTP the session task gives the connection to an HTTP task and waits for its
report; stream-up `POST`s and, under HTTP/2, packets are read by tasks of their own
(`crates/skadi-transport/src/xhttp/accept.rs`, lines 73-118, 298-318). A mux relay leaves
reader tasks.
-/

namespace SkadiCore.Xhttp.XhttpServer

variable {config : XhttpConfig} {s t : XhttpServer} {a : XhttpAct} {c x : ℕ} {req : Request}

/-! ## The tasks of an XHTTP connection -/

def serving (s : XhttpServer) (x : ℕ) : Bool := (s.conns[x]?).any HttpConn.serving

def readsBody (s : XhttpServer) (x : ℕ) : Bool :=
  s.reg.posts.any fun post => decide (post.conn = x) && decide (post.phase ≠ .ended)

def readsPacket (s : XhttpServer) (x : ℕ) : Bool :=
  s.packets.any fun packet => packet.any fun packet => packet.conn = x

def working (s : XhttpServer) (x : ℕ) : Bool :=
  s.serving x || s.readsBody x || s.readsPacket x

theorem serving_iff : s.serving x = true ↔
    ∃ conn : HttpConn, s.conns[x]? = some conn ∧ conn.serving = true := by
  unfold serving
  cases s.conns[x]? <;> simp

theorem readsBody_iff : s.readsBody x = true ↔
    ∃ post ∈ s.reg.posts, post.conn = x ∧ post.phase ≠ .ended := by
  simp [readsBody]

theorem readsPacket_iff : s.readsPacket x = true ↔
    ∃ packet, some packet ∈ s.packets ∧ packet.conn = x := by
  simp only [readsPacket, List.any_eq_true]
  constructor
  · rintro ⟨_ | packet, hmem, h⟩
    · cases h
    · exact ⟨packet, hmem, by simpa using h⟩
  · rintro ⟨packet, hmem, h⟩
    exact ⟨some packet, hmem, by simpa using h⟩

theorem serving_of_modify {f : HttpConn → HttpConn}
    (hf : ∀ conn, (f conn).serving = true → conn.serving = true)
    (hconns : t.conns = s.conns.modify c f) (h : t.serving x = true) : s.serving x = true := by
  obtain ⟨conn, hconn, hserving⟩ := serving_iff.mp h
  obtain ⟨conn₀, hconn₀, rfl⟩ := exists_of_modify (hconns ▸ hconn)
  refine serving_iff.mpr ⟨conn₀, hconn₀, ?_⟩
  split_ifs at hserving
  · exact hf conn₀ hserving
  · exact hserving

theorem ConnStep.serving (hst : ConnStep s t) (hx : x < s.conns.length)
    (h : t.serving x = true) : s.serving x = true := by
  cases hst with
  | quiet hconns _ _ => simpa [XhttpServer.serving, hconns] using h
  | answer _ _ hconns _ _ _ _ => simpa [XhttpServer.serving, hconns] using h
  | accept hconns _ _ =>
    simpa [XhttpServer.serving, hconns, List.getElem?_append_left hx] using h
  | httpEnds c hconns _ _ => exact serving_of_modify (by simp) hconns h
  | report answer result _ hconns _ _ _ _ =>
    refine serving_of_modify (fun conn hserving => ?_) hconns h
    unfold HttpConn.report at hserving
    split_ifs at hserving <;> exact hserving

theorem post_of_step {post : Post} (hst : s.step config a = some t) (hmem : post ∈ t.reg.posts) :
    (∃ post' ∈ s.reg.posts, post'.conn = post.conn ∧
        (post.phase ≠ .ended → post'.phase ≠ .ended)) ∨
      (s.serving post.conn = true ∧
        t.conns = (s.sendUpgrade post.conn .postHandled).conns) := by
  have hkeep (hmem : post ∈ s.reg.posts) : ∃ post' ∈ s.reg.posts, post'.conn = post.conn ∧
      (post.phase ≠ .ended → post'.phase ≠ .ended) := ⟨post, hmem, rfl, id⟩
  replace hst := step_cases hst
  cases hst with
  | accept | httpEnds | packetGone => exact .inl (hkeep hmem)
  | request c req random hserving hst =>
    cases hst with
    | answered | refused | packet => exact .inl (hkeep hmem)
    | refusedUp | streamOne | get =>
      exact .inl (hkeep (by simpa [respond, upgrade, sendUpgrade, opened, takeRx,
        Sessions.modifyCell] using hmem))
    | post sid _ _ =>
      have hmem' : post ∈ s.reg.posts ++ [⟨c, sid, s.refOf sid, .reading, []⟩] := by
        simpa [respond, sendUpgrade, spawnPost, opened, Sessions.addPost] using hmem
      obtain hmem' | hmem' := List.mem_append.mp hmem'
      · exact .inl (hkeep hmem')
      · obtain rfl := List.mem_singleton.mp hmem'
        exact .inr ⟨hserving, rfl⟩
  | packetBody p chunks failed packet _ =>
    refine .inl (hkeep ?_)
    unfold handlePacketBody at hmem
    split at hmem
    · exact hmem
    · simpa [respond, sendUpgrade, Sessions.modifyCell] using hmem
  | postRead k chunk post' reg hk hst =>
    obtain ⟨hreading, hor⟩ := Sessions.postRead_cases hst
    have hmem' := List.mem_of_getElem? hk
    obtain ⟨bytes, -, -, rfl⟩ | ⟨-, rfl⟩ := hor
    · obtain hmem | rfl := List.mem_or_eq_of_mem_set hmem
      · exact .inl (hkeep hmem)
      · exact .inl ⟨post', hmem', rfl, by simp [hreading]⟩
    · obtain hmem | rfl := List.mem_or_eq_of_mem_set hmem
      · exact .inl (hkeep hmem)
      · exact .inl ⟨post', hmem', rfl, by simp⟩
  | postSent k chunk post' reg hk hsending hst =>
    obtain ⟨cell, -, -, rfl⟩ := Sessions.postSend_cases hst
    obtain hmem | rfl := List.mem_or_eq_of_mem_set hmem
    · exact .inl (hkeep hmem)
    · exact .inl ⟨post', List.mem_of_getElem? hk, rfl, by simp [hsending]⟩
  | read i n io sid ref reg _ _ _ hst =>
    refine .inl (hkeep ?_)
    obtain ⟨-, rfl⟩ | ⟨-, cell, -, ⟨q, -, rfl⟩ | ⟨-, -, rfl⟩⟩ := Sessions.readUpload_cases hst <;>
      exact hmem
  | dropIo i io _ _ => exact .inl (hkeep (by simpa [Sessions.setIo] using hmem))

theorem readsBody_of_step (hst : s.step config a = some t) (h : t.readsBody x = true) :
    s.readsBody x = true ∨ s.serving x = true := by
  obtain ⟨post, hmem, rfl, hphase⟩ := readsBody_iff.mp h
  obtain ⟨post', hmem', hconn, hrun⟩ | ⟨hserving, -⟩ := post_of_step hst hmem
  · exact .inl (readsBody_iff.mpr ⟨post', hmem', hconn, hrun hphase⟩)
  · exact .inr hserving

theorem working_of_step (hp : s.PacketsKnown) (hx : x < s.conns.length)
    (hst : s.step config a = some t) (h : t.working x = true) : s.working x = true := by
  simp only [working, Bool.or_eq_true] at h ⊢
  obtain (hserving | hbody) | hpacket := h
  · exact .inl (.inl ((connStep_of_step hp hst).serving hx hserving))
  · exact .inl ((readsBody_of_step hst hbody).symm)
  · obtain ⟨packet, hmem, rfl⟩ := readsPacket_iff.mp hpacket
    obtain hold | hserving := packets_of_step hst hmem
    · exact .inr (readsPacket_iff.mpr ⟨packet, hold, rfl⟩)
    · exact .inl (.inl hserving)

structure PostInv (s : XhttpServer) : Prop where
  result : ∀ (c : ℕ) (conn : HttpConn), s.conns[c]? = some conn → conn.upgradeTx = false →
    conn.result ≠ none
  post : ∀ post ∈ s.reg.posts, ∃ conn : HttpConn, s.conns[post.conn]? = some conn ∧
    conn.result ≠ none

theorem result_report {conn : HttpConn} {result : AcceptResult}
    (h : conn.upgradeTx = false → conn.result ≠ none) : (conn.report result).result ≠ none := by
  unfold HttpConn.report
  split_ifs with htx
  · simp
  · exact h (by simpa using htx)

theorem ConnStep.result {conn : HttpConn} (hst : ConnStep s t) (hc : s.conns[c]? = some conn)
    (h : conn.result ≠ none) :
    ∃ conn' : HttpConn, t.conns[c]? = some conn' ∧ conn'.result ≠ none := by
  have hlt := (List.getElem?_eq_some_iff.mp hc).1
  cases hst with
  | quiet hconns _ _ => exact ⟨conn, hconns ▸ hc, h⟩
  | answer _ _ hconns _ _ _ _ => exact ⟨conn, hconns ▸ hc, h⟩
  | accept hconns _ _ => exact ⟨conn, by rw [hconns, List.getElem?_append_left hlt, hc], h⟩
  | httpEnds c' hconns _ _ =>
    refine ⟨_, by rw [hconns, List.getElem?_modify, hc]; rfl, ?_⟩
    split_ifs <;> exact h
  | report answer result _ hconns _ _ _ _ =>
    refine ⟨_, by rw [hconns, sendUpgrade, List.getElem?_modify, hc]; rfl, ?_⟩
    split_ifs
    · exact result_report fun _ => h
    · exact h

theorem PostInv.step (h : PostInv s) (hp : s.PacketsKnown) (hst : s.step config a = some t) :
    PostInv t := by
  have hconn := connStep_of_step hp hst
  refine ⟨fun c conn hc htx => ?_, fun post hmem => ?_⟩
  · cases hconn with
    | quiet hconns _ _ => exact h.result c conn (hconns ▸ hc) htx
    | answer _ _ hconns _ _ _ _ => exact h.result c conn (hconns ▸ hc) htx
    | accept hconns _ _ =>
      obtain hc | ⟨-, rfl⟩ := eq_of_append (hconns ▸ hc)
      · exact h.result c conn hc htx
      · cases htx
    | httpEnds c' hconns _ _ =>
      obtain ⟨conn₀, hc₀, rfl⟩ := exists_of_modify (hconns ▸ hc)
      have hold := h.result c conn₀ hc₀
      split_ifs at htx ⊢ <;> exact hold htx
    | report answer result _ hconns _ _ _ _ =>
      obtain ⟨conn₀, hc₀, rfl⟩ := exists_of_modify (hconns ▸ hc)
      have hold := h.result c conn₀ hc₀
      split_ifs at htx ⊢
      · exact result_report hold
      · exact hold htx
  · obtain ⟨post', hmem', hsame, -⟩ | ⟨hserving, hconns⟩ := post_of_step hst hmem
    · obtain ⟨conn, hc, hresult⟩ := h.post post' hmem'
      exact hconn.result (hsame ▸ hc) hresult
    · obtain ⟨conn, hc, -⟩ := serving_iff.mp hserving
      exact ⟨conn.report .postHandled, by simp [hconns, sendUpgrade, hc],
        result_report (h.result _ conn hc)⟩

end SkadiCore.Xhttp.XhttpServer

namespace SkadiCore.Server

open Xhttp

/-! ## Sessions -/

inductive InboundTransport
  | plain
  | tls
  | reality

structure InboundConfig where
  transport : InboundTransport
  xhttp : Option XhttpConfig
  maxConnections : Option UInt32

inductive SessionStage
  | handshake
  | accepting
  | handling
  | ended
  deriving DecidableEq

structure SessionTask where
  stage : SessionStage
  http : Option ℕ
  helpers : ℕ

/-- The gate, the sessions of the accept loop and the XHTTP server. -/
structure Inbound where
  gate : ConnectionGate ℕ
  sessions : List SessionTask
  xhttp : XhttpServer

/-- A listener goes on in `try_acquire`; a handshake ends; the tasks of XHTTP go on; a session
    task gets the report of `accept_xhttp`; a mux relay starts a reader task, or one ends;
    `handle_connection` returns. -/
inductive InboundAct
  | gate (a : GateAct ℕ)
  | handshake (c : ℕ) (ok : Bool)
  | xhttp (a : XhttpAct)
  | report (c : ℕ)
  | spawn (c : ℕ)
  | helperEnds (c : ℕ)
  | finish (c : ℕ)

namespace Inbound

section Model

variable (config : InboundConfig)

def new : Inbound := ⟨.new config.maxConnections, [], .new⟩

def setTask (s : Inbound) (c : ℕ) (task : SessionTask) : Inbound :=
  { s with sessions := s.sessions.set c task }

def serveInbound (s : Inbound) (c : ℕ) (task : SessionTask) : Inbound :=
  match config.xhttp with
  | some _ =>
    { s.setTask c { task with stage := .accepting, http := some s.xhttp.conns.length } with
      xhttp := { s.xhttp with conns := s.xhttp.conns ++ [⟨true, true, none⟩] } }
  | none => s.setTask c { task with stage := .handling }

def spawnSession (s : Inbound) : Inbound :=
  let task : SessionTask := ⟨.handshake, none, 0⟩
  let s' : Inbound := { s with sessions := s.sessions ++ [task] }
  match config.transport with
  | .plain => serveInbound config s' s.sessions.length task
  | .tls | .reality => s'

def endTask (s : Inbound) (c : ℕ) (task : SessionTask) : Option Inbound :=
  (s.gate.step (.drop 0)).map fun gate =>
    { s.setTask c { task with stage := .ended } with gate := gate }

/-- What `rx.await` returns to the session task (`accept.rs`, lines 113-117;
    `lib.rs`, lines 519-541). The sender is gone, and the accept fails, when the HTTP task
    and all handlers are. -/
def report (s : Inbound) (c : ℕ) (task : SessionTask) (x : ℕ) (conn : HttpConn) :
    Option Inbound :=
  match conn.result with
  | some (.upgraded _) => some (s.setTask c { task with stage := .handling })
  | some .postHandled => s.endTask c task
  | none => if conn.serving || s.xhttp.readsPacket x then none else s.endTask c task

def step (s : Inbound) (a : InboundAct) : Option Inbound :=
  match a with
  | .gate (.drop _) => none
  | .gate a =>
    (s.gate.step a).map fun gate =>
      let s' : Inbound := { s with gate := gate }
      if s.gate.permits.length < gate.permits.length then s'.spawnSession config else s'
  | .handshake c ok =>
    (s.sessions[c]?).bind fun task =>
      match task.stage, ok with
      | .handshake, true => some (s.serveInbound config c task)
      | .handshake, false => s.endTask c task
      | _, _ => none
  | .xhttp .accept => none
  | .xhttp a =>
    config.xhttp.bind fun xhttp => (s.xhttp.step xhttp a).map fun t => { s with xhttp := t }
  | .report c =>
    (s.sessions[c]?).bind fun task =>
      match task.stage, task.http with
      | .accepting, some x => (s.xhttp.conns[x]?).bind fun conn => s.report c task x conn
      | _, _ => none
  | .spawn c =>
    (s.sessions[c]?).bind fun task =>
      match task.stage with
      | .handling => some (s.setTask c { task with helpers := task.helpers + 1 })
      | _ => none
  | .helperEnds c =>
    (s.sessions[c]?).bind fun task =>
      match task.helpers with
      | 0 => none
      | n + 1 => some (s.setTask c { task with helpers := n })
  | .finish c =>
    (s.sessions[c]?).bind fun task =>
      match task.stage with
      | .handling => s.endTask c task
      | _ => none

end Model

def busy (s : Inbound) (task : SessionTask) : Bool :=
  task.stage ≠ .ended || 0 < task.helpers || task.http.any s.xhttp.working

/-- The connections that are served. -/
def served (s : Inbound) : ℕ := s.sessions.countP s.busy

def lone (s : Inbound) (task : SessionTask) : Bool :=
  task.helpers = 0 && !task.http.any s.xhttp.working

def settled (s : Inbound) : InboundAct → Bool
  | .report c =>
    (s.sessions[c]?).all fun task => s.lone task || task.http.all fun x =>
      (s.xhttp.conns[x]?).all fun conn => conn.result ≠ some .postHandled
  | .finish c => (s.sessions[c]?).all s.lone
  | _ => true

/-- No session ends while a helper task or its HTTP connection still works. -/
def Settled (s : Inbound) (a : InboundAct) : Prop := s.settled a = true

/-! ## The invariant -/

variable {config : InboundConfig} {max : UInt32} {s t : Inbound} {a : InboundAct}
  {as : List InboundAct} {c : ℕ} {task task' : SessionTask}

structure Inv (max : UInt32) (s : Inbound) : Prop where
  gate : s.gate.Inv max
  permits : s.gate.permits.length = s.sessions.countP fun task => task.stage ≠ .ended
  ended : ∀ task ∈ s.sessions, task.stage = .ended → s.lone task = true
  helpers : ∀ task ∈ s.sessions, task.stage = .handshake ∨ task.stage = .accepting →
    task.helpers = 0
  http : ∀ task ∈ s.sessions, task.stage = .handshake → task.http = none
  known : ∀ task ∈ s.sessions, ∀ x, task.http = some x → x < s.xhttp.conns.length
  packets : s.xhttp.PacketsKnown
  posts : s.xhttp.PostInv

theorem lone_iff : s.lone task = true ↔
    task.helpers = 0 ∧ ∀ x, task.http = some x → s.xhttp.working x = false := by
  unfold lone
  cases task.http <;> simp

theorem forall_setTask {P : SessionTask → Prop} (h : ∀ task ∈ s.sessions, P task)
    (hnew : P task') : ∀ task ∈ (s.setTask c task').sessions, P task := by
  intro task hmem
  obtain hmem | rfl := List.mem_or_eq_of_mem_set hmem
  · exact h task hmem
  · exact hnew

variable {b : GateAct ℕ} {gate : ConnectionGate ℕ}

theorem permits_of_step {g g' : ConnectionGate ℕ} (hb : ∀ n, b ≠ .drop n) (h : g.step b = some g') :
    g'.permits.length = g.permits.length ∨ g'.permits.length = g.permits.length + 1 := by
  obtain ⟨t, -, -, -, rfl⟩ | ⟨t, -, -, -, rfl⟩ | ⟨t, -, -, rfl⟩ | ⟨t, current, max, -, -, -, rfl⟩ |
    ⟨t, -, -, rfl⟩ | ⟨t, current, spurious, -, -, rfl⟩ | ⟨n, permit, rfl, -, rfl⟩ :=
    ConnectionGate.step_cases h
  · exact .inr rfl
  · exact .inl rfl
  · exact .inl rfl
  · exact .inl rfl
  · exact .inr rfl
  · exact .inl rfl
  · exact absurd rfl (hb n)

section

variable (hi : Inv max s)
include hi

theorem Inv.served_le : s.served ≤ max.toNat := by
  calc s.served ≤ s.sessions.countP fun task => task.stage ≠ .ended := by
        refine List.countP_mono_left fun task hmem hbusy => ?_
        by_contra hended
        have hstage : task.stage = .ended := by simpa using hended
        obtain ⟨hzero, hidle⟩ := lone_iff.mp (hi.ended task hmem hstage)
        unfold busy at hbusy
        cases hhttp : task.http with
        | none => simp [hstage, hzero, hhttp] at hbusy
        | some x => simp [hstage, hzero, hhttp, hidle x hhttp] at hbusy
    _ = s.gate.permits.length := hi.permits.symm
    _ = s.gate.active.toNat := hi.gate.active_eq.symm
    _ ≤ max.toNat := UInt32.le_iff_toNat_le.mp hi.gate.active_le

theorem Inv.setTask (hc : s.sessions[c]? = some task)
    (hstage : task.stage ≠ .ended) (hstage' : task'.stage ≠ .ended)
    (hhelpers : task'.stage = .handshake ∨ task'.stage = .accepting → task'.helpers = 0)
    (hhttp : task'.stage = .handshake → task'.http = none)
    (hknown : ∀ x, task'.http = some x → x < s.xhttp.conns.length) :
    Inv max (s.setTask c task') := by
  obtain ⟨hlt, hget⟩ := List.getElem?_eq_some_iff.mp hc
  refine ⟨hi.gate, ?_, forall_setTask hi.ended fun h => absurd h hstage',
    forall_setTask hi.helpers hhelpers, forall_setTask hi.http hhttp,
    forall_setTask hi.known hknown, hi.packets, hi.posts⟩
  have hpos : 0 < s.sessions.countP fun task => decide (task.stage ≠ .ended) :=
    List.countP_pos_iff.mpr ⟨task, List.mem_of_getElem? hc, by simpa using hstage⟩
  show s.gate.permits.length = (s.sessions.set c task').countP _
  rw [List.countP_set hlt, hget, hi.permits]
  simp only [hstage, hstage', ne_eq, not_false_eq_true, decide_true, if_true] at hpos ⊢
  omega

theorem Inv.endTask (hc : s.sessions[c]? = some task)
    (hstage : task.stage ≠ .ended) (hlone : s.lone task = true) (h : s.endTask c task = some t) :
    Inv max t := by
  obtain ⟨gate, hgate, rfl⟩ := Option.map_eq_some_iff.mp h
  obtain ⟨hlt, hget⟩ := List.getElem?_eq_some_iff.mp hc
  have hpos : 0 < s.sessions.countP fun task => decide (task.stage ≠ .ended) :=
    List.countP_pos_iff.mpr ⟨task, List.mem_of_getElem? hc, by simpa using hstage⟩
  obtain ⟨permit, hpermit, rfl⟩ := Option.map_eq_some_iff.mp hgate
  have hnonempty := (List.getElem?_eq_some_iff.mp hpermit).1
  refine ⟨hi.gate.drop hpermit, ?_, forall_setTask hi.ended fun _ => hlone,
    forall_setTask hi.helpers (by simp), forall_setTask hi.http (by simp),
    forall_setTask hi.known (hi.known task (List.mem_of_getElem? hc)), hi.packets, hi.posts⟩
  show (s.gate.permits.eraseIdx 0).length = (s.sessions.set c _).countP _
  rw [List.countP_set hlt, hget, List.length_eraseIdx_of_lt hnonempty, hi.permits]
  simp only [hstage, ne_eq, not_false_eq_true, decide_true, if_true, not_true_eq_false,
    decide_false, Bool.false_eq_true, if_false]
  omega

theorem Inv.xhttp {x : XhttpConfig} {b : XhttpAct} {u : XhttpServer}
    (h : s.xhttp.step x b = some u) : Inv max { s with xhttp := u } := by
  have hle := (XhttpServer.connStep_of_step hi.packets h).length_le
  refine ⟨hi.gate, hi.permits, fun task hmem hstage => ?_, hi.helpers, hi.http,
    fun task hmem x hx => (hi.known task hmem x hx).trans_le hle,
    XhttpServer.packetsKnown_step hi.packets h, hi.posts.step hi.packets h⟩
  obtain ⟨hzero, hidle⟩ := lone_iff.mp (hi.ended task hmem hstage)
  refine lone_iff.mpr ⟨hzero, fun x hx => Bool.eq_false_iff.mpr fun hworking => ?_⟩
  have hold := XhttpServer.working_of_step hi.packets (hi.known task hmem x hx) h hworking
  simp [hidle x hx] at hold

theorem Inv.serveInbound (hc : s.sessions[c]? = some task)
    (hstage : task.stage = .handshake) : Inv max (s.serveInbound config c task) := by
  have hmem := List.mem_of_getElem? hc
  have hzero := hi.helpers task hmem (.inl hstage)
  unfold Inbound.serveInbound
  cases config.xhttp with
  | none =>
    exact hi.setTask hc (by simp [hstage]) (by simp) (by simp) (by simp) (hi.known task hmem)
  | some x =>
    have hi' : Inv max { s with
        xhttp := { s.xhttp with conns := s.xhttp.conns ++ [⟨true, true, none⟩] } } :=
      hi.xhttp (x := x) (b := .accept) rfl
    refine hi'.setTask (by exact hc) (by simp [hstage]) (by simp) (fun _ => hzero) (by simp) ?_
    rintro x ⟨⟩
    simp

theorem Inv.goGate (h : s.gate.step b = some gate)
    (hsame : gate.permits.length = s.gate.permits.length) : Inv max { s with gate := gate } :=
  ⟨hi.gate.step h, hsame.trans hi.permits, hi.ended, hi.helpers, hi.http, hi.known, hi.packets,
    hi.posts⟩

theorem Inv.spawnSession (h : s.gate.step b = some gate)
    (hlength : gate.permits.length = s.gate.permits.length + 1) :
    Inv max (Inbound.spawnSession config { s with gate := gate }) := by
  have hforall {P : SessionTask → Prop} (h : ∀ task ∈ s.sessions, P task)
      (hnew : P ⟨.handshake, none, 0⟩) :
      ∀ task ∈ s.sessions ++ [⟨.handshake, none, 0⟩], P task := by
    intro task hmem
    obtain hmem | hmem := List.mem_append.mp hmem
    · exact h task hmem
    · exact List.mem_singleton.mp hmem ▸ hnew
  have hi' : Inv max
      { s with gate := gate, sessions := s.sessions ++ [⟨.handshake, none, 0⟩] } := by
    refine ⟨hi.gate.step h, ?_, hforall hi.ended (by simp), hforall hi.helpers (by simp),
      hforall hi.http (by simp), hforall hi.known (by simp), hi.packets, hi.posts⟩
    rw [hlength, hi.permits]
    simp [List.countP_append]
  unfold Inbound.spawnSession
  cases config.transport with
  | plain => exact hi'.serveInbound (by simp) rfl
  | tls => exact hi'
  | reality => exact hi'

theorem Inv.gateStep (h : s.step config (.gate b) = some t) : Inv max t := by
  have hb : ∀ n, b ≠ .drop n := by
    rintro n rfl
    cases h
  have h' : ((s.gate.step b).map fun gate =>
      if s.gate.permits.length < gate.permits.length then
        Inbound.spawnSession config { s with gate := gate } else { s with gate := gate }) =
      some t := by
    cases b with
    | drop n => exact absurd rfl (hb n)
    | call | load | test | exchange => exact h
  obtain ⟨gate, hgate, rfl⟩ := Option.map_eq_some_iff.mp h'
  obtain hsame | hmore := permits_of_step hb hgate
  · rw [if_neg (by omega)]
    exact hi.goGate hgate hsame
  · rw [if_pos (by omega)]
    exact hi.spawnSession hgate hmore

theorem Inv.lone_of_disconnected {x : ℕ} {conn : HttpConn}
    (hmem : task ∈ s.sessions) (hstage : task.stage = .accepting) (hx : task.http = some x)
    (hconn : s.xhttp.conns[x]? = some conn) (hresult : conn.result = none)
    (hserving : conn.serving = false) (hpacket : s.xhttp.readsPacket x = false) :
    s.lone task = true := by
  refine lone_iff.mpr ⟨hi.helpers task hmem (.inr hstage), fun x' hx' => ?_⟩
  obtain rfl : x = x' := Option.some.inj (hx.symm.trans hx')
  have hbody : s.xhttp.readsBody x = false := by
    refine Bool.eq_false_iff.mpr fun hbody => ?_
    obtain ⟨post, hpost, rfl, -⟩ := XhttpServer.readsBody_iff.mp hbody
    obtain ⟨conn', hconn', hne⟩ := hi.posts.post post hpost
    obtain rfl : conn = conn' := Option.some.inj (hconn.symm.trans hconn')
    exact hne hresult
  simp [XhttpServer.working, XhttpServer.serving, hconn, hserving, hbody, hpacket]

theorem Inv.reportStep (hsettled : s.Settled (.report c))
    (h : s.step config (.report c) = some t) : Inv max t := by
  obtain ⟨task, hc, h⟩ := Option.bind_eq_some_iff.mp h
  have hmem := List.mem_of_getElem? hc
  split at h
  · rename_i x hstage hx
    obtain ⟨conn, hconn, h⟩ := Option.bind_eq_some_iff.mp h
    have hne : task.stage ≠ .ended := by simp [hstage]
    unfold report at h
    split at h
    · cases h
      exact hi.setTask hc hne (by simp) (by simp) (by simp) (hi.known task hmem)
    · rename_i hresult
      refine hi.endTask hc hne ?_ h
      simpa [Settled, settled, hc, hx, hconn, hresult] using hsettled
    · rename_i hresult
      split_ifs at h with hgone
      simp only [Bool.or_eq_true, not_or, Bool.not_eq_true] at hgone
      exact hi.endTask hc hne
        (hi.lone_of_disconnected hmem hstage hx hconn hresult hgone.1 hgone.2) h
  · cases h

theorem Inv.step (hsettled : s.Settled a) (h : s.step config a = some t) :
    Inv max t := by
  cases a with
  | gate b => exact hi.gateStep h
  | report c => exact hi.reportStep hsettled h
  | xhttp b =>
    have h' : (config.xhttp.bind fun xhttp =>
        (s.xhttp.step xhttp b).map fun u => ({ s with xhttp := u } : Inbound)) = some t := by
      cases b with
      | accept => cases h
      | _ => exact h
    obtain ⟨x, -, h'⟩ := Option.bind_eq_some_iff.mp h'
    obtain ⟨u, hu, rfl⟩ := Option.map_eq_some_iff.mp h'
    exact hi.xhttp hu
  | handshake c ok =>
    obtain ⟨task, hc, h⟩ := Option.bind_eq_some_iff.mp h
    have hmem := List.mem_of_getElem? hc
    split at h
    · cases h
      exact hi.serveInbound hc ‹_›
    · have hstage : task.stage = .handshake := ‹_›
      refine hi.endTask hc (by simp [hstage]) (lone_iff.mpr ⟨?_, ?_⟩) h
      · exact hi.helpers task hmem (.inl hstage)
      · simp [hi.http task hmem hstage]
    · cases h
  | spawn c =>
    obtain ⟨task, hc, h⟩ := Option.bind_eq_some_iff.mp h
    split at h
    · rename_i hstage
      cases h
      exact hi.setTask hc (by simp [hstage]) (by simp [hstage]) (by simp [hstage])
        (by simp [hstage]) (hi.known task (List.mem_of_getElem? hc))
    · cases h
  | helperEnds c =>
    obtain ⟨task, hc, h⟩ := Option.bind_eq_some_iff.mp h
    have hmem := List.mem_of_getElem? hc
    split at h
    · cases h
    · rename_i n hn
      cases h
      have hne : task.stage ≠ .ended := fun hended => by
        have hzero := (lone_iff.mp (hi.ended task hmem hended)).1
        omega
      refine hi.setTask hc hne hne (fun hearly => ?_) (hi.http task hmem) (hi.known task hmem)
      have hzero := hi.helpers task hmem hearly
      omega
  | finish c =>
    obtain ⟨task, hc, h⟩ := Option.bind_eq_some_iff.mp h
    split at h
    · rename_i hstage
      refine hi.endTask hc (by simp [hstage]) ?_ h
      simpa [Settled, settled, hc] using hsettled
    · cases h

end

theorem inv_new (hmax : config.maxConnections = some max) : Inv max (new config) := by
  have hgate : (new config).gate.Inv max := by
    rw [new, hmax]
    exact ConnectionGate.inv_new max
  exact ⟨hgate, rfl, by simp [new], by simp [new], by simp [new], by simp [new],
    by simp [new, XhttpServer.PacketsKnown, XhttpServer.new],
    ⟨by simp [new, XhttpServer.new], by simp [new, XhttpServer.new, Sessions.new]⟩⟩

/-- With the limit `max`, for every transport, with or without XHTTP, in every run: if
    session tasks that are told `PostHandled` or whose handler returns are the last task of
    their connection, at most `max` connections are served. -/
theorem connections_bounded (hmax : config.maxConnections = some max)
    (hrun : Run (step config) Settled (new config) as s) : s.served ≤ max.toNat :=
  (hrun.invariant (I := Inv max) (fun _ _ _ hi hsettled hst => hi.step hsettled hst)
    (inv_new hmax)).served_le

def acquire : List InboundAct :=
  [.gate (.call 0), .gate (.load 0), .gate (.test 0), .gate (.exchange 0 false)]

def limitOne : InboundConfig := ⟨.plain, some .auto, some 1⟩

theorem connections_bounded_streamOne :
    ∃ s, Run (step limitOne) Settled (new limitOne)
        (acquire ++ [.xhttp (.request 0 (.plain .post "/xhttp") 0), .report 0,
          .xhttp (.httpEnds 0), .finish 0] ++ acquire) s ∧
      s.sessions.length = 2 ∧ s.served ≤ 1 := by
  have hrun : Run (step limitOne) Settled (new limitOne)
      (acquire ++ [.xhttp (.request 0 (.plain .post "/xhttp") 0), .report 0,
        .xhttp (.httpEnds 0), .finish 0] ++ acquire) _ := exec_run (fun _ _ h => h) rfl
  have hle : _ ≤ (1 : UInt32).toNat := connections_bounded rfl hrun
  exact ⟨_, hrun, rfl, hle⟩

theorem served_above_limit :
    ∃ s, Run (step limitOne) Any (new limitOne)
        (acquire ++ [.xhttp (.request 0 (.plain .post "/xhttp/a") 0), .report 0] ++ acquire) s ∧
      s.sessions.map SessionTask.stage = [.ended, .accepting] ∧
      s.xhttp.serving 0 = true ∧ s.xhttp.readsBody 0 = true ∧ s.served = 2 := by
  exact ⟨_, exec_any rfl, rfl, rfl, rfl, rfl⟩

end Inbound

end SkadiCore.Server
