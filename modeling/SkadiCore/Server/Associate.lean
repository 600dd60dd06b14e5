import SkadiCore.Common.Run
import SkadiCore.Common.Time
import SkadiCore.Outbound.Policy
import SkadiCore.Socks5.Parse

/-!
# UDP ASSOCIATE

Model of `handle_socks5_udp_associate` (`crates/skadi-server/src/socks5_relay.rs`,
lines 45-125) behind its reply to the client: one task that takes, in any order, what the
control connection and the relay socket give it. The relay socket is bound on all interfaces
and anyone can send to it.

While the loop waits in its `select!` it ends as soon as a deadline has passed. While it
handles a datagram, which may take seconds, it does not look at its timers. What happens at
the very time of a deadline may come before the timer.

`Instant + Duration` panics where the sum does not fit; the panic ends the task.

**Defect.** RFC 1928 lets the relay drop the datagrams of other sources. The code does not
look at the source: a datagram from anywhere is relayed, and answered, and one that is not
relayed still keeps the association open.
-/

namespace SkadiCore.Server

open SkadiCore.Outbound (UdpTransport NetChoice)
open SkadiCore.Socks5 (parseUdpDatagram encodeUdpDatagram)

/-! ## The relay -/

def MAX_UDP_PAYLOAD : ℕ := 65507

inductive Sent
  | upstream (target : Endpoint) (payload : Bytes)
  | reply (packet : Bytes) (addr : SocketAddr)
  deriving DecidableEq

/-- A datagram at the relay socket, and what becomes of it if it is relayed: how the upstream
    socket is connected, whether the payload can be sent, and what is received before
    `UDP_REPLY_WAIT` is over. -/
structure Datagram where
  source : SocketAddr
  data : Bytes
  choice : NetChoice
  sendOk : Bool
  response : Option Bytes

def replyTo (source : SocketAddr) (target : Endpoint) (response : Option Bytes) : List Sent :=
  match response.map (·.take MAX_UDP_PAYLOAD) with
  | none | some [] => []
  | some data => [.reply (encodeUdpDatagram target data) source]

/-- The target and the payload of a datagram (lines 93-104). -/
def udpRequest (data : Bytes) : Option (Endpoint × Bytes) :=
  if data.length < 4 then none
  else
    match parseUdpDatagram data with
    | .error _ => none
    | .ok (target, headerLen) =>
      let payload := data.drop headerLen
      if payload.isEmpty then none else some (target, payload)

/-- What is sent for a datagram (lines 93-120). -/
def relayed (udp : UdpTransport) (d : Datagram) : List Sent :=
  match udpRequest d.data with
  | none => []
  | some (target, payload) =>
    if !(udp.connect target d.choice).2 || !d.sendOk then []
    else .upstream target payload :: replyTo d.source target d.response

inductive AssociateStatus
  | running
  | ended
  | panicked
  deriving DecidableEq

/-- The state of the loop: its timers, the datagram it handles, and what it has sent. -/
structure Associate where
  now : Instant
  idle : Duration
  idleDeadline : Option Instant
  lifetimeDeadline : Option Instant
  status : AssociateStatus
  busy : Option Datagram
  sent : List Sent

def FAR_FUTURE : Duration := .fromSecs (86400 * 365 * 30)

/-- The deadline of `tokio::time::sleep`. -/
def sleepDeadline (now : Instant) (d : Duration) : Option Instant :=
  now.add d <|> now.add FAR_FUTURE

def passed (deadline : Option Instant) (t : Instant) : Bool :=
  deadline.any fun d => decide (d < t)

/-- The steps: time passes; a datagram is taken from the relay socket, and one from `source` is
    handled; the control connection has data, or ends or fails; the relay socket fails. -/
inductive AssociateAct
  | tick (t : Instant)
  | datagram (d : Datagram)
  | done (source : SocketAddr)
  | controlData
  | controlEnd
  | recvError

/-- The clock after a step. -/
def AssociateAct.clock (now : Instant) : AssociateAct → Instant
  | .tick t => t
  | _ => now

namespace Associate

def start (now : Instant) (idle lifetime : Option Duration) : Associate where
  now := now
  idle := idle.getD .MAX
  idleDeadline := sleepDeadline now (idle.getD .MAX)
  lifetimeDeadline := sleepDeadline now (lifetime.getD .MAX)
  status := .running
  busy := none
  sent := []

/-- `idle_deadline.reset(Instant::now() + idle)` (lines 85, 92), for control data or for a
    datagram, which is then handled. -/
def receive (s : Associate) (d : Option Datagram) : Associate :=
  match s.now.add s.idle with
  | none => { s with status := .panicked }
  | some deadline => { s with idleDeadline := some deadline, busy := d }

def close (s : Associate) : Associate := { s with status := .ended }

/-- The loop is in its `select!`. -/
def waits (s : Associate) : Bool := decide (s.status = .running) && s.busy.isNone

/-- A branch of the `select!`. Behind the end of the loop nothing happens any more. -/
def select (s next : Associate) : Option Associate :=
  if s.status ≠ .running then some s else if s.busy.isSome then none else some next

/-- Time passes, and with it the timers (lines 71-76). -/
def pass (s : Associate) (t : Instant) : Associate :=
  { s with
    now := t
    status := if s.waits && (passed s.idleDeadline t || passed s.lifetimeDeadline t) then .ended
      else s.status }

/-- The datagram in hand is handled (lines 93-120). -/
def finish (udp : UdpTransport) (s : Associate) (source : SocketAddr) : Option Associate :=
  if s.status ≠ .running then some s
  else
    match s.busy with
    | some d =>
      if d.source = source then some { s with busy := none, sent := s.sent ++ relayed udp d }
      else none
    | none => some s

def step (udp : UdpTransport) (s : Associate) : AssociateAct → Option Associate
  | .tick t => if s.now ≤ t then some (s.pass t) else none
  | .datagram d => s.select (s.receive (some d))
  | .done source => s.finish udp source
  | .controlData => s.select (s.receive none)
  | .controlEnd | .recvError => s.select s.close

end Associate

/-! ## Datagrams of others -/

/-- Nothing is sent for the datagram (lines 93-111). -/
def Datagram.dropped (udp : UdpTransport) (d : Datagram) : Bool :=
  match udpRequest d.data with
  | none => true
  | some (target, _) => !(udp.connect target d.choice).2 || !d.sendOk

def AssociateAct.own (client : IpAddr) : AssociateAct → Bool
  | .datagram d => decide (d.source.ip = client)
  | .done source => decide (source.ip = client)
  | _ => true

/-- The idle deadline as the control connection and the client's own datagrams set it, and
    whether the association would be over without the datagrams of others. -/
structure OwnTimer where
  deadline : Option Instant
  ended : Bool

def OwnTimer.next (client : IpAddr) (s : Associate) (timer : OwnTimer) : AssociateAct → OwnTimer
  | .tick t =>
    if s.busy.all (fun d => decide (d.source.ip ≠ client)) &&
        (passed timer.deadline t || passed s.lifetimeDeadline t) then
      { timer with ended := true }
    else timer
  | .datagram d =>
    if d.source.ip = client then { timer with deadline := s.now.add s.idle } else timer
  | .controlData => { timer with deadline := s.now.add s.idle }
  | _ => timer

/-- The loop, and the timer that the client alone would have. -/
structure WatchedAssociate where
  loop : Associate
  timer : OwnTimer

namespace WatchedAssociate

def start (now : Instant) (idle lifetime : Option Duration) : WatchedAssociate :=
  ⟨.start now idle lifetime, sleepDeadline now (idle.getD .MAX), false⟩

def step (udp : UdpTransport) (client : IpAddr) (w : WatchedAssociate) (a : AssociateAct) :
    Option WatchedAssociate :=
  (w.loop.step udp a).map fun loop => ⟨loop, w.timer.next client w.loop a⟩

/-- A datagram that is relayed is the client's, and no deadline was postponed for it by the
    datagrams of others: the association would be open without them. -/
def Inert (udp : UdpTransport) (client : IpAddr) (w : WatchedAssociate) : AssociateAct → Prop
  | .done source => w.loop.status = .running → ∀ d ∈ w.loop.busy,
      d.dropped udp = true ∨ source.ip = client ∧ w.timer.ended = false
  | _ => True

instance (udp : UdpTransport) (client : IpAddr) (w : WatchedAssociate) (a : AssociateAct) :
    Decidable (Inert udp client w a) :=
  match a with
  | .done _ => inferInstanceAs (Decidable (_ → ∀ d ∈ w.loop.busy, _ = true ∨ _ ∧ _))
  | .tick _ | .datagram _ | .controlData | .controlEnd | .recvError => isTrue trivial

end WatchedAssociate

theorem relayed_eq_nil_iff {udp : UdpTransport} {d : Datagram} :
    relayed udp d = [] ↔ d.dropped udp = true := by
  unfold relayed Datagram.dropped
  cases udpRequest d.data with
  | none => simp
  | some request =>
    dsimp only
    split_ifs with h <;> simp [h]

/-- Replies go to where the datagram came from. -/
theorem addr_of_mem_relayed {udp : UdpTransport} {d : Datagram} {packet : Bytes}
    {addr : SocketAddr} (h : .reply packet addr ∈ relayed udp d) : addr = d.source := by
  unfold relayed replyTo at h
  split at h
  · cases h
  · split_ifs at h
    · cases h
    · split at h <;> simp_all

namespace Associate

open WatchedAssociate (Inert)

variable {udp : UdpTransport} {client : IpAddr} {s s' t next : Associate} {timer : OwnTimer}
  {a : AssociateAct}

/-! ## The loop -/

theorem select_of_closed (hs : s.status ≠ .running) : s.select next = some s := if_pos hs

theorem select_of_waits (hs : s.status = .running) (hbusy : s.busy = none) :
    s.select next = some next := by
  simp [select, hs, hbusy]

theorem select_cases (h : s.select next = some s') :
    s.status ≠ .running ∧ s' = s ∨ s.status = .running ∧ s.busy = none ∧ s' = next := by
  unfold select at h
  split_ifs at h with hs hbusy
  · exact .inl ⟨hs, (Option.some.inj h).symm⟩
  · exact .inr ⟨not_not.mp hs, by simpa using hbusy, (Option.some.inj h).symm⟩

theorem receive_of_none (hadd : s.now.add s.idle = none) (d : Option Datagram) :
    s.receive d = { s with status := .panicked } := by
  rw [receive, hadd]

theorem receive_of_some {deadline : Instant} (hadd : s.now.add s.idle = some deadline)
    (d : Option Datagram) :
    s.receive d = { s with idleDeadline := some deadline, busy := d } := by
  rw [receive, hadd]

theorem finish_cases {source : SocketAddr} (h : s.finish udp source = some s') :
    (s.status = .running → s.busy = none) ∧ s = s' ∨
      ∃ d, s.status = .running ∧ s.busy = some d ∧ d.source = source ∧
        s' = { s with busy := none, sent := s.sent ++ relayed udp d } := by
  unfold finish at h
  split_ifs at h with hs
  · exact .inl ⟨fun hrunning => absurd hrunning hs, Option.some.inj h⟩
  · cases hbusy : s.busy with
    | none =>
      simp only [hbusy, Option.some.injEq] at h
      exact .inl ⟨fun _ => rfl, h⟩
    | some d =>
      simp only [hbusy, Option.ite_none_right_eq_some, Option.some.injEq] at h
      exact .inr ⟨d, not_not.mp hs, rfl, h.1, h.2.symm⟩

theorem finish_of_idle (hs : s.status = .running → s.busy = none) (source : SocketAddr) :
    s.finish udp source = some s := by
  unfold finish
  split_ifs with h
  · rfl
  · rw [hs (not_not.mp h)]

theorem receive_fields (d : Option Datagram) :
    (s.receive d).now = s.now ∧ (s.receive d).idle = s.idle ∧ (s.receive d).sent = s.sent := by
  unfold receive
  split <;> exact ⟨rfl, rfl, rfl⟩

/-- What every step does: the clock moves with the ticks, an ended loop does not start again,
    and only a datagram that is handled makes it send. -/
theorem step_spec (h : s.step udp a = some s') :
    s'.now = a.clock s.now ∧ s'.idle = s.idle ∧ (s'.status = .running → s.status = .running) ∧
      ((∀ source, a ≠ .done source) → s'.sent = s.sent) := by
  cases a with
  | tick u =>
    obtain ⟨-, h⟩ := Option.ite_none_right_eq_some.mp h
    cases h
    refine ⟨rfl, rfl, fun hs => ?_, fun _ => rfl⟩
    simp only [pass] at hs
    split_ifs at hs
    exact hs
  | done source =>
    obtain ⟨-, rfl⟩ | ⟨d, hs, -, -, rfl⟩ := finish_cases h
    · exact ⟨rfl, rfl, id, fun _ => rfl⟩
    · exact ⟨rfl, rfl, id, fun hne => absurd rfl (hne source)⟩
  | datagram _ | controlData =>
    obtain ⟨-, rfl⟩ | ⟨hs, -, rfl⟩ := select_cases h
    · exact ⟨rfl, rfl, id, fun _ => rfl⟩
    · obtain ⟨hnow, hidle, hsent⟩ := receive_fields (s := s) _
      exact ⟨hnow, hidle, fun _ => hs, fun _ => hsent⟩
  | controlEnd | recvError =>
    obtain ⟨-, rfl⟩ | ⟨hs, -, rfl⟩ := select_cases h
    · exact ⟨rfl, rfl, id, fun _ => rfl⟩
    · exact ⟨rfl, rfl, fun _ => hs, fun _ => rfl⟩

/-! ## The loop without the datagrams of others -/

/-- The loop sends nothing more: it has ended, or there is no room for another deadline. -/
def Quiet (t : Associate) : Prop :=
  t.status ≠ .running ∨ t.busy = none ∧ t.now.add t.idle = none

theorem Quiet.tick (h : Quiet t) {u : Instant} (hu : t.now ≤ u) : Quiet (t.pass u) := by
  rcases h with ht | ⟨hbusy, hfull⟩
  · left
    simp [pass, waits, ht]
  · refine .inr ⟨hbusy, ?_⟩
    show u.add t.idle = none
    cases hd : u.add t.idle with
    | none => rfl
    | some d =>
      obtain ⟨e, -, he⟩ := Instant.exists_add_of_le hu hd
      cases hfull.symm.trans he

theorem Quiet.select (h : Quiet t) (hnext : t.now.add t.idle = none → next.status ≠ .running) :
    ∃ t', t.select next = some t' ∧ Quiet t' := by
  by_cases ht : t.status = .running
  · obtain ⟨hbusy, hfull⟩ := h.resolve_left (not_not.mpr ht)
    exact ⟨next, select_of_waits ht hbusy, .inl (hnext hfull)⟩
  · exact ⟨t, select_of_closed ht, h⟩

theorem Quiet.step (h : Quiet t) (hnow : t.now = s.now) (hst : s.step udp a = some s') :
    ∃ t', t.step udp a = some t' ∧ Quiet t' ∧ t'.sent = t.sent := by
  have hfull (d : Option Datagram) (hadd : t.now.add t.idle = none) :
      (t.receive d).status ≠ .running := by
    rw [receive_of_none hadd]
    nofun
  have hsilent {t' : Associate} (ht' : t.step udp a = some t') (hne : ∀ source, a ≠ .done source) :
      t'.sent = t.sent := (step_spec ht').2.2.2 hne
  cases a with
  | tick u =>
    have hu : t.now ≤ u := hnow ▸ (Option.ite_none_right_eq_some.mp hst).1
    exact ⟨_, if_pos hu, h.tick hu, rfl⟩
  | done source =>
    exact ⟨t, finish_of_idle (fun ht => (h.resolve_left (not_not.mpr ht)).1) source, h, rfl⟩
  | datagram d =>
    obtain ⟨t', ht', hquiet⟩ := h.select (hfull (some d))
    exact ⟨t', ht', hquiet, hsilent ht' nofun⟩
  | controlData =>
    obtain ⟨t', ht', hquiet⟩ := h.select (hfull none)
    exact ⟨t', ht', hquiet, hsilent ht' nofun⟩
  | controlEnd | recvError =>
    obtain ⟨t', ht', hquiet⟩ : ∃ t', t.select t.close = some t' ∧ Quiet t' :=
      h.select fun _ => nofun
    exact ⟨t', ht', hquiet, hsilent ht' nofun⟩

/-- Both loops run. The one without the datagrams of others has no later deadline, and handles
    what is the client's. -/
structure Mirrors (client : IpAddr) (s t : Associate) (timer : OwnTimer) : Prop where
  idle : t.idle = s.idle
  lifetime : t.lifetimeDeadline = s.lifetimeDeadline
  running : s.status = .running
  running' : t.status = .running
  open' : timer.ended = false
  deadline : t.idleDeadline = timer.deadline
  busy : t.busy = s.busy.filter fun d => decide (d.source.ip = client)
  later : ∀ d ∈ s.idleDeadline, ∃ d' ∈ t.idleDeadline, d' ≤ d
  early : ∀ d, t.now.add t.idle = some d → ∃ d' ∈ t.idleDeadline, d' ≤ d

/-- The loop, the loop without the datagrams of others, and the timer of the client: both
    loops run, or the second one is quiet, and the timer knows if the first one is not. -/
structure Sim (client : IpAddr) (s t : Associate) (timer : OwnTimer) : Prop where
  now : t.now = s.now
  phase : Mirrors client s t timer ∨ Quiet t ∧ (s.status = .running → timer.ended = true)

theorem Sim.refl_start (now : Instant) (idle lifetime : Option Duration) :
    Sim client (start now idle lifetime) (start now idle lifetime)
      ⟨sleepDeadline now (idle.getD .MAX), false⟩ := by
  refine ⟨rfl, .inl ⟨rfl, rfl, rfl, rfl, rfl, rfl, rfl, fun d hd => ⟨d, hd, d.le_refl⟩, ?_⟩⟩
  intro d h
  have hadd : now.add (idle.getD .MAX) = some d := h
  refine ⟨d, ?_, d.le_refl⟩
  show sleepDeadline now (idle.getD .MAX) = some d
  simp [sleepDeadline, hadd]

namespace Mirrors

theorem passed (h : Mirrors client s t timer) {u : Instant}
    (hu : passed s.idleDeadline u = true) : Server.passed t.idleDeadline u = true := by
  obtain ⟨d, hd, hlt⟩ := (Option.any_eq_true _ _).mp hu
  obtain ⟨d', hd', hle⟩ := h.later d hd
  have hlt : d.nanos < u.nanos := of_decide_eq_true hlt
  exact (Option.any_eq_true _ _).mpr ⟨d', hd', decide_eq_true (Nat.lt_of_le_of_lt hle hlt)⟩

/-- After a tick the loop without the others is over exactly if the timer of the client is. -/
theorem tick (h : Mirrors client s t timer) {u : Instant} (hu : t.now ≤ u) :
    Mirrors client (s.pass u) (t.pass u) (timer.next client s (.tick u)) ∨
      (t.pass u).status ≠ .running ∧ (timer.next client s (.tick u)).ended = true := by
  have hbusy : t.busy.isNone = s.busy.all fun d => decide (d.source.ip ≠ client) := by
    rw [h.busy]
    cases s.busy with
    | none => rfl
    | some d => by_cases hd : d.source.ip = client <;> simp [Option.filter, hd]
  have hwaits {v : Associate} (hv : v.status = .running) : v.waits = v.busy.isNone := by
    simp [waits, hv]
  simp only [OwnTimer.next, ← hbusy, ← h.deadline, ← h.lifetime]
  by_cases hover : (t.busy.isNone && (Server.passed t.idleDeadline u ||
      Server.passed t.lifetimeDeadline u)) = true
  · refine .inr ⟨?_, by rw [if_pos hover]⟩
    rw [pass, hwaits h.running', if_pos hover]
    nofun
  · have hs : (s.pass u).status = .running := by
      rw [pass, hwaits h.running, if_neg, h.running]
      intro hclose
      obtain ⟨hnone, hclose⟩ := Bool.and_eq_true_iff.mp hclose
      refine hover (Bool.and_eq_true_iff.mpr ⟨?_, ?_⟩)
      · rw [h.busy, Option.isNone_iff_eq_none.mp hnone]
        rfl
      · rw [h.lifetime]
        exact Bool.or_eq_true_iff.mpr ((Bool.or_eq_true_iff.mp hclose).imp_left h.passed)
    have ht : (t.pass u).status = .running := by
      rw [pass, hwaits h.running', if_neg hover, h.running']
    rw [if_neg hover]
    refine .inl ⟨h.idle, h.lifetime, hs, ht, h.open', h.deadline, h.busy, h.later, ?_⟩
    intro d hd
    obtain ⟨e, hle, he⟩ := Instant.exists_add_of_le hu hd
    obtain ⟨d', hd', hle'⟩ := h.early e he
    exact ⟨d', hd', Instant.le_trans hle' hle⟩

/-- Both loops take control data, or a datagram of the client. -/
theorem receive (h : Mirrors client s t timer) (hnow : t.now = s.now) {d : Option Datagram}
    (hd : ∀ d' ∈ d, d'.source.ip = client) :
    Mirrors client (s.receive d) (t.receive d) { timer with deadline := s.now.add s.idle } ∨
      Quiet (t.receive d) ∧ (s.receive d).status ≠ .running := by
  have hadd' : t.now.add t.idle = s.now.add s.idle := by rw [hnow, h.idle]
  cases hadd : s.now.add s.idle with
  | none =>
    rw [receive_of_none hadd, receive_of_none (hadd'.trans hadd)]
    exact .inr ⟨.inl nofun, nofun⟩
  | some deadline =>
    rw [receive_of_some hadd, receive_of_some (hadd'.trans hadd)]
    refine .inl ⟨h.idle, h.lifetime, h.running, h.running', h.open', rfl, ?_,
      fun e he => ⟨e, he, e.le_refl⟩, fun e he => ⟨e, ?_, e.le_refl⟩⟩
    · cases d with
      | none => rfl
      | some d => simp [Option.filter, hd d rfl]
    · exact (hadd'.trans hadd).symm.trans he

/-- Only the first loop takes a datagram of another. -/
theorem skip (h : Mirrors client s t timer) (hnow : t.now = s.now) (hbusy : s.busy = none)
    {d : Datagram} (hd : d.source.ip ≠ client) :
    Mirrors client (s.receive (some d)) t timer ∨
      Quiet t ∧ (s.receive (some d)).status ≠ .running := by
  have hbusy' : t.busy = none := by
    rw [h.busy, hbusy]
    rfl
  cases hadd : s.now.add s.idle with
  | none =>
    rw [receive_of_none hadd]
    exact .inr ⟨.inr ⟨hbusy', by rw [hnow, h.idle, hadd]⟩, nofun⟩
  | some deadline =>
    rw [receive_of_some hadd]
    refine .inl ⟨h.idle, h.lifetime, h.running, h.running', h.open', h.deadline, ?_, ?_, h.early⟩
    · simp [Option.filter, hd, hbusy']
    · -- the deadline of the second loop was set earlier
      rintro _ ⟨⟩
      exact h.early deadline (by rw [hnow, h.idle, hadd])

end Mirrors

/-- What a step of the first loop means for the second: it takes the step if this is its own,
    and sends the same if the step is inert, or else nothing where the first one does. -/
def Follows (udp : UdpTransport) (client : IpAddr) (s t : Associate) (timer : OwnTimer)
    (a : AssociateAct) (s' : Associate) : Prop :=
  ∃ t', Run (step udp) Any t ([a].filter (·.own client)) t' ∧
    Sim client s' t' (timer.next client s a) ∧
    (Inert udp client ⟨s, timer⟩ a → ∃ out, s'.sent = s.sent ++ out ∧ t'.sent = t.sent ++ out) ∧
    (¬ Inert udp client ⟨s, timer⟩ a → s.sent.length < s'.sent.length ∧ t'.sent = t.sent)

variable {t' : Associate}

theorem run_own (hown : a.own client = true) (hst : t.step udp a = some t') :
    Run (step udp) Any t ([a].filter (·.own client)) t' := by
  rw [List.filter_cons_of_pos hown]
  exact .single trivial hst

theorem run_other (hown : a.own client = false) :
    Run (step udp) Any t ([a].filter (·.own client)) t := by
  rw [List.filter_cons_of_neg (by simp [hown])]
  exact .nil t

/-- A step with which nothing is sent. -/
theorem follows_silent (hrun : Run (step udp) Any t ([a].filter (·.own client)) t')
    (hinert : Inert udp client ⟨s, timer⟩ a) (hsim : Sim client s' t' (timer.next client s a))
    (hs : s'.sent = s.sent) (ht : t'.sent = t.sent) : Follows udp client s t timer a s' :=
  ⟨t', hrun, hsim, fun _ => ⟨[], by simp [hs], by simp [ht]⟩, fun h => absurd hinert h⟩

theorem inert_done (udp : UdpTransport) (client : IpAddr) (timer : OwnTimer) {d : Datagram}
    (hs : s.status = .running) (hbusy : s.busy = some d) :
    Inert udp client ⟨s, timer⟩ (.done d.source) ↔
      relayed udp d = [] ∨ d.source.ip = client ∧ timer.ended = false := by
  rw [relayed_eq_nil_iff]
  constructor
  · exact fun hinert => hinert hs d hbusy
  · rintro hd - d' hd'
    cases hbusy.symm.trans hd'
    exact hd

/-- A step that the second loop has no part in: it is quiet, or the datagram is another's. -/
theorem follows_alone (hst : s.step udp a = some s')
    (hrun : Run (step udp) Any t ([a].filter (·.own client)) t') (ht : t'.sent = t.sent)
    (hsim : Sim client s' t' (timer.next client s a))
    (hpart : s.status = .running → ¬ (a.own client = true ∧ timer.ended = false)) :
    Follows udp client s t timer a s' := by
  cases a with
  | done source =>
    obtain ⟨hidle, rfl⟩ | ⟨d, hs, hbusy, rfl, rfl⟩ := finish_cases hst
    · refine follows_silent hrun (fun hs d hd => ?_) hsim rfl ht
      rw [hidle hs] at hd
      cases hd
    · have hinert := inert_done udp client timer hs hbusy
      have hnot : ¬ (d.source.ip = client ∧ timer.ended = false) :=
        fun h => hpart hs ⟨decide_eq_true h.1, h.2⟩
      rw [or_iff_left hnot] at hinert
      refine ⟨t', hrun, hsim, fun hin => ⟨[], ?_, by simp [ht]⟩, fun hnot => ⟨?_, ht⟩⟩
      · simp [hinert.mp hin]
      · have hpos := List.length_pos_iff.mpr fun hnil => hnot (hinert.mpr hnil)
        simpa using hpos
  | _ => exact follows_silent hrun trivial hsim ((step_spec hst).2.2.2 nofun) ht

theorem OwnTimer.ended_next (h : timer.ended = true) :
    (timer.next client s a).ended = true := by
  cases a with
  | tick u =>
    simp only [OwnTimer.next]
    split_ifs <;> simp [h]
  | datagram d =>
    simp only [OwnTimer.next]
    split_ifs <;> exact h
  | _ => exact h

theorem Sim.quiet_step (h : Sim client s t timer) (hquiet : Quiet t)
    (hended : s.status = .running → timer.ended = true) (hst : s.step udp a = some s') :
    Follows udp client s t timer a s' := by
  obtain ⟨hnow, -, hrunning, -⟩ := step_spec hst
  have hphase : s'.status = .running → (timer.next client s a).ended = true :=
    fun hs' => OwnTimer.ended_next (hended (hrunning hs'))
  have hpart : s.status = .running → ¬ (a.own client = true ∧ timer.ended = false) := by
    rintro hs ⟨-, hopen⟩
    cases hopen.symm.trans (hended hs)
  cases hown : a.own client with
  | true =>
    obtain ⟨t', hst', hquiet', hsent⟩ := hquiet.step h.now hst
    have hnow' : t'.now = s'.now := by rw [(step_spec hst').1, hnow, h.now]
    exact follows_alone hst (run_own hown hst') hsent ⟨hnow', .inr ⟨hquiet', hphase⟩⟩ hpart
  | false =>
    have hnow' : t.now = s'.now := by
      cases a with
      | datagram _ | done _ => rw [hnow, h.now]; rfl
      | _ => cases hown
    exact follows_alone hst (run_other hown) rfl ⟨hnow', .inr ⟨hquiet, hphase⟩⟩ hpart

theorem Mirrors.done (h : Mirrors client s t timer) (hnow : t.now = s.now) {source : SocketAddr}
    (hst : s.finish udp source = some s') : Follows udp client s t timer (.done source) s' := by
  obtain ⟨hidle, rfl⟩ | ⟨d, hs, hbusy, rfl, rfl⟩ := finish_cases hst
  · have hidle' : t.status = .running → t.busy = none := by
      intro _
      rw [h.busy, hidle h.running]
      rfl
    have hrun : Run (step udp) Any t ([AssociateAct.done source].filter (·.own client)) t := by
      cases hown : (AssociateAct.done source).own client with
      | true => exact run_own hown (finish_of_idle hidle' source)
      | false => exact run_other hown
    refine follows_silent hrun (fun hs d hd => ?_) ⟨hnow, .inl h⟩ rfl rfl
    rw [hidle hs] at hd
    cases hd
  · by_cases hown : d.source.ip = client
    · have hbusy' : t.busy = some d := by simp [h.busy, hbusy, Option.filter, hown]
      have hst' : t.finish udp d.source =
          some { t with busy := none, sent := t.sent ++ relayed udp d } := by
        simp [finish, h.running', hbusy']
      have hinert := (inert_done udp client timer hs hbusy).mpr (.inr ⟨hown, h.open'⟩)
      exact ⟨_, run_own (decide_eq_true hown) hst', ⟨hnow, .inl ⟨h.idle, h.lifetime, hs,
        h.running', h.open', h.deadline, rfl, h.later, h.early⟩⟩, fun _ => ⟨_, rfl, rfl⟩,
        fun hnot => absurd hinert hnot⟩
    · have hbusy' : t.busy = none := by simp [h.busy, hbusy, Option.filter, hown]
      refine follows_alone hst (run_other (decide_eq_false hown)) rfl ⟨hnow, .inl ⟨h.idle,
        h.lifetime, hs, h.running', h.open', h.deadline, hbusy', h.later, h.early⟩⟩ ?_
      exact fun _ hpart => hown (of_decide_eq_true hpart.1)

theorem Mirrors.step (h : Mirrors client s t timer) (hnow : t.now = s.now)
    (hst : s.step udp a = some s') : Follows udp client s t timer a s' := by
  have hbusy (hnone : s.busy = none) : t.busy = none := by
    rw [h.busy, hnone]
    rfl
  have hwaits {next : Associate} (hst : s.select next = some s') : s.busy = none ∧ s' = next := by
    obtain ⟨hnot, -⟩ | ⟨-, hnone, rfl⟩ := select_cases hst
    · exact absurd h.running hnot
    · exact ⟨hnone, rfl⟩
  have hreceive {d : Option Datagram} (hd : ∀ d' ∈ d, d'.source.ip = client) :
      Sim client (s.receive d) (t.receive d) { timer with deadline := s.now.add s.idle } := by
    refine ⟨?_, (h.receive hnow hd).imp_right fun hclosed => ⟨hclosed.1, fun hs => ?_⟩⟩
    · rw [(receive_fields d).1, (receive_fields d).1, hnow]
    · exact absurd hs hclosed.2
  cases a with
  | tick u =>
    obtain ⟨hu, hst⟩ := Option.ite_none_right_eq_some.mp hst
    cases hst
    have hu : t.now ≤ u := hnow ▸ hu
    refine follows_silent (run_own rfl (if_pos hu)) trivial ⟨rfl, ?_⟩ rfl rfl
    exact (h.tick hu).imp_right fun hclosed => ⟨.inl hclosed.1, fun _ => hclosed.2⟩
  | datagram d =>
    obtain ⟨hnone, rfl⟩ := hwaits hst
    have hsent := (receive_fields (s := s) (some d)).2.2
    by_cases hd : d.source.ip = client
    · refine follows_silent (run_own (decide_eq_true hd) (select_of_waits h.running' (hbusy hnone)))
        trivial ?_ hsent (receive_fields _).2.2
      simpa [OwnTimer.next, hd] using hreceive (d := some d) (by rintro _ ⟨⟩; exact hd)
    · refine follows_silent (run_other (decide_eq_false hd)) trivial ⟨?_, ?_⟩ hsent rfl
      · rw [hnow, (receive_fields _).1]
      · simp only [OwnTimer.next, if_neg hd]
        exact (h.skip hnow hnone hd).imp_right fun hclosed =>
          ⟨hclosed.1, fun hs => absurd hs hclosed.2⟩
  | done source => exact h.done hnow hst
  | controlData =>
    obtain ⟨hnone, rfl⟩ := hwaits hst
    exact follows_silent (run_own rfl (select_of_waits h.running' (hbusy hnone))) trivial
      (hreceive (by simp)) (receive_fields _).2.2 (receive_fields _).2.2
  | controlEnd | recvError =>
    obtain ⟨hnone, rfl⟩ := hwaits hst
    exact follows_silent (run_own rfl (select_of_waits h.running' (hbusy hnone))) trivial
      ⟨hnow, .inr ⟨.inl nofun, nofun⟩⟩ rfl rfl

theorem Sim.step (h : Sim client s t timer) (hst : s.step udp a = some s') :
    Follows udp client s t timer a s' :=
  h.phase.elim (fun hm => hm.step h.now hst) fun hq => h.quiet_step hq.1 hq.2 hst

/-! ## Runs -/

variable {now : Instant} {idle lifetime : Option Duration} {as : List AssociateAct}

theorem sim_run (client : IpAddr) (h : Run (step udp) Any (start now idle lifetime) as s) :
    ∃ t timer, Run (step udp) Any (start now idle lifetime) (as.filter (·.own client)) t ∧
      Sim client s t timer ∧ t.sent.length ≤ s.sent.length ∧
      Run (WatchedAssociate.step udp client) Any (.start now idle lifetime) as ⟨s, timer⟩ ∧
      (t.sent = s.sent ↔ Run (WatchedAssociate.step udp client) (Inert udp client)
        (.start now idle lifetime) as ⟨s, timer⟩) := by
  induction h with
  | nil =>
    exact ⟨_, _, .nil _, .refl_start now idle lifetime, le_rfl, .nil _, iff_of_true rfl (.nil _)⟩
  | @snoc s s' as a hrun _ hst ih =>
    obtain ⟨t, timer, hrun', hsim, hlen, hwatch, hiff⟩ := ih
    obtain ⟨t', hstep, hsim', hinert, hnot⟩ := hsim.step hst
    have hwst : WatchedAssociate.step udp client ⟨s, timer⟩ a =
        some ⟨s', timer.next client s a⟩ := by
      rw [WatchedAssociate.step, hst]
      rfl
    refine ⟨t', _, ?_, hsim', ?_, hwatch.snoc trivial hwst, ?_⟩
    · rw [List.filter_append]
      exact hrun'.append hstep
    · by_cases hin : Inert udp client ⟨s, timer⟩ a
      · obtain ⟨out, hs', ht'⟩ := hinert hin
        rw [hs', ht', List.length_append, List.length_append]
        omega
      · obtain ⟨hlt, ht'⟩ := hnot hin
        rw [ht']
        omega
    · rw [hwatch.snoc_iff hwst, ← hiff]
      by_cases hin : Inert udp client ⟨s, timer⟩ a
      · obtain ⟨out, hs', ht'⟩ := hinert hin
        rw [hs', ht', List.append_left_inj, and_iff_left hin]
      · obtain ⟨hlt, ht'⟩ := hnot hin
        refine iff_of_false (fun heq => ?_) fun h => hin h.2
        rw [← heq, ht'] at hlt
        omega

def sampleData : Bytes := [0, 0, 0, 1, 1, 1, 1, 1, 0, 53, 7]

def sampleDatagram (source : SocketAddr) (data : Bytes) : AssociateAct :=
  .datagram ⟨source, data, ⟨.ok [], true, true, [true], true⟩, true, some [8]⟩

def sampleHandled (source : SocketAddr) (data : Bytes) : List AssociateAct :=
  [sampleDatagram source data, .done source]

def sampleStart : Associate := start (.ofSecs 0) (some (.fromSecs 60)) none

def sampleClient : SocketAddr := .v4 (ipv4Addr 198 51 100 7) 4000

def sampleStranger : SocketAddr := .v4 (ipv4Addr 203 0 113 9) 5000

end Associate

end SkadiCore.Server
