import SkadiCore.Common.Run
import SkadiCore.Udp.Relay

/-!
# UDP from the TUN interface

Model of `handle_udp_inbound` and `relay_udp_flow` (`crates/skadi-client/src/tun/mod.rs`,
lines 250-427) and of `DnsHandler` (`crates/skadi-client/src/dns.rs`). Datagrams of the
applications are sent through one tunnel for each pair of a local address and an address
at the other end. DNS queries are answered by DoH or DoT, or are sent to another server.

What an application gets is a datagram of its own: a reply is *for* a datagram if it came
through the tunnel that carried it, or if it is the answer to this query. So the state keeps
with each payload the datagram it came in, and with each reply the datagram it answers.

The read loop looks up or spawns the flow of a datagram, and then sends the datagram into its
channel. The two are steps of their own: the task of the flow may end in between.

**Defect.** The UDP forwarder answers under its own address: DoH and DoT send the answer from the
address that was asked; the flow of a query that goes to the upstream sends it from the
upstream (`tun_reply_from_upstream`).
-/

namespace SkadiCore.Client

open SkadiCore.Udp (IcmpFragNeeded maxUdpPayloadIpv4)

/-! ## DNS -/

/-- `DnsHandler` (`dns.rs`, lines 11-15). The configurations of DoH and DoT only matter to
    their queries. -/
inductive DnsHandler
  | udpForward (upstream : SocketAddr)
  | doh
  | dot

/-- Lines 112-117 of `dns.rs`. -/
def DnsHandler.rewriteUdpUpstream : DnsHandler → SocketAddr → SocketAddr
  | udpForward upstream, remote => if remote.port = 53 then upstream else remote
  | doh, remote | dot, remote => remote

/-- Whether a datagram is a query for DoH or DoT (`tun/mod.rs`, lines 274-312). -/
def queries : Option DnsHandler → SocketAddr → Bool
  | some .doh, remote | some .dot, remote => remote.port = 53
  | some (.udpForward _), _ | none, _ => false

/-- Lines 314-317 of `tun/mod.rs`. -/
def tunnelRemote (handler : Option DnsHandler) (remote : SocketAddr) : SocketAddr :=
  match handler with
  | some handler => handler.rewriteUdpUpstream remote
  | none => remote

/-! ## Flows -/

structure Datagram where
  data : Bytes
  src : SocketAddr
  dst : SocketAddr
  deriving DecidableEq

structure Reply where
  data : Bytes
  loc : SocketAddr
  remote : SocketAddr
  asked : Option Datagram

/-- `write_half.send((data, remote, local))` (line 269): what the application gets. -/
def Reply.datagram (r : Reply) : Datagram := ⟨r.data, r.remote, r.loc⟩

inductive FlowPhase
  | opening
  | relaying
  | ended
  deriving DecidableEq

structure Flow where
  loc : SocketAddr
  remote : SocketAddr
  inbound : List Datagram
  sent : List Datagram
  phase : FlowPhase

def Flow.key (f : Flow) : SocketAddr × SocketAddr := (f.loc, f.remote)

def Flow.fresh (key : SocketAddr × SocketAddr) : Flow := ⟨key.1, key.2, [], [], .opening⟩

/-- The message for a datagram that is too large, if it is IPv4 (lines 378-385). -/
def Flow.icmp (f : Flow) (mtu : UInt16) : Option IcmpFragNeeded :=
  match f.loc.ip, f.remote.ip with
  | .v4 src, .v4 dst => some ⟨src, dst, f.loc.port, f.remote.port, mtu⟩
  | _, _ => none

/-- The table of flows, the tasks, and the datagram that the read loop holds for the channel of
    a flow (between lines 347 and 349). -/
structure Tun where
  sessions : SocketAddr × SocketAddr → Option ℕ
  flows : List Flow
  pending : Option (ℕ × Datagram)
  queries : List (Option Datagram)
  replies : List Reply
  delivered : List Reply
  injected : List IcmpFragNeeded

/-- The steps: a datagram comes from the stack, and is sent into the channel of its flow; a
    query is answered or fails; a tunnel is opened or not; a flow takes a payload from its
    channel, when the MTU is `mtu`, and its write succeeds or not; a frame comes through the
    tunnel, in answer to the `n`-th datagram or to none; the tunnel ends; a reply is handed to
    the stack. -/
inductive TunAct
  | inbound (d : Datagram)
  | send
  | answer (q : ℕ) (response : Bytes)
  | queryFails (q : ℕ)
  | opened (k : ℕ)
  | openFails (k : ℕ)
  | forward (k : ℕ) (mtu : UInt16) (ok : Bool)
  | reply (k : ℕ) (data : Bytes) (n : Option ℕ)
  | tunnelEnds (k : ℕ)
  | deliver

namespace Tun

def new : Tun := ⟨fun _ => none, [], none, [], [], [], []⟩

def setFlow (s : Tun) (k : ℕ) (f : Flow) : Tun := { s with flows := s.flows.set k f }

/-- `sender.send(data)`, and `sessions.remove(&key)` if the flow has ended (lines 349-351). -/
def send (s : Tun) (k : ℕ) (f : Flow) (d : Datagram) : Tun :=
  if f.phase = .ended then
    { s with sessions := Function.update s.sessions f.key none, pending := none }
  else { s.setFlow k { f with inbound := f.inbound ++ [d] } with pending := none }

/-- A datagram of the stack: a query is answered in a task of its own (lines 274-312); for any
    other the sender of its flow is looked up, or a flow is spawned (lines 314-347). -/
def handleInbound (handler : Option DnsHandler) (s : Tun) (d : Datagram) : Option Tun :=
  if s.pending.isSome then none
  else if Client.queries handler d.dst then some { s with queries := s.queries ++ [some d] }
  else
    let key := (d.src, tunnelRemote handler d.dst)
    match s.sessions key with
    | some k => some { s with pending := some (k, d) }
    | none =>
      some { s with
        sessions := Function.update s.sessions key (some s.flows.length)
        flows := s.flows ++ [Flow.fresh key]
        pending := some (s.flows.length, d) }

/-- A datagram above the limit of the MTU (lines 377-406). -/
def dropOversized (s : Tun) (k : ℕ) (f : Flow) (mtu : UInt16) (ok : Bool) : Tun :=
  match f.icmp mtu with
  | some icmp =>
    if ok then { s.setFlow k f with injected := s.injected ++ [icmp] }
    else s.setFlow k { f with phase := .ended }
  | none => s.setFlow k f

/-- A payload from the channel of a flow (lines 373-412). -/
def flowForward (s : Tun) (k : ℕ) (f : Flow) (mtu : UInt16) (ok : Bool) : Option Tun :=
  match f.inbound with
  | [] => none
  | d :: inbound =>
    let f := { f with inbound := inbound }
    if d.data.length > maxUdpPayloadIpv4 mtu then some (s.dropOversized k f mtu ok)
    else if ok && (Udp.writeVlessUdpFrame d.data).isOk then
      some (s.setFlow k { f with sent := f.sent ++ [d] })
    else some (s.setFlow k { f with phase := .ended })

def answered (f : Flow) : Option ℕ → Option (Option Datagram)
  | some n => (f.sent[n]?).map some
  | none => some none

/-- A step of the task of a flow, `relay_udp_flow` (lines 357-427). -/
def flowStep (s : Tun) (k : ℕ) (f : Flow) (a : TunAct) : Option Tun :=
  match f.phase, a with
  | .opening, .opened _ => some (s.setFlow k { f with phase := .relaying })
  | .opening, .openFails _ => some (s.setFlow k { f with phase := .ended })
  | .relaying, .forward _ mtu ok => s.flowForward k f mtu ok
  | .relaying, .reply _ data n =>
    (answered f n).map fun asked =>
      { s with replies := s.replies ++ [⟨data, f.loc, f.remote, asked⟩] }
  | .relaying, .tunnelEnds _ => some (s.setFlow k { f with phase := .ended })
  | _, _ => none

def step (handler : Option DnsHandler) (s : Tun) (a : TunAct) : Option Tun :=
  match a with
  | .inbound d => s.handleInbound handler d
  | .send => s.pending.bind fun p => (s.flows[p.1]?).map fun f => s.send p.1 f p.2
  | .answer q response =>
    match s.queries[q]? with
    | some (some d) =>
      some { s with
        queries := s.queries.set q none
        replies := s.replies ++ [⟨response, d.src, d.dst, some d⟩] }
    | _ => none
  | .queryFails q =>
    match s.queries[q]? with
    | some (some _) => some { s with queries := s.queries.set q none }
    | _ => none
  | .opened k | .openFails k | .forward k _ _ | .reply k _ _ | .tunnelEnds k =>
    (s.flows[k]?).bind fun f => s.flowStep k f a
  | .deliver =>
    match s.replies with
    | [] => none
    | r :: replies => some { s with replies := replies, delivered := s.delivered ++ [r] }

end Tun

/-! ## Where a reply comes from -/

variable {handler : Option DnsHandler} {s t : Tun} {a : TunAct} {f f' : Flow} {d : Datagram}
  {k : ℕ}

theorem tunnelRemote_of_queries {remote : SocketAddr} (h : queries handler remote = true) :
    tunnelRemote handler remote = remote := by
  match handler with
  | some .doh | some .dot => rfl
  | some (.udpForward _) | none => cases h

/-- The datagram belongs to the flow with this key. -/
def Datagram.On (handler : Option DnsHandler) (key : SocketAddr × SocketAddr) (d : Datagram) :
    Prop :=
  d.src = key.1 ∧ tunnelRemote handler d.dst = key.2

def Flow.Own (handler : Option DnsHandler) (f : Flow) : Prop :=
  ∀ d ∈ f.inbound ++ f.sent, d.On handler f.key

def Reply.Own (handler : Option DnsHandler) (r : Reply) : Prop :=
  ∀ d, r.asked = some d → d.On handler (r.loc, r.remote)

/-- The reply is for a datagram from `L` to `R`. -/
def Reply.For (r : Reply) (L R : SocketAddr) : Prop := ∃ d, r.asked = some d ∧ d.src = L ∧ d.dst = R

namespace Tun

structure Inv (handler : Option DnsHandler) (s : Tun) : Prop where
  flows : ∀ f ∈ s.flows, f.Own handler
  sessions : ∀ key k, s.sessions key = some k → ∃ f, s.flows[k]? = some f ∧ f.key = key
  pending : ∀ k d, s.pending = some (k, d) →
    s.sessions (d.src, tunnelRemote handler d.dst) = some k
  queries : ∀ d, some d ∈ s.queries → tunnelRemote handler d.dst = d.dst
  replies : ∀ r ∈ s.replies, r.Own handler
  delivered : ∀ r ∈ s.delivered, r.Own handler

theorem inv_new : Inv handler new where
  flows := by simp [new]
  sessions := by simp [new]
  pending := by simp [new]
  queries := by simp [new]
  replies := by simp [new]
  delivered := by simp [new]

namespace Inv

variable (h : Inv handler s)
include h

theorem own (hk : s.flows[k]? = some f) : f.Own handler :=
  h.flows f (List.mem_of_getElem? hk)

theorem setFlow (hk : s.flows[k]? = some f) (hkey : f'.key = f.key)
    (hown : f'.Own handler) : Inv handler (s.setFlow k f') where
  flows g hg := (List.mem_or_eq_of_mem_set hg).elim (h.flows g) (fun hg => hg ▸ hown)
  sessions key k' hk' := by
    obtain ⟨g, hg, rfl⟩ := h.sessions key k' hk'
    by_cases heq : k = k'
    · subst heq
      rw [hk, Option.some.injEq] at hg
      refine ⟨f', ?_, hkey.trans (congrArg _ hg)⟩
      have hlt := (List.getElem?_eq_some_iff.mp hk).1
      simp [Tun.setFlow, hlt]
    · exact ⟨g, by simpa [Tun.setFlow, List.getElem?_set_ne heq] using hg, rfl⟩
  pending := h.pending
  queries := h.queries
  replies := h.replies
  delivered := h.delivered

theorem inject (injected : List IcmpFragNeeded) :
    Inv handler { s with injected := injected } :=
  ⟨h.flows, h.sessions, h.pending, h.queries, h.replies, h.delivered⟩

theorem reply {r : Reply} (hr : r.Own handler) :
    Inv handler { s with replies := s.replies ++ [r] } where
  flows := h.flows
  sessions := h.sessions
  pending := h.pending
  queries := h.queries
  replies r' hr' := by
    rcases List.mem_append.mp hr' with hr' | hr'
    · exact h.replies r' hr'
    · rwa [List.mem_singleton.mp hr']
  delivered := h.delivered

theorem done (q : ℕ) :
    Inv handler { s with queries := s.queries.set q none } where
  flows := h.flows
  sessions := h.sessions
  pending := h.pending
  queries d hd := h.queries d ((List.mem_or_eq_of_mem_set hd).resolve_right (by simp))
  replies := h.replies
  delivered := h.delivered

theorem query (hd : Client.queries handler d.dst = true) :
    Inv handler { s with queries := s.queries ++ [some d] } where
  flows := h.flows
  sessions := h.sessions
  pending := h.pending
  queries d' hd' := by
    rcases List.mem_append.mp hd' with hd' | hd'
    · exact h.queries d' hd'
    · cases List.mem_singleton.mp hd'
      exact tunnelRemote_of_queries hd
  replies := h.replies
  delivered := h.delivered

theorem unpend : Inv handler { s with pending := none } :=
  ⟨h.flows, h.sessions, by simp, h.queries, h.replies, h.delivered⟩

theorem send (hp : s.pending = some (k, d)) (hk : s.flows[k]? = some f) :
    Inv handler (s.send k f d) := by
  obtain ⟨g, hg, hkey⟩ := h.sessions _ k (h.pending k d hp)
  obtain rfl : f = g := Option.some.inj (hk.symm.trans hg)
  have hd : d.On handler f.key := hkey ▸ ⟨rfl, rfl⟩
  unfold Tun.send
  split_ifs
  · refine ⟨h.flows, fun key k' hk' => ?_, by simp, h.queries, h.replies, h.delivered⟩
    by_cases heq : key = f.key
    · simp [heq] at hk'
    · exact h.sessions key k' (by simpa [heq] using hk')
  · have hown : Flow.Own handler { f with inbound := f.inbound ++ [d] } := by
      intro d' hd'
      simp only [List.append_assoc, List.mem_append, List.mem_singleton] at hd'
      rcases hd' with hd' | rfl | hd'
      · exact h.own hk d' (by simp [hd'])
      · exact hd
      · exact h.own hk d' (by simp [hd'])
    refine (h.setFlow hk ?_ hown).unpend
    rfl

theorem insert (d : Datagram) :
    Inv handler { s with
      sessions := Function.update s.sessions (d.src, tunnelRemote handler d.dst)
        (some s.flows.length)
      flows := s.flows ++ [Flow.fresh (d.src, tunnelRemote handler d.dst)]
      pending := some (s.flows.length, d) } where
  flows g hg := by
    rcases List.mem_append.mp hg with hg | hg
    · exact h.flows g hg
    · rw [List.mem_singleton.mp hg]
      simp [Flow.Own, Flow.fresh]
  sessions key k hk := by
    by_cases heq : key = (d.src, tunnelRemote handler d.dst)
    · subst heq
      simp only [Function.update_self, Option.some.injEq] at hk
      exact ⟨.fresh (d.src, tunnelRemote handler d.dst), by simp [← hk], rfl⟩
    · obtain ⟨g, hg, hkey⟩ := h.sessions key k (by simpa [heq] using hk)
      have hlt := (List.getElem?_eq_some_iff.mp hg).1
      exact ⟨g, by simpa [List.getElem?_append_left hlt] using hg, hkey⟩
  pending := by
    rintro k d' ⟨⟩
    exact Function.update_self ..
  queries := h.queries
  replies := h.replies
  delivered := h.delivered

theorem handleInbound (hst : s.handleInbound handler d = some t) :
    Inv handler t := by
  unfold Tun.handleInbound at hst
  split_ifs at hst with hp hq
  · cases hst
    exact h.query hq
  cases hs : s.sessions (d.src, tunnelRemote handler d.dst) with
  | some k =>
    simp only [hs, Option.some.injEq] at hst
    subst hst
    refine ⟨h.flows, h.sessions, ?_, h.queries, h.replies, h.delivered⟩
    rintro k' d' ⟨⟩
    exact hs
  | none =>
    simp only [hs, Option.some.injEq] at hst
    exact hst ▸ h.insert d

theorem dropOversized {mtu : UInt16} {ok : Bool} (hk : s.flows[k]? = some f)
    (hkey : f'.key = f.key) (hown : f'.Own handler) :
    Inv handler (s.dropOversized k f' mtu ok) := by
  unfold Tun.dropOversized
  split
  · split_ifs
    · exact (h.setFlow hk hkey hown).inject _
    · exact h.setFlow hk hkey fun d hd => hown d hd
  · exact h.setFlow hk hkey hown

theorem flowForward {mtu : UInt16} {ok : Bool} (hk : s.flows[k]? = some f)
    (hst : s.flowForward k f mtu ok = some t) : Inv handler t := by
  unfold Tun.flowForward at hst
  cases hin : f.inbound with
  | nil => simp [hin] at hst
  | cons d inbound =>
    have hd : d.On handler f.key := h.own hk d (by simp [hin])
    have hrest : Flow.Own handler { f with inbound := inbound } := by
      intro d' hd'
      rcases List.mem_append.mp hd' with hd' | hd'
      · exact h.own hk d' (by simp [hin, hd'])
      · exact h.own hk d' (by simp [hd'])
    simp only [hin] at hst
    split_ifs at hst
    · cases hst
      exact h.dropOversized hk rfl hrest
    · cases hst
      refine h.setFlow hk rfl fun d' hd' => ?_
      rw [← List.append_assoc, List.mem_append, List.mem_singleton] at hd'
      rcases hd' with hd' | rfl
      · exact hrest d' hd'
      · exact hd
    · cases hst
      exact h.setFlow hk rfl hrest

omit h in
theorem on_answered {n : Option ℕ} {asked : Option Datagram}
    (hown : f.Own handler) (hasked : Tun.answered f n = some asked) (hd : asked = some d) :
    d.On handler f.key := by
  subst hd
  cases n with
  | none => cases hasked
  | some n =>
    obtain ⟨d', hd', heq⟩ := Option.map_eq_some_iff.mp hasked
    cases heq
    exact hown d (List.mem_append_right _ (List.mem_of_getElem? hd'))

theorem flowStep (hk : s.flows[k]? = some f)
    (hst : s.flowStep k f a = some t) : Inv handler t := by
  have hown := h.own hk
  unfold Tun.flowStep at hst
  split at hst
  · cases hst
    exact h.setFlow hk rfl hown
  · cases hst
    exact h.setFlow hk rfl hown
  · exact h.flowForward hk hst
  · obtain ⟨asked, hasked, rfl⟩ := Option.map_eq_some_iff.mp hst
    exact h.reply fun d hd => on_answered hown hasked hd
  · cases hst
    exact h.setFlow hk rfl hown
  · cases hst

end Inv

theorem inv_step (h : Inv handler s) (hst : s.step handler a = some t) : Inv handler t := by
  cases a with
  | inbound d => exact h.handleInbound hst
  | send =>
    obtain ⟨⟨k, d⟩, hp, hst⟩ := Option.bind_eq_some_iff.mp hst
    obtain ⟨f, hk, rfl⟩ := Option.map_eq_some_iff.mp hst
    exact h.send hp hk
  | answer q response =>
    simp only [step] at hst
    split at hst
    · rename_i d hq
      cases hst
      refine (h.done q).reply fun d' hd' => ?_
      cases hd'
      exact ⟨rfl, h.queries d (List.mem_of_getElem? hq)⟩
    · cases hst
  | queryFails q =>
    simp only [step] at hst
    split at hst
    · cases hst
      exact h.done q
    · cases hst
  | deliver =>
    simp only [step] at hst
    split at hst
    · cases hst
    · rename_i r replies hr
      cases hst
      refine ⟨h.flows, h.sessions, h.pending, h.queries, fun r' hr' => h.replies r' ?_,
        fun r' hr' => ?_⟩
      · exact hr ▸ List.mem_cons_of_mem r hr'
      · rcases List.mem_append.mp hr' with hr' | hr'
        · exact h.delivered r' hr'
        · rw [List.mem_singleton.mp hr']
          exact h.replies r (hr ▸ List.mem_cons_self)
  | opened k | openFails k | forward k | reply k | tunnelEnds k =>
    obtain ⟨f, hk, hst⟩ := Option.bind_eq_some_iff.mp hst
    exact h.flowStep hk hst

theorem reply_source {as : List TunAct} (hrun : Run (step handler) Any new as s) {r : Reply}
    (hr : r ∈ s.delivered) (hasked : r.asked = some d) :
    r.datagram.dst = d.src ∧ r.datagram.src = tunnelRemote handler d.dst := by
  have hinv : Inv handler s := hrun.invariant (fun _ _ _ h _ hst => inv_step h hst) inv_new
  obtain ⟨hsrc, hdst⟩ := hinv.delivered r hr d hasked
  exact ⟨hsrc.symm, hdst.symm⟩

/-! ## Replies from the address that was asked -/

/-- The application at `L` gets the datagram as one from `R`. -/
def Reaches (d : Datagram) (L R : SocketAddr) : Prop := d.dst = L ∧ d.src = R

/-- Of a reply delivered in a run: for the flow from `L` to `R` it comes from `R`; and of this
    flow and one from `L` to another `R'`, neither gets the replies of the other. -/
structure RepliesFrom (handler : Option DnsHandler) (L R : SocketAddr) : Prop where
  own : ∀ as s, Run (step handler) Any new as s → ∀ r ∈ s.delivered, r.For L R →
    Reaches r.datagram L R
  others : ∀ as s, Run (step handler) Any new as s → ∀ r ∈ s.delivered, ∀ R', R' ≠ R →
    (r.For L R → ¬ Reaches r.datagram L R') ∧ (r.For L R' → ¬ Reaches r.datagram L R)

/-- A forwarder neither changes the destination `R` nor has it as its upstream. -/
def Kept (handler : Option DnsHandler) (R : SocketAddr) : Prop :=
  ∀ upstream, handler = some (.udpForward upstream) → R.port ≠ 53 ∧ upstream ≠ R

theorem exists_server_ne (R : SocketAddr) : ∃ R' : SocketAddr, R'.port = 53 ∧ R' ≠ R := by
  by_cases h : R = .v4 (ipv4Addr 0 0 0 0) 53
  · exact ⟨.v4 (ipv4Addr 0 0 0 1) 53, rfl, by rw [h]; decide⟩
  · exact ⟨.v4 (ipv4Addr 0 0 0 0) 53, rfl, Ne.symm h⟩

theorem kept_iff {R : SocketAddr} :
    Kept handler R ↔ ∀ R', tunnelRemote handler R' = R ↔ R' = R := by
  match handler with
  | some .doh | some .dot | none => simp [tunnelRemote, DnsHandler.rewriteUdpUpstream, Kept]
  | some (.udpForward upstream) =>
    simp only [tunnelRemote, DnsHandler.rewriteUdpUpstream, Kept, Option.some.injEq,
      DnsHandler.udpForward.injEq, forall_eq']
    constructor
    · rintro ⟨hport, hne⟩ R'
      split_ifs with h
      · exact ⟨fun heq => absurd heq hne, fun heq => absurd (heq ▸ h) hport⟩
      · exact Iff.rfl
    · intro h
      have hne : upstream ≠ R := by
        obtain ⟨R', hport, hR'⟩ := exists_server_ne R
        exact fun heq => hR' ((h R').mp (by rw [if_pos hport, heq]))
      exact ⟨fun hport => hne (by simpa [hport] using (h R).mpr rfl), hne⟩

def exchange (L R : SocketAddr) : List TunAct :=
  [.inbound ⟨[], L, R⟩, .send, .opened 0, .forward 0 1500 true, .reply 0 [] (some 0), .deliver]

theorem exists_exchange (handler : Option DnsHandler) {L R : SocketAddr}
    (hq : Client.queries handler R = false) :
    ∃ s, Run (step handler) Any new (exchange L R) s ∧
      s.delivered = [⟨[], L, tunnelRemote handler R, some ⟨[], L, R⟩⟩] := by
  have hexec : (exec (step handler) (fun _ _ => true) new (exchange L R)).map delivered =
      some [⟨[], L, tunnelRemote handler R, some ⟨[], L, R⟩⟩] := by
    simp only [exchange, exec, step, handleInbound, hq]
    rfl
  obtain ⟨s, hs, hdelivered⟩ := Option.map_eq_some_iff.mp hexec
  exact ⟨s, exec_any hs, hdelivered⟩

theorem RepliesFrom.kept {L R : SocketAddr} (h : RepliesFrom handler L R) : Kept handler R := by
  refine kept_iff.mpr fun R' => ?_
  by_cases hq : Client.queries handler R' = true
  · rw [tunnelRemote_of_queries hq]
  obtain ⟨s, hrun, hdelivered⟩ := exists_exchange handler (L := L) (by simpa using hq)
  have hmem := hdelivered ▸ List.mem_singleton_self _
  constructor
  · intro heq
    by_contra hne
    exact (h.others _ s hrun _ hmem R' hne).2 ⟨_, rfl, rfl, rfl⟩ ⟨rfl, heq⟩
  · rintro rfl
    exact (h.own _ s hrun _ hmem ⟨_, rfl, rfl, rfl⟩).2

/-- For every handler, every local address `L` and every destination `R`: the replies for
    datagrams from `L` to `R` come from `R`, and no two flows of `L` get each other's replies,
    exactly if the handler does not forward datagrams for `R`, nor any to `R`. -/
theorem tun_replies_iff (handler : Option DnsHandler) (L R : SocketAddr) :
    RepliesFrom handler L R ↔ Kept handler R := by
  refine ⟨RepliesFrom.kept, fun hkept => ?_⟩
  have hremote := kept_iff.mp hkept
  refine ⟨?_, ?_⟩
  · rintro as s hrun r hr ⟨d, hasked, rfl, rfl⟩
    obtain ⟨hdst, hsrc⟩ := reply_source hrun hr hasked
    exact ⟨hdst, hsrc.trans ((hremote _).mpr rfl)⟩
  · intro as s hrun r hr R' hne
    constructor
    · rintro ⟨d, hasked, rfl, rfl⟩ hreach
      obtain ⟨-, hsrc⟩ := reply_source hrun hr hasked
      rw [(hremote _).mpr rfl] at hsrc
      exact hne (hreach.2.symm.trans hsrc)
    · rintro ⟨d, hasked, rfl, rfl⟩ hreach
      obtain ⟨-, hsrc⟩ := reply_source hrun hr hasked
      exact hne ((hremote _).mp (hsrc.symm.trans hreach.2))

theorem tun_reply_from_upstream :
    let upstream : SocketAddr := .v4 (ipv4Addr 8 8 8 8) 53
    let router : SocketAddr := .v4 (ipv4Addr 192 168 1 1) 53
    let app : SocketAddr := .v4 (ipv4Addr 10 0 0 2) 5353
    (∃ s, Run (step (some (.udpForward upstream))) Any new (exchange app router) s ∧
      s.delivered.map Reply.datagram = [⟨[], upstream, app⟩]) ∧
    ¬ RepliesFrom (some (.udpForward upstream)) app router := by
  intro upstream router app
  obtain ⟨s, hrun, hdelivered⟩ :=
    exists_exchange (some (.udpForward upstream)) (L := app) (R := router) rfl
  have hsrc : s.delivered.map Reply.datagram = [⟨[], upstream, app⟩] := by rw [hdelivered]; rfl
  refine ⟨⟨s, hrun, hsrc⟩, fun h => ?_⟩
  obtain ⟨-, hsame⟩ :=
    h.own _ s hrun _ (hdelivered ▸ List.mem_singleton_self _) ⟨_, rfl, rfl, rfl⟩
  revert hsame
  decide

end Tun

end SkadiCore.Client
