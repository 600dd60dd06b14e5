import SkadiCore.Client.TunUdp

/-!
# The table of UDP flows

The table `sessions` of `handle_udp_inbound` (`crates/skadi-client/src/tun/mod.rs`, lines
314-352) should hold the flows that are alive. A flow that ends does not touch the table: its
entry is found out only by the next datagram for it, for which there is then no receiver
(lines 349-351).

* `sessions_of_not_handles`: an entry is changed only by datagrams on its key.

**Defect.** A datagram that finds its flow ended is lost: it removes the entry, and does not
open another flow (`dead_flow_drops`). So is the first datagram of a flow whose tunnel cannot
be opened before it is sent into the channel.
-/

namespace SkadiCore.Client

open SkadiCore.Udp (maxUdpPayloadIpv4)

variable {handler : Option DnsHandler} {s t : Tun} {a : TunAct} {f : Flow} {d : Datagram} {k : ℕ}
  {key : SocketAddr × SocketAddr}

namespace Tun

/-! ## What the table should be -/

/-- The step handles a datagram on the key: one from the stack, or the one that the read loop
    holds. -/
def Handles (handler : Option DnsHandler) (key : SocketAddr × SocketAddr) (s : Tun) :
    TunAct → Prop
  | .inbound d => Client.queries handler d.dst = false ∧ d.On handler key
  | .send => ∃ k d, s.pending = some (k, d) ∧ d.On handler key
  | _ => False

/-- Without further traffic on the key, its entry can be removed. -/
def Purged (handler : Option DnsHandler) (s : Tun) (key : SocketAddr × SocketAddr) : Prop :=
  ∃ as t, Run (step handler) (fun s a => ¬ Handles handler key s a) s as t ∧
    t.sessions key = none

/-- A datagram from the stack is taken for a flow of its addresses that is alive. -/
def Takes (handler : Option DnsHandler) (s : Tun) (d : Datagram) : Prop :=
  ∃ t k f, s.step handler (.inbound d) = some t ∧ t.pending = some (k, d) ∧
    t.flows[k]? = some f ∧ f.key = (d.src, tunnelRemote handler d.dst) ∧ f.phase ≠ .ended

/-- The datagram that the read loop holds goes into the channel of a flow that is alive. -/
def Enqueues (handler : Option DnsHandler) (s : Tun) (k : ℕ) (d : Datagram) : Prop :=
  ∃ t f, s.step handler .send = some t ∧ s.flows[k]? = some f ∧ f.phase ≠ .ended ∧
    t.flows[k]? = some { f with inbound := f.inbound ++ [d] }

/-- The table tracks the flows that are alive. A flow that is spawned for a datagram is. -/
structure TracksFlows (handler : Option DnsHandler) (s : Tun) : Prop where
  purged : ∀ key k f, s.sessions key = some k → s.flows[k]? = some f → f.phase = .ended →
    Purged handler s key
  taken : s.pending = none → ∀ d, Client.queries handler d.dst = false → Takes handler s d
  enqueued : ∀ k d, s.pending = some (k, d) → Enqueues handler s k d

/-- No entry belongs to a flow that has ended. -/
def Alive (s : Tun) : Prop :=
  ∀ key k f, s.sessions key = some k → s.flows[k]? = some f → f.phase ≠ .ended

/-- The step ends no flow. -/
def KeepsFlow : Tun → TunAct → Prop
  | _, .openFails _ | _, .tunnelEnds _ => False
  | _, .forward _ _ ok => ok = true
  | _, _ => True

/-! ## An entry stays until a datagram comes for it -/

theorem send_sessions (s : Tun) (d : Datagram) (hkey : f.key ≠ key) :
    (s.send k f d).sessions key = s.sessions key := by
  unfold send
  split_ifs
  · exact Function.update_of_ne hkey.symm _ _
  · rfl

theorem flowStep_sessions (h : s.flowStep k f a = some t) : t.sessions = s.sessions := by
  unfold flowStep at h
  split at h
  · cases h; rfl
  · cases h; rfl
  · unfold flowForward at h
    split at h
    · cases h
    · split_ifs at h
      · cases h
        unfold dropOversized
        split
        · split_ifs <;> rfl
        · rfl
      · cases h; rfl
      · cases h; rfl
  · obtain ⟨asked, -, rfl⟩ := Option.map_eq_some_iff.mp h
    rfl
  · cases h; rfl
  · cases h

theorem handleInbound_sessions (h : s.handleInbound handler d = some t)
    (hd : ¬ (Client.queries handler d.dst = false ∧ d.On handler key)) :
    t.sessions key = s.sessions key := by
  unfold handleInbound at h
  split_ifs at h with hp hq
  · cases h; rfl
  have hne : (d.src, tunnelRemote handler d.dst) ≠ key := by
    rintro rfl
    exact hd ⟨by simpa using hq, rfl, rfl⟩
  cases hs : s.sessions (d.src, tunnelRemote handler d.dst) with
  | some k =>
    simp only [hs, Option.some.injEq] at h
    rw [← h]
  | none =>
    simp only [hs, Option.some.injEq] at h
    rw [← h]
    exact Function.update_of_ne hne.symm _ _

theorem sessions_of_not_handles (hinv : Inv handler s) (h : s.step handler a = some t)
    (ha : ¬ Handles handler key s a) : t.sessions key = s.sessions key := by
  cases a with
  | inbound d => exact handleInbound_sessions h ha
  | send =>
    obtain ⟨⟨k, d⟩, hp, h⟩ := Option.bind_eq_some_iff.mp h
    obtain ⟨f, hk, rfl⟩ := Option.map_eq_some_iff.mp h
    obtain ⟨g, hg, hkey⟩ := hinv.sessions _ k (hinv.pending k d hp)
    obtain rfl : f = g := Option.some.inj (hk.symm.trans hg)
    refine send_sessions s d fun heq => ha ⟨k, d, hp, ?_⟩
    rw [← heq, hkey]
    exact ⟨rfl, rfl⟩
  | answer q response | queryFails q =>
    simp only [step] at h
    split at h
    · cases h; rfl
    · cases h
  | deliver =>
    simp only [step] at h
    split at h
    · cases h
    · cases h; rfl
  | opened k | openFails k | forward k | reply k | tunnelEnds k =>
    obtain ⟨f, -, h⟩ := Option.bind_eq_some_iff.mp h
    rw [flowStep_sessions h]

theorem not_purged (hinv : Inv handler s) (hs : s.sessions key = some k) :
    ¬ Purged handler s key := by
  rintro ⟨as, t, hrun, ht⟩
  have hkept : Inv handler t ∧ t.sessions key = s.sessions key := by
    refine hrun.invariant (I := fun u => Inv handler u ∧ u.sessions key = s.sessions key) ?_
      ⟨hinv, rfl⟩
    rintro u a v ⟨hu, hsame⟩ ha hstep
    exact ⟨inv_step hu hstep, (sessions_of_not_handles hu hstep ha).trans hsame⟩
  rw [ht, hs] at hkept
  cases hkept.2

/-! ## Datagrams for a flow that is alive -/

theorem takes_of_alive (hinv : Inv handler s) (halive : Alive s) (hp : s.pending = none)
    (hd : Client.queries handler d.dst = false) : Takes handler s d := by
  unfold Takes
  simp only [step, handleInbound, hp, hd]
  cases hs : s.sessions (d.src, tunnelRemote handler d.dst) with
  | some k =>
    obtain ⟨f, hk, hkey⟩ := hinv.sessions _ k hs
    exact ⟨_, k, f, rfl, rfl, hk, hkey, halive _ k f hs hk⟩
  | none =>
    refine ⟨_, s.flows.length, .fresh (d.src, tunnelRemote handler d.dst), rfl, rfl, ?_, rfl, ?_⟩
    · exact List.getElem?_concat_length
    · simp [Flow.fresh]

theorem enqueues_of_alive (hinv : Inv handler s) (halive : Alive s)
    (hp : s.pending = some (k, d)) : Enqueues handler s k d := by
  have hs := hinv.pending k d hp
  obtain ⟨f, hk, -⟩ := hinv.sessions _ k hs
  have hphase := halive _ k f hs hk
  have hlt := (List.getElem?_eq_some_iff.mp hk).1
  refine ⟨s.send k f d, f, by simp [step, hp, hk], hk, hphase, ?_⟩
  simp [send, hphase, setFlow, hlt]

/-! ## Runs in which no flow ends -/

theorem isOk_frame {mtu : UInt16} (h : ¬ d.data.length > maxUdpPayloadIpv4 mtu) :
    (Udp.writeVlessUdpFrame d.data).isOk = true := by
  have hmtu := mtu.toNat_lt
  have hfits : ¬ d.data.length > Udp.MAX_VLESS_UDP_PAYLOAD := by
    unfold maxUdpPayloadIpv4 at h
    unfold Udp.MAX_VLESS_UDP_PAYLOAD
    omega
  rw [Udp.writeVlessUdpFrame, if_neg hfits]
  rfl

def Running (s : Tun) : Prop := ∀ f ∈ s.flows, f.phase ≠ .ended

theorem Running.setFlow (h : Running s) (hf : f.phase ≠ .ended) : Running (s.setFlow k f) :=
  fun g hg => (List.mem_or_eq_of_mem_set hg).elim (h g) (fun hg => hg ▸ hf)

theorem Running.send (h : Running s) (hk : s.flows[k]? = some f) : Running (s.send k f d) := by
  have hf := h f (List.mem_of_getElem? hk)
  rw [Tun.send, if_neg hf]
  exact h.setFlow (f := { f with inbound := f.inbound ++ [d] }) hf

theorem Running.flowForward {mtu : UInt16} (h : Running s) (hf : f.phase ≠ .ended)
    (hst : s.flowForward k f mtu true = some t) : Running t := by
  unfold Tun.flowForward at hst
  split at hst
  · cases hst
  · rename_i d inbound hin
    by_cases hlarge : d.data.length > maxUdpPayloadIpv4 mtu
    · simp only [hlarge, if_true, Option.some.injEq] at hst
      rw [← hst, dropOversized]
      split
      · exact h.setFlow hf
      · exact h.setFlow hf
    · simp only [hlarge, if_false, isOk_frame hlarge, Bool.and_self, if_true,
        Option.some.injEq] at hst
      rw [← hst]
      exact h.setFlow hf

theorem Running.flowStep (h : Running s) (hk : s.flows[k]? = some f) (ha : KeepsFlow s a)
    (hst : s.flowStep k f a = some t) : Running t := by
  have hf := h f (List.mem_of_getElem? hk)
  unfold Tun.flowStep at hst
  split at hst
  · cases hst
    exact h.setFlow (by simp)
  · exact ha.elim
  · cases (show _ = true from ha)
    exact h.flowForward hf hst
  · obtain ⟨asked, -, rfl⟩ := Option.map_eq_some_iff.mp hst
    exact h
  · exact ha.elim
  · cases hst

theorem Running.step (h : Running s) (ha : KeepsFlow s a) (hst : s.step handler a = some t) :
    Running t := by
  cases a with
  | inbound d =>
    simp only [Tun.step, handleInbound] at hst
    split_ifs at hst
    · cases hst
      exact h
    cases hs : s.sessions (d.src, tunnelRemote handler d.dst) with
    | some k =>
      simp only [hs, Option.some.injEq] at hst
      exact hst ▸ h
    | none =>
      simp only [hs, Option.some.injEq] at hst
      subst hst
      intro f hf
      rcases List.mem_append.mp hf with hf | hf
      · exact h f hf
      · rw [List.mem_singleton.mp hf]
        simp [Flow.fresh]
  | send =>
    obtain ⟨⟨k, d⟩, -, hst⟩ := Option.bind_eq_some_iff.mp hst
    obtain ⟨f, hk, rfl⟩ := Option.map_eq_some_iff.mp hst
    exact h.send hk
  | answer q response | queryFails q =>
    simp only [Tun.step] at hst
    split at hst
    · cases hst
      exact h
    · cases hst
  | deliver =>
    simp only [Tun.step] at hst
    split at hst
    · cases hst
    · cases hst
      exact h
  | opened k | openFails k | forward k | reply k | tunnelEnds k =>
    obtain ⟨f, hk, hst⟩ := Option.bind_eq_some_iff.mp hst
    exact h.flowStep hk ha hst

/-- In every state of every run, the entries of flows that have ended go without traffic on
    their key, and every datagram that is not answered by DNS is taken for a flow that is alive
    or new and put into its channel, exactly if no entry belongs to a flow that has ended. This
    holds in every state of a run in which no step ends a flow. -/
theorem flows_tracked (handler : Option DnsHandler) :
    (∀ as s, Run (step handler) Any new as s → (TracksFlows handler s ↔ Alive s)) ∧
      ∀ as s, Run (step handler) KeepsFlow new as s → TracksFlows handler s := by
  have hinv : ∀ as s, Run (step handler) Any new as s → Inv handler s :=
    fun _ _ hrun => hrun.invariant (fun _ _ _ h _ hst => inv_step h hst) inv_new
  have hiff : ∀ as s, Run (step handler) Any new as s → (TracksFlows handler s ↔ Alive s) := by
    intro as s hrun
    constructor
    · intro h key k f hs hk hended
      exact not_purged (hinv as s hrun) hs (h.purged key k f hs hk hended)
    · intro h
      exact ⟨fun key k f hs hk hended => absurd hended (h key k f hs hk),
        fun hp d hd => takes_of_alive (hinv as s hrun) h hp hd,
        fun k d hp => enqueues_of_alive (hinv as s hrun) h hp⟩
  refine ⟨hiff, fun as s hrun => (hiff as s hrun.any).mpr ?_⟩
  have hrunning : Running s :=
    hrun.invariant (fun _ _ _ h ha hst => h.step ha hst) (by simp [Running, new])
  exact fun key k f _ hk => hrunning f (List.mem_of_getElem? hk)

def app : SocketAddr := .v4 (ipv4Addr 10 0 0 2) 5353

def server : SocketAddr := .v4 (ipv4Addr 8 8 8 8) 443

theorem flows_tracked_open :
    ∃ s, Run (step none) KeepsFlow new [.inbound ⟨[], app, server⟩, .send, .opened 0] s ∧
      TracksFlows none s := by
  have hinbound : Run (step none) KeepsFlow new [.inbound ⟨[], app, server⟩] _ :=
    Run.single trivial rfl
  have hsend := hinbound.snoc (a := TunAct.send) trivial rfl
  have hrun := hsend.snoc (a := TunAct.opened 0) trivial rfl
  exact ⟨_, hrun, (flows_tracked none).2 _ _ hrun⟩

theorem dead_flow_drops :
    (∃ s t u, Run (step none) Any new [.inbound ⟨[], app, server⟩, .send, .openFails 0] s ∧
      s.sessions (app, server) = some 0 ∧ ¬ Purged none s (app, server) ∧ ¬ TracksFlows none s ∧
      s.step none (.inbound ⟨[1], app, server⟩) = some t ∧ ¬ TracksFlows none t ∧
      t.step none .send = some u ∧ u.sessions (app, server) = none ∧ u.flows = s.flows) ∧
    ∃ s t, Run (step none) Any new [.inbound ⟨[], app, server⟩, .openFails 0] s ∧
      s.step none .send = some t ∧ t.sessions (app, server) = none ∧
      t.flows.flatMap Flow.inbound = [] := by
  have hended {s : Tun} (hinv : Inv none s) (hs : s.sessions (app, server) = some 0)
      (hf : ∃ f, s.flows[0]? = some f ∧ f.phase = .ended) :
      ¬ Purged none s (app, server) ∧ ¬ TracksFlows none s := by
    obtain ⟨f, hk, hphase⟩ := hf
    have hentry := not_purged hinv hs
    exact ⟨hentry, fun h => hentry (h.purged _ 0 f hs hk hphase)⟩
  constructor
  · have hrun : Run (step none) Any new [.inbound ⟨[], app, server⟩, .send, .openFails 0] _ :=
      exec_any rfl
    have hinv := hrun.invariant (fun _ _ _ h _ hst => inv_step h hst) inv_new
    obtain ⟨hentry, hlost⟩ := hended hinv rfl ⟨_, rfl, rfl⟩
    have hlost' := (hended (inv_step (a := .inbound ⟨[1], app, server⟩) hinv rfl) rfl
      ⟨_, rfl, rfl⟩).2
    exact ⟨_, _, _, hrun, rfl, hentry, hlost, rfl, hlost', rfl, rfl, rfl⟩
  · exact ⟨_, _, exec_any rfl, rfl, rfl, rfl⟩

end Tun

end SkadiCore.Client
