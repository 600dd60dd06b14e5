import SkadiCore.Mux.Relay
import SkadiCore.Server.Associate

/-!
# The connection handler and the outbound policy

Model of `handle_connection` (`crates/skadi-server/src/lib.rs`, lines 633-716) behind the
handshake, and of the network side of the UDP association of SOCKS5, whose loop is
`Server.Associate`, and of the mux relay (`crates/skadi-transport/src/mux.rs`), whose own steps
are those of `Mux.Relay`. Every operation that directs traffic to an address is logged.
-/

namespace SkadiCore.Server

open SkadiCore.Mux SkadiCore.Outbound SkadiCore.Relay SkadiCore.Socks5

inductive Protocol
  | socks5
  | vless
  deriving DecidableEq

structure Request where
  protocol : Protocol
  command : Byte
  target : Endpoint

/-- A SOCKS5 request for a UDP association. -/
def Request.IsAssociate (r : Request) : Prop :=
  r.protocol = .socks5 ∧ r.command = CMD_UDP_ASSOCIATE

inductive Phase
  | accepted
  | bind
  | associate
  | mux (relay : Mux.Relay) (frame : Option MuxFrame)
  | relaying
  | ended

structure Handler where
  config : OutboundConfig
  limits : RelayLimits
  request : Request
  phase : Phase
  log : List NetAct

/-- What happens next: the handler goes on behind the handshake; a datagram arrives at the
    relay socket of an association, with the reply of its target, if there is one; the
    mux relay takes a step; the handler ends. -/
inductive HandlerAct
  | serve (choice : NetChoice) (registry : XudpManager Handle)
  | datagram (source : SocketAddr) (data : Bytes) (choice : NetChoice) (reply : Option Bytes)
  | mux (act : Mux.Act) (choice : NetChoice)
  | close

namespace Handler

def start (config : OutboundConfig) (limits : RelayLimits) (request : Request) : Handler :=
  ⟨config, limits, request, .accepted, []⟩

def connected (h : Handler) (r : NetResult) : Handler :=
  { h with phase := if r.2 then .relaying else .ended, log := h.log ++ r.1 }

/-- The branches of `handle_connection` behind the handshake (lines 633-716). -/
def serve (h : Handler) (choice : NetChoice) (registry : XudpManager Handle) : Handler :=
  let r := h.request
  if r.protocol = .socks5 ∧ r.command = CMD_BIND then { h with phase := .bind }
  else if r.protocol = .socks5 ∧ r.command = CMD_UDP_ASSOCIATE then { h with phase := .associate }
  else
    match validateOutboundLiteral r.target h.config.allowPrivate with
    | .error _ => { h with phase := .ended }
    | .ok _ =>
      if r.protocol = .vless ∧ r.command = Vless.CMD_MUX then
        { h with phase := .mux (.init registry) none }
      else if r.protocol = .vless ∧ r.command = Vless.CMD_UDP then
        h.connected (h.config.outboundUdpTransport.connect r.target choice)
      else h.connected (h.config.outboundTcpTransport.connect r.target choice)

def Sent.netAct : Sent → Option NetAct
  | .reply packet addr => some (.sendTo addr packet)
  | .upstream _ _ => none

/-- A datagram at the relay socket of an association (`socks5_relay.rs`, lines 90-122): the
    connect, and the reply that the loop of the association sends. -/
def datagramActs (udp : UdpTransport) (source : SocketAddr) (data : Bytes) (choice : NetChoice)
    (reply : Option Bytes) : List NetAct :=
  match udpRequest data with
  | none => []
  | some (target, _) => (udp.connect target choice).1 ++
      (relayed udp ⟨source, data, choice, true, reply⟩).filterMap Sent.netAct

/-- `open_tcp_session` and `open_udp_session` (`mux.rs`, lines 444-540): the connect. -/
def openSession (config : OutboundConfig) (f : MuxFrame) (tcp : Bool) (choice : NetChoice) :
    NetResult :=
  match f.meta_.target with
  | none => ([], false)
  | some target =>
    if tcp then config.outboundTcpTransport.connect target choice
    else config.outboundUdpTransport.connect target choice

/-- `xudp_send` (`mux.rs`, lines 380-405) with a payload. -/
def xudpSendTo (config : OutboundConfig) (frame : Option MuxFrame) (payload : Bytes)
    (choice : NetChoice) : NetResult :=
  match frame.bind fun f => f.meta_.target with
  | none => ([], false)
  | some target =>
    match resolveEndpoint target config.outboundUdpTransport.allowPrivate choice.lookup with
    | .error _ => ([], false)
    | .ok addr => ([.sendTo addr payload], choice.attempts.headD false)

def muxActs (config : OutboundConfig) (relay : Mux.Relay) (frame : Option MuxFrame)
    (act : Mux.Act) (choice : NetChoice) : Option (List NetAct) :=
  match act, relay.main with
  | .main (.connectOk _), .connect f tcp =>
    let r := openSession config f tcp choice
    if r.2 then some r.1 else none
  | .main (.connectErr _), .connect f tcp =>
    let r := openSession config f tcp choice
    if r.2 then none else some r.1
  | .main .sendToOk, .sendTo payload =>
    let r := xudpSendTo config frame payload choice
    if r.2 then some r.1 else none
  | .main (.sendToErr _), .sendTo payload =>
    let r := xudpSendTo config frame payload choice
    if r.2 then none else some r.1
  | _, _ => some []

def nextFrame (frame : Option MuxFrame) : Mux.Act → Option MuxFrame
  | .main (.frame f _) => some f
  | _ => frame

def step (h : Handler) (act : HandlerAct) : Option Handler :=
  match h.phase, act with
  | .accepted, .serve choice registry => some (h.serve choice registry)
  | .associate, .datagram source data choice reply =>
    some { h with
      log := h.log ++
        datagramActs h.config.outboundUdpTransport source data choice reply }
  | .mux relay frame, .mux act choice =>
    match relay.step h.limits act, muxActs h.config relay frame act choice with
    | some relay', some acts =>
      some { h with phase := .mux relay' (nextFrame frame act), log := h.log ++ acts }
    | _, _ => none
  | .bind, .close | .associate, .close | .mux _ _, .close | .relaying, .close =>
    some { h with phase := .ended }
  | _, _ => none

/-! ## What a step logs -/

/-- The action answers the datagram at its own source address. -/
def Answers (act : HandlerAct) (a : NetAct) : Prop :=
  ∃ source data choice reply payload,
    act = .datagram source data choice reply ∧ a = .sendTo source payload

variable {h h' : Handler} {act : HandlerAct} {config : OutboundConfig} {a : NetAct}
  {choice : NetChoice}

theorem udp_connect_allowed (hconfig : config.allowPrivate = false) {endpoint : Endpoint}
    (ha : a ∈ (config.outboundUdpTransport.connect endpoint choice).1) : a.Allowed := by
  rw [OutboundConfig.outboundUdpTransport, hconfig] at ha
  exact UdpTransport.connect_allowed ha

theorem openSession_allowed (hconfig : config.allowPrivate = false) {f : MuxFrame} {tcp : Bool}
    (ha : a ∈ (openSession config f tcp choice).1) : a.Allowed := by
  unfold openSession at ha
  split at ha
  · cases ha
  · split_ifs at ha
    · exact OutboundConfig.connect_allowed hconfig ha
    · exact udp_connect_allowed hconfig ha

variable {frame : Option MuxFrame}

theorem xudpSendTo_allowed (hconfig : config.allowPrivate = false) {payload : Bytes}
    (ha : a ∈ (xudpSendTo config frame payload choice).1) : a.Allowed := by
  unfold xudpSendTo at ha
  split at ha
  · cases ha
  · simp only [OutboundConfig.outboundUdpTransport, hconfig] at ha
    split at ha
    · cases ha
    · next addr hr =>
      rw [List.mem_singleton.mp ha]
      exact resolveEndpoint_allowed hr

theorem muxActs_allowed (hconfig : config.allowPrivate = false) {relay : Mux.Relay} {act : Mux.Act}
    {acts : List NetAct} (h : muxActs config relay frame act choice = some acts) (ha : a ∈ acts) :
    a.Allowed := by
  unfold muxActs at h
  split at h
  · simp only [Option.ite_none_right_eq_some, Option.some.injEq] at h
    exact openSession_allowed hconfig (h.2 ▸ ha)
  · simp only [Option.ite_none_left_eq_some, Option.some.injEq] at h
    exact openSession_allowed hconfig (h.2 ▸ ha)
  · simp only [Option.ite_none_right_eq_some, Option.some.injEq] at h
    exact xudpSendTo_allowed hconfig (h.2 ▸ ha)
  · simp only [Option.ite_none_left_eq_some, Option.some.injEq] at h
    exact xudpSendTo_allowed hconfig (h.2 ▸ ha)
  · cases h
    cases ha

theorem datagramActs_allowed_or_answers (hconfig : config.allowPrivate = false)
    {source : SocketAddr} {data : Bytes} {reply : Option Bytes}
    (ha : a ∈ datagramActs config.outboundUdpTransport source data choice reply) :
    a.Allowed ∨ Answers (.datagram source data choice reply) a := by
  unfold datagramActs at ha
  split at ha
  · cases ha
  · rcases List.mem_append.mp ha with ha | ha
    · exact .inl (udp_connect_allowed hconfig ha)
    · obtain ⟨sent, hsent, hact⟩ := List.mem_filterMap.mp ha
      cases sent with
      | upstream target payload => cases hact
      | reply packet addr =>
        cases hact
        obtain rfl := addr_of_mem_relayed hsent
        exact .inr ⟨addr, data, choice, reply, packet, rfl, rfl⟩

theorem serve_log (hconfig : h.config.allowPrivate = false) {registry : XudpManager Handle}
    (ha : a ∈ (h.serve choice registry).log) : a ∈ h.log ∨ a.Allowed := by
  unfold serve at ha
  dsimp only at ha
  split at ha
  · exact .inl ha
  split at ha
  · exact .inl ha
  split at ha
  · exact .inl ha
  split_ifs at ha
  · exact .inl ha
  · exact (List.mem_append.mp ha).imp_right (udp_connect_allowed hconfig)
  · exact (List.mem_append.mp ha).imp_right (OutboundConfig.connect_allowed hconfig)

theorem step_log (hconfig : h.config.allowPrivate = false) (hstep : h.step act = some h')
    (ha : a ∈ h'.log) : a ∈ h.log ∨ a.Allowed ∨ (h.phase = .associate ∧ Answers act a) := by
  unfold step at hstep
  split at hstep
  · cases hstep
    exact (serve_log hconfig ha).imp_right .inl
  · next hphase =>
    cases hstep
    refine (List.mem_append.mp ha).imp_right fun ha => ?_
    exact (datagramActs_allowed_or_answers hconfig ha).imp_right fun hans => ⟨hphase, hans⟩
  · split at hstep
    · next hacts =>
      cases hstep
      refine (List.mem_append.mp ha).imp_right fun ha => ?_
      exact .inl (muxActs_allowed hconfig hacts ha)
    · cases hstep
  all_goals
    cases hstep
    try exact .inl ha

/-! ## Runs -/

/-- A step changes nothing but the phase and the log. -/
theorem step_eq (hstep : h.step act = some h') :
    ∃ phase log, h' = { h with phase := phase, log := log } := by
  unfold step serve connected at hstep
  dsimp only at hstep
  (repeat' split at hstep) <;> cases hstep <;> exact ⟨_, _, rfl⟩

theorem step_associate (hstep : h.step act = some h') (hphase : h'.phase = .associate) :
    h.phase = .associate ∨ h.request.IsAssociate := by
  unfold step serve connected at hstep
  dsimp only at hstep
  (repeat' split at hstep) <;> cases hstep <;> try cases hphase
  · exact .inr ‹_›
  · exact .inl ‹_›

structure Serves (config : OutboundConfig) (limits : RelayLimits) (request : Request)
    (h : Handler) : Prop where
  config_eq : h.config = config
  limits_eq : h.limits = limits
  request_eq : h.request = request
  associate : h.phase = .associate → request.IsAssociate

variable {limits : RelayLimits} {request : Request} {acts : List HandlerAct}

theorem Serves.run (hrun : Run step Any (start config limits request) acts h) :
    Serves config limits request h := by
  refine hrun.invariant (fun s act t hs _ hstep => ?_) ⟨rfl, rfl, rfl, fun h => by cases h⟩
  have hassoc := step_associate hstep
  obtain ⟨_, _, rfl⟩ := step_eq hstep
  obtain ⟨hc, hl, rfl, ha⟩ := hs
  exact ⟨hc, hl, rfl, fun hphase => (hassoc hphase).elim ha id⟩

/-- Without `allow_private`, whatever is asked for, whatever the resolver answers and
    whatever the client and the network do: no connect and no `send_to` goes to a
    forbidden address, except that an association answers a datagram to its source. -/
theorem outbound_allowed (hconfig : config.allowPrivate = false) (limits : RelayLimits)
    (request : Request) {acts : List HandlerAct}
    (hrun : Run step Any (start config limits request) acts h) :
    ∀ a ∈ h.log, isForbiddenIp a.addr.ip = false ∨
      (request.IsAssociate ∧ ∃ act ∈ acts, Answers act a) := by
  induction hrun with
  | nil => exact fun a ha => nomatch ha
  | @snoc t _ acts act hrun _ hstep ih =>
    have ht := Serves.run hrun
    intro a ha
    rcases step_log (ht.config_eq ▸ hconfig) hstep ha with ha | ha | ⟨hphase, hans⟩
    · refine (ih a ha).imp_right fun ⟨hassoc, act', hmem, hans⟩ => ?_
      exact ⟨hassoc, act', List.mem_append_left _ hmem, hans⟩
    · exact .inl ha
    · exact .inr ⟨ht.associate hphase, act, List.mem_append_right _ List.mem_cons_self, hans⟩

theorem outbound_allowed_connect :
    ∃ h acts, Run step Any
        (start ⟨false, false⟩ ⟨none, none⟩ ⟨.socks5, CMD_CONNECT, .domain "example.org" 443⟩)
        acts h ∧
      h.log = [.tcpConnect (.v4 (ipv4Addr 8 8 8 8) 443), .tcpConnect (.v4 (ipv4Addr 9 9 9 9) 443)] ∧
      ∀ a ∈ h.log, isForbiddenIp a.addr.ip = false ∨
        (Request.IsAssociate ⟨.socks5, CMD_CONNECT, .domain "example.org" 443⟩ ∧
          ∃ act ∈ acts, Answers act a) := by
  have hrun : Run step Any
      (start ⟨false, false⟩ ⟨none, none⟩ ⟨.socks5, CMD_CONNECT, .domain "example.org" 443⟩)
      [.serve
        ⟨.ok [.v4 (ipv4Addr 8 8 8 8) 443, .v4 (ipv4Addr 9 9 9 9) 443], true, true, [false, true],
          true⟩ .new] _ := exec_any rfl
  exact ⟨_, _, hrun, by decide, outbound_allowed rfl _ _ hrun⟩

theorem associate_answers_loopback :
    ∃ h acts, Run step Any
        (start ⟨false, false⟩ ⟨none, none⟩
          ⟨.socks5, CMD_UDP_ASSOCIATE, .ip (.v4 (ipv4Addr 0 0 0 0) 0)⟩) acts h ∧
      h.log = [.udpConnect (.v4 (ipv4Addr 8 8 8 8) 53),
        .sendTo (.v4 (ipv4Addr 127 0 0 1) 5000) [0, 0, 0, ATYP_IPV4, 8, 8, 8, 8, 0, 53, 9]] ∧
      isForbiddenIp (SocketAddr.v4 (ipv4Addr 127 0 0 1) 5000).ip = true := by
  exact ⟨_, [.serve ⟨.ok [], true, true, [], true⟩ .new,
    .datagram (.v4 (ipv4Addr 127 0 0 1) 5000) [0, 0, 0, ATYP_IPV4, 8, 8, 8, 8, 0, 53, 7]
      ⟨.ok [], true, true, [true], true⟩ (some [9])], exec_any rfl, by decide +kernel, by decide⟩

end Handler

end SkadiCore.Server
