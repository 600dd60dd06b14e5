import SkadiCore.Core.Endpoint

/-!
# Outbound policy and transports

Model of the checks of outbound destinations (`crates/skadi-core/src/endpoint.rs`), of the
resolution of a target (`crates/skadi-transport/src/outbound_policy.rs`) and of the
transports that connect to it (`tcp.rs`, `udp.rs`, `outbound.rs`, `tls_client.rs`).

What a transport does to the network is recorded, whether it succeeds or not. What the
resolver answers, and which operations succeed, is a choice of the environment.

* `resolveEndpointAddrs_allowed`: every address a target is resolved to was checked.
* `OutboundConfig.connect_allowed`, `UdpTransport.connect_allowed`: a transport with the
  policy only goes to addresses that are not forbidden.
-/

namespace SkadiCore.Outbound

/-! ## Forbidden addresses -/

def octet {n : ℕ} (ip : List.Vector Byte n) (i : ℕ) : Byte := byteAt ip.val i

/-- `is_forbidden_ipv4` (`endpoint.rs`, lines 30-41): `is_private`, `is_loopback`,
    `is_link_local`, `is_broadcast`, `is_documentation`, `is_unspecified`,
    `is_multicast`, `is_carrier_grade_nat`, `is_benchmarking_ipv4`, first octet 0. -/
def isForbiddenIpv4 (ip : List.Vector Byte 4) : Bool :=
  let a := octet ip 0
  let b := octet ip 1
  let c := octet ip 2
  (a == 10 || (a == 172 && 16 ≤ b && b ≤ 31) || (a == 192 && b == 168)) ||
    a == 127 ||
    (a == 169 && b == 254) ||
    ip == ipv4Addr 255 255 255 255 ||
    ((a == 192 && b == 0 && c == 2) || (a == 198 && b == 51 && c == 100) ||
      (a == 203 && b == 0 && c == 113)) ||
    ip == ipv4Addr 0 0 0 0 ||
    (224 ≤ a && a ≤ 239) ||
    (a == 100 && 64 ≤ b && b < 128) ||
    (a == 198 && 18 ≤ b && b < 20) ||
    a == 0

def toIpv4Mapped (ip : List.Vector Byte 16) : Option (List.Vector Byte 4) :=
  if ip.val.take 12 = List.replicate 10 0 ++ [0xff, 0xff] then some (toArray 4 (ip.val.drop 12))
  else none

/-- `is_forbidden_ipv6` (`endpoint.rs`, lines 55-67): IPv4-mapped, `is_loopback`,
    `is_unspecified`, `is_unique_local`, `is_unicast_link_local`, `is_multicast`. -/
def isForbiddenIpv6 (ip : List.Vector Byte 16) : Bool :=
  match toIpv4Mapped ip with
  | some v4 => isForbiddenIpv4 v4
  | none =>
    ip.val == List.replicate 15 0 ++ [1] ||
      ip.val == List.replicate 16 0 ||
      octet ip 0 &&& 0xfe == 0xfc ||
      (octet ip 0 == 0xfe && octet ip 1 &&& 0xc0 == 0x80) ||
      octet ip 0 == 0xff

/-- `is_forbidden_ip` (`endpoint.rs`, lines 23-28). -/
def isForbiddenIp : IpAddr → Bool
  | .v4 octets => isForbiddenIpv4 octets
  | .v6 octets => isForbiddenIpv6 octets

/-! ## Checks and resolution -/

inductive OutboundError
  | forbiddenDestination (addr : SocketAddr)
  | resolveFailed (host : String) (port : UInt16)
  | noAddresses (host : String) (port : UInt16)
  deriving DecidableEq

/-- `validate_resolved_addrs` (`endpoint.rs`, lines 85-97). -/
def validateResolvedAddrs (addrs : List SocketAddr) (allowPrivate : Bool) :
    Except OutboundError Unit :=
  if allowPrivate then .ok ()
  else
    match addrs.find? fun addr => isForbiddenIp addr.ip with
    | some addr => .error (.forbiddenDestination addr)
    | none => .ok ()

/-- `validate_outbound_literal` (`endpoint.rs`, lines 70-82). -/
def validateOutboundLiteral (endpoint : Endpoint) (allowPrivate : Bool) :
    Except OutboundError Unit :=
  if allowPrivate then .ok ()
  else
    match endpoint with
    | .ip addr => if isForbiddenIp addr.ip then .error (.forbiddenDestination addr) else .ok ()
    | .domain _ _ => .ok ()

abbrev Addrs := { addrs : List SocketAddr // addrs ≠ [] }

/-- The addresses of a target before they are checked (`outbound_policy.rs`,
    lines 13-28); `lookup` is what `lookup_host` answers. -/
def lookupEndpoint (endpoint : Endpoint) (lookup : Except String (List SocketAddr)) :
    Except OutboundError Addrs :=
  match endpoint with
  | .ip addr => .ok ⟨[addr], List.cons_ne_nil addr []⟩
  | .domain host port =>
    match lookup with
    | .error _ => .error (.resolveFailed host port)
    | .ok addrs => if h : addrs = [] then .error (.noAddresses host port) else .ok ⟨addrs, h⟩

/-- `resolve_endpoint_addrs` (`outbound_policy.rs`, lines 7-33). -/
def resolveEndpointAddrs (endpoint : Endpoint) (allowPrivate : Bool)
    (lookup : Except String (List SocketAddr)) : Except OutboundError Addrs := do
  validateOutboundLiteral endpoint allowPrivate
  let addrs ← lookupEndpoint endpoint lookup
  validateResolvedAddrs addrs.val allowPrivate
  return addrs

/-- `prefer_ipv4` (`outbound_policy.rs`, lines 43-49). -/
def preferIpv4 (addrs : Addrs) : SocketAddr :=
  (addrs.val.find? fun addr => match addr with
    | .v4 _ _ => true
    | .v6 _ _ _ _ => false).getD (addrs.val.head addrs.property)

/-- `resolve_endpoint` (`outbound_policy.rs`, lines 35-41). -/
def resolveEndpoint (endpoint : Endpoint) (allowPrivate : Bool)
    (lookup : Except String (List SocketAddr)) : Except OutboundError SocketAddr :=
  (resolveEndpointAddrs endpoint allowPrivate lookup).map preferIpv4

/-! ## Transports -/

inductive NetAct
  | tcpConnect (addr : SocketAddr)
  | udpConnect (addr : SocketAddr)
  | sendTo (addr : SocketAddr) (payload : Bytes)
  deriving DecidableEq

def NetAct.addr : NetAct → SocketAddr
  | tcpConnect addr => addr
  | udpConnect addr => addr
  | sendTo addr _ => addr

/-- What the environment decides about a connection: the answer of the resolver, whether a
    local socket can be bound, whether the target makes a TLS server name, which
    attempts succeed, and whether the TLS handshake does. -/
structure NetChoice where
  lookup : Except String (List SocketAddr)
  bound : Bool
  named : Bool
  attempts : List Bool
  handshake : Bool

abbrev NetResult := List NetAct × Bool

/-- The loop of `TcpTransport::connect` (`tcp.rs`, lines 34-48): one address after the
    other until a connection is there. -/
def tryConnect : List SocketAddr → List Bool → NetResult
  | [], _ => ([], false)
  | addr :: addrs, results =>
    if results.headD false then ([.tcpConnect addr], true)
    else
      let r := tryConnect addrs results.tail
      (.tcpConnect addr :: r.1, r.2)

structure TcpTransport where
  allowPrivate : Bool

/-- `TcpTransport::connect` (`tcp.rs`, lines 30-54). -/
def TcpTransport.connect (t : TcpTransport) (endpoint : Endpoint) (choice : NetChoice) :
    NetResult :=
  match resolveEndpointAddrs endpoint t.allowPrivate choice.lookup with
  | .error _ => ([], false)
  | .ok addrs => tryConnect addrs.val choice.attempts

structure UdpTransport where
  allowPrivate : Bool

/-- `UdpTransport::connect` (`udp.rs`, lines 40-54). -/
def UdpTransport.connect (t : UdpTransport) (endpoint : Endpoint) (choice : NetChoice) :
    NetResult :=
  if choice.bound then
    match resolveEndpoint endpoint t.allowPrivate choice.lookup with
    | .error _ => ([], false)
    | .ok addr => ([.udpConnect addr], choice.attempts.headD false)
  else ([], false)

inductive OutboundTcpTransport
  | plain (tcp : TcpTransport)
  | tls (tcp : TcpTransport)
  | reality (tcp : TcpTransport)

/-- `OutboundTcpTransport::connect` (`outbound.rs`, lines 132-138): TLS needs a server name
    of the target before it connects (`tls_client.rs`, lines 83-101), REALITY has one
    of its own. -/
def OutboundTcpTransport.connect (t : OutboundTcpTransport) (endpoint : Endpoint)
    (choice : NetChoice) : NetResult :=
  match t with
  | .plain tcp => tcp.connect endpoint choice
  | .tls tcp =>
    if choice.named then
      let r := tcp.connect endpoint choice
      (r.1, r.2 && choice.handshake)
    else ([], false)
  | .reality tcp =>
    let r := tcp.connect endpoint choice
    (r.1, r.2 && choice.handshake)

/-- `OutboundConfig` (`skadi-config/src/lib.rs`, lines 310-319), as far as it decides about
    transports. -/
structure OutboundConfig where
  allowPrivate : Bool
  tlsEnabled : Bool

/-- `Config::outbound_tcp_transport` (`lib.rs`, lines 1019-1034). -/
def OutboundConfig.outboundTcpTransport (config : OutboundConfig) : OutboundTcpTransport :=
  if config.tlsEnabled then .tls ⟨config.allowPrivate⟩ else .plain ⟨config.allowPrivate⟩

/-- The UDP transport of the server (`skadi-server/src/lib.rs`, lines 102-103). -/
def OutboundConfig.outboundUdpTransport (config : OutboundConfig) : UdpTransport :=
  ⟨config.allowPrivate⟩

/-! ## Where the transports go -/

def NetAct.Allowed (a : NetAct) : Prop := isForbiddenIp a.addr.ip = false

variable {addrs : List SocketAddr}

theorem validateResolvedAddrs_ok_iff :
    validateResolvedAddrs addrs false = .ok () ↔
      ∀ addr ∈ addrs, isForbiddenIp addr.ip = false := by
  simp only [validateResolvedAddrs, Bool.false_eq_true, if_false]
  cases h : addrs.find? fun addr => isForbiddenIp addr.ip with
  | none => simpa using h
  | some addr =>
    simp only [reduceCtorEq, false_iff, not_forall]
    exact ⟨addr, List.mem_of_find?_eq_some h, by simpa using List.find?_some h⟩

variable {endpoint : Endpoint} {lookup : Except String (List SocketAddr)}

theorem resolveEndpointAddrs_allowed {addrs : Addrs}
    (h : resolveEndpointAddrs endpoint false lookup = .ok addrs) :
    ∀ addr ∈ addrs.val, isForbiddenIp addr.ip = false := by
  unfold resolveEndpointAddrs at h
  cases hlit : validateOutboundLiteral endpoint false with
  | error e => simp [hlit, bind, Except.bind] at h
  | ok =>
    cases hlook : lookupEndpoint endpoint lookup with
    | error e => simp [hlit, hlook, bind, Except.bind] at h
    | ok addrs' =>
      cases hval : validateResolvedAddrs addrs'.val false with
      | error e => simp [hlit, hlook, hval, bind, Except.bind] at h
      | ok =>
        simp only [hlit, hlook, hval, bind, Except.bind, pure, Except.pure, Except.ok.injEq] at h
        subst h
        exact validateResolvedAddrs_ok_iff.mp hval

theorem preferIpv4_mem (addrs : Addrs) : preferIpv4 addrs ∈ addrs.val := by
  unfold preferIpv4
  cases h : addrs.val.find? _ with
  | none => exact List.head_mem addrs.property
  | some addr => exact List.mem_of_find?_eq_some h

theorem resolveEndpoint_allowed {addr : SocketAddr}
    (h : resolveEndpoint endpoint false lookup = .ok addr) : isForbiddenIp addr.ip = false := by
  unfold resolveEndpoint at h
  cases hr : resolveEndpointAddrs endpoint false lookup with
  | error e => simp [hr, Except.map] at h
  | ok addrs =>
    simp only [hr, Except.map, Except.ok.injEq] at h
    subst h
    exact resolveEndpointAddrs_allowed hr _ (preferIpv4_mem addrs)

variable {a : NetAct}

theorem tryConnect_addr {results : List Bool} (h : a ∈ (tryConnect addrs results).1) :
    a.addr ∈ addrs := by
  induction addrs generalizing results with
  | nil => cases h
  | cons addr addrs ih =>
    rw [tryConnect] at h
    split_ifs at h
    · rw [List.mem_singleton.mp h]
      exact List.mem_cons_self
    · rcases List.mem_cons.mp h with rfl | h
      · exact List.mem_cons_self
      · exact List.mem_cons_of_mem _ (ih h)

variable {choice : NetChoice}

theorem TcpTransport.connect_allowed (h : a ∈ (TcpTransport.connect ⟨false⟩ endpoint choice).1) :
    a.Allowed := by
  unfold TcpTransport.connect at h
  cases hr : resolveEndpointAddrs endpoint false choice.lookup with
  | error e => simp [hr] at h
  | ok addrs =>
    rw [hr] at h
    exact resolveEndpointAddrs_allowed hr _ (tryConnect_addr h)

theorem UdpTransport.connect_allowed (h : a ∈ (UdpTransport.connect ⟨false⟩ endpoint choice).1) :
    a.Allowed := by
  unfold UdpTransport.connect at h
  split_ifs at h
  · cases hr : resolveEndpoint endpoint false choice.lookup with
    | error e => simp [hr] at h
    | ok addr =>
      rw [hr] at h
      rw [List.mem_singleton.mp h]
      exact resolveEndpoint_allowed hr
  · cases h

theorem OutboundConfig.connect_allowed {config : OutboundConfig}
    (hconfig : config.allowPrivate = false)
    (h : a ∈ (config.outboundTcpTransport.connect endpoint choice).1) : a.Allowed := by
  unfold outboundTcpTransport at h
  rw [hconfig] at h
  split_ifs at h
  · simp only [OutboundTcpTransport.connect] at h
    split_ifs at h
    · exact TcpTransport.connect_allowed h
    · cases h
  · exact TcpTransport.connect_allowed h

end SkadiCore.Outbound
