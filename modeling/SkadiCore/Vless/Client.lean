import SkadiCore.Vless.Handler

/-!
# The VLESS client

Model of the builders of requests: `build_tcp_request` to `build_tcp_domain_request`
(`crates/skadi-protocol/src/vless/parse.rs`, lines 254-308) and
`build_tcp_endpoint_request`, `build_udp_endpoint_request` (`vless/client.rs`, lines
72-109). They write the fields one by one; only the IPv6 branch goes through
`encode_port_address`. `VlessClient` (`vless/client.rs`, lines 15-70) sends what is built and
waits for the two bytes of the answer.

* `buildTcpEndpointRequest_eq`, `buildUdpEndpointRequest_eq`: what is built is the
  encoding of the request without addons.
-/

namespace SkadiCore.Vless

/-! ## The builders -/

def requestHead (command : Byte) (uuid : Uuid) : Bytes :=
  VLESS_VERSION :: (uuid.val ++ [0, command])

def ipv4Request (command : Byte) (uuid : Uuid) (addr : List.Vector Byte 4) (port : UInt16) :
    Bytes :=
  requestHead command uuid ++ (toBe16 port ++ ATYP_IPV4 :: addr.val)

def domainRequest (command : Byte) (uuid : Uuid) (domain : String) (port : UInt16) : Bytes :=
  requestHead command uuid ++
    (toBe16 port ++ ATYP_DOMAIN :: UInt8.ofNat (asBytes domain).length :: asBytes domain)

/-- `build_tcp_request` (`parse.rs`, lines 255-265). -/
def buildTcpRequest : Uuid → List.Vector Byte 4 → UInt16 → Bytes := ipv4Request CMD_TCP

/-- `build_udp_request` (lines 268-278). -/
def buildUdpRequest : Uuid → List.Vector Byte 4 → UInt16 → Bytes := ipv4Request CMD_UDP

/-- `build_udp_domain_request` (lines 281-293). -/
def buildUdpDomainRequest : Uuid → String → UInt16 → Bytes := domainRequest CMD_UDP

/-- `build_tcp_domain_request` (lines 296-308). -/
def buildTcpDomainRequest : Uuid → String → UInt16 → Bytes := domainRequest CMD_TCP

section

variable (uuid : Uuid) (target : Endpoint)

/-- `build_tcp_endpoint_request` (`client.rs`, lines 74-90). -/
def buildTcpEndpointRequest : Bytes :=
  match target with
  | .ip addr =>
    match addr.ip with
    | .v4 ip => buildTcpRequest uuid ip addr.port
    | .v6 _ => requestHead CMD_TCP uuid ++ encodePortAddress target
  | .domain domain port => buildTcpDomainRequest uuid domain port

/-- `build_udp_endpoint_request` (lines 93-109). -/
def buildUdpEndpointRequest : Bytes :=
  match target with
  | .ip addr =>
    match addr.ip with
    | .v4 ip => buildUdpRequest uuid ip addr.port
    | .v6 _ => requestHead CMD_UDP uuid ++ encodePortAddress target
  | .domain domain port => buildUdpDomainRequest uuid domain port

/-! ## Round trips -/

theorem requestHead_eq (command : Byte) :
    requestHead command uuid = encodeHead uuid [] command := rfl

theorem buildTcpEndpointRequest_eq :
    buildTcpEndpointRequest uuid target = encodeRequest ⟨uuid, CMD_TCP, [], target⟩ := by
  have htcp : CMD_TCP ≠ CMD_MUX := by decide
  rw [encodeRequest, encodeTail, if_neg htcp, ← requestHead_eq]
  cases target with
  | ip addr => cases addr <;> rfl
  | domain host port => rfl

theorem buildUdpEndpointRequest_eq :
    buildUdpEndpointRequest uuid target = encodeRequest ⟨uuid, CMD_UDP, [], target⟩ := by
  have hudp : CMD_UDP ≠ CMD_MUX := by decide
  rw [encodeRequest, encodeTail, if_neg hudp, ← requestHead_eq]
  cases target with
  | ip addr => cases addr <;> rfl
  | domain host port => rfl

end

theorem parseRequest_encode {command : Byte} {target : Endpoint} (uuid : Uuid)
    (hok : TargetOk command target) (rest : Bytes) :
    parseRequest (encodeRequest ⟨uuid, command, [], target⟩ ++ rest) =
      .ok (⟨uuid, command, [], target⟩, (encodeRequest ⟨uuid, command, [], target⟩).length) :=
  parseRequest_ok_iff.mpr ⟨rest, rfl, ⟨by simp, hok⟩, rfl⟩

theorem encodePortAddress_of_parse {input : Bytes} {target : Endpoint} {n : ℕ}
    (h : parsePortAddress input = .ok (target, n)) : encodePortAddress target = input.take n := by
  obtain ⟨rest, rfl, -, rfl⟩ := encode_of_parsePortAddress h
  exact List.take_left.symm

/-- Both round trips: a request that is built is parsed back, and an address that is parsed
    is encoded back. -/
theorem request_codec :
    (∀ (uuid : Uuid) (target : Endpoint) (rest : Bytes), target.Canonical →
      parseRequest (buildTcpEndpointRequest uuid target ++ rest) =
          .ok (⟨uuid, CMD_TCP, [], target⟩, (buildTcpEndpointRequest uuid target).length) ∧
        parseRequest (buildUdpEndpointRequest uuid target ++ rest) =
          .ok (⟨uuid, CMD_UDP, [], target⟩, (buildUdpEndpointRequest uuid target).length)) ∧
      ∀ (input : Bytes) (ep : Endpoint) (n : ℕ), parsePortAddress input = .ok (ep, n) →
        encodePortAddress ep = input.take n := by
  refine ⟨fun uuid target rest hok => ⟨?_, ?_⟩, fun input ep n h => encodePortAddress_of_parse h⟩
  · rw [buildTcpEndpointRequest_eq]
    exact parseRequest_encode uuid (.inr ⟨.inl rfl, hok⟩) rest
  · rw [buildUdpEndpointRequest_eq]
    exact parseRequest_encode uuid (.inr ⟨.inr rfl, hok⟩) rest

theorem request_codec_ipv6 :
    parseRequest (buildTcpEndpointRequest (.replicate 16 7) (.ip (.v6 (.replicate 16 1) 443 0 0)) ++
        [1, 2]) =
      .ok (⟨.replicate 16 7, CMD_TCP, [], .ip (.v6 (.replicate 16 1) 443 0 0)⟩, 38) ∧
    encodePortAddress (.ip (.v4 (ipv4Addr 10 0 0 1) 53)) =
      List.take 7 [0, 53, ATYP_IPV4, 10, 0, 0, 1, 9] :=
  ⟨(request_codec.1 _ (.ip (.v6 (.replicate 16 1) 443 0 0)) _ ⟨rfl, rfl⟩).1,
    request_codec.2 [0, 53, ATYP_IPV4, 10, 0, 0, 1, 9] _ _ rfl⟩

/-! ## The handshake of the client -/

open Conn

namespace VlessClient

/-- `handshake_inner` (lines 45-70). -/
def handshakeInner (request : Bytes) : ClientM Unit := do
  context (writeAll request) "failed to write VLESS request"
  let response ← context (readExact 2 EARLY_EOF) "failed to read VLESS response header"
  if response ≠ buildResponseHeader VLESS_VERSION then
    fail s!"unexpected VLESS response: {hex02 (byteAt response 0)} {hex02 (byteAt response 1)}"
  else pure ()

def handshake (request : Bytes) : ClientM Unit :=
  timeout (handshakeInner request) "VLESS client handshake timeout"

/-- `handshake_tcp` (lines 19-24). -/
def handshakeTcp (uuid : Uuid) (target : Endpoint) : ClientM Unit :=
  handshake (buildTcpEndpointRequest uuid target)

/-- `handshake_udp` (lines 27-32). -/
def handshakeUdp (uuid : Uuid) (target : Endpoint) : ClientM Unit :=
  handshake (buildUdpEndpointRequest uuid target)

theorem handshake_ok_iff {request : Bytes} {c c' : Conn Byte String} {x : Unit}
    (hc : c.faults = []) :
    Ok (handshake request) c x c' ↔ Takes c c' 0 (buildResponseHeader VLESS_VERSION) request := by
  simp only [handshake, handshakeInner, ok_timeout, ok_bind, ok_context, ok_ite, ok_fail, ok_pure,
    and_false, false_or, not_not, ok_writeAll_of_faults_nil hc]
  constructor
  · rintro ⟨-, c₁, hwrite, response, c₂, hread, rfl, -, rfl⟩
    rw [ok_readExact_of_faults_nil (hwrite.faults_nil hc)] at hread
    simpa using hwrite.trans hread.2
  · intro htake
    have hboth : Takes c c' (0 + 0) ([] ++ buildResponseHeader VLESS_VERSION) (request ++ []) := by
      simpa using htake
    obtain ⟨c₁, hwrite, hread⟩ := hboth.split
    exact ⟨(), c₁, hwrite, _, c',
      (ok_readExact_of_faults_nil (hwrite.faults_nil hc)).mpr ⟨rfl, hread⟩, rfl, trivial, rfl⟩

end VlessClient

inductive ClientCall
  | tcp
  | udp

namespace ClientCall

def command : ClientCall → Byte
  | tcp => CMD_TCP
  | udp => CMD_UDP

def request (uuid : Uuid) (target : Endpoint) : ClientCall → Bytes
  | tcp => buildTcpEndpointRequest uuid target
  | udp => buildUdpEndpointRequest uuid target

def handshake (uuid : Uuid) (target : Endpoint) : ClientCall → ClientM Unit
  | tcp => VlessClient.handshakeTcp uuid target
  | udp => VlessClient.handshakeUdp uuid target

theorem request_eq (call : ClientCall) (uuid : Uuid) (target : Endpoint) :
    call.request uuid target = encodeRequest ⟨uuid, call.command, [], target⟩ := by
  cases call with
  | tcp => exact buildTcpEndpointRequest_eq uuid target
  | udp => exact buildUdpEndpointRequest_eq uuid target

theorem handshake_eq (call : ClientCall) (uuid : Uuid) (target : Endpoint) :
    call.handshake uuid target = VlessClient.handshake (call.request uuid target) := by
  cases call <;> rfl

theorem targetOk (call : ClientCall) {target : Endpoint} (h : target.Canonical) :
    TargetOk call.command target := by
  cases call with
  | tcp => exact .inr ⟨.inl rfl, h⟩
  | udp => exact .inr ⟨.inr rfl, h⟩

end ClientCall

/-- The server knows the UUID and lets it use no flow. -/
def Permits (config : VlessConfig) (uuid : Uuid) : Prop :=
  ∃ user, config.authenticate uuid = some user ∧ validateFlow none user.flow = .ok ()

theorem accepts_request_iff {config : VlessConfig} {uuid : Uuid} {target : Endpoint}
    (htarget : target.Canonical) (call : ClientCall) (up : Bytes) (h : VlessHandshake) (n : ℕ) :
    Accepts config (call.request uuid target ++ up) h n ↔
      Permits config uuid ∧ h = ⟨call.command, target⟩ ∧ n = (call.request uuid target).length := by
  have hparse := parseRequest_encode uuid (call.targetOk htarget) up
  have haddons : parseAddons [] = .ok ⟨none, none⟩ := by decide +kernel
  rw [← ClientCall.request_eq] at hparse
  constructor
  · rintro ⟨req, user, addons, hreq, rfl, hauth, haddons', hflow⟩
    cases hparse.symm.trans hreq
    cases haddons.symm.trans haddons'
    exact ⟨⟨user, hauth, hflow⟩, rfl, rfl⟩
  · rintro ⟨⟨user, hauth, hflow⟩, rfl, rfl⟩
    exact ⟨_, user, _, hparse, rfl, hauth, haddons, hflow⟩

/-- Both ends of a connection, for every target that a request can name and every way in which
    the client's bytes arrive. If the user is permitted, the server takes the request for what
    the client asked, the client returns on the server's answer, and what either sends next
    is left untouched for the other. If not, the client never returns. -/
theorem handshakes_agree (config : VlessConfig) (uuid : Uuid) {target : Endpoint}
    (htarget : target.Canonical) (call : ClientCall) {segs : List Bytes} {up : Bytes}
    (hsegs : segs.flatten = call.request uuid target ++ up) (down : Bytes) (eof eof' : Bool) :
    let served := Conn.exec (handshake config) (arriving segs eof [])
    (Permits config uuid →
      served.1 = .ok ⟨call.command, target⟩ ∧ served.2.input = up ∧
        Ok (call.handshake uuid target) (arriving [served.2.output, down] eof' []) ()
          (arriving [down] eof' (call.request uuid target))) ∧
    (¬ Permits config uuid → ∀ x c',
      ¬ Ok (call.handshake uuid target) (arriving [served.2.output] eof' []) x c') := by
  intro served
  constructor
  · intro hpermits
    have haccepts := (accepts_request_iff htarget call up _ _).mpr ⟨hpermits, rfl, rfl⟩
    rw [← hsegs] at haccepts
    have hserved : served = _ := ok_timeout.mpr
      (((handshakeInner_refines config segs eof).1 _ _).mpr ⟨_, haccepts, rfl⟩)
    rw [hserved, call.handshake_eq, VlessClient.handshake_ok_iff rfl]
    exact ⟨rfl, by simp [hsegs], by simp, by simp [arriving], rfl, rfl, rfl⟩
  · intro hpermits x c' hok
    have hsilent : served.2.output = [] := by
      rw [show served.2 = _ from exec_timeout_snd _ _ _]
      refine (handshakeInner_refines config segs eof).2 fun h n haccepts => hpermits ?_
      rw [hsegs] at haccepts
      exact ((accepts_request_iff htarget call up h n).mp haccepts).1
    rw [hsilent, call.handshake_eq, VlessClient.handshake_ok_iff rfl] at hok
    simpa [arriving, buildResponseHeader] using hok.input

theorem handshakes_agree_oneUser :
    let target := connectRequest.target
    let served (uuid : Uuid) (call : ClientCall) :=
      Conn.exec (handshake oneUser) (arriving [call.request uuid target, [0x42]] true [])
    ((served connectRequest.uuid .tcp).2.input = [0x42] ∧
      Ok (VlessClient.handshakeTcp connectRequest.uuid target)
        (arriving [(served connectRequest.uuid .tcp).2.output, [7]] true []) ()
        (arriving [[7]] true (buildTcpEndpointRequest connectRequest.uuid target))) ∧
    ∀ x c', ¬ Ok (VlessClient.handshakeUdp (.replicate 16 1) target)
      (arriving [(served (.replicate 16 1) .udp).2.output] true []) x c' := by
  intro target served
  have htarget : connectRequest.target.Canonical := trivial
  have hflatten : ∀ bs : Bytes, [bs, [0x42]].flatten = bs ++ [0x42] := by simp
  constructor
  · refine ((handshakes_agree oneUser connectRequest.uuid htarget .tcp (hflatten _)
      [7] true true).1 ?_).2
    exact ⟨⟨"00000000-0000-0000-0000-000000000007", none, none⟩, by decide +kernel, rfl⟩
  · refine (handshakes_agree oneUser (.replicate 16 1) htarget .udp (hflatten _) [] true true).2 ?_
    have hunknown : oneUser.authenticate (.replicate 16 1) = none := by decide +kernel
    rintro ⟨user, hauth, -⟩
    rw [hunknown] at hauth
    cases hauth

end SkadiCore.Vless
