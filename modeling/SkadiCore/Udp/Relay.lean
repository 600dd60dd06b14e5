import SkadiCore.Common.Bytes
import SkadiCore.Common.ReadLoop
import SkadiCore.Common.Run
import SkadiCore.Core.Endpoint
import SkadiCore.Core.Io
import SkadiCore.Relay.Limits

/-!
# VLESS over UDP

Model of the length-prefixed framing and of the two loops that use it:
`relay_vless_udp_with_limits` on the server (`crates/skadi-transport/src/udp.rs`) and
`relay_udp_flow` in the TUN client (`crates/skadi-client/src/tun/mod.rs`).

Both are a `select!` between `read_vless_udp_frame` and datagrams of the other side.
`select!` polls a new read in every iteration, so the one it was running is dropped
whenever the other branch fires. A step is what a loop does from one await point to
the next.
-/

namespace SkadiCore.Udp

open SkadiCore.Relay

/-! ## Frames -/

def MAX_VLESS_UDP_PAYLOAD : ℕ := 65535

def tooLarge : IoError := ⟨.invalidData, "VLESS UDP frame too large"⟩

/-- `read_vless_udp_frame` (`udp.rs`, lines 124-149). -/
def readVlessUdpFrame : ReadProg Byte IoError (Except IoError (Option Bytes)) :=
  .exact 2 (fun e => if e.kind = .unexpectedEof then .ok none else .error e) fun lenBuf =>
    let len := (fromBe16 (byteAt lenBuf 0) (byteAt lenBuf 1)).toNat
    if len > MAX_VLESS_UDP_PAYLOAD then .ret (.error tooLarge)
    else if len > 0 then .exact len .error fun payload => .ret (.ok (some payload))
    else .ret (.ok (some []))

def udpFrame (payload : Bytes) : Bytes := toBe16 (UInt16.ofNat payload.length) ++ payload

/-- What `write_vless_udp_frame` (`udp.rs`, lines 151-165) writes. -/
def writeVlessUdpFrame (payload : Bytes) : Except IoError Bytes :=
  if payload.length > MAX_VLESS_UDP_PAYLOAD then .error tooLarge else .ok (udpFrame payload)

abbrev FrameLoop := ReadLoop Byte

def earlyEof : IoError := ⟨.unexpectedEof, "early eof"⟩

def streamFails (r : FrameLoop) (e : IoError) : Option (Except IoError (Option Bytes)) :=
  if e = earlyEof ∧ r.unread = [] ∨ e.kind ≠ .unexpectedEof then r.failed readVlessUdpFrame e
  else none

/-! ## The server -/

inductive RelayPc
  | select
  | send (payload : Bytes)
  | write (data : Bytes)
  | returned (result : Except IoError (ℕ × ℕ))

/-- The state of `relay_vless_udp_with_limits`. -/
structure UdpRelay where
  pc : RelayPc
  reader : FrameLoop
  sent : List Bytes
  toClient : Bytes
  clientToUpstream : ℕ
  upstreamToClient : ℕ

def UdpRelay.init (stream : Bytes) : UdpRelay := ⟨.select, .init stream, [], [], 0, 0⟩

inductive RelayAct
  | idleTimeout
  | lifetimeTimeout
  /-- The client stream hands over `k` bytes. -/
  | take (k : ℕ)
  /-- The client stream ends or fails. -/
  | readFails (e : IoError)
  /-- `upstream.recv` returned a datagram. -/
  | recv (data : Bytes)
  | recvFails (e : IoError)
  | sendOk
  | sendFails (e : IoError)
  | writeOk
  | writeFails (e : IoError)

namespace UdpRelay

def finish (s : UdpRelay) (result : Except IoError (ℕ × ℕ)) : UdpRelay :=
  { s with pc := .returned result }

def onRead (s : UdpRelay) : Except IoError (Option Bytes) → UdpRelay
  | .ok none => s.finish (.ok (s.clientToUpstream, s.upstreamToClient))
  | .ok (some payload) => { s with pc := .send payload }
  | .error e => s.finish (.error e)

def step (limits : RelayLimits) (s : UdpRelay) (a : RelayAct) : Option UdpRelay :=
  match s.pc, a with
  | .select, .idleTimeout =>
    if limits.idle.isSome then some (s.finish (.error ⟨.timedOut, IDLE_TIMEOUT_MSG⟩)) else none
  | .select, .lifetimeTimeout =>
    if limits.maxLifetime.isSome then some (s.finish (.error ⟨.timedOut, SESSION_LIFETIME_MSG⟩))
    else none
  | .select, .take k =>
    -- a read that returns is the branch `select!` takes
    match s.reader.take readVlessUdpFrame k with
    | none => none
    | some (r, none) => some { s with reader := r }
    | some (r, some result) => some ({ s with reader := r }.onRead result)
  | .select, .readFails e => (streamFails s.reader e).map s.onRead
  | .select, .recv data =>
    if data.length ≤ MAX_VLESS_UDP_PAYLOAD then
      if data.isEmpty then some { s with reader := s.reader.drop }
      else some { s with pc := .write data, reader := s.reader.drop }
    else none
  | .select, .recvFails e => some (s.finish (.error e))
  | .send payload, .sendOk =>
    some { s with
      pc := .select
      sent := s.sent ++ [payload]
      clientToUpstream := s.clientToUpstream + payload.length }
  | .send _, .sendFails e => some (s.finish (.error e))
  | .write data, .writeOk =>
    match writeVlessUdpFrame data with
    | .error e => some (s.finish (.error e))
    | .ok bytes =>
      some { s with
        pc := .select
        toClient := s.toClient ++ bytes
        upstreamToClient := s.upstreamToClient + data.length }
  | .write _, .writeFails e => some (s.finish (.error e))
  | _, _ => none

end UdpRelay

/-! ## The TUN client -/

/-- `max_udp_payload_ipv4` (`pmtud.rs`, lines 142-146). -/
def maxUdpPayloadIpv4 (mtu : UInt16) : ℕ := max (mtu.toNat - (20 + 8)) 1

structure IcmpFragNeeded where
  src : List.Vector Byte 4
  dst : List.Vector Byte 4
  srcPort : UInt16
  dstPort : UInt16
  mtu : UInt16

inductive FlowPc
  | select
  | write (data : Bytes)
  | returned (result : Except IoError Unit)

/-- The state of the loop: the reader, what was sent to `reply_tx` and to
    `stack_inject_tx` and whether their receivers are gone, and the bytes written to the
    tunnel. -/
structure UdpFlow where
  pc : FlowPc
  reader : FrameLoop
  replies : List (Bytes × SocketAddr × SocketAddr)
  replyClosed : Bool
  injected : List IcmpFragNeeded
  injectClosed : Bool
  toServer : Bytes

def UdpFlow.init (stream : Bytes) : UdpFlow := ⟨.select, .init stream, [], false, [], false, []⟩

inductive FlowAct
  /-- `inbound.recv` returned; the two values of `mtu_state.get()` used with it. -/
  | inbound (payload : Option Bytes) (mtu mtu' : UInt16)
  /-- The tunnel hands over `k` bytes. -/
  | take (k : ℕ)
  /-- The tunnel ends or fails. -/
  | readFails (e : IoError)
  | writeOk
  | writeFails (e : IoError)
  | replyCloses
  | injectCloses

namespace UdpFlow

def onRead (local_ remote : SocketAddr) (s : UdpFlow) : Except IoError (Option Bytes) → UdpFlow
  | .ok none => { s with pc := .returned (.ok ()) }
  | .ok (some data) =>
    if s.replyClosed then { s with pc := .returned (.ok ()) }
    else { s with replies := s.replies ++ [(data, local_, remote)] }
  | .error e => { s with pc := .returned (.error e) }

/-- A datagram that does not fit is dropped; for IPv4 the stack is told (lines 377-406). -/
def onOversized (local_ remote : SocketAddr) (s : UdpFlow) (mtu : UInt16) : UdpFlow :=
  match local_.ip, remote.ip with
  | .v4 src, .v4 dst =>
    if s.injectClosed then { s with pc := .returned (.ok ()) }
    else { s with
      injected := s.injected ++ [⟨src, dst, local_.port, remote.port, mtu⟩]
      reader := s.reader.drop }
  | _, _ => { s with reader := s.reader.drop }

def onInbound (local_ remote : SocketAddr) (s : UdpFlow) (mtu mtu' : UInt16) :
    Option Bytes → UdpFlow
  | none => { s with pc := .returned (.ok ()) }
  | some data =>
    if data.length > maxUdpPayloadIpv4 mtu then s.onOversized local_ remote mtu'
    else { s with pc := .write data, reader := s.reader.drop }

def step (local_ remote : SocketAddr) (s : UdpFlow) (a : FlowAct) : Option UdpFlow :=
  match s.pc, a with
  | .select, .inbound payload mtu mtu' => some (s.onInbound local_ remote mtu mtu' payload)
  | .select, .take k =>
    match s.reader.take readVlessUdpFrame k with
    | none => none
    | some (r, none) => some { s with reader := r }
    | some (r, some result) => some ({ s with reader := r }.onRead local_ remote result)
  | .select, .readFails e => (streamFails s.reader e).map (s.onRead local_ remote)
  | .write data, .writeOk =>
    match writeVlessUdpFrame data with
    | .error e => some { s with pc := .returned (.error e) }
    | .ok bytes => some { s with pc := .select, toServer := s.toServer ++ bytes }
  | .write _, .writeFails e => some { s with pc := .returned (.error e) }
  | _, .replyCloses => some { s with replyClosed := true }
  | _, .injectCloses => some { s with injectClosed := true }
  | _, _ => none

end UdpFlow

end SkadiCore.Udp
