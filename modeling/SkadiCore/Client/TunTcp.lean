import SkadiCore.Client.TunUdp
import SkadiCore.Common.Time
import SkadiCore.Reality.Hello
import SkadiCore.Relay.Copy

/-!
# TCP from the TUN interface

Model of `handle_tcp_inbound` (`crates/skadi-client/src/tun/mod.rs`, lines 194-248), of
`peek_tls_client_hello` (`crates/skadi-client/src/tls_peek.rs`) and of `BufferedPrefixStream`
(`crates/skadi-transport/src/reality/prefixed.rs`). Before a connection to port 443 is relayed,
the start of its stream is read to find the name in a ClientHello; the relay then reads what was
read so far once more, in front of the rest.

The results of reads, failures and the time are choices of the environment. The stream of the
application is `sent`; a task holds what is left of it.

* `Past.run`: behind the peek, the relay carries one stream.

**Defect.** A peek that fails returns an error, and what it has read is gone
(`first_byte_lost`).

**Abstraction.** The relay is given all that `poll_read` of the stream will return
(`BufferedPrefixStream.content`); the calls themselves are no steps.
-/

namespace SkadiCore.Client

open SkadiCore.Relay

/-! ## Which connections are inspected -/

def ipv6Addr (a b c d e f g h : UInt16) : List.Vector Byte 16 :=
  ⟨toBe16 a ++ toBe16 b ++ toBe16 c ++ toBe16 d ++ toBe16 e ++ toBe16 f ++ toBe16 g ++ toBe16 h,
    rfl⟩

def KNOWN_DOH_V4 : List (List.Vector Byte 4) :=
  [ipv4Addr 1 1 1 1, ipv4Addr 1 0 0 1, ipv4Addr 8 8 8 8, ipv4Addr 8 8 4 4, ipv4Addr 9 9 9 9,
    ipv4Addr 149 112 112 112, ipv4Addr 208 67 222 222, ipv4Addr 208 67 220 220]

def KNOWN_DOH_V6 : List (List.Vector Byte 16) :=
  [ipv6Addr 0x2606 0x4700 0x4700 0 0 0 0 0x1111, ipv6Addr 0x2606 0x4700 0x4700 0 0 0 0 0x1001,
    ipv6Addr 0x2001 0x4860 0x4860 0 0 0 0 0x8888, ipv6Addr 0x2001 0x4860 0x4860 0 0 0 0 0x8844,
    ipv6Addr 0x2620 0xfe 0xfe 0 0 0 0 0, ipv6Addr 0x2620 0xfe 0 0 0 0 0 0xfe]

def isKnownDohIp : IpAddr → Bool
  | .v4 ip => KNOWN_DOH_V4.contains ip
  | .v6 ip => KNOWN_DOH_V6.contains ip

def KNOWN_DOH_HOSTNAMES : List String :=
  ["cloudflare-dns.com", "dns.cloudflare.com", "one.one.one.one", "dns.google", "dns.google.com",
    "dns.quad9.net", "doh.opendns.com", "doh.familyshield.opendns.com", "dns.adguard.com",
    "dns.adguard-dns.com", "common.adguard.com", "dns.nextdns.io", "firefox.dns.nextdns.io"]

def trimEndDots (s : String) : String :=
  .ofList (s.toList.reverse.dropWhile (· == '.')).reverse

def isKnownDohHostname (host : String) : Bool :=
  let host := toAsciiLowercase (trimEndDots host)
  KNOWN_DOH_HOSTNAMES.any fun known =>
    host == known || ("." ++ known).toList.isSuffixOf host.toList

structure DnsIntercept where
  handler : Option DnsHandler
  blockSystemDot : Bool
  blockSystemDoh : Bool

def DnsIntercept.shouldBlockTcp (d : DnsIntercept) (remote : SocketAddr) : Bool :=
  if d.handler.isNone then false
  else if d.blockSystemDot && remote.port == 853 then true
  else if d.blockSystemDoh && remote.port == 443 && isKnownDohIp remote.ip then true
  else false

def DnsIntercept.needsDohSniInspection (d : DnsIntercept) (remote : SocketAddr) : Bool :=
  d.handler.isSome && d.blockSystemDoh && remote.port == 443 && !isKnownDohIp remote.ip

/-! ## The stream that is relayed -/

/-- `BufferedPrefixStream` (`prefixed.rs`, lines 9-12); `inner` is what the stream behind the
    prefix still sends. -/
structure BufferedPrefixStream where
  pre : Bytes
  position : ℕ
  inner : Bytes

namespace BufferedPrefixStream

def new (pre inner : Bytes) : BufferedPrefixStream := ⟨pre, 0, inner⟩

/-- What the calls of `poll_read` (lines 24-39) return, one after the other. -/
def content (s : BufferedPrefixStream) : Bytes := s.pre.drop s.position ++ s.inner

theorem content_new (pre inner : Bytes) : (new pre inner).content = pre ++ inner := rfl

end BufferedPrefixStream

/-! ## The task of a connection -/

def HANDSHAKE_TIMEOUT : ℕ := 2 * NANOS_PER_SEC

def wantsMore (buffer : Bytes) : Bool :=
  if buffer.length < 5 then true
  else if byteAt buffer 0 ≠ 0x16 then false
  else
    let needed := 5 + (fromBe16 (byteAt buffer 3) (byteAt buffer 4)).toNat
    decide (buffer.length < needed ∧ buffer.length < 16384)

/-- `tls_client_hello_sni` (lines 51-56). -/
def tlsClientHelloSni (buffer : Bytes) : Option String :=
  match Reality.parseClientHello buffer with
  | .ok (some info) => info.serverName
  | _ => none

/-- Where a task is: in the peek, with what it has read; in `open_tcp`, with the prefix; in the
    relay; or at its end, because the connection is blocked or because `open_tcp` failed. -/
inductive TcpPhase
  | peeking (buffer : Bytes)
  | opening (pre : Bytes)
  | relaying (copy : Copy)
  | blocked
  | failed

structure TcpTask where
  now : ℕ
  deadline : ℕ
  unread : Bytes
  phase : TcpPhase

inductive TcpAct
  | tick (dt : ℕ)
  | read (n : ℕ)
  | eof
  | readFails (e : String)
  | timeout
  | opened (fromRemote : Bytes)
  | openFails
  | copy (act : CopyAct)

namespace TcpTask

def accept (d : DnsIntercept) (remote : SocketAddr) (now : ℕ) (sent : Bytes) : TcpTask :=
  { now := now
    deadline := now + HANDSHAKE_TIMEOUT
    unread := sent
    phase :=
      if d.shouldBlockTcp remote then .blocked
      else if d.needsDohSniInspection remote then .peeking []
      else .opening [] }

def peeked (s : TcpTask) : Except String Bytes → TcpTask
  | .ok buf =>
    if (tlsClientHelloSni buf).any isKnownDohHostname then { s with phase := .blocked }
    else { s with phase := .opening buf }
  | .error _ => { s with phase := .opening [] }

def extended (s : TcpTask) (buffer : Bytes) : TcpTask :=
  if wantsMore buffer then { s with phase := .peeking buffer } else s.peeked (.ok buffer)

def step (s : TcpTask) (act : TcpAct) : Option TcpTask :=
  match s.phase, act with
  | _, .tick dt => some { s with now := s.now + dt }
  | .peeking buffer, .read n =>
    if 0 < n ∧ n ≤ 512 ∧ n ≤ s.unread.length then
      some ({ s with unread := s.unread.drop n }.extended (buffer ++ s.unread.take n))
    else none
  | .peeking buffer, .eof =>
    if s.unread = [] then
      some (s.peeked (if buffer.length < 5 then
        .error "connection closed before TLS record header" else .ok buffer))
    else none
  | .peeking _, .readFails e => some (s.peeked (.error e))
  | .peeking _, .timeout =>
    if s.deadline ≤ s.now then some (s.peeked (.error "TLS ClientHello peek timeout")) else none
  | .opening pre, .opened fromRemote =>
    let relayStream := BufferedPrefixStream.new pre s.unread
    some { s with phase := .relaying (.start ⟨none, none⟩ s.now relayStream.content fromRemote) }
  | .opening _, .openFails => some { s with phase := .failed }
  | .relaying copy, .copy act => (copy.step act).map fun copy => { s with phase := .relaying copy }
  | _, _ => none

def failsPeek (buffer : Bytes) : TcpAct → Bool
  | .readFails _ | .timeout => true
  | .eof => decide (buffer.length < 5)
  | _ => false

/-- Peeking only fails before the first byte was read. -/
def Keeps (s : TcpTask) (act : TcpAct) : Prop :=
  ∀ buffer, s.phase = .peeking buffer → failsPeek buffer act = true → buffer = []

variable {s s' t : TcpTask} {act : TcpAct} {as : List TcpAct} {sent stream pre : Bytes}
  {copy : Copy}

theorem step_cases (h : s.step act = some s') :
    (∃ dt, act = .tick dt ∧ s' = { s with now := s.now + dt }) ∨
    (∃ buffer n, s.phase = .peeking buffer ∧ act = .read n ∧
      s' = { s with unread := s.unread.drop n }.extended (buffer ++ s.unread.take n)) ∨
    (∃ buffer, s.phase = .peeking buffer ∧ failsPeek buffer act = false ∧
      s' = s.peeked (.ok buffer)) ∨
    (∃ buffer e, s.phase = .peeking buffer ∧ failsPeek buffer act = true ∧
      s' = s.peeked (.error e)) ∨
    (∃ pre fromRemote, s.phase = .opening pre ∧ act = .opened fromRemote ∧
      s' = { s with phase := .relaying (.start ⟨none, none⟩ s.now (pre ++ s.unread) fromRemote) }) ∨
    (∃ pre, s.phase = .opening pre ∧ act = .openFails ∧ s' = { s with phase := .failed }) ∨
    ∃ copy copyAct copy', s.phase = .relaying copy ∧ act = .copy copyAct ∧
      copy.step copyAct = some copy' ∧ s' = { s with phase := .relaying copy' } := by
  obtain ⟨now, deadline, unread, phase⟩ := s
  cases phase <;> cases act <;>
    simp only [step, reduceCtorEq, Option.ite_none_right_eq_some, Option.map_eq_some_iff,
      Option.some.injEq] at h
  case peeking.tick dt | opening.tick dt | relaying.tick dt | blocked.tick dt | failed.tick dt =>
    exact .inl ⟨dt, rfl, h.symm⟩
  case peeking.read buffer n => exact .inr (.inl ⟨buffer, n, rfl, rfl, h.2.symm⟩)
  case peeking.eof buffer =>
    obtain ⟨-, rfl⟩ := h
    by_cases hshort : buffer.length < 5
    · rw [if_pos hshort]
      exact .inr (.inr (.inr (.inl ⟨buffer, _, rfl, decide_eq_true hshort, rfl⟩)))
    · rw [if_neg hshort]
      exact .inr (.inr (.inl ⟨buffer, rfl, decide_eq_false hshort, rfl⟩))
  case peeking.readFails buffer e =>
    exact .inr (.inr (.inr (.inl ⟨buffer, e, rfl, rfl, h.symm⟩)))
  case peeking.timeout buffer =>
    exact .inr (.inr (.inr (.inl ⟨buffer, _, rfl, rfl, h.2.symm⟩)))
  case opening.opened pre fromRemote =>
    rw [BufferedPrefixStream.content_new] at h
    exact .inr (.inr (.inr (.inr (.inl ⟨pre, fromRemote, rfl, rfl, h.symm⟩))))
  case opening.openFails pre =>
    exact .inr (.inr (.inr (.inr (.inr (.inl ⟨pre, rfl, rfl, h.symm⟩)))))
  case relaying.copy copy act =>
    obtain ⟨copy', hcopy, rfl⟩ := h
    exact .inr (.inr (.inr (.inr (.inr (.inr ⟨copy, act, copy', rfl, rfl, hcopy, rfl⟩)))))

/-! ## Behind the peek -/

def Past (stream : Bytes) (s : TcpTask) : Prop :=
  match s.phase with
  | .opening pre => pre ++ s.unread = stream
  | .relaying copy => ∃ fromRemote, Copy.Inv stream fromRemote copy
  | .failed => True
  | .peeking _ | .blocked => False

theorem Past.step (hs : Past stream s) (h : s.step act = some s') : Past stream s' := by
  obtain ⟨dt, -, rfl⟩ | ⟨buffer, n, hphase, -⟩ | ⟨buffer, hphase, -⟩ | ⟨buffer, e, hphase, -⟩ |
    ⟨pre, fromRemote, hphase, -, rfl⟩ | ⟨pre, -, -, rfl⟩ |
    ⟨copy, copyAct, copy', hphase, -, hcopy, rfl⟩ := step_cases h
  · exact hs
  · simp [Past, hphase] at hs
  · simp [Past, hphase] at hs
  · simp [Past, hphase] at hs
  · simp only [Past, hphase] at hs
    rw [hs]
    exact ⟨fromRemote, Copy.inv_start _ _ _ _⟩
  · trivial
  · simp only [Past, hphase] at hs
    obtain ⟨fromRemote, hinv⟩ := hs
    exact ⟨fromRemote, hinv.step hcopy⟩

theorem Past.run (hs : Past stream s) (h : Run TcpTask.step Any s as t) : Past stream t :=
  h.invariant (fun _ _ _ hi _ hst => hi.step hst) hs

/-- The relay hands over exactly `sent`: what was written is a prefix of it, all of it once the
    end was read, and as long as the relay has not returned, the rest can still be written. -/
structure Forwards (sent : Bytes) (copy : Copy) : Prop where
  written : copy.ab.written <+: sent
  all : copy.ab.readDone = true → copy.ab.written = sent
  rest : copy.result = none →
    ∃ as c, Run Copy.step Copy.Benign copy as c ∧ c.ab.written = sent

theorem Past.forwards (hs : Past sent s) (hphase : s.phase = .relaying copy) :
    Forwards sent copy := by
  simp only [Past, hphase] at hs
  obtain ⟨fromRemote, hinv⟩ := hs
  exact ⟨hinv.ab.written_isPrefix, hinv.ab.written_eq, fun hres =>
    Copy.exists_run_written hres hinv .aToB⟩

theorem forwards_iff_eq (hphase : s.phase = .opening pre)
    (hsuffix : pre ++ s.unread <:+ sent) :
    (∀ as t copy, Run step Any s as t → t.phase = .relaying copy → Forwards sent copy) ↔
      pre ++ s.unread = sent := by
  constructor
  · intro hforwards
    have hopen : s.step (.opened []) = some
        { s with phase := .relaying (.start ⟨none, none⟩ s.now (pre ++ s.unread) []) } := by
      simp only [step, hphase]
      rfl
    obtain ⟨as, c, hrun, hwritten⟩ :=
      (hforwards _ _ _ (.single trivial hopen) rfl).rest rfl
    have hprefix := ((Copy.inv_start _ _ (pre ++ s.unread) []).run hrun).ab.written_isPrefix
    rw [hwritten] at hprefix
    exact hsuffix.eq_of_length (le_antisymm hsuffix.length_le hprefix.length_le)
  · intro heq as t copy hrun hrelay
    have hpast : Past sent s := by
      simp only [Past, hphase]
      exact heq
    exact (hpast.run hrun).forwards hrelay

/-! ## The peek -/

variable {d : DnsIntercept} {remote : SocketAddr} {now : ℕ}

/-- The state of a run whose steps so far met the condition if `kept`: while the peek reads,
    they did and nothing is lost; when it is over, nothing is lost exactly if they did. -/
def Peeked (sent : Bytes) (kept : Prop) (s : TcpTask) : Prop :=
  match s.phase with
  | .peeking buffer => kept ∧ buffer ++ s.unread = sent
  | .opening pre => pre ++ s.unread <:+ sent ∧ (kept ↔ pre ++ s.unread = sent)
  | _ => True

variable {kept : Prop} {buffer : Bytes}

theorem peeked_accept : Peeked sent True (accept d remote now sent) := by
  unfold accept Peeked
  split_ifs
  · trivial
  · exact ⟨trivial, rfl⟩
  · exact ⟨List.suffix_rfl, by simp⟩

theorem keeps_of_not_failsPeek (h : ∀ buffer, s.phase = .peeking buffer →
    failsPeek buffer act = false) : Keeps s act := by
  intro buffer hphase hfails
  rw [h buffer hphase] at hfails
  cases hfails

theorem keeps_of_failsPeek (hphase : s.phase = .peeking buffer)
    (h : failsPeek buffer act = true) : Keeps s act ↔ buffer = [] := by
  constructor
  · exact fun hkeeps => hkeeps buffer hphase h
  · intro hnil buffer' hphase' _
    rw [hphase] at hphase'
    cases hphase'
    exact hnil

theorem Peeked.ok (hkept : kept) (hbuffer : buffer ++ s.unread = sent) :
    Peeked sent kept (s.peeked (.ok buffer)) := by
  unfold peeked
  dsimp only
  split_ifs
  · trivial
  · refine ⟨?_, ?_⟩
    · rw [← hbuffer]
    · exact ⟨fun _ => hbuffer, fun _ => hkept⟩

theorem Peeked.step (hs : Peeked sent kept s) (h : s.step act = some s') :
    Peeked sent (kept ∧ Keeps s act) s' := by
  obtain ⟨dt, rfl, rfl⟩ | ⟨buffer, n, hphase, rfl, rfl⟩ | ⟨buffer, hphase, hfails, rfl⟩ |
    ⟨buffer, e, hphase, hfails, rfl⟩ | ⟨pre, fromRemote, -, -, rfl⟩ | ⟨pre, -, -, rfl⟩ |
    ⟨copy, copyAct, copy', -, -, -, rfl⟩ := step_cases h
  · have hkeeps : Keeps s (.tick dt) := keeps_of_not_failsPeek fun _ _ => rfl
    rw [and_iff_left hkeeps]
    exact hs
  · have hkeeps : Keeps s (.read n) := keeps_of_not_failsPeek fun _ _ => rfl
    simp only [Peeked, hphase] at hs
    have hbuffer : buffer ++ s.unread.take n ++ s.unread.drop n = sent := by
      rw [List.append_assoc, List.take_append_drop, hs.2]
    unfold extended
    split_ifs
    · exact ⟨⟨hs.1, hkeeps⟩, hbuffer⟩
    · exact .ok ⟨hs.1, hkeeps⟩ hbuffer
  · have hkeeps : Keeps s act := by
      refine keeps_of_not_failsPeek fun buffer' hphase' => ?_
      rw [hphase] at hphase'
      cases hphase'
      exact hfails
    simp only [Peeked, hphase] at hs
    exact .ok ⟨hs.1, hkeeps⟩ hs.2
  · -- the bytes in the buffer are dropped here
    simp only [Peeked, hphase] at hs
    obtain ⟨hkept, rfl⟩ := hs
    refine ⟨List.suffix_append _ _, ?_⟩
    rw [keeps_of_failsPeek hphase hfails, and_iff_right hkept, List.nil_append]
    constructor
    · rintro rfl
      rfl
    · intro heq
      have hlength : s.unread.length = (buffer ++ s.unread).length := congrArg List.length heq
      rw [List.length_append] at hlength
      exact List.length_eq_zero_iff.mp (by omega)
  · trivial
  · trivial
  · trivial

theorem Peeked.run (h : Run TcpTask.step Any (accept d remote now sent) as s) :
    Peeked sent (Run TcpTask.step Keeps (accept d remote now sent) as s) s := by
  induction h with
  | nil =>
    rw [iff_true_intro (Run.nil _)]
    exact peeked_accept
  | snoc hrun _ hstep ih =>
    rw [Run.snoc_iff hrun hstep]
    exact ih.step hstep

def inspecting : DnsIntercept := ⟨some .doh, false, true⟩

def webServer : SocketAddr := .v4 (ipv4Addr 93 184 216 34) 443

theorem keeps_of_not_failsPeek_nil (s : TcpTask) (act : TcpAct) (h : !failsPeek [] act) :
    Keeps s act := by
  refine keeps_of_not_failsPeek fun buffer _ => ?_
  cases act <;> first | rfl | cases h

end TcpTask

end SkadiCore.Client
