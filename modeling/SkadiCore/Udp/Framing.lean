import SkadiCore.Udp.Relay

/-!
# The framing of VLESS over UDP

What the two loops forward, against the frames in the stream.
-/

namespace SkadiCore.Udp

open SkadiCore.Relay

def stream (ps : List Bytes) : Bytes := (ps.map udpFrame).flatten

def Fits (ps : List Bytes) : Prop := ∀ p ∈ ps, p.length ≤ MAX_VLESS_UDP_PAYLOAD

def framed (payload : Bytes) : Bytes × Except IoError (Option Bytes) :=
  (udpFrame payload, .ok (some payload))

theorem reads_udpFrame {payload : Bytes} (h : payload.length ≤ MAX_VLESS_UDP_PAYLOAD) :
    readVlessUdpFrame.Reads (udpFrame payload) (.ok (some payload)) := by
  have h' : payload.length ≤ 65535 := h
  have hlen : (UInt16.ofNat payload.length).toNat = payload.length := by
    simp only [UInt16.toNat_ofNat']
    omega
  refine .exact rfl ?_
  have hmax : ¬ payload.length > MAX_VLESS_UDP_PAYLOAD := h.not_gt
  simp only [fromBe16_toBe16, hlen, if_neg hmax]
  split_ifs with hpos
  · exact .last rfl rfl
  · obtain rfl : payload = [] := by simpa using hpos
    exact .ret _

theorem fail_of_after {bs : Bytes} {n : ℕ} {fail : IoError → Except IoError (Option Bytes)}
    {next : Bytes → ReadProg Byte IoError (Except IoError (Option Bytes))}
    (h : readVlessUdpFrame.after bs = .exact n fail next) {e : IoError}
    (he : e.kind ≠ .unexpectedEof) : fail e = .error e := by
  unfold readVlessUdpFrame ReadProg.after at h
  split_ifs at h with h1
  · cases h
    exact if_neg he
  · dsimp only at h
    split_ifs at h with h2 h3
    · cases h
    · unfold ReadProg.after at h
      split_ifs at h
      · cases h
        rfl
      · cases h
    · cases h

theorem frames_framed {ps : List Bytes} (h : Fits ps) :
    ReadLoop.Frames readVlessUdpFrame (ps.map framed) := by
  intro f hf
  obtain ⟨p, hp, rfl⟩ := List.mem_map.mp hf
  exact ⟨reads_udpFrame (h p hp), by simp [framed, udpFrame, toBe16]⟩

theorem bytes_framed (ps : List Bytes) : ReadLoop.bytes (ps.map framed) = stream ps := by
  simp [ReadLoop.bytes, stream, framed, Function.comp_def]

/-! ## The reading side -/

def Passed (fs done : List Bytes) (r : FrameLoop) : Prop :=
  ∃ rest, fs = done ++ rest ∧ r.Ahead (rest.map framed)

section Passed

variable {fs done : List Bytes} {r r' : FrameLoop} {k : ℕ}

theorem init_passed (hfs : Fits fs) :
    Passed fs [] (.init (stream fs)) := by
  have := ReadLoop.ahead_of_bytes (frames_framed hfs)
  rw [bytes_framed] at this
  exact ⟨fs, rfl, this⟩

variable (h : Passed fs done r)
include h

theorem Passed.take {res : Option (Except IoError (Option Bytes))} (hfs : Fits fs)
    (ht : r.take readVlessUdpFrame k = some (r', res)) :
    (res = none ∧ Passed fs done r') ∨
      ∃ p, res = some (.ok (some p)) ∧ Passed fs (done ++ [p]) r' := by
  obtain ⟨rest, rfl, hr⟩ := h
  have hf := frames_framed fun p hp => hfs p (List.mem_append_right done hp)
  rcases hr.take hf ht with ⟨rfl, hr'⟩ | ⟨f, rest', heq, rfl, hr'⟩
  · exact .inl ⟨rfl, rest, rfl, hr'⟩
  · obtain ⟨p, ps, rfl, rfl, rfl⟩ := List.map_eq_cons_iff.mp heq
    exact .inr ⟨p, rfl, ps, by simp, hr'⟩

theorem Passed.take_none (hfs : Fits fs)
    (ht : r.take readVlessUdpFrame k = some (r', none)) : Passed fs done r' := by
  rcases h.take hfs ht with ⟨-, hr⟩ | ⟨p, hp, -⟩
  · exact hr
  · cases hp

variable {res : Except IoError (Option Bytes)}

theorem Passed.take_some (hfs : Fits fs)
    (ht : r.take readVlessUdpFrame k = some (r', some res)) :
    ∃ p, res = .ok (some p) ∧ Passed fs (done ++ [p]) r' := by
  rcases h.take hfs ht with ⟨hnone, -⟩ | ⟨p, hp, hr⟩
  · cases hnone
  · exact ⟨p, Option.some.inj hp, hr⟩

theorem Passed.drop (hc : r.consumed = []) : Passed fs done r.drop := by
  obtain ⟨rest, hfs, hr⟩ := h
  exact ⟨rest, hfs, hr.drop hc⟩

theorem Passed.isPrefix : done <+: fs := by
  obtain ⟨rest, rfl, -⟩ := h
  exact ⟨rest, rfl⟩

theorem Passed.stream_eq : stream done ++ (r.consumed ++ r.unread) = stream fs := by
  obtain ⟨rest, rfl, hr⟩ := h
  rw [hr.bytes_eq, bytes_framed]
  simp [stream]

theorem Passed.eq_of_unread (hu : r.unread = []) : done = fs ∧ r.consumed = [] := by
  obtain ⟨rest, rfl, hr⟩ := h
  obtain ⟨hnil, hc⟩ := hr.eq_nil hu
  obtain rfl := List.map_eq_nil_iff.mp hnil
  exact ⟨by simp, hc⟩

theorem Passed.exists_take (hfs : Fits fs) (hu : r.unread ≠ []) :
    ∃ r' res, r.take readVlessUdpFrame 1 = some (r', res) ∧
      r'.unread.length < r.unread.length := by
  obtain ⟨rest, rfl, hr⟩ := h
  exact hr.exists_take (frames_framed fun p hp => hfs p (List.mem_append_right done hp)) hu

theorem Passed.fails {e : IoError} (hs : streamFails r e = some res) :
    (res = .ok none ∧ done = fs) ∨ ∃ e, res = .error e := by
  unfold streamFails ReadLoop.failed at hs
  split_ifs at hs with he
  split at hs
  · cases hs
  · rename_i n fail next hafter
    cases hs
    rcases he with ⟨rfl, hu⟩ | hkind
    · obtain ⟨hdone, hc⟩ := h.eq_of_unread hu
      rw [hc] at hafter
      cases hafter
      exact .inl ⟨rfl, hdone⟩
    · exact .inr ⟨e, fail_of_after hafter hkind⟩

omit h in
theorem exists_forwarded {σ α : Type*} {step : σ → α → Option σ} {C : σ → α → Prop}
    (reader : σ → FrameLoop) (out : σ → List Bytes) (I : σ → Prop)
    (hI : ∀ s, I s → Passed fs (out s) (reader s))
    (hround : ∀ s, I s → (reader s).unread ≠ [] → ∃ as t, Run step C s as t ∧ I t ∧
      (reader t).unread.length < (reader s).unread.length) {s : σ} (hs : I s) :
    ∃ as t, Run step C s as t ∧ I t ∧ out t = fs := by
  refine Run.exists_of_measure (fun s => (reader s).unread.length) (fun s hs => ?_) hs
  by_cases hu : (reader s).unread = []
  · exact .inl ((hI s hs).eq_of_unread hu).1
  · exact .inr (hround s hs hu)

end Passed

/-! ## The server -/

namespace UdpRelay

def cleanDrop (s : UdpRelay) : RelayAct → Bool
  | .recv _ => s.reader.consumed.isEmpty
  | _ => true

def Inv (fs : List Bytes) (s : UdpRelay) : Prop :=
  match s.pc with
  | .select => Passed fs s.sent s.reader
  | .send payload => Passed fs (s.sent ++ [payload]) s.reader
  | .write data => data.length ≤ MAX_VLESS_UDP_PAYLOAD ∧ Passed fs s.sent s.reader
  | .returned (.ok _) => s.sent = fs
  | .returned (.error _) => s.sent <+: fs

def passed (s : UdpRelay) : List Bytes :=
  match s.pc with
  | .send payload => s.sent ++ [payload]
  | _ => s.sent

variable {limits : RelayLimits} {fs : List Bytes} {s t : UdpRelay} {a : RelayAct}

theorem Inv.sent_prefix (hi : s.Inv fs) : s.sent <+: fs := by
  unfold Inv at hi
  split at hi
  · exact hi.isPrefix
  · exact (List.prefix_append _ _).trans hi.isPrefix
  · exact hi.2.isPrefix
  · exact hi ▸ List.prefix_refl _
  · exact hi

theorem Inv.passed (hi : s.Inv fs) (hpc : ∀ result, s.pc ≠ .returned result) :
    Passed fs s.passed s.reader := by
  unfold UdpRelay.passed
  cases hs : s.pc with
  | returned result => exact absurd hs (hpc result)
  | select | send payload => simpa only [Inv, hs] using hi
  | write data =>
    simp only [Inv, hs] at hi
    exact hi.2

theorem Inv.step (hfs : Fits fs) (hi : s.Inv fs)
    (hc : s.cleanDrop a = true) (h : s.step limits a = some t) : t.Inv fs := by
  unfold UdpRelay.step at h
  split at h
  case h_1 hpc | h_2 hpc =>
    split_ifs at h
    cases h
    simp only [Inv, hpc] at hi
    exact hi.isPrefix
  case h_3 k hpc =>
    simp only [Inv, hpc] at hi
    split at h
    · cases h
    · rename_i r ht
      cases h
      simpa only [Inv, hpc] using hi.take_none hfs ht
    · rename_i r result ht
      cases h
      obtain ⟨p, rfl, hr⟩ := hi.take_some hfs ht
      exact hr
  case h_4 e hpc =>
    simp only [Inv, hpc] at hi
    obtain ⟨res, hres, rfl⟩ := Option.map_eq_some_iff.mp h
    rcases hi.fails hres with ⟨rfl, hdone⟩ | ⟨e', rfl⟩
    · exact hdone
    · exact hi.isPrefix
  case h_5 data hpc =>
    simp only [Inv, hpc] at hi
    have hdrop := hi.drop (by simpa [cleanDrop] using hc)
    split_ifs at h with hlen
    · cases h
      simpa only [Inv, hpc] using hdrop
    · cases h
      exact ⟨hlen, hdrop⟩
  case h_6 hpc =>
    cases h
    simp only [Inv, hpc] at hi
    exact hi.isPrefix
  case h_7 payload hpc =>
    cases h
    simpa only [Inv, hpc] using hi
  case h_8 payload e hpc =>
    cases h
    simp only [Inv, hpc] at hi
    exact (List.prefix_append _ _).trans hi.isPrefix
  case h_9 data hpc =>
    simp only [Inv, hpc] at hi
    rw [writeVlessUdpFrame, if_neg hi.1.not_gt] at h
    cases h
    exact hi.2
  case h_10 data e hpc =>
    cases h
    simp only [Inv, hpc] at hi
    exact hi.2.isPrefix
  case h_11 => cases h

theorem inv_of_run {as : List RelayAct} (hfs : Fits fs)
    (h : Run (step limits) (cleanDrop · ·) (init (stream fs)) as s) : s.Inv fs := by
  have hinit : (init (stream fs)).Inv fs := init_passed hfs
  exact h.invariant (fun _ _ _ hi hc hst => hi.step hfs hc hst) hinit

/-- The relay reads frames, sends their datagrams and finishes its writes. -/
def Forwarding (_ : UdpRelay) : RelayAct → Prop
  | .take _ | .sendOk | .writeOk => True
  | _ => False

def Waits (fs : List Bytes) (s : UdpRelay) : Prop := s.pc = .select ∧ Passed fs s.sent s.reader

theorem Waits.round (limits : RelayLimits) (hfs : Fits fs) (hs : Waits fs s)
    (hu : s.reader.unread ≠ []) : ∃ bs t, Run (UdpRelay.step limits) Forwarding s bs t ∧
      Waits fs t ∧ t.reader.unread.length < s.reader.unread.length := by
  obtain ⟨hpc, hi⟩ := hs
  obtain ⟨r, res, ht, hlt⟩ := hi.exists_take hfs hu
  rcases hi.take hfs ht with ⟨rfl, hr⟩ | ⟨p, rfl, hr⟩
  · have hst : s.step limits (.take 1) = some { s with reader := r } := by
      simp [UdpRelay.step, hpc, ht]
    exact ⟨_, _, .single (by trivial) hst, ⟨hpc, hr⟩, hlt⟩
  · have hst : s.step limits (.take 1) = some { s with pc := .send p, reader := r } := by
      simp [UdpRelay.step, hpc, ht, onRead]
    have hst' : UdpRelay.step limits { s with pc := .send p, reader := r } .sendOk =
        some { s with
          pc := .select, reader := r, sent := s.sent ++ [p],
          clientToUpstream := s.clientToUpstream + p.length } := by
      simp [UdpRelay.step]
    exact ⟨_, _, (Run.single (by trivial) hst).snoc (by trivial) hst', ⟨rfl, hr⟩, hlt⟩

theorem Waits.completes (limits : RelayLimits) (hfs : Fits fs) (hs : Waits fs s) :
    ∃ bs t, Run (UdpRelay.step limits) Forwarding s bs t ∧ t.pc = .select ∧ t.sent = fs := by
  obtain ⟨bs, t, hrun, ht, hsent⟩ := exists_forwarded UdpRelay.reader UdpRelay.sent (Waits fs)
    (fun _ hs => hs.2) (fun _ hs => hs.round limits hfs) hs
  exact ⟨bs, t, hrun, ht.1, hsent⟩

theorem Inv.completes (limits : RelayLimits) (hfs : Fits fs)
    (hi : s.Inv fs) (hpc : ∀ result, s.pc ≠ .returned result) :
    ∃ bs t, Run (UdpRelay.step limits) Forwarding s bs t ∧ t.pc = .select ∧ t.sent = fs := by
  cases hs : s.pc with
  | returned result => exact absurd hs (hpc result)
  | select =>
    simp only [Inv, hs] at hi
    exact Waits.completes limits hfs ⟨hs, hi⟩
  | send p =>
    simp only [Inv, hs] at hi
    obtain ⟨bs, t, hrun, h⟩ := Waits.completes limits hfs (s := { s with
      pc := .select, sent := s.sent ++ [p],
      clientToUpstream := s.clientToUpstream + p.length }) ⟨rfl, hi⟩
    exact ⟨_, t, (Run.single (a := .sendOk) trivial (by simp [UdpRelay.step, hs])).append hrun, h⟩
  | write data =>
    simp only [Inv, hs] at hi
    obtain ⟨bs, t, hrun, h⟩ := Waits.completes limits hfs (s := { s with
      pc := .select, toClient := s.toClient ++ udpFrame data,
      upstreamToClient := s.upstreamToClient + data.length }) ⟨rfl, hi.2⟩
    refine ⟨_, t, (Run.single (a := .writeOk) trivial ?_).append hrun, h⟩
    simp [UdpRelay.step, hs, writeVlessUdpFrame, hi.1.not_gt]

end UdpRelay

/-! ## The TUN client -/

namespace UdpFlow

def forwarded (s : UdpFlow) : List Bytes := s.replies.map Prod.fst

def cleanDrop (s : UdpFlow) : FlowAct → Bool
  | .inbound (some _) _ _ => s.reader.consumed.isEmpty
  | _ => true

def Inv (fs : List Bytes) (s : UdpFlow) : Prop :=
  match s.pc with
  | .select => Passed fs s.forwarded s.reader
  | .write data => data.length ≤ MAX_VLESS_UDP_PAYLOAD ∧ Passed fs s.forwarded s.reader
  | .returned _ => s.forwarded <+: fs

variable {l r : SocketAddr} {fs : List Bytes} {s t : UdpFlow} {a : FlowAct}

theorem Inv.forwarded_prefix (hi : s.Inv fs) : s.forwarded <+: fs := by
  unfold Inv at hi
  split at hi
  · exact hi.isPrefix
  · exact hi.2.isPrefix
  · exact hi

theorem Inv.passed (hi : s.Inv fs) (hpc : ∀ result, s.pc ≠ .returned result) :
    Passed fs s.forwarded s.reader := by
  unfold Inv at hi
  split at hi
  case h_1 => exact hi
  case h_2 => exact hi.2
  case h_3 result hs => exact absurd hs (hpc result)

theorem maxUdpPayloadIpv4_le (mtu : UInt16) : maxUdpPayloadIpv4 mtu ≤ MAX_VLESS_UDP_PAYLOAD := by
  have := mtu.toNat_lt
  simp only [maxUdpPayloadIpv4, MAX_VLESS_UDP_PAYLOAD]
  omega

theorem Inv.of_select (hpc : s.pc = .select) (h : Passed fs s.forwarded s.reader) : s.Inv fs := by
  simpa only [Inv, hpc] using h

theorem Inv.onOversized {mtu : UInt16} (hpc : s.pc = .select)
    (hi : Passed fs s.forwarded s.reader) (hdrop : Passed fs s.forwarded s.reader.drop) :
    (s.onOversized l r mtu).Inv fs := by
  unfold UdpFlow.onOversized
  split
  · split_ifs
    · exact hi.isPrefix
    · exact .of_select hpc hdrop
  · exact .of_select hpc hdrop

theorem Inv.onInbound {payload : Option Bytes} {mtu mtu' : UInt16} (hpc : s.pc = .select)
    (hi : Passed fs s.forwarded s.reader)
    (hc : s.cleanDrop (.inbound payload mtu mtu') = true) :
    (s.onInbound l r mtu mtu' payload).Inv fs := by
  cases payload with
  | none => exact hi.isPrefix
  | some data =>
    have hdrop := hi.drop (by simpa [cleanDrop] using hc)
    unfold UdpFlow.onInbound
    dsimp only
    split_ifs with hlen
    · exact .onOversized hpc hi hdrop
    · exact ⟨(not_lt.mp hlen).trans (maxUdpPayloadIpv4_le mtu), hdrop⟩

theorem Inv.step (hfs : Fits fs) (hi : s.Inv fs)
    (hc : s.cleanDrop a = true) (h : s.step l r a = some t) : t.Inv fs := by
  unfold UdpFlow.step at h
  split at h
  case h_1 payload mtu mtu' hpc =>
    simp only [Inv, hpc] at hi
    cases h
    exact .onInbound hpc hi hc
  case h_2 k hpc =>
    simp only [Inv, hpc] at hi
    split at h
    · cases h
    · rename_i r' ht
      cases h
      exact .of_select hpc (hi.take_none hfs ht)
    · rename_i r' result ht
      cases h
      obtain ⟨p, rfl, hr⟩ := hi.take_some hfs ht
      simp only [onRead]
      split_ifs
      · exact hi.isPrefix
      · exact .of_select hpc (by simpa [forwarded] using hr)
  case h_3 e hpc =>
    simp only [Inv, hpc] at hi
    obtain ⟨res, hres, rfl⟩ := Option.map_eq_some_iff.mp h
    rcases hi.fails hres with ⟨rfl, -⟩ | ⟨e', rfl⟩ <;> exact hi.isPrefix
  case h_4 data hpc =>
    simp only [Inv, hpc] at hi
    rw [writeVlessUdpFrame, if_neg hi.1.not_gt] at h
    cases h
    exact hi.2
  case h_5 data e hpc =>
    simp only [Inv, hpc] at hi
    cases h
    exact hi.2.isPrefix
  case h_6 | h_7 => cases h; exact hi
  case h_8 => cases h

theorem inv_of_run {as : List FlowAct} (hfs : Fits fs)
    (h : Run (step l r) (cleanDrop · ·) (init (stream fs)) as s) : s.Inv fs := by
  have hinit : (init (stream fs)).Inv fs := init_passed hfs
  exact h.invariant (fun _ _ _ hi hc hst => hi.step hfs hc hst) hinit

/-- The flow reads frames and finishes its writes. -/
def Forwarding (_ : UdpFlow) : FlowAct → Prop
  | .take _ | .writeOk => True
  | _ => False

def Waits (fs : List Bytes) (s : UdpFlow) : Prop :=
  s.pc = .select ∧ s.replyClosed = false ∧ Passed fs s.forwarded s.reader

theorem Waits.round (l r : SocketAddr) (hfs : Fits fs) (hs : Waits fs s)
    (hu : s.reader.unread ≠ []) : ∃ bs t, Run (UdpFlow.step l r) Forwarding s bs t ∧
      Waits fs t ∧ t.reader.unread.length < s.reader.unread.length := by
  obtain ⟨hpc, hopen, hi⟩ := hs
  obtain ⟨r', res, ht, hlt⟩ := hi.exists_take hfs hu
  rcases hi.take hfs ht with ⟨rfl, hr⟩ | ⟨p, rfl, hr⟩
  · have hst : s.step l r (.take 1) = some { s with reader := r' } := by
      simp [UdpFlow.step, hpc, ht]
    exact ⟨_, _, .single (by trivial) hst, ⟨hpc, hopen, hr⟩, hlt⟩
  · have hst : s.step l r (.take 1) =
        some { s with reader := r', replies := s.replies ++ [(p, l, r)] } := by
      simp [UdpFlow.step, hpc, ht, onRead, hopen]
    exact ⟨_, _, .single (by trivial) hst, ⟨hpc, hopen, by simpa [forwarded] using hr⟩, hlt⟩

theorem Waits.completes (l r : SocketAddr) (hfs : Fits fs) (hs : Waits fs s) :
    ∃ bs t, Run (UdpFlow.step l r) Forwarding s bs t ∧ t.pc = .select ∧ t.forwarded = fs := by
  obtain ⟨bs, t, hrun, ht, hfwd⟩ := exists_forwarded UdpFlow.reader forwarded (Waits fs)
    (fun _ hs => hs.2.2) (fun _ hs => hs.round l r hfs) hs
  exact ⟨bs, t, hrun, ht.1, hfwd⟩

theorem Inv.completes (l r : SocketAddr) (hfs : Fits fs)
    (hi : s.Inv fs) (hpc : ∀ result, s.pc ≠ .returned result) (hopen : s.replyClosed = false) :
    ∃ bs t, Run (UdpFlow.step l r) Forwarding s bs t ∧ t.pc = .select ∧ t.forwarded = fs := by
  cases hs : s.pc with
  | returned result => exact absurd hs (hpc result)
  | select =>
    simp only [Inv, hs] at hi
    exact Waits.completes l r hfs ⟨hs, hopen, hi⟩
  | write data =>
    simp only [Inv, hs] at hi
    obtain ⟨bs, t, hrun, h⟩ := Waits.completes l r hfs (s := { s with
      pc := .select, toServer := s.toServer ++ udpFrame data }) ⟨rfl, hopen, hi.2⟩
    refine ⟨_, t, (Run.single (a := .writeOk) trivial ?_).append hrun, h⟩
    simp [UdpFlow.step, hs, writeVlessUdpFrame, hi.1.not_gt]

end UdpFlow

/-! ## Both loops -/

/-- Of the payloads `fs` those in `done` were read: no byte of the stream is missing
    between them and what is to come, and once all of the stream is taken they are all
    of the payloads. -/
structure Exact (fs done : List Bytes) (r : FrameLoop) : Prop where
  order : done <+: fs
  bytes : stream done ++ (r.consumed ++ r.unread) = stream fs
  all : r.unread = [] → done = fs

theorem Passed.exact {fs done : List Bytes} {r : FrameLoop} (h : Passed fs done r) :
    Exact fs done r :=
  ⟨h.isPrefix, h.stream_eq, fun hu => (h.eq_of_unread hu).1⟩

/-- Both loops, whatever the cut of the stream into reads and whatever the other side
    does between reads: what they forward is a prefix of the payloads in the stream, no
    byte is lost while they run, and they can go on to forward all of it. -/
theorem framing_exact {fs : List Bytes} (hfs : ∀ p ∈ fs, p.length ≤ MAX_VLESS_UDP_PAYLOAD) :
    (∀ limits as s,
      Run (UdpRelay.step limits) (UdpRelay.cleanDrop · ·) (.init (stream fs)) as s →
      s.sent <+: fs ∧ (∀ n, s.pc = .returned (.ok n) → s.sent = fs) ∧
      ((∀ result, s.pc ≠ .returned result) → Exact fs s.passed s.reader ∧
        ∃ bs t, Run (UdpRelay.step limits) UdpRelay.Forwarding s bs t ∧
          t.pc = .select ∧ t.sent = fs)) ∧
    ∀ l r as s,
      Run (UdpFlow.step l r) (UdpFlow.cleanDrop · ·) (.init (stream fs)) as s →
      s.forwarded <+: fs ∧
      ((∀ result, s.pc ≠ .returned result) → Exact fs s.forwarded s.reader ∧
        (s.replyClosed = false → ∃ bs t, Run (UdpFlow.step l r) UdpFlow.Forwarding s bs t ∧
          t.pc = .select ∧ t.forwarded = fs)) := by
  constructor
  · intro limits as s h
    have hi := UdpRelay.inv_of_run hfs h
    refine ⟨hi.sent_prefix, fun n hn => ?_,
      fun hpc => ⟨(hi.passed hpc).exact, hi.completes limits hfs hpc⟩⟩
    simpa only [UdpRelay.Inv, hn] using hi
  · intro l r as s h
    have hi := UdpFlow.inv_of_run hfs h
    exact ⟨hi.forwarded_prefix, fun hpc => ⟨(hi.passed hpc).exact, hi.completes l r hfs hpc⟩⟩

theorem framing_exact_between : ∃ s, Run (UdpRelay.step ⟨none, none⟩) (UdpRelay.cleanDrop · ·)
    (.init (stream [[7], [8]])) [.take 2, .take 1, .sendOk, .recv [9], .writeOk, .take 2] s ∧
    Exact [[7], [8]] s.passed s.reader := by
  have hrun : Run (UdpRelay.step ⟨none, none⟩) (UdpRelay.cleanDrop · ·) (.init (stream [[7], [8]]))
      [.take 2, .take 1, .sendOk, .recv [9], .writeOk, .take 2] _ := exec_run (fun _ _ h => h) rfl
  exact ⟨_, hrun, (((framing_exact (by decide)).1 _ _ _ hrun).2.2 (by simp)).1⟩

def someAddr : SocketAddr := .v4 (ipv4Addr 10 0 0 1) 53

theorem framing_lost :
    (∃ as s, Run (UdpRelay.step ⟨none, none⟩) Any (.init (stream [[0, 1, 7]])) as s ∧
      s.pc = .select ∧ s.reader.unread = [] ∧ s.sent = [[7]]) ∧
    ∃ l r as s, Run (UdpFlow.step l r) Any (.init (stream [[0, 1, 7]])) as s ∧
      s.pc = .select ∧ s.reader.unread = [] ∧ s.replyClosed = false ∧ s.forwarded = [[7]] := by
  constructor
  · exact ⟨[.take 2, .recv [9], .writeOk, .take 2, .take 1, .sendOk], _, exec_any rfl, rfl, rfl,
      rfl⟩
  · exact ⟨someAddr, someAddr, [.take 2, .inbound (some [9]) 1500 1500, .writeOk, .take 2, .take 1],
      _, exec_any rfl, rfl, rfl, rfl, rfl⟩

end SkadiCore.Udp
