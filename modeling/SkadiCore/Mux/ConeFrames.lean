import SkadiCore.Mux.RelayInv

/-!
# Frames of the XUDP session

`handle_mux_frame` sends a frame to the XUDP handler if it has session id 0 and the
UDP network byte (`is_xudp_frame`, `crates/skadi-transport/src/mux.rs`, lines
258-260). The parser sets the network only of NEW frames and of KEEP frames with an
address, so END frames and KEEP frames without an address never get there.
-/

namespace SkadiCore.Mux

/-! ## What the parser sets -/

theorem parseMetaBody_cases {body : Bytes} {m : MuxMeta} (h : parseMetaBody body = .ok m) :
    m.network = none ∧ m.target = none ∨
      ∃ network target, m.network = some network ∧ m.target = some target ∧
        (m.status = SESSION_STATUS_NEW ∧ (network = NETWORK_TCP ∨ network = NETWORK_UDP) ∨
          m.status = SESSION_STATUS_KEEP ∧ network = NETWORK_UDP) := by
  unfold parseMetaBody at h
  split_ifs at h with hlen hneeds
  · cases hp : Vless.parsePortAddress (body.drop 5) with
    | error e => simp [hp] at h
    | ok r =>
      simp only [hp, Except.ok.injEq] at h
      subst h
      simp only [needsTarget, Bool.and_eq_true, Bool.or_eq_true, beq_iff_eq] at hneeds
      exact .inr ⟨_, _, rfl, rfl, hneeds.2⟩
  · cases h
    exact .inl ⟨rfl, rfl⟩

namespace Relay

variable {s : Relay} {cone : XudpCone} {f : MuxFrame} {now : ℕ}

/-! ## The XUDP handler and the session table -/

theorem ensureXudpCone_of_some (hx : s.xudp = some cone) (f : MuxFrame) (id : Option GlobalId) :
    s.ensureXudpCone f id = xudpSend
      { s with xudp := some { cone with globalId := id.orElse fun _ => cone.globalId } } f := by
  unfold ensureXudpCone
  rw [hx]

section

variable (s : Relay) (table : TaskTable UInt16)

def withTable : Relay := { s with table := table }

theorem abortHandles_withTable (hs : List Handle) :
    (s.withTable table).abortHandles hs = (s.abortHandles hs).withTable table := by
  induction hs generalizing s with
  | nil => rfl
  | cons h hs ih =>
    cases h with
    | own c => exact ih (s.abortCone c)
    | other n => exact ih s

theorem startXudpReaderIfNeeded_withTable :
    (s.withTable table).startXudpReaderIfNeeded = s.startXudpReaderIfNeeded.withTable table := by
  obtain ⟨_, _, _, _, _, _, xudp, _, _, _, _, _⟩ := s
  cases xudp with
  | none => rfl
  | some cone =>
    obtain ⟨globalId, socket, readerTask⟩ := cone
    cases readerTask <;> rfl

theorem xudpSend_withTable (f : MuxFrame) :
    (s.withTable table).xudpSend f = (s.xudpSend f).withTable table := by
  unfold xudpSend
  cases f.nonEmptyPayload with
  | some payload => rfl
  | none => exact startXudpReaderIfNeeded_withTable s table

theorem ensureXudpCone_withTable (f : MuxFrame) (id : Option GlobalId) :
    (s.withTable table).ensureXudpCone f id = (s.ensureXudpCone f id).withTable table := by
  cases hx : s.xudp with
  | some cone =>
    rw [ensureXudpCone_of_some hx, ensureXudpCone_of_some (s := s.withTable table) hx]
    exact xudpSend_withTable { s with xudp := _ } table f
  | none =>
    unfold ensureXudpCone
    rw [hx, show (s.withTable table).xudp = none from hx]
    cases id <;> rfl

theorem detach_withTable (id : GlobalId) (now : ℕ) :
    (s.withTable table).detach id now = (s.detach id now).withTable table :=
  abortHandles_withTable { s with registry := _, calls := _ } table _

theorem closeXudpCone_withTable (now : ℕ) :
    (s.withTable table).closeXudpCone now = (s.closeXudpCone now).withTable table := by
  unfold closeXudpCone
  cases hx : s.xudp with
  | none => rw [show (s.withTable table).xudp = none from hx]
  | some cone =>
    rw [show (s.withTable table).xudp = some cone from hx]
    obtain ⟨globalId, socket, readerTask⟩ := cone
    cases globalId with
    | none => cases readerTask <;> rfl
    | some id =>
      cases readerTask with
      | none => exact detach_withTable { s with xudp := none } table id now
      | some c => exact detach_withTable (abortCone { s with xudp := none } c) table id now

theorem handleXudpFrame_withTable (f : MuxFrame) (now : ℕ) :
    (s.withTable table).handleXudpFrame f now = (s.handleXudpFrame f now).withTable table := by
  unfold handleXudpFrame
  by_cases hnew : f.meta_.status = SESSION_STATUS_NEW
  · simp only [if_pos hnew]
    cases f.meta_.target with
    | none => rfl
    | some target => exact ensureXudpCone_withTable s table f _
  by_cases hkeep : f.meta_.status = SESSION_STATUS_KEEP
  · simp only [if_neg hnew, if_pos hkeep]
    cases f.meta_.target with
    | none => rfl
    | some target =>
      simp only
      rw [show (s.withTable table).xudp = s.xudp from rfl]
      split_ifs
      · exact ensureXudpCone_withTable s table f none
      · exact xudpSend_withTable s table f
  simp only [if_neg hnew, if_neg hkeep]
  split_ifs
  · exact closeXudpCone_withTable s table now
  · rfl
  · rfl

end

/-! ## Closing the cone -/

/-- From `s` to `t` the cone was closed at `now`. -/
structure Closes (s t : Relay) (cone : XudpCone) (now : ℕ) : Prop where
  taken : t.xudp = none
  aborted : ∀ c, cone.readerTask = some c → ∀ r ∈ t.cones c, r.aborted = true
  detached : ∀ id, cone.globalId = some id → t.registry = (s.registry.detachInner id now).1

theorem abortCone_aborted (s : Relay) (c : ℕ) :
    ∀ r ∈ (s.abortCone c).cones c, r.aborted = true := by
  intro r hr
  simp only [abortCone, Function.update_self] at hr
  obtain ⟨r', -, rfl⟩ := Option.mem_map.mp hr
  rfl

theorem abortHandles_aborted {c : ℕ} (hs : List Handle)
    (h : ∀ r ∈ s.cones c, r.aborted = true) :
    ∀ r ∈ (s.abortHandles hs).cones c, r.aborted = true := by
  induction hs generalizing s with
  | nil => exact h
  | cons x hs ih =>
    cases x with
    | own c' =>
      refine ih (s := s.abortCone c') fun r hr => ?_
      by_cases hc : c = c'
      · subst hc; exact abortCone_aborted s c r hr
      · simp only [abortCone, Function.update_of_ne hc] at hr; exact h r hr
    | other n => exact ih h

theorem closes_closeXudpCone (hx : s.xudp = some cone) (now : ℕ) :
    Closes s (s.closeXudpCone now) cone now := by
  unfold closeXudpCone
  rw [hx]
  obtain ⟨globalId, socket, readerTask⟩ := cone
  cases globalId with
  | none =>
    cases readerTask with
    | none => exact ⟨rfl, by simp, by simp⟩
    | some c =>
      refine ⟨rfl, ?_, by simp⟩
      rintro c' ⟨⟩
      exact abortCone_aborted { s with xudp := none } c
  | some id =>
    cases readerTask with
    | none =>
      simp only [detach]
      refine ⟨by rw [abortHandles_eq], by simp, ?_⟩
      rintro id' ⟨⟩
      rw [abortHandles_eq]
    | some c =>
      simp only [detach]
      refine ⟨by rw [abortHandles_eq]; rfl, ?_, ?_⟩
      · rintro c' ⟨⟩
        exact abortHandles_aborted _ (abortCone_aborted { s with xudp := none } c)
      · rintro id' ⟨⟩
        rw [abortHandles_eq]
        rfl

/-! ## Frames of an open cone -/

/-- The frame is handled as one of the open cone: as the XUDP handler does, up to the
    text of an error; END closes the cone; the main loop does not go on to write, and
    the frame it holds stays as it is; and the entry of session 0 in the session table,
    whatever it is, plays no part. -/
structure HandledByCone (s : Relay) (cone : XudpCone) (f : MuxFrame) (now : ℕ) : Prop where
  handler : s.handleMuxFrame f now = s.handleXudpFrame f now ∨
    ∃ e e', s.handleMuxFrame f now = s.fail e ∧ s.handleXudpFrame f now = s.fail e'
  closes : f.isEnd = true → Closes s (s.handleMuxFrame f now) cone now
  silent : (s.handleMuxFrame f now).main ≠ .writeEnd ∧
    (s.handleMuxFrame f now).frameOf .main = s.frameOf .main
  blind : ∀ entry, let table := { s.table with
      entries := Function.update s.table.entries XUDP_SESSION_ID entry }
    (s.withTable table).handleMuxFrame f now = (s.handleMuxFrame f now).withTable table

/-- The metadata of frames that are handled as frames of the cone: with the UDP network
    byte; otherwise neither KEEP nor END nor NEW with a target. -/
def coneFrame (m : MuxMeta) : Prop :=
  m.network = some NETWORK_UDP ∨
    m.status ≠ SESSION_STATUS_KEEP ∧ m.status ≠ SESSION_STATUS_END ∧
      (m.status = SESSION_STATUS_NEW → m.target = none)

theorem handleMuxFrame_of_xudp (hf : isXudpFrame f.meta_ = true) (s : Relay) (now : ℕ) :
    s.handleMuxFrame f now = s.handleXudpFrame f now :=
  if_pos hf

theorem handledByCone_of_xudp (hmain : s.main = .select) (hx : s.xudp = some cone)
    (hf : isXudpFrame f.meta_ = true) (now : ℕ) : HandledByCone s cone f now := by
  have hbusy : s.main.busy = false := by rw [hmain]; rfl
  refine ⟨.inl (handleMuxFrame_of_xudp hf s now), fun hend => ?_, ?_, fun entry => ?_⟩
  · have hstatus : f.meta_.status = SESSION_STATUS_END := by simpa [MuxFrame.isEnd] using hend
    rw [handleMuxFrame_of_xudp hf]
    unfold handleXudpFrame
    simp only [hstatus]
    exact closes_closeXudpCone hx now
  · have hquiet := (handleXudpFrame_handles hbusy f now).toQuiet
    rw [handleMuxFrame_of_xudp hf, frameOf, hquiet.writer]
    refine ⟨fun h => ?_, rfl⟩
    have := hquiet.busy hbusy
    rw [h] at this
    cases this
  · simp only [handleMuxFrame_of_xudp hf]
    exact handleXudpFrame_withTable s _ f now

theorem ignored_cases (hkeep : f.meta_.status ≠ SESSION_STATUS_KEEP)
    (hend : f.meta_.status ≠ SESSION_STATUS_END)
    (hnew : f.meta_.status = SESSION_STATUS_NEW → f.meta_.target = none)
    (hf : isXudpFrame f.meta_ = false) (now : ℕ) :
    (∀ s : Relay, s.handleMuxFrame f now = s ∧ s.handleXudpFrame f now = s) ∨
      ∃ e e', ∀ s : Relay,
        s.handleMuxFrame f now = s.fail e ∧ s.handleXudpFrame f now = s.fail e' := by
  have hnot : ¬ isXudpFrame f.meta_ = true := by simp [hf]
  unfold handleMuxFrame handleXudpFrame
  by_cases h : f.meta_.status = SESSION_STATUS_NEW
  · simp only [if_neg hnot, if_pos h, hnew h]
    exact .inr ⟨_, _, fun s => ⟨rfl, rfl⟩⟩
  by_cases hka : f.meta_.status = SESSION_STATUS_KEEP_ALIVE
  · refine .inl fun s => ⟨?_, ?_⟩
    · rw [if_neg hnot, if_neg h, if_neg hkeep, if_neg hend, if_pos hka]
    · rw [if_neg h, if_neg hkeep, if_neg hend, if_pos hka]
  · simp only [if_neg hnot, if_neg h, if_neg hkeep, if_neg hend, if_neg hka]
    exact .inr ⟨_, _, fun s => ⟨rfl, rfl⟩⟩

theorem handledByCone_of_ignored (hkeep : f.meta_.status ≠ SESSION_STATUS_KEEP)
    (hend : f.meta_.status ≠ SESSION_STATUS_END)
    (hnew : f.meta_.status = SESSION_STATUS_NEW → f.meta_.target = none)
    (hf : isXudpFrame f.meta_ = false) (hmain : s.main = .select) (now : ℕ) :
    HandledByCone s cone f now := by
  have hnot : f.isEnd ≠ true := by simpa [MuxFrame.isEnd] using hend
  rcases ignored_cases hkeep hend hnew hf now with h | ⟨e, e', h⟩
  · refine ⟨.inl (by rw [(h s).1, (h s).2]), fun h => absurd h hnot, by simp [(h s).1, hmain],
      fun entry => ?_⟩
    simp only [(h _).1]
  · refine ⟨.inr ⟨e, e', h s⟩, fun h => absurd h hnot, ?_, fun entry => ?_⟩
    · rw [(h s).1]
      exact ⟨fun h => (by cases h), rfl⟩
    · simp only [(h _).1]
      rfl

/-! ## Frames that are not -/

theorem not_handledByCone_end (hx : s.xudp = some cone)
    (hend : f.meta_.status = SESSION_STATUS_END) (hf : isXudpFrame f.meta_ = false) :
    ¬ HandledByCone s cone f now := by
  intro h
  have htaken := (h.closes (by simp [MuxFrame.isEnd, hend])).taken
  have hres : s.handleMuxFrame f now =
      { s with table := s.table.remove f.meta_.sessionId } := by
    unfold handleMuxFrame
    rw [if_neg (by simp [hf])]
    simp only [hend]
    rfl
  rw [hres] at htaken
  cases hx.symm.trans htaken

theorem main_forwardKeepFrame_of_none (h : s.table.entries f.meta_.sessionId = none) :
    (s.forwardKeepFrame f).main = .writeEnd := by
  unfold forwardKeepFrame
  rw [h]
  rfl

theorem not_handledByCone_keep (hmain : s.main = .select)
    (hid : f.meta_.sessionId = XUDP_SESSION_ID)
    (hkeep : f.meta_.status = SESSION_STATUS_KEEP) (htarget : f.meta_.target = none)
    (hf : isXudpFrame f.meta_ = false) : ¬ HandledByCone s cone f now := by
  intro h
  have hres : ∀ s : Relay, s.handleMuxFrame f now = s.forwardKeepFrame f := by
    intro s
    unfold handleMuxFrame
    rw [if_neg (by simp [hf])]
    simp only [hkeep]
    rfl
  have hxudp : s.handleXudpFrame f now = s := by
    unfold handleXudpFrame
    simp only [hkeep, htarget]
    rfl
  -- the handler would do nothing, but with no entry for session 0 END is written
  have hself : (s.handleMuxFrame f now).main = .select := by
    rcases h.handler with h | ⟨e, e', -, h⟩
    · rw [h, hxudp, hmain]
    · rw [hxudp] at h
      have := congrArg Relay.main h
      rw [hmain] at this
      cases this
  have hblind := congrArg Relay.main (h.blind none)
  rw [hres, main_forwardKeepFrame_of_none (by simp [withTable, hid])] at hblind
  cases hblind.trans hself

theorem not_handledByCone_new {target : Endpoint} (hx : s.xudp = some cone)
    (hnew : f.meta_.status = SESSION_STATUS_NEW) (htarget : f.meta_.target = some target)
    (hnetwork : f.meta_.network = some NETWORK_TCP) : ¬ HandledByCone s cone f now := by
  intro h
  have hf : ¬ isXudpFrame f.meta_ = true := by
    simp [isXudpFrame, hnetwork, NETWORK_TCP, NETWORK_UDP]
  have hmux : (s.handleMuxFrame f now).main = .connect f true := by
    unfold handleMuxFrame
    rw [if_neg hf, if_pos hnew, htarget, hnetwork]
    rfl
  have hxudp : s.handleXudpFrame f now = s.ensureXudpCone f f.meta_.globalId := by
    unfold handleXudpFrame
    rw [if_pos hnew, htarget]
  rcases h.handler with h | ⟨e, e', h, -⟩
  · -- the cone is open, so the handler sends the payload or starts the reader
    rw [h, hxudp, ensureXudpCone_of_some hx] at hmux
    unfold xudpSend startXudpReaderIfNeeded at hmux
    cases hp : f.nonEmptyPayload with
    | some payload => simp [hp] at hmux
    | none => cases hr : cone.readerTask <;> simp [hp, hr] at hmux
  · rw [h] at hmux
    cases hmux

/-- A frame of session 0, as the parser makes it, is handled as a frame of the open
    cone exactly if it is a `coneFrame`. -/
theorem cone_frame_iff {body : Bytes} (hmain : s.main = .select) (hx : s.xudp = some cone)
    (hparse : parseMetaBody body = .ok f.meta_) (hid : f.meta_.sessionId = XUDP_SESSION_ID)
    (now : ℕ) : HandledByCone s cone f now ↔ coneFrame f.meta_ := by
  constructor
  · intro h
    by_contra hcone
    simp only [coneFrame, not_or, not_and_or, not_not, Classical.not_imp] at hcone
    obtain ⟨hudp, hcone⟩ := hcone
    have hf : isXudpFrame f.meta_ = false := by simp [isXudpFrame, hudp]
    rcases hcone with hkeep | hend | ⟨hnew, htarget⟩
    · have htarget : f.meta_.target = none := by
        rcases parseMetaBody_cases hparse with ⟨-, h⟩ | ⟨network, target, hn, -, ⟨h, -⟩ | ⟨-, h⟩⟩
        · exact h
        · rw [hkeep] at h; cases h
        · rw [hn, h] at hudp; exact absurd rfl hudp
      exact not_handledByCone_keep hmain hid hkeep htarget hf h
    · exact not_handledByCone_end hx hend hf h
    · rcases parseMetaBody_cases hparse with ⟨-, h'⟩ | ⟨network, target, hn, ht, ⟨-, h'⟩ | ⟨h', -⟩⟩
      · exact htarget h'
      · rcases h' with rfl | rfl
        · exact not_handledByCone_new hx hnew ht hn h
        · exact hudp hn
      · rw [hnew] at h'; cases h'
  · intro hcone
    by_cases hf : isXudpFrame f.meta_ = true
    · exact handledByCone_of_xudp hmain hx hf now
    · rcases hcone with hudp | ⟨hkeep, hend, hnew⟩
      · exact absurd (by simp [isXudpFrame, hid, hudp]) hf
      · exact handledByCone_of_ignored hkeep hend hnew (by simpa using hf) hmain now

def openCone : List Act :=
  [.main (.frame (newFrame XUDP_SESSION_ID NETWORK_UDP (.ip (.v4 (ipv4Addr 1 1 1 1) 53)) none none)
    0), .main (.bind (.ok 40))]

def openBody : Bytes := [0, 0, 1, 0, 2, 0, 53, 1, 1, 1, 1, 1]

theorem cone_frame_iff_new :
    ∃ s cone m, Run (step ⟨none, none⟩) Any (init .new) openCone s ∧ s.xudp = some cone ∧
      parseMetaBody openBody = .ok m ∧ HandledByCone s cone ⟨m, none⟩ 0 := by
  obtain ⟨m, hparse, hid, hudp⟩ : ∃ m, parseMetaBody openBody = .ok m ∧
      m.sessionId = XUDP_SESSION_ID ∧ m.network = some NETWORK_UDP := ⟨_, rfl, rfl, rfl⟩
  exact ⟨_, _, m, exec_any rfl, rfl, hparse,
    (cone_frame_iff (f := ⟨m, none⟩) rfl rfl hparse hid 0).mpr (.inl hudp)⟩

theorem cone_frames_lost :
    ∃ s cone m m', Run (step ⟨none, none⟩) Any (init .new) openCone s ∧ s.xudp = some cone ∧
      parseFrame (encodeEndFrame XUDP_SESSION_ID false) = .ok (⟨m, none⟩, 6) ∧
      (s.handleMuxFrame ⟨m, none⟩ 0).xudp = some cone ∧
      parseFrame [0, 4, 0, 0, 2, 1, 0, 1, 7] = .ok (⟨m', some [7]⟩, 9) ∧
      (s.handleMuxFrame ⟨m', some [7]⟩ 0).frameOf .main = some (endFrame XUDP_SESSION_ID) := by
  exact ⟨_, _, _, _, exec_any rfl, rfl, rfl, rfl, rfl, rfl⟩

end Relay

end SkadiCore.Mux
