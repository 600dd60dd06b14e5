import SkadiCore.Common.ReadLoop
import SkadiCore.Core.Io
import SkadiCore.Mux.Frame

/-!
# Streams of mux frames

Frames back to back, as the encoders of `crates/skadi-protocol/src/vless/mux/frame.rs`
write them, and the two decoders: `parse_frame` over a buffer, and `read_mux_frame`
(`crates/skadi-transport/src/mux.rs`, lines 655-702) over a stream.
-/

namespace SkadiCore.Mux

open SkadiCore.Vless

/-! ## The parser, part by part -/

/-- The payload behind the metadata, with `consumed` bytes in front of it
    (`frame.rs`, lines 197-212). -/
def parseChunk (m : MuxMeta) (consumed : ℕ) : Bytes → Except MuxError (MuxFrame × ℕ)
  | hi :: lo :: l =>
    let chunkLen := (fromBe16 hi lo).toNat
    if chunkLen > MAX_CHUNK_SIZE then .error (.chunkTooLarge chunkLen)
    else if l.length < chunkLen then .error .tooShort
    else .ok (⟨m, some (l.take chunkLen)⟩, consumed + 2 + chunkLen)
  | _ => .error .tooShort

theorem parseChunk_append (m : MuxMeta) (pre rest : Bytes) :
    (if (pre ++ rest).length < pre.length + 2 then .error .tooShort
      else
        let chunkLen := (fromBe16 (byteAt (pre ++ rest) pre.length)
          (byteAt (pre ++ rest) (pre.length + 1))).toNat
        let consumed := pre.length + 2
        if chunkLen > MAX_CHUNK_SIZE then .error (.chunkTooLarge chunkLen)
        else if (pre ++ rest).length < consumed + chunkLen then .error .tooShort
        else
          .ok (⟨m, some (slice (pre ++ rest) consumed (consumed + chunkLen))⟩,
            consumed + chunkLen)) =
      parseChunk m pre.length rest := by
  rcases rest with - | ⟨hi, - | ⟨lo, l⟩⟩
  · simp [parseChunk]
  · simp [parseChunk]
  have hhi : byteAt (pre ++ hi :: lo :: l) pre.length = hi := byteAt_append pre _ hi rfl
  have hlo : byteAt (pre ++ hi :: lo :: l) (pre.length + 1) = lo := by
    have := byteAt_append (pre ++ [hi]) l lo (i := pre.length + 1) (by simp)
    simpa using this
  have hlen : ¬ (pre ++ hi :: lo :: l).length < pre.length + 2 := by simp
  set k := (fromBe16 hi lo).toNat with hk
  have hlen' : (pre ++ hi :: lo :: l).length < pre.length + 2 + k ↔ l.length < k := by
    simp; omega
  have hslice : slice (pre ++ hi :: lo :: l) (pre.length + 2) (pre.length + 2 + k) = l.take k := by
    rw [slice, ← List.drop_drop, List.drop_left]
    simp
  simp only [if_neg hlen, hhi, hlo, ← hk, hlen', hslice, parseChunk]

theorem parseFrame_cons (hi lo : Byte) (l : Bytes) :
    parseFrame (hi :: lo :: l) =
      if (fromBe16 hi lo).toNat > MAX_META_LEN then .error (.metaTooLarge (fromBe16 hi lo).toNat)
      else if l.length < (fromBe16 hi lo).toNat then .error .tooShort
      else
        match parseMetaBody (l.take (fromBe16 hi lo).toNat) with
        | .error e => .error e
        | .ok m =>
          if m.hasData then
            parseChunk m (2 + (fromBe16 hi lo).toNat) (l.drop (fromBe16 hi lo).toNat)
          else .ok (⟨m, none⟩, 2 + (fromBe16 hi lo).toNat) := by
  set k := (fromBe16 hi lo).toNat with hk
  have h2 : ¬ (hi :: lo :: l).length < 2 := by simp
  have hbody : slice (hi :: lo :: l) 2 (2 + k) = l.take k := by simp [slice]
  have hlen : (hi :: lo :: l).length < 2 + k ↔ l.length < k := by simp; omega
  simp only [parseFrame, if_neg h2, byteAt_cons_zero, byteAt_cons_one, ← hk, hbody, hlen]
  by_cases hshort : l.length < k
  · simp only [if_pos hshort]
  have hchunk := fun m => parseChunk_append m (hi :: lo :: l.take k) (l.drop k)
  have hpre : (hi :: lo :: l.take k).length = 2 + k := by simp; omega
  have happ : (hi :: lo :: l.take k) ++ l.drop k = hi :: lo :: l := by simp
  rw [hpre, happ] at hchunk
  by_cases hmax : k > MAX_META_LEN
  · simp only [if_pos hmax]
  cases parseMetaBody (l.take k) with
  | error e => simp only [if_neg hmax, if_neg hshort]
  | ok m =>
    by_cases hdata : m.hasData = true
    · simp only [if_neg hmax, if_neg hshort, if_pos hdata]
      exact hchunk m
    · simp only [if_neg hmax, if_neg hshort, if_neg hdata]

/-! ## Canonical frames -/

/-- The metadata that the encoders of `mux.rs` write. -/
inductive CanonicalMeta : Byte → Option Byte → Option Endpoint → Option GlobalId → Prop
  | newTcp {target : Endpoint} : target.Canonical →
      CanonicalMeta SESSION_STATUS_NEW (some NETWORK_TCP) (some target) none
  | newUdp {target : Endpoint} (globalId : Option GlobalId) : target.Canonical →
      CanonicalMeta SESSION_STATUS_NEW (some NETWORK_UDP) (some target) globalId
  | keep : CanonicalMeta SESSION_STATUS_KEEP none none none
  | keepUdp {target : Endpoint} : target.Canonical →
      CanonicalMeta SESSION_STATUS_KEEP (some NETWORK_UDP) (some target) none
  | done : CanonicalMeta SESSION_STATUS_END none none none
  | keepAlive : CanonicalMeta SESSION_STATUS_KEEP_ALIVE none none none

/-- A frame that the encoders of `mux.rs` can write. -/
structure MuxFrame.Canonical (f : MuxFrame) : Prop where
  meta_ : CanonicalMeta f.meta_.status f.meta_.network f.meta_.target f.meta_.globalId
  data : f.payload.isSome = f.meta_.hasData
  chunk : ∀ payload, f.payload = some payload → payload.length ≤ MAX_CHUNK_SIZE

def encodeFrame (f : MuxFrame) : Except MuxError Bytes :=
  match f.payload with
  | some payload => encodeDataFrame f.meta_ payload
  | none => .ok (encodeMeta f.meta_)

theorem encodeFrame_eq {f : MuxFrame}
    (h : ∀ payload, f.payload = some payload → payload.length ≤ MAX_CHUNK_SIZE) :
    encodeFrame f = .ok (wire f) := by
  cases hp : f.payload with
  | none => simp [encodeFrame, wire, hp]
  | some payload =>
    have := (h payload hp).not_gt
    simp [encodeFrame, wire, hp, encodeDataFrame, this]

theorem length_encodePortAddress_le {target : Endpoint} (h : target.Canonical) :
    (encodePortAddress target).length ≤ 259 := by
  match target with
  | .ip (.v4 _ _) => simp [encodePortAddress, SocketAddr.ip]
  | .ip (.v6 _ _ _ _) => simp [encodePortAddress, SocketAddr.ip]
  | .domain _ _ =>
    have := h.2
    simp [encodePortAddress]
    omega

theorem length_metaBody_le {m : MuxMeta}
    (h : CanonicalMeta m.status m.network m.target m.globalId) :
    (metaBody m).length ≤ MAX_META_LEN := by
  obtain ⟨sessionId, status, option, network, target, globalId⟩ := m
  have hkeep : SESSION_STATUS_KEEP ≠ SESSION_STATUS_NEW := by decide
  have hid : ((globalId.map fun id => id.val).getD []).length ≤ 8 := by
    cases globalId <;> simp
  simp only at h
  cases h with
  | newTcp htarget =>
    have := length_encodePortAddress_le htarget
    have hnet : NETWORK_TCP ≠ NETWORK_UDP := by decide
    simp [metaBody, MAX_META_LEN, hnet]
    omega
  | newUdp _ htarget =>
    have := length_encodePortAddress_le htarget
    simp [metaBody, MAX_META_LEN]
    omega
  | keep => simp [metaBody, MAX_META_LEN]
  | keepUdp htarget =>
    have := length_encodePortAddress_le htarget
    simp [metaBody, MAX_META_LEN, hkeep]
    omega
  | done => simp [metaBody, MAX_META_LEN]
  | keepAlive => simp [metaBody, MAX_META_LEN]

theorem parseMetaBody_bare (hi lo status option : Byte) :
    parseMetaBody [hi, lo, status, option] =
      .ok ⟨fromBe16 hi lo, status, option, none, none, none⟩ := by
  simp [parseMetaBody, needsTarget]

theorem parseMetaBody_target (hi lo option : Byte) {status network : Byte} {target : Endpoint}
    (extra : Bytes) (htarget : target.Canonical)
    (hneeds : status = SESSION_STATUS_NEW ∧ (network = NETWORK_TCP ∨ network = NETWORK_UDP) ∨
      status = SESSION_STATUS_KEEP ∧ network = NETWORK_UDP) :
    parseMetaBody (hi :: lo :: status :: option :: network ::
        (encodePortAddress target ++ extra)) =
      .ok ⟨fromBe16 hi lo, status, option, some network, some target,
        if status = SESSION_STATUS_NEW ∧ network = NETWORK_UDP ∧ 8 ≤ extra.length then
          some (toArray 8 (extra.take 8))
        else none⟩ := by
  set body := hi :: lo :: status :: option :: network :: (encodePortAddress target ++ extra)
  have hlen : ¬ body.length < 4 := by simp [body]
  have hneeds' : needsTarget body = true := by
    simp only [needsTarget, Bool.and_eq_true, Bool.or_eq_true, beq_iff_eq, decide_eq_true_eq]
    exact ⟨by simp [body], hneeds⟩
  have haddr : parsePortAddress (body.drop 5) = .ok (target, (encodePortAddress target).length) :=
    parsePortAddress_encode htarget
  have hfit : 5 + (encodePortAddress target).length + GLOBAL_ID_LEN ≤ body.length ↔
      8 ≤ extra.length := by
    simp [body, GLOBAL_ID_LEN]
    omega
  have hid : slice body (5 + (encodePortAddress target).length)
      (5 + (encodePortAddress target).length + GLOBAL_ID_LEN) = extra.take 8 := by
    rw [slice, ← List.drop_drop, Nat.add_sub_cancel_left]
    exact congrArg (List.take 8) List.drop_left
  simp only [parseMetaBody, if_neg hlen, if_pos hneeds', haddr, hfit, hid]
  rfl

theorem parseMetaBody_metaBody {m : MuxMeta}
    (h : CanonicalMeta m.status m.network m.target m.globalId) :
    parseMetaBody (metaBody m) = .ok m := by
  obtain ⟨sessionId, status, option, network, target, globalId⟩ := m
  obtain ⟨hi, lo, hbytes, hid⟩ := exists_toBe16 sessionId
  have hkeep : SESSION_STATUS_KEEP ≠ SESSION_STATUS_NEW := by decide
  simp only at h
  cases h with
  | newTcp htarget =>
    have hnet : NETWORK_TCP ≠ NETWORK_UDP := by decide
    have := parseMetaBody_target hi lo option [] htarget (.inl ⟨rfl, .inl rfl⟩)
    simpa [metaBody, hbytes, hid, hnet] using this
  | newUdp _ htarget =>
    cases globalId with
    | none =>
      have := parseMetaBody_target hi lo option [] htarget (.inl ⟨rfl, .inr rfl⟩)
      simpa [metaBody, hbytes, hid] using this
    | some id =>
      have := parseMetaBody_target hi lo option id.val htarget (.inl ⟨rfl, .inr rfl⟩)
      have htake : id.val.take 8 = id.val := List.take_of_length_le id.property.le
      simpa [metaBody, hbytes, hid, htake] using this
  | keep => simpa [metaBody, hbytes, hid, hkeep] using parseMetaBody_bare hi lo _ option
  | keepUdp htarget =>
    have := parseMetaBody_target hi lo option [] htarget (.inr ⟨rfl, rfl⟩)
    simpa [metaBody, hbytes, hid, hkeep] using this
  | done =>
    have hend : SESSION_STATUS_END ≠ SESSION_STATUS_NEW := by decide
    have hend' : SESSION_STATUS_END ≠ SESSION_STATUS_KEEP := by decide
    simpa [metaBody, hbytes, hid, hend, hend'] using parseMetaBody_bare hi lo _ option
  | keepAlive =>
    have hend : SESSION_STATUS_KEEP_ALIVE ≠ SESSION_STATUS_NEW := by decide
    have hend' : SESSION_STATUS_KEEP_ALIVE ≠ SESSION_STATUS_KEEP := by decide
    simpa [metaBody, hbytes, hid, hend, hend'] using parseMetaBody_bare hi lo _ option

theorem parseFrame_wire {f : MuxFrame} (hf : f.Canonical) (rest : Bytes) :
    parseFrame (wire f ++ rest) = .ok (f, (wire f).length) := by
  have hlen := length_metaBody_le hf.meta_
  have hmeta := parseMetaBody_metaBody hf.meta_
  obtain ⟨hi, lo, hbytes, hcount⟩ :=
    exists_toBe16_ofNat (show (metaBody f.meta_).length < 65536 from hlen.trans_lt (by decide))
  have hmax : ¬ (metaBody f.meta_).length > MAX_META_LEN := not_lt.mpr hlen
  obtain ⟨m, payload⟩ := f
  cases payload with
  | none =>
    have hdata : ¬ m.hasData = true := by simpa using hf.data.symm
    have hwire : wire ⟨m, none⟩ = hi :: lo :: metaBody m := by simp [wire, encodeMeta, hbytes]
    rw [hwire, List.cons_append, List.cons_append, parseFrame_cons, hcount, if_neg hmax,
      if_neg (by simp), List.take_left, hmeta]
    simp only [if_neg hdata, List.length_cons]
    rw [Nat.add_comm]
  | some payload =>
    have hdata : m.hasData = true := by simpa using hf.data.symm
    have hchunk := hf.chunk payload rfl
    obtain ⟨hi', lo', hbytes', hcount'⟩ :=
      exists_toBe16_ofNat (show payload.length < 65536 from hchunk.trans_lt (by decide))
    have hwire : wire ⟨m, some payload⟩ ++ rest =
        hi :: lo :: (metaBody m ++ (hi' :: lo' :: (payload ++ rest))) := by
      simp [wire, encodeMeta, hbytes, hbytes']
    have hlen' :
        (wire ⟨m, some payload⟩).length = 2 + (metaBody m).length + 2 + payload.length := by
      simp [wire, encodeMeta]
      omega
    rw [hwire, hlen', parseFrame_cons, hcount, if_neg hmax, if_neg (by simp), List.take_left, hmeta]
    simp only [if_pos hdata, List.drop_left]
    rw [parseChunk, hcount', if_neg (not_lt.mpr hchunk), if_neg (by simp), List.take_left]

/-- For every list of canonical frames and whatever follows them: the encoders accept
    them, and parsing their encodings one after the other gives back the frames and
    leaves exactly what follows. -/
theorem frames_roundTrip (fs : List MuxFrame) (hfs : ∀ f ∈ fs, f.Canonical) (rest : Bytes) :
    ∃ encodings, fs.mapM encodeFrame = .ok encodings ∧
      parseMany parseFrame fs.length (encodings.flatten ++ rest) = .ok (fs, rest) := by
  refine ⟨fs.map wire, ?_, parseMany_encode (fun f hf rest => parseFrame_wire (hfs f hf) rest) rest⟩
  induction fs with
  | nil => rfl
  | cons f fs ih =>
    have hf := encodeFrame_eq (hfs f (by simp)).chunk
    rw [List.mapM_cons, hf, ih fun g hg => hfs g (by simp [hg])]
    rfl

def sampleFrames : List MuxFrame :=
  [newFrame 1 NETWORK_TCP (.ip (.v4 (ipv4Addr 1 1 1 1) 80)) none (some [0x42]),
    newFrame 0 NETWORK_UDP (.domain "a" 53) (some (toArray 8 [])) none,
    keepFrame 1 [],
    ⟨⟨1, SESSION_STATUS_KEEP_ALIVE, OPTION_ERROR, none, none, none⟩, none⟩,
    ⟨endMeta 1 true, none⟩]

theorem canonical_sampleFrames : ∀ f ∈ sampleFrames, f.Canonical := by
  intro f hf
  simp only [sampleFrames, List.mem_cons, List.not_mem_nil, or_false] at hf
  rcases hf with rfl | rfl | rfl | rfl | rfl
  · exact ⟨.newTcp trivial, by decide, by simp [newFrame, MAX_CHUNK_SIZE]⟩
  · exact ⟨.newUdp _ (by decide), by decide, by simp [newFrame]⟩
  · exact ⟨.keep, by decide, by simp [keepFrame]⟩
  · exact ⟨.keepAlive, by decide, by simp⟩
  · exact ⟨.done, by decide, by simp⟩

theorem sampleFrames_roundTrip :
    (∀ f ∈ sampleFrames, f.Canonical) ∧
      ∃ encodings, sampleFrames.mapM encodeFrame = .ok encodings ∧
        parseMany parseFrame 5 (encodings.flatten ++ [0xFF]) = .ok (sampleFrames, [0xFF]) :=
  ⟨canonical_sampleFrames, frames_roundTrip sampleFrames canonical_sampleFrames [0xFF]⟩

/-! ## The reader -/

/-- `map_mux_error` (`mux.rs`, lines 704-706). -/
def mapMuxError (e : MuxError) : IoError := ⟨.invalidData, e.display⟩

def readChunk (m : MuxMeta) : ReadProg Byte IoError (Except IoError (Option MuxFrame)) :=
  .exact 2 .error fun chunkLenBuf =>
    let chunkLen := (fromBe16 (byteAt chunkLenBuf 0) (byteAt chunkLenBuf 1)).toNat
    if chunkLen > MAX_CHUNK_SIZE then .ret (.error (mapMuxError (.chunkTooLarge chunkLen)))
    else if chunkLen > 0 then
      .exact chunkLen .error fun payload => .ret (.ok (some ⟨m, some payload⟩))
    else .ret (.ok (some ⟨m, some []⟩))

/-- `read_mux_frame` (lines 655-702). The end of the stream in front of the second byte
    of a frame is a clean end. -/
def readMuxFrame : ReadProg Byte IoError (Except IoError (Option MuxFrame)) :=
  .exact 2 (fun e => if e.kind = .unexpectedEof then .ok none else .error e) fun lenBuf =>
    let metaLen := (fromBe16 (byteAt lenBuf 0) (byteAt lenBuf 1)).toNat
    if metaLen > MAX_META_LEN then .ret (.error (mapMuxError (.metaTooLarge metaLen)))
    else
      .exact metaLen .error fun metaBody =>
        match parseMetaBody metaBody with
        | .error e => .ret (.error (mapMuxError e))
        | .ok m => if m.hasData then readChunk m else .ret (.ok (some ⟨m, none⟩))

def earlyEof : IoError := ⟨.unexpectedEof, "early eof"⟩

/-- What the reader does on a stream, next to what the parser says: it returns the
    frame, behind the bytes the parser consumes, and it fails where the parser fails. -/
def Agrees (s : Bytes) (parsed : Except MuxError (MuxFrame × ℕ))
    (r : Except IoError (Option MuxFrame) × Bytes) : Prop :=
  match parsed with
  | .ok (f, n) => n ≤ s.length ∧ r = (.ok (some f), s.drop n)
  | .error _ => ∃ e, r.1 = .error e

theorem readChunk_agrees (m : MuxMeta) (pre l : Bytes) :
    Agrees (pre ++ l) (parseChunk m pre.length l) ((readChunk m).runOn earlyEof l) := by
  rcases l with - | ⟨hi, - | ⟨lo, l⟩⟩
  · exact ⟨_, rfl⟩
  · exact ⟨_, rfl⟩
  set k := (fromBe16 hi lo).toNat with hk
  have hlen : ¬ (hi :: lo :: l).length < 2 := by simp
  rw [readChunk, ReadProg.runOn, if_neg hlen]
  simp only [parseChunk, List.take_succ_cons, List.take_zero, List.drop_succ_cons, List.drop_zero,
    byteAt_cons_zero, byteAt_cons_one, ← hk]
  by_cases hmax : k > MAX_CHUNK_SIZE
  · simp only [if_pos hmax, ReadProg.runOn]
    exact ⟨_, rfl⟩
  have hdrop : (pre ++ hi :: lo :: l).drop (pre.length + 2 + k) = l.drop k := by
    rw [Nat.add_assoc, ← List.drop_drop, List.drop_left, Nat.add_comm 2]
    rfl
  by_cases hshort : l.length < k
  · simp only [if_neg hmax, if_pos hshort, if_pos (show k > 0 by omega), ReadProg.runOn]
    exact ⟨_, rfl⟩
  have hle : pre.length + 2 + k ≤ (pre ++ hi :: lo :: l).length := by simp; omega
  by_cases hpos : k > 0
  · simp only [if_neg hmax, if_neg hshort, if_pos hpos, ReadProg.runOn]
    exact ⟨hle, by rw [hdrop]⟩
  · simp only [if_neg hmax, if_neg hshort, if_neg hpos, ReadProg.runOn]
    have hzero : k = 0 := by omega
    exact ⟨hle, by rw [hdrop, hzero]; rfl⟩

theorem readMuxFrame_runOn (hi lo : Byte) (l : Bytes) :
    Agrees (hi :: lo :: l) (parseFrame (hi :: lo :: l))
      (readMuxFrame.runOn earlyEof (hi :: lo :: l)) := by
  set k := (fromBe16 hi lo).toNat with hk
  have hlen : ¬ (hi :: lo :: l).length < 2 := by simp
  rw [parseFrame_cons, readMuxFrame, ReadProg.runOn, if_neg hlen]
  simp only [List.take_succ_cons, List.take_zero, List.drop_succ_cons, List.drop_zero,
    byteAt_cons_zero, byteAt_cons_one, ← hk]
  by_cases hmax : k > MAX_META_LEN
  · simp only [if_pos hmax, ReadProg.runOn]
    exact ⟨_, rfl⟩
  by_cases hshort : l.length < k
  · simp only [if_neg hmax, if_pos hshort, ReadProg.runOn]
    exact ⟨_, rfl⟩
  simp only [if_neg hmax, if_neg hshort, ReadProg.runOn]
  cases parseMetaBody (l.take k) with
  | error e => exact ⟨_, rfl⟩
  | ok m =>
    by_cases hdata : m.hasData = true
    · have := readChunk_agrees m (hi :: lo :: l.take k) (l.drop k)
      rw [show (hi :: lo :: l.take k).length = 2 + k by simp; omega,
        show (hi :: lo :: l.take k) ++ l.drop k = hi :: lo :: l by simp] at this
      simpa only [if_pos hdata] using this
    · simp only [if_neg hdata, ReadProg.runOn]
      exact ⟨by simp; omega, by rw [Nat.add_comm]; rfl⟩

/-- For every stream in any segments, up to its end: the reader returns a frame behind
    `n` bytes exactly if the parser returns the frame and `n`, it ends cleanly exactly if
    less than two bytes are left, and otherwise it fails. -/
theorem readMuxFrame_agrees (segs : List Bytes) :
    (∀ f n, ((readMuxFrame.run earlyEof segs).1 = .ok (some f) ∧ n ≤ segs.flatten.length ∧
        (readMuxFrame.run earlyEof segs).2.flatten = segs.flatten.drop n) ↔
      parseFrame segs.flatten = .ok (f, n)) ∧
    ((readMuxFrame.run earlyEof segs).1 = .ok none ↔ segs.flatten.length < 2) ∧
    ∀ e, parseFrame segs.flatten = .error e → 2 ≤ segs.flatten.length →
      ∃ e', (readMuxFrame.run earlyEof segs).1 = .error e' := by
  have hrun := ReadProg.run_eq earlyEof readMuxFrame segs
  generalize readMuxFrame.run earlyEof segs = r at hrun ⊢
  obtain ⟨r, left⟩ := r
  generalize segs.flatten = s at hrun ⊢
  simp only
  rcases s with - | ⟨hi, - | ⟨lo, l⟩⟩
  · obtain ⟨rfl, -⟩ := Prod.mk.inj hrun
    simp [parseFrame, earlyEof]
  · obtain ⟨rfl, -⟩ := Prod.mk.inj hrun
    simp [parseFrame, earlyEof]
  have hagree := readMuxFrame_runOn hi lo l
  rw [← hrun] at hagree
  cases hparse : parseFrame (hi :: lo :: l) with
  | error e =>
    rw [hparse] at hagree
    obtain ⟨e', rfl⟩ : ∃ e', r = .error e' := hagree
    simp
  | ok p =>
    obtain ⟨f, n⟩ := p
    rw [hparse] at hagree
    obtain ⟨hn, heq⟩ : n ≤ (hi :: lo :: l).length ∧ (r, left.flatten) = _ := hagree
    obtain ⟨rfl, hleft⟩ := Prod.mk.inj heq
    refine ⟨fun f' n' => ?_, by simp, by simp⟩
    constructor
    · rintro ⟨hf, hn', hleft'⟩
      obtain rfl : f = f' := by simpa using hf
      have := congrArg List.length (hleft.symm.trans hleft')
      simp only [List.length_drop] at this
      obtain rfl : n = n' := by omega
      rfl
    · intro h
      obtain ⟨rfl, rfl⟩ : f = f' ∧ n = n' := by simpa using h
      exact ⟨rfl, hn, hleft⟩

theorem readMuxFrame_cut :
    ((readMuxFrame.run earlyEof [[0], [4, 0, 1], [4, 0, 0x42]]).1 =
        .ok (some ⟨⟨1, SESSION_STATUS_KEEP_ALIVE, 0, none, none, none⟩, none⟩) ∧
      (readMuxFrame.run earlyEof [[0], [4, 0, 1], [4, 0, 0x42]]).2.flatten = [0x42]) ∧
    ∃ e, (readMuxFrame.run earlyEof [[0], [4, 0, 1]]).1 = .error e := by
  constructor
  · obtain ⟨hr, -, hleft⟩ := ((readMuxFrame_agrees [[0], [4, 0, 1], [4, 0, 0x42]]).1
      ⟨⟨1, SESSION_STATUS_KEEP_ALIVE, 0, none, none, none⟩, none⟩ 6).mpr (by decide)
    exact ⟨hr, hleft⟩
  · exact (readMuxFrame_agrees [[0], [4, 0, 1]]).2.2 .tooShort (by decide) (by decide)

end SkadiCore.Mux
