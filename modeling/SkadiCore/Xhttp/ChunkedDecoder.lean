import SkadiCore.Common.ChunkedBody
import SkadiCore.Common.PollIo
import SkadiCore.Common.Utf8
import SkadiCore.Core.AddrParse
import SkadiCore.Core.Io

/-!
# The reader of a chunked response

Model of `ChunkedDecoder` (`crates/skadi-transport/src/xhttp/client.rs`, lines 433-577), on a
connection that answers as it likes (`PolledReader`). `iterate` is one pass of the loop of
`poll_read`; the loop that fills `leftover` behind the data of a chunk takes the same way.

**Defect.** A connection that closes where a size line is expected, or inside of one, is
reported as the end of the body (lines 496-499).
-/

namespace SkadiCore.Xhttp

/-! ## Size lines -/

def pushDigit (n : ℕ) (c : Char) : Except String ℕ :=
  match AddrParse.toDigit 16 c with
  | none => .error "invalid digit found in string"
  | some d =>
    if n * 16 + d < 2 ^ 64 then .ok (n * 16 + d)
    else .error "number too large to fit in target type"

def fromStrRadix16 (s : List Char) : Except String ℕ :=
  if s.isEmpty then .error "cannot parse integer from empty string"
  else if s = ['+'] ∨ s = ['-'] then .error "invalid digit found in string"
  else (if s.head? = some '+' then s.tail else s).foldlM pushDigit 0

def parseSize (line : Bytes) : Except IoError ℕ :=
  match fromUtf8 line with
  | none => .error ⟨.invalidData, utf8ErrorText line⟩
  | some text =>
    let sizeHex := trim (.ofList (text.toList.takeWhile (· != ';')))
    (fromStrRadix16 sizeHex.toList).mapError fun msg => ⟨.invalidData, msg⟩

/-- The format of the decoder, with its errors (lines 533-536, 554-557, 565-570). -/
def chunkFormat : ChunkFormat IoError where
  size := parseSize
  eofInData := ⟨.unexpectedEof, "eof mid chunk"⟩
  eofBehindData := ⟨.unexpectedEof, "eof after chunk"⟩
  noCrlf := ⟨.invalidData, "missing CRLF after chunk"⟩

/-! ## The decoder -/

inductive ChunkState
  | sizeLine
  | data
  | dataCrlf
  deriving DecidableEq

structure ChunkedDecoder where
  inner : PolledReader IoError Byte
  leftover : Bytes
  chunkRemaining : ℕ
  state : ChunkState
  eof : Bool

inductive Pass
  | again (d : ChunkedDecoder)
  | done (d : ChunkedDecoder) (answer : Polled IoError Bytes)

namespace ChunkedDecoder

def new (inner : PolledReader IoError Byte) (leftover : Bytes) : ChunkedDecoder :=
  ⟨inner, leftover, 0, .sizeLine, false⟩

variable (d : ChunkedDecoder)

def pollInner (room : ℕ) (k : ChunkedDecoder → Bytes → Pass) : Pass :=
  match d.inner.poll room with
  | (inner, .pending) => .done { d with inner := inner } .pending
  | (inner, .failed e) => .done { d with inner := inner } (.failed e)
  | (inner, .ready bytes) => k { d with inner := inner } bytes

def takeSizeLine (idx : ℕ) : Pass :=
  let rest := { d with leftover := d.leftover.drop (idx + 2) }
  match parseSize (d.leftover.take idx) with
  | .error e => .done rest (.failed e)
  | .ok size =>
    if size = 0 then .done { rest with eof := true } (.ready [])
    else .again { rest with chunkRemaining := size, state := .data }

def sizeLinePass : Pass :=
  match findCrlf d.leftover with
  | some idx => d.takeSizeLine idx
  | none =>
    d.pollInner 128 fun d bytes =>
      if bytes.isEmpty then .done { d with eof := true } (.ready [])
      else .again { d with leftover := d.leftover ++ bytes }

def dataPass (room : ℕ) : Pass :=
  let take := min (min d.chunkRemaining room) d.leftover.length
  let want := min d.chunkRemaining room
  if d.chunkRemaining = 0 then .again { d with state := .dataCrlf }
  else if 0 < take then
    .done { d with leftover := d.leftover.drop take, chunkRemaining := d.chunkRemaining - take }
      (.ready (d.leftover.take take))
  else if want = 0 then .done d (.ready [])
  else
    d.pollInner want fun d bytes =>
      if bytes.isEmpty then .done d (.failed chunkFormat.eofInData)
      else .done { d with chunkRemaining := d.chunkRemaining - bytes.length } (.ready bytes)

def dataCrlfPass : Pass :=
  if d.leftover.length < 2 then
    d.pollInner 2 fun d bytes =>
      if bytes.isEmpty then .done d (.failed chunkFormat.eofBehindData)
      else .again { d with leftover := d.leftover ++ bytes }
  else if d.leftover.take 2 ≠ crlf then .done d (.failed chunkFormat.noCrlf)
  else .again { d with leftover := d.leftover.drop 2, state := .sizeLine }

def iterate (room : ℕ) : Pass :=
  match d.state with
  | .sizeLine => d.sizeLinePass
  | .data => d.dataPass room
  | .dataCrlf => d.dataCrlfPass

def work : ℕ :=
  2 * d.leftover.length + 3 * d.inner.unread.length + if d.state = .data then 1 else 0

def loop (room : ℕ) : ℕ → ChunkedDecoder → ChunkedDecoder × Polled IoError Bytes
  | 0, d => (d, .pending)
  | fuel + 1, d =>
    match d.iterate room with
    | .again d => loop room fuel d
    | .done d answer => (d, answer)

/-- `poll_read` (lines 462-576). -/
def pollRead (room : ℕ) : ChunkedDecoder × Polled IoError Bytes :=
  if d.eof then (d, .ready []) else loop room (d.work + 1) d

/-! ## What is left of the stream -/

def stream : Bytes := d.leftover ++ d.inner.unread

def phase : ChunkPhase :=
  match d.state with
  | .sizeLine => .line
  | .data => .data d.chunkRemaining
  | .dataCrlf => .behind

def Holds (data : Bytes) (v : Verdict IoError) : Prop :=
  Decodes chunkFormat d.phase d.stream data v

/-- What one call, or one pass that returns, makes of `data` and `v`: it returns the front of
    the data; the end, if there is no data left and the last line was reached or the stream was
    cut off; pending, which the connection does only so often; or an error, of the stream or of
    the connection. -/
inductive Answers (d : ChunkedDecoder) (data : Bytes) (v : Verdict IoError) :
    ChunkedDecoder → Polled IoError Bytes → Prop
  | bytes (d' : ChunkedDecoder) (out data' : Bytes) : out ≠ [] → data = out ++ data' →
      d'.Holds data' v → d'.eof = d.eof → d'.inner.script <:+ d.inner.script →
      Answers d data v d' (.ready out)
  | ended (d' : ChunkedDecoder) : data = [] → (v = .complete ∨ v = .cut) →
      Answers d data v d' (.ready [])
  | pending (d' : ChunkedDecoder) : d'.Holds data v → d'.eof = d.eof →
      d'.inner.script <:+ d.inner.script → d'.inner.script.length < d.inner.script.length →
      Answers d data v d' .pending
  | failed (d' : ChunkedDecoder) (e : IoError) :
      (data = [] ∧ v = .failed e) ∨ .failed e ∈ d.inner.script → Answers d data v d' (.failed e)

structure Continues (data : Bytes) (v : Verdict IoError)
    (d' : ChunkedDecoder) : Prop where
  holds : d'.Holds data v
  eof : d'.eof = d.eof
  script : d'.inner.script <:+ d.inner.script
  work : d'.work < d.work

inductive Kept (d : ChunkedDecoder) (data : Bytes) (v : Verdict IoError) : Pass → Prop
  | again {d' : ChunkedDecoder} : Continues d data v d' → Kept d data v (.again d')
  | done {d' : ChunkedDecoder} {answer : Polled IoError Bytes} : Answers d data v d' answer →
      Kept d data v (.done d' answer)

variable {d d' : ChunkedDecoder} {data : Bytes} {v : Verdict IoError} {room : ℕ}

theorem kept_pollInner {k : ChunkedDecoder → Bytes → Pass} (h : d.Holds data v) (hroom : 0 < room)
    (hk : ∀ (inner : PolledReader IoError Byte) (bytes : Bytes),
      d.inner.unread = bytes ++ inner.unread → bytes.length ≤ room →
      (bytes = [] → d.inner.unread = []) → inner.script <:+ d.inner.script →
      Kept d data v (k { d with inner := inner } bytes)) :
    Kept d data v (d.pollInner room k) := by
  have hreads := d.inner.poll_reads hroom
  unfold pollInner
  generalize d.inner.poll room = p at hreads
  cases hreads with
  | ready inner bytes hunread hlen hempty hscript =>
    exact hk inner bytes hunread hlen hempty hscript
  | pending inner hunread hscript hless =>
    refine .done (.pending _ ?_ rfl hscript hless)
    show Decodes _ d.phase (d.leftover ++ inner.unread) data v
    rw [hunread]
    exact h
  | failed inner e hmem => exact .done (.failed _ e (.inr hmem))

variable {inner : PolledReader IoError Byte}

theorem continues_read {bytes : Bytes} (h : d.Holds data v)
    (hunread : d.inner.unread = bytes ++ inner.unread) (hne : bytes ≠ [])
    (hscript : inner.script <:+ d.inner.script) :
    Continues d data v { d with inner := inner, leftover := d.leftover ++ bytes } := by
  refine ⟨?_, rfl, hscript, ?_⟩
  · show Decodes _ d.phase ((d.leftover ++ bytes) ++ inner.unread) data v
    rw [List.append_assoc, ← hunread]
    exact h
  · have hpos := List.length_pos_of_ne_nil hne
    simp only [work, hunread, List.length_append]
    omega

theorem kept_takeSizeLine {idx : ℕ} (hstate : d.state = .sizeLine) (h : d.Holds data v)
    (hfind : findCrlf d.leftover = some idx) : Kept d data v (d.takeSizeLine idx) := by
  have hline : Decodes chunkFormat .line d.stream data v := by
    rwa [Holds, phase, hstate] at h
  obtain ⟨hlen, -⟩ := findCrlf_split hfind
  have hfind' : findCrlf d.stream = some idx := findCrlf_append hfind _
  have htake : d.stream.take idx = d.leftover.take idx :=
    List.take_append_of_le_length (by omega)
  have hdrop : d.stream.drop (idx + 2) = d.leftover.drop (idx + 2) ++ d.inner.unread :=
    List.drop_append_of_le_length hlen
  unfold takeSizeLine
  cases hsize : parseSize (d.leftover.take idx) with
  | error e =>
    obtain ⟨rfl, rfl⟩ := hline.of_badSize hfind' (htake ▸ hsize)
    exact .done (.failed _ e (.inl ⟨rfl, rfl⟩))
  | ok size =>
    by_cases hzero : size = 0
    · subst hzero
      obtain ⟨rfl, rfl⟩ := hline.of_last hfind' (htake ▸ hsize)
      exact .done (.ended _ rfl (.inl rfl))
    · simp only [hzero, if_false]
      refine .again ⟨?_, rfl, List.suffix_refl _, ?_⟩
      · show Decodes _ (.data size) (d.leftover.drop (idx + 2) ++ d.inner.unread) data v
        rw [← hdrop]
        exact (Decodes.line_iff_of_some hfind' (htake ▸ hsize) (Nat.pos_of_ne_zero hzero)).mp hline
      · simp only [work, hstate, List.length_drop, if_true]
        rw [if_neg (by decide)]
        omega

theorem kept_sizeLinePass (hstate : d.state = .sizeLine) (h : d.Holds data v) :
    Kept d data v d.sizeLinePass := by
  unfold sizeLinePass
  cases hfind : findCrlf d.leftover with
  | some idx => exact kept_takeSizeLine hstate h hfind
  | none =>
    refine kept_pollInner h (by norm_num) fun inner bytes hunread _ hempty hscript => ?_
    by_cases hnil : bytes = []
    · -- the connection is closed: all there is stands in `leftover`
      have hstream : d.stream = d.leftover := by
        rw [stream, hempty hnil, List.append_nil]
      have hline : Decodes chunkFormat .line d.stream data v := by
        rwa [Holds, phase, hstate] at h
      obtain ⟨rfl, rfl⟩ := hline.of_cut (hstream ▸ hfind)
      simp only [hnil, List.isEmpty_nil, if_true]
      exact .done (.ended _ rfl (.inr rfl))
    · rw [if_neg (by simpa using hnil)]
      exact .again (continues_read h hunread hnil hscript)

theorem answers_data (hstate : d.state = .data) (h : d.Holds data v) {out : Bytes}
    {leftover : Bytes} (hne : out ≠ []) (hstream : d.stream = out ++ (leftover ++ inner.unread))
    (hlen : out.length ≤ d.chunkRemaining) (hscript : inner.script <:+ d.inner.script) :
    Answers d data v
      { d with
        inner := inner
        leftover := leftover
        chunkRemaining := d.chunkRemaining - out.length } (.ready out) := by
  rw [Holds, phase, hstate, hstream] at h
  have hsum : d.chunkRemaining = out.length + (d.chunkRemaining - out.length) := by omega
  rw [hsum] at h
  obtain ⟨data', rfl, h'⟩ := h.take_data
  refine .bytes _ out data' hne rfl ?_ rfl hscript
  rw [Holds, phase]
  simp only [hstate]
  exact h'

theorem kept_dataPass (hstate : d.state = .data) (hroom : 0 < room) (h : d.Holds data v) :
    Kept d data v (d.dataPass room) := by
  have hdata : Decodes chunkFormat (.data d.chunkRemaining) d.stream data v := by
    rwa [Holds, phase, hstate] at h
  unfold dataPass
  by_cases hzero : d.chunkRemaining = 0
  · rw [if_pos hzero]
    refine .again ⟨?_, rfl, List.suffix_refl _, ?_⟩
    · rw [hzero] at hdata
      exact Decodes.filled_iff.mp hdata
    · simp only [work, hstate, if_true]
      rw [if_neg (by decide)]
      omega
  rw [if_neg hzero]
  by_cases htake : 0 < min (min d.chunkRemaining room) d.leftover.length
  · rw [if_pos htake]
    generalize hn : min (min d.chunkRemaining room) d.leftover.length = n at htake
    have hlen : (d.leftover.take n).length = n := by
      rw [List.length_take]
      omega
    have hstream : d.stream = d.leftover.take n ++ (d.leftover.drop n ++ d.inner.unread) := by
      rw [← List.append_assoc, List.take_append_drop]
      rfl
    have hne : d.leftover.take n ≠ [] := List.ne_nil_of_length_pos (by omega)
    have hanswer := answers_data hstate h hne hstream (by omega) (List.suffix_refl _)
    rw [hlen] at hanswer
    exact .done hanswer
  rw [if_neg htake, if_neg (by omega)]
  have hleftover : d.leftover = [] := List.eq_nil_of_length_eq_zero (by omega)
  refine kept_pollInner h (by omega) fun inner bytes hunread hlen hempty hscript => ?_
  by_cases hnil : bytes = []
  · have hstream : d.stream = [] := by
      rw [stream, hleftover, hempty hnil]
      rfl
    obtain ⟨n, hn⟩ := Nat.exists_eq_succ_of_ne_zero hzero
    rw [hn, hstream] at hdata
    obtain ⟨rfl, rfl⟩ := hdata.of_eof
    simp only [hnil, List.isEmpty_nil, if_true]
    exact .done (.failed _ _ (.inl ⟨rfl, rfl⟩))
  · rw [if_neg (by simpa using hnil)]
    have hstream : d.stream = bytes ++ (d.leftover ++ inner.unread) := by
      rw [stream, hleftover, hunread]
      rfl
    exact .done (answers_data hstate h hnil hstream (by omega) hscript)

theorem kept_dataCrlfPass (hstate : d.state = .dataCrlf) (h : d.Holds data v) :
    Kept d data v d.dataCrlfPass := by
  have hbehind : Decodes chunkFormat .behind d.stream data v := by
    rwa [Holds, phase, hstate] at h
  unfold dataCrlfPass
  by_cases hshort : d.leftover.length < 2
  · rw [if_pos hshort]
    refine kept_pollInner h (by norm_num) fun inner bytes hunread _ hempty hscript => ?_
    by_cases hnil : bytes = []
    · have hstream : d.stream = d.leftover := by
        rw [stream, hempty hnil, List.append_nil]
      obtain ⟨rfl, rfl⟩ := hbehind.of_short (hstream ▸ hshort)
      simp only [hnil, List.isEmpty_nil, if_true]
      exact .done (.failed _ _ (.inl ⟨rfl, rfl⟩))
    · rw [if_neg (by simpa using hnil)]
      exact .again (continues_read h hunread hnil hscript)
  rw [if_neg hshort]
  have htake : d.stream.take 2 = d.leftover.take 2 :=
    List.take_append_of_le_length (not_lt.mp hshort)
  by_cases hcrlf : d.leftover.take 2 = crlf
  · rw [if_neg (not_not_intro hcrlf)]
    have hstream : d.stream = crlf ++ (d.leftover.drop 2 ++ d.inner.unread) := by
      rw [← hcrlf, ← List.append_assoc, List.take_append_drop]
      rfl
    refine .again ⟨?_, rfl, List.suffix_refl _, ?_⟩
    · rw [hstream] at hbehind
      exact Decodes.crlf_iff.mp hbehind
    · simp only [work, hstate, List.length_drop]
      rw [if_neg (by decide), if_neg (by decide)]
      omega
  · rw [if_pos hcrlf]
    have hlen : 2 ≤ d.stream.length := by
      rw [stream, List.length_append]
      omega
    obtain ⟨rfl, rfl⟩ := hbehind.of_noCrlf hlen (htake ▸ hcrlf)
    exact .done (.failed _ _ (.inl ⟨rfl, rfl⟩))

theorem iterate_kept (hroom : 0 < room) (h : d.Holds data v) : Kept d data v (d.iterate room) := by
  unfold iterate
  cases hstate : d.state with
  | sizeLine => exact kept_sizeLinePass hstate h
  | data => exact kept_dataPass hstate hroom h
  | dataCrlf => exact kept_dataCrlfPass hstate h

theorem Continues.answers {d'' : ChunkedDecoder} {answer : Polled IoError Bytes}
    (hc : Continues d data v d') (h : Answers d' data v d'' answer) :
    Answers d data v d'' answer := by
  cases h with
  | bytes out data' hne hdata hholds heof hscript =>
    exact .bytes _ out data' hne hdata hholds (heof.trans hc.eof) (hscript.trans hc.script)
  | ended hdata hv => exact .ended _ hdata hv
  | pending hholds heof hscript hless =>
    exact .pending _ hholds (heof.trans hc.eof) (hscript.trans hc.script)
      (hless.trans_le hc.script.length_le)
  | failed e h => exact .failed _ e (h.imp_right fun hmem => hc.script.subset hmem)

theorem loop_answers {fuel : ℕ} (hroom : 0 < room) :
    ∀ {d : ChunkedDecoder}, d.Holds data v → d.work < fuel →
      Answers d data v (loop room fuel d).1 (loop room fuel d).2 := by
  induction fuel with
  | zero =>
    intro d _ hwork
    exact absurd hwork (Nat.not_lt_zero _)
  | succ fuel ih =>
    intro d h hwork
    have hkept := iterate_kept hroom h
    rw [loop]
    generalize d.iterate room = p at hkept
    cases hkept with
    | again hc => exact hc.answers (ih hc.holds (by have := hc.work; omega))
    | done h => exact h

theorem pollRead_answers (hroom : 0 < room) (heof : d.eof = false) (h : d.Holds data v) :
    Answers d data v (d.pollRead room).1 (d.pollRead room).2 := by
  rw [pollRead, if_neg (by simp [heof])]
  exact loop_answers hroom h (Nat.lt_succ_self _)

end ChunkedDecoder

/-! ## Reading to the end -/

inductive ReadStatus
  | reading
  | ended
  | failed (e : IoError)
  deriving DecidableEq

structure Reading where
  decoder : ChunkedDecoder
  got : Bytes
  status : ReadStatus

namespace Reading

def took (s : Reading) (d : ChunkedDecoder) : Polled IoError Bytes → Reading
  | .pending => { s with decoder := d }
  | .failed e => { s with decoder := d, status := .failed e }
  | .ready out =>
    if out.isEmpty then { s with decoder := d, status := .ended }
    else { s with decoder := d, got := s.got ++ out }

def read (s : Reading) (n : ℕ) : Reading :=
  match s.status with
  | .reading => s.took (s.decoder.pollRead n).1 (s.decoder.pollRead n).2
  | _ => s

def readAll (d : ChunkedDecoder) (sizes : List ℕ) : Reading :=
  sizes.foldl read ⟨d, [], .reading⟩

/-- What was got behind so many calls is the front of the data, and at the end all of it. As
    long as there is no end, every call has returned bytes or was pending. -/
structure Sound (script : List (ReadStep IoError)) (data : Bytes) (v : Verdict IoError)
    (calls : ℕ) (s : Reading) : Prop where
  reading : s.status = .reading → s.decoder.eof = false ∧ s.decoder.inner.script <:+ script ∧
    ∃ rest, data = s.got ++ rest ∧ s.decoder.Holds rest v ∧
      rest.length + s.decoder.inner.script.length + calls ≤ data.length + script.length
  ended : s.status = .ended → s.got = data ∧ (v = .complete ∨ v = .cut)
  failed : ∀ e, s.status = .failed e → s.got <+: data ∧
    ((s.got = data ∧ v = .failed e) ∨ .failed e ∈ script)

variable {script : List (ReadStep IoError)} {data : Bytes} {v : Verdict IoError} {s : Reading}
  {calls : ℕ}

theorem Sound.took {rest : Bytes} {d : ChunkedDecoder} {answer : Polled IoError Bytes}
    (hs : s.status = .reading) (heof : s.decoder.eof = false)
    (hscript : s.decoder.inner.script <:+ script) (hdata : data = s.got ++ rest)
    (hcalls : rest.length + s.decoder.inner.script.length + calls ≤ data.length + script.length)
    (h : s.decoder.Answers rest v d answer) :
    Sound script data v (calls + 1) (s.took d answer) := by
  cases h with
  | bytes out rest' hne hrest hholds heof' hscript' =>
    have hpos := List.length_pos_of_ne_nil hne
    have hle := hscript'.length_le
    rw [Reading.took, if_neg (by simpa using hne)]
    refine ⟨fun _ => ⟨heof'.trans heof, hscript'.trans hscript, rest', ?_, hholds, ?_⟩,
      fun h => ?_, fun e h => ?_⟩
    · rw [hdata, hrest, List.append_assoc]
    · rw [hrest, List.length_append] at hcalls
      show rest'.length + d.inner.script.length + (calls + 1) ≤ _
      omega
    · cases hs.symm.trans h
    · cases hs.symm.trans h
  | ended hrest hv =>
    subst hrest
    rw [List.append_nil] at hdata
    refine ⟨fun h => ?_, fun _ => ⟨hdata.symm, hv⟩, fun e h => ?_⟩
    · cases h
    · cases h
  | pending hholds heof' hscript' hless =>
    refine ⟨fun _ => ⟨heof'.trans heof, hscript'.trans hscript, rest, hdata, hholds, ?_⟩,
      fun h => ?_, fun e h => ?_⟩
    · show rest.length + d.inner.script.length + (calls + 1) ≤ _
      omega
    · cases hs.symm.trans h
    · cases hs.symm.trans h
  | failed e h =>
    refine ⟨fun h => ?_, fun h => ?_, fun e' he => ?_⟩
    · cases h
    · cases h
    · cases he
      refine ⟨⟨rest, hdata.symm⟩, ?_⟩
      rcases h with ⟨hrest, hv⟩ | hmem
      · subst hrest
        rw [List.append_nil] at hdata
        exact .inl ⟨hdata.symm, hv⟩
      · exact .inr (hscript.subset hmem)

theorem Sound.read {n : ℕ} (h : Sound script data v calls s) (hn : 0 < n) :
    Sound script data v (calls + 1) (s.read n) := by
  unfold Reading.read
  cases hs : s.status with
  | reading =>
    obtain ⟨heof, hscript, rest, hdata, hholds, hcalls⟩ := h.reading hs
    exact .took hs heof hscript hdata hcalls
      (ChunkedDecoder.pollRead_answers hn heof hholds)
  | ended | failed e =>
    refine ⟨fun h' => ?_, h.ended, h.failed⟩
    cases hs.symm.trans h'

theorem Sound.readAll {sizes : List ℕ} (hsizes : ∀ n ∈ sizes, 0 < n) :
    ∀ {calls : ℕ} {s : Reading}, Sound script data v calls s →
      Sound script data v (calls + sizes.length) (sizes.foldl Reading.read s) := by
  induction sizes with
  | nil =>
    intro calls s h
    exact h
  | cons n sizes ih =>
    intro calls s h
    obtain ⟨hn, hsizes⟩ := List.forall_mem_cons.mp hsizes
    have hread := ih hsizes (h.read hn)
    rwa [Nat.add_assoc, Nat.add_comm 1] at hread

theorem reading_spec (script : List (ReadStep IoError)) {leftover unread : Bytes}
    {sizes : List ℕ} (hsizes : ∀ n ∈ sizes, 0 < n)
    (h : Decodes chunkFormat .line (leftover ++ unread) data v) :
    Sound script data v sizes.length (Reading.readAll (.new ⟨unread, script⟩ leftover) sizes) := by
  have hstart : Sound script data v 0 ⟨.new ⟨unread, script⟩ leftover, [], .reading⟩ := by
    refine ⟨fun _ => ⟨rfl, List.suffix_refl _, data, rfl, h, le_rfl⟩, fun h => ?_, fun e h => ?_⟩
    · cases h
    · cases h
  have hall := hstart.readAll hsizes
  rwa [Nat.zero_add] at hall

theorem Sound.decided (h : Sound script data v calls s)
    (hcalls : data.length + script.length < calls) :
    s.status = .ended ∨ ∃ e, s.status = .failed e := by
  cases hs : s.status with
  | reading =>
    obtain ⟨-, -, rest, -, -, hle⟩ := h.reading hs
    omega
  | ended => exact .inl rfl
  | failed e => exact .inr ⟨e, rfl⟩

end Reading

/-! ## Truncated responses -/

theorem length_data_le {p : ChunkPhase} {w data : Bytes} {v : Verdict IoError}
    (h : Decodes chunkFormat p w data v) : data.length ≤ w.length := by
  induction h with
  | cut | badSize | last | eofInData | eofBehindData | noCrlf => exact Nat.zero_le _
  | size _ _ _ _ ih =>
    rw [List.length_drop] at ih
    omega
  | filled _ ih => exact ih
  | byte _ ih => exact Nat.succ_le_succ ih
  | crlf _ ih =>
    rw [List.length_append]
    omega

/-- For every `leftover`, every way in which the connection gives the rest of the stream, and all
    buffers: if the end is reported, a line of size zero was reached by whole chunks, whose data
    was returned; and if there is no such line, enough calls return an error. -/
def EndsProperly (w : Bytes) : Prop :=
  ∀ (leftover unread : Bytes) (script : List (ReadStep IoError)) (sizes : List ℕ),
    leftover ++ unread = w → (∀ n ∈ sizes, 0 < n) →
    ((Reading.readAll (.new ⟨unread, script⟩ leftover) sizes).status = .ended →
      ∃ cs tail, Chunks chunkFormat w cs tail ∧ LastLine chunkFormat tail ∧
        (Reading.readAll (.new ⟨unread, script⟩ leftover) sizes).got = cs.flatten) ∧
    (¬ Terminated chunkFormat w → w.length + script.length < sizes.length →
      ∃ e, (Reading.readAll (.new ⟨unread, script⟩ leftover) sizes).status = .failed e)

/-- No truncated response is taken for a complete one exactly if it does not stop behind whole
    chunks, at once or inside a size line. -/
theorem endsProperly_iff (w : Bytes) : EndsProperly w ↔ ¬ CutOff chunkFormat w := by
  constructor
  · rintro h ⟨cs, tail, hchunks, htail⟩
    have hcut : Decodes chunkFormat .line ([] ++ w) cs.flatten .cut :=
      decodes_cut_iff.mpr ⟨cs, tail, hchunks, htail, rfl⟩
    have hsizes : ∀ n ∈ List.replicate (w.length + 1) 1, 0 < n := by
      intro n hn
      rw [List.eq_of_mem_replicate hn]
      exact Nat.one_pos
    have hlen : w.length + ([] : List (ReadStep IoError)).length <
        (List.replicate (w.length + 1) 1).length := by
      simp
    have hsound := Reading.reading_spec [] hsizes hcut
    obtain ⟨-, hfailed⟩ := h [] w [] _ rfl hsizes
    obtain ⟨e, he⟩ := hfailed (not_terminated_of_cutOff ⟨cs, tail, hchunks, htail⟩) hlen
    obtain ⟨-, ⟨-, hv⟩ | hmem⟩ := hsound.failed e he
    · cases hv
    · exact absurd hmem (List.not_mem_nil)
  · intro hcut leftover unread script sizes hw hsizes
    subst hw
    obtain ⟨data, v, hdecodes⟩ := exists_decodes (F := chunkFormat) (leftover ++ unread)
    have hsound := Reading.reading_spec script hsizes hdecodes
    have hcomplete : ∀ hv : v = .complete ∨ v = .cut, v = .complete := by
      rintro (rfl | rfl)
      · rfl
      · obtain ⟨cs, tail, hchunks, htail, -⟩ := decodes_cut_iff.mp hdecodes
        exact absurd ⟨cs, tail, hchunks, htail⟩ hcut
    constructor
    · intro hended
      obtain ⟨hgot, hv⟩ := hsound.ended hended
      have hv := hcomplete hv
      subst hv
      obtain ⟨cs, tail, hchunks, hlast, hdata⟩ := decodes_complete_iff.mp hdecodes
      exact ⟨cs, tail, hchunks, hlast, hgot.trans hdata⟩
    · intro hterminated hlen
      have hle := length_data_le hdecodes
      refine (hsound.decided (by omega)).resolve_left fun hended => hterminated ?_
      obtain ⟨-, hv⟩ := hsound.ended hended
      have hv := hcomplete hv
      subst hv
      obtain ⟨cs, tail, hchunks, hlast, -⟩ := decodes_complete_iff.mp hdecodes
      exact ⟨cs, tail, hchunks, hlast⟩

theorem truncated_accepted :
    (Reading.readAll (.new ⟨[51, 13, 10, 97, 98, 99, 13, 10], []⟩ []) [8, 8]).got = [97, 98, 99] ∧
    (Reading.readAll (.new ⟨[51, 13, 10, 97, 98, 99, 13, 10], []⟩ []) [8, 8]).status = .ended ∧
    ¬ EndsProperly [51, 13, 10, 97, 98, 99, 13, 10] := by
  have hended : (Reading.readAll (.new ⟨[51, 13, 10, 97, 98, 99, 13, 10], []⟩ []) [8, 8]).status =
      .ended := by
    decide +kernel
  have hsize : chunkFormat.size [51] = .ok [97, 98, 99].length := by decide +kernel
  have hchunks : Chunks chunkFormat [51, 13, 10, 97, 98, 99, 13, 10] [[97, 98, 99]] [] :=
    @Chunks.cons _ chunkFormat [51] [97, 98, 99] [] [] [] rfl hsize (by decide) (.nil [])
  refine ⟨by decide +kernel, hended, fun h => ?_⟩
  obtain ⟨cs, tail, hcs, hlast, -⟩ := (h [] _ [] [8, 8] rfl (by decide)).1 hended
  exact not_terminated_of_cutOff ⟨_, _, hchunks, rfl⟩ ⟨cs, tail, hcs, hlast⟩

end SkadiCore.Xhttp
