import SkadiCore.Common.CappedRead
import SkadiCore.Common.Result
import SkadiCore.Common.Split
import SkadiCore.Common.Utf8
import SkadiCore.Xhttp.Request

/-!
# Responses of DNS over HTTPS

Model of `read_doh_response` and `parse_content_length` (`crates/skadi-client/src/doh.rs`,
lines 134-208). The bytes of the upstream come in chunks of at most 4096, at the end of which
the stream is closed or fails.

**The length is added without a check.** A `Content-Length` near `2 ^ 64` makes the addition
of line 167 overflow, or, where this wraps, the slice of line 184 end before it begins; the
function panics in both cases (`doh_length_overflows`).

**The caps are tested behind the chunk that completes the response.** A response whose headers
or whose body come close to 65536 bytes is refused or not, depending on how many of the bytes
behind them come in the same chunk.

**The syntax is not that of HTTP.** The name of the field is found in two spellings only; a
sign, and spaces between the digits, are accepted, and so is `2000` for the status 200.

**Abstraction.** A `usize` has 64 bits. Since the two ways to panic are not told apart, `none`
stands for both.
-/

namespace SkadiCore.Client

/-! ## The headers -/

def HEADER_END : Bytes := [13, 10, 13, 10]

def headerEnd (buf : Bytes) : Option ℕ := endOf HEADER_END buf

def lines (headers : Bytes) : List Bytes := headers.splitOn 10

def stripCr (line : Bytes) : Bytes := if line.getLast? = some 13 then line.dropLast else line

def isAsciiWhitespace (b : Byte) : Bool := b == 9 || b == 10 || b == 12 || b == 13 || b == 32

def trimAscii (value : Bytes) : Bytes :=
  ((value.dropWhile isAsciiWhitespace).reverse.dropWhile isAsciiWhitespace).reverse

def lengthField (line : Bytes) : Option Bytes :=
  stripPrefix (asBytes "Content-Length:") line <|> stripPrefix (asBytes "content-length:") line

def lengthOf (value : Bytes) : Except String ℕ := do
  let digits ← okOr "invalid Content-Length encoding"
    (fromUtf8 ((trimAscii value).filter (· ≠ 32)))
  okOr "invalid Content-Length value" (Xhttp.parseU64 digits)

/-- `parse_content_length` (lines 187-208). -/
def parseContentLength (headers : Bytes) : Except String ℕ :=
  match ((lines headers).map stripCr).findSome? lengthField with
  | some value => lengthOf value
  | none => .error "DoH response missing Content-Length"

def checkHeaders (headers : Bytes) : Except String ℕ := do
  let statusLine := (lines headers).headD []
  bailIf (!(asBytes "HTTP/1.1 200").isPrefixOf statusLine &&
      !(asBytes "HTTP/1.0 200").isPrefixOf statusLine)
    s!"DoH upstream returned non-200 status: {fromUtf8Lossy statusLine}"
  parseContentLength headers

/-! ## Reading -/

inductive StreamEnd
  | closed
  | failed
  deriving DecidableEq

def StreamEnd.error (atEnd : StreamEnd) (onClosed onFailed : String) : String :=
  match atEnd with
  | closed => onClosed
  | failed => onFailed

/-- The body behind `header_end` bytes of headers (lines 166-184): the result, `none` where the
    function panics, and the buffer. -/
def readDohBody (headerEnd contentLength : ℕ) (buf : Bytes) (rest : List Bytes)
    (atEnd : StreamEnd) : Option (Except String Bytes) × Bytes :=
  let needed := headerEnd + contentLength
  if needed < 2 ^ 64 then
    match readCapped (fun buf => buf.length < needed) (headerEnd + 65536) buf rest with
    | .enough buf _ => (some (.ok (slice buf headerEnd needed)), buf)
    | .ended buf =>
      (some (.error (atEnd.error "truncated DoH response body" "DoH response body EOF")), buf)
    | .tooLarge buf => (some (.error "DoH response body too large"), buf)
  else (none, buf)

/-- `read_doh_response` (lines 134-185). -/
def readDohResponse (chunks : List Bytes) (atEnd : StreamEnd) :
    Option (Except String Bytes) × Bytes :=
  match readCapped (fun buf => (headerEnd buf).isNone) (64 * 1024) [] chunks with
  | .enough buf rest =>
    match headerEnd buf with
    | some headerEnd =>
      match checkHeaders (buf.take headerEnd) with
      | .ok contentLength => readDohBody headerEnd contentLength buf rest atEnd
      | .error err => (some (.error err), buf)
    | none => (some (.error "DoH HTTP headers malformed"), buf)
  | .ended buf =>
    (some (.error (atEnd.error "incomplete DoH HTTP headers" "DoH response EOF")), buf)
  | .tooLarge buf => (some (.error "DoH HTTP headers too large"), buf)

/-! ## Responses -/

def isStatus200 (line : Bytes) : Bool :=
  [asBytes "HTTP/1.1 200", asBytes "HTTP/1.0 200"].any fun status =>
    line == status || (status ++ [32]).isPrefixOf line

def contentLengthValue (line : Bytes) : Option Bytes :=
  match splitOnce 58 line with
  | some (name, value) =>
    if name.map (fun b => if 65 ≤ b ∧ b ≤ 90 then b + 32 else b) = asBytes "content-length" then
      some value
    else none
  | none => none

def decimalValue (value : Bytes) : Option ℕ :=
  let blank (b : Byte) : Bool := b == 32 || b == 9
  let digits := ((value.dropWhile blank).reverse.dropWhile blank).reverse
  if digits ≠ [] ∧ digits.all (fun b => 48 ≤ b ∧ b ≤ 57) then
    some (digits.foldl (fun n b => 10 * n + (b.toNat - 48)) 0)
  else none

def responseLength (headers : Bytes) : Option ℕ :=
  let fields := (lines headers).map stripCr
  if isStatus200 (fields.headD []) then
    match (fields.filterMap contentLengthValue).map decimalValue with
    | some n :: others => if others.all (· = some n) then some n else none
    | _ => none
  else none

/-- `w` begins with `h` bytes of headers and a body of `n`, the length they state. -/
structure IsResponse (w : Bytes) (h n : ℕ) : Prop where
  block : headerEnd w = some h
  length : responseLength (w.take h) = some n
  body : h + n ≤ w.length

/-- The reads return `w` in chunks of at most 4096 bytes. -/
structure Segmented (w : Bytes) (chunks : List Bytes) : Prop where
  flatten : chunks.flatten = w
  length : ∀ c ∈ chunks, 0 < c.length ∧ c.length ≤ 4096

/-- However the stream is cut, the function does not panic and keeps at most 135168 bytes; what
    it returns is the body of a response; and it returns a body if there is one of at most
    65535 bytes, behind headers of fewer than 65536. -/
def ReadsExactly (w : Bytes) : Prop :=
  ∀ chunks atEnd, Segmented w chunks →
    (readDohResponse chunks atEnd).1 ≠ none ∧ (readDohResponse chunks atEnd).2.length ≤ 135168 ∧
      (∀ body, (readDohResponse chunks atEnd).1 = some (.ok body) →
        ∃ h n, IsResponse w h n ∧ body = slice w h (h + n)) ∧
      ∀ h n, IsResponse w h n → h < 65536 → n ≤ 65535 →
        ∃ body, (readDohResponse chunks atEnd).1 = some (.ok body)

/-- What the function accepts is a response, and does not make the addition overflow; and it
    accepts a response that is not too large, and of which no chunk can exceed a cap. -/
def Readable (w : Bytes) : Prop :=
  ∀ h, headerEnd w = some h →
    (∀ n, checkHeaders (w.take h) = .ok n → h ≤ 65536 →
      h + n < 2 ^ 64 ∧ (n ≤ 65536 → h + n ≤ w.length → responseLength (w.take h) = some n)) ∧
    ∀ n, responseLength (w.take h) = some n → h + n ≤ w.length → h < 65536 → n ≤ 65535 →
      checkHeaders (w.take h) = .ok n ∧ (w.length ≤ 65536 ∨ h ≤ 61441) ∧
        (w.length ≤ h + 65536 ∨ n ≤ 61441)

/-! ## How reading ends -/

variable {w buf : Bytes} {chunks rest : List Bytes} {atEnd : StreamEnd} {h n : ℕ}

inductive DohEnd (w : Bytes) : Option (Except String Bytes) → Prop
  | ok {h n : ℕ} (hend : headerEnd w = some h) (hh : h ≤ 65536)
      (hcheck : checkHeaders (w.take h) = .ok n) (hn : n ≤ 65536) (hfits : h + n < 2 ^ 64)
      (hlen : h + n ≤ w.length) : DohEnd w (some (.ok (slice w h (h + n))))
  | panics {h n : ℕ} (hend : headerEnd w = some h) (hh : h ≤ 65536)
      (hcheck : checkHeaders (w.take h) = .ok n) (hover : 2 ^ 64 ≤ h + n) : DohEnd w none
  | noHeaders (hend : headerEnd w = none) (err : String) : DohEnd w (some (.error err))
  | largeHeaders (hlen : 65536 < w.length) (hend : ∀ h, headerEnd w = some h → 61441 < h)
      (err : String) : DohEnd w (some (.error err))
  | refused {h : ℕ} {err : String} (hend : headerEnd w = some h)
      (hcheck : checkHeaders (w.take h) = .error err) : DohEnd w (some (.error err))
  | truncated {h n : ℕ} (hend : headerEnd w = some h) (hcheck : checkHeaders (w.take h) = .ok n)
      (hlen : w.length < h + n) (err : String) : DohEnd w (some (.error err))
  | largeBody {h n : ℕ} (hend : headerEnd w = some h) (hcheck : checkHeaders (w.take h) = .ok n)
      (hlen : h + 65536 < w.length) (hn : 61441 < n) (err : String) :
      DohEnd w (some (.error err))

theorem headerEnd_take_eq_none_iff (hend : headerEnd w = some h) {i : ℕ} :
    headerEnd (w.take i) = none ↔ i < h := by
  constructor
  · intro hnone
    by_contra hle
    have hsome := endOf_take_of_le (by decide : HEADER_END ≠ []) hend (not_lt.mp hle)
    cases hsome.symm.trans hnone
  · exact endOf_take_of_lt hend

theorem headers_enough (hseg : Segmented w chunks)
    (hread : readCapped (fun buf => (headerEnd buf).isNone) (64 * 1024) [] chunks =
      .enough buf rest) :
    ∃ h, headerEnd w = some h ∧ headerEnd buf = some h ∧ h ≤ buf.length ∧ buf.length ≤ 65536 ∧
      buf ++ rest.flatten = w ∧ ∀ c ∈ rest, c.length ≤ 4096 := by
  obtain ⟨hstop, hflat, hrest, hlen⟩ := readCapped_enough hread
  rw [List.nil_append, hseg.flatten] at hflat
  obtain ⟨h, hend⟩ := Option.isSome_iff_exists.mp (by simpa using hstop)
  refine ⟨h, ?_, hend, (endOf_bounds hend).2, ?_, hflat, fun c hc => (hseg.length c (hrest c hc)).2⟩
  · rw [← hflat]
    exact endOf_append rest.flatten hend
  · rcases hlen with rfl | hlen
    · simp
    · exact hlen

theorem headers_tooLarge (hseg : Segmented w chunks)
    (hread : readCapped (fun buf => (headerEnd buf).isNone) (64 * 1024) [] chunks =
      .tooLarge buf) :
    65536 < w.length ∧ buf.length ≤ 69632 ∧ ∀ h, headerEnd w = some h → 61441 < h := by
  obtain ⟨hlarge, hpre, prev, hprev, hinit, hlen, hbound⟩ :=
    readCapped_tooLarge (fun c hc => (hseg.length c hc).2) hread
  rw [List.nil_append, hseg.flatten] at hpre
  have hle := hpre.length_le
  refine ⟨by omega, ?_, fun h hend => ?_⟩
  · rcases hbound with rfl | hbound
    · simp only [List.length_nil] at hlen
      omega
    · omega
  · have htake : prev = w.take prev.length := List.prefix_iff_eq_take.mp (hinit.trans hpre)
    have hshort : prev.length < h := by
      rw [← headerEnd_take_eq_none_iff hend, ← htake]
      simpa using hprev
    omega

theorem readDohBody_spec (hend : headerEnd w = some h) (hcheck : checkHeaders (w.take h) = .ok n)
    (hh : h ≤ buf.length) (hbuf : buf.length ≤ 65536) (hflat : buf ++ rest.flatten = w)
    (hrest : ∀ c ∈ rest, c.length ≤ 4096) :
    DohEnd w (readDohBody h n buf rest atEnd).1 ∧
      (readDohBody h n buf rest atEnd).2.length ≤ 135168 := by
  rw [readDohBody]
  split_ifs with hfits
  · cases hread : readCapped (fun buf => buf.length < h + n) (h + 65536) buf rest with
    | enough buf' rest' =>
      obtain ⟨hstop, hflat', -, hlen⟩ := readCapped_enough hread
      rw [hflat] at hflat'
      have hneeded : h + n ≤ buf'.length := by simpa using hstop
      have hbound : buf'.length ≤ h + 65536 := hlen.elim (by rintro rfl; omega) id
      have hw : buf'.length ≤ w.length := by
        rw [← hflat']
        simp
      have hslice : slice buf' h (h + n) = slice w h (h + n) := by
        rw [← hflat', slice_append_left _ hneeded]
      dsimp only
      rw [hslice]
      exact ⟨.ok hend (by omega) hcheck (by omega) hfits (by omega), by omega⟩
    | ended buf' =>
      obtain ⟨hstop, hflat', hlen⟩ := readCapped_ended hread
      rw [hflat] at hflat'
      subst hflat'
      have hshort : buf'.length < h + n := by simpa using hstop
      have hbound : buf'.length ≤ h + 65536 := hlen.elim (by rintro rfl; omega) id
      exact ⟨.truncated hend hcheck hshort _, show buf'.length ≤ 135168 by omega⟩
    | tooLarge buf' =>
      obtain ⟨hlarge, hpre, prev, hprev, -, hlen, hbound⟩ := readCapped_tooLarge hrest hread
      rw [hflat] at hpre
      have hshort : prev.length < h + n := by simpa using hprev
      have hprevBound : prev.length ≤ h + 65536 := hbound.elim (by rintro rfl; omega) id
      have hw := hpre.length_le
      exact ⟨.largeBody hend hcheck (by omega) (by omega) _, show buf'.length ≤ 135168 by omega⟩
  · exact ⟨.panics hend (by omega) hcheck (not_lt.mp hfits), show buf.length ≤ 135168 by omega⟩

theorem readDohResponse_spec (hseg : Segmented w chunks) (atEnd : StreamEnd) :
    DohEnd w (readDohResponse chunks atEnd).1 ∧
      (readDohResponse chunks atEnd).2.length ≤ 135168 := by
  rw [readDohResponse]
  cases hread : readCapped (fun buf => (headerEnd buf).isNone) (64 * 1024) [] chunks with
  | enough buf rest =>
    obtain ⟨h, hend, hbuf, hh, hlen, hflat, hrest⟩ := headers_enough hseg hread
    have htake : buf.take h = w.take h := by
      rw [← hflat, List.take_append_of_le_length hh]
    simp only [hbuf, htake]
    cases hcheck : checkHeaders (w.take h) with
    | ok n => exact readDohBody_spec hend hcheck hh hlen hflat hrest
    | error err => exact ⟨.refused hend hcheck, show buf.length ≤ 135168 by omega⟩
  | ended buf =>
    obtain ⟨hstop, hflat, hlen⟩ := readCapped_ended hread
    rw [List.nil_append, hseg.flatten] at hflat
    subst hflat
    have hbound : buf.length ≤ 64 * 1024 := hlen.elim (by rintro rfl; simp) id
    exact ⟨.noHeaders (by simpa using hstop) _, show buf.length ≤ 135168 by omega⟩
  | tooLarge buf =>
    obtain ⟨hlen, hbound, hend⟩ := headers_tooLarge hseg hread
    exact ⟨.largeHeaders hlen hend _, show buf.length ≤ 135168 by omega⟩

theorem readsExactly_of_readable (hw : Readable w) : ReadsExactly w := by
  intro chunks atEnd hseg
  obtain ⟨hout, hbuf⟩ := readDohResponse_spec hseg atEnd
  refine ⟨fun hnone => ?_, hbuf, fun body hbody => ?_, fun h n hresponse hh hn => ?_⟩
  · rw [hnone] at hout
    cases hout with
    | panics hend hh hcheck hover =>
      have hfits := ((hw _ hend).1 _ hcheck hh).1
      omega
  · rw [hbody] at hout
    cases hout with
    | ok hend hh hcheck hn hfits hlen =>
      exact ⟨_, _, ⟨hend, ((hw _ hend).1 _ hcheck hh).2 hn hlen, hlen⟩, rfl⟩
  · obtain ⟨hend, hlength, hlen⟩ := hresponse
    obtain ⟨hcheck, hheaders, hbody⟩ := (hw h hend).2 n hlength hlen hh hn
    generalize (readDohResponse chunks atEnd).1 = out at hout ⊢
    cases hout with
    | ok => exact ⟨_, rfl⟩
    | panics hend' _ hcheck' hover =>
      cases hend.symm.trans hend'
      cases hcheck.symm.trans hcheck'
      omega
    | noHeaders hend' => cases hend.symm.trans hend'
    | largeHeaders hlong hlarge =>
      have := hlarge h hend
      omega
    | refused hend' hcheck' =>
      cases hend.symm.trans hend'
      cases hcheck.symm.trans hcheck'
    | truncated hend' hcheck' hshort =>
      cases hend.symm.trans hend'
      cases hcheck.symm.trans hcheck'
      omega
    | largeBody hend' hcheck' hlong hlarge =>
      cases hend.symm.trans hend'
      cases hcheck.symm.trans hcheck'
      omega

/-! ## Two ways to cut a stream -/

def bytewise (w : Bytes) : List Bytes := w.map fun b => [b]

def chunkAt (w : Bytes) (i : ℕ) : List Bytes :=
  bytewise (w.take i) ++ (w.drop i).take 4096 :: bytewise (w.drop (i + 4096))

theorem bytewise_flatten (w : Bytes) : (bytewise w).flatten = w := by
  induction w with
  | nil => rfl
  | cons b w ih =>
    change b :: (bytewise w).flatten = b :: w
    rw [ih]

theorem length_of_mem_bytewise {c : Bytes} (hc : c ∈ bytewise w) : c.length = 1 := by
  obtain ⟨b, -, rfl⟩ := List.mem_map.mp hc
  rfl

theorem bytewise_take_append (w : Bytes) (i : ℕ) :
    bytewise (w.take i) ++ bytewise (w.drop i) = bytewise w := by
  rw [bytewise, bytewise, ← List.map_append, List.take_append_drop]
  rfl

theorem segmented_bytewise (w : Bytes) : Segmented w (bytewise w) := by
  refine ⟨bytewise_flatten w, fun c hc => ?_⟩
  have hlen := length_of_mem_bytewise hc
  omega

theorem segmented_chunkAt {i : ℕ} (hi : i < w.length) : Segmented w (chunkAt w i) := by
  constructor
  · have htail : (w.drop i).take 4096 ++ w.drop (i + 4096) = w.drop i := by
      rw [← List.drop_drop, List.take_append_drop]
    rw [chunkAt, List.flatten_append, List.flatten_cons, bytewise_flatten, bytewise_flatten, htail,
      List.take_append_drop]
  · intro c hc
    rw [chunkAt, List.mem_append, List.mem_cons] at hc
    rcases hc with hc | rfl | hc
    · have hlen := length_of_mem_bytewise hc
      omega
    · rw [List.length_take, List.length_drop]
      omega
    · have hlen := length_of_mem_bytewise hc
      omega

/-! ## Reading a stream that is cut in these ways -/

theorem readDohResponse_bytewise (hend : headerEnd w = some h) (hh : h ≤ 65536)
    (hcheck : checkHeaders (w.take h) = .ok n) (cs : List Bytes) :
    readDohResponse (bytewise (w.take h) ++ cs) atEnd = readDohBody h n (w.take h) cs atEnd := by
  have hblock : headerEnd (w.take h) = some h :=
    endOf_take_of_le (by decide) hend le_rfl
  have hread : readCapped (fun buf => (headerEnd buf).isNone) (64 * 1024) []
      (bytewise (w.take h) ++ cs) = .enough (w.take h) cs := by
    rw [bytewise, readCapped_singletons, List.nil_append, readCapped_of_not_more (by simp [hblock])]
    · intro j hj
      rw [List.length_take, lt_min_iff] at hj
      rw [List.nil_append, List.take_take, min_eq_left hj.1.le,
        (headerEnd_take_eq_none_iff hend).mpr hj.1]
      rfl
    · rw [List.nil_append, List.length_take]
      omega
  rw [readDohResponse, hread]
  simp only [hblock, List.take_take, min_self, hcheck]

theorem readDohBody_bytewise (hn : n ≤ 65536) (hfits : h + n < 2 ^ 64)
    (hlen : h + n ≤ w.length) :
    (readDohBody h n (w.take h) (bytewise (w.drop h)) atEnd).1 =
      some (.ok (slice w h (h + n))) := by
  have hread : readCapped (fun buf => buf.length < h + n) (h + 65536) (w.take h)
      (bytewise (w.drop h)) = .enough (w.take (h + n)) (bytewise ((w.drop h).drop n)) := by
    rw [← bytewise_take_append _ n, bytewise, readCapped_singletons, ← List.take_add,
      readCapped_of_not_more]
    · simp [hlen]
    · intro j hj
      rw [List.length_take, lt_min_iff] at hj
      simp only [List.length_append, List.length_take, List.length_drop, decide_eq_true_eq]
      omega
    · simp only [List.length_append, List.length_take, List.length_drop]
      omega
  rw [readDohBody, if_pos hfits, hread]
  simp only
  rw [slice, slice, ← List.drop_take, ← List.drop_take, List.take_take, min_self]

theorem readDohResponse_chunkAt (hend : headerEnd w = some h) (hh : 61441 < h) (hcap : h ≤ 65536)
    (hlen : 65536 < w.length) :
    (readDohResponse (chunkAt w (h - 1)) atEnd).1 = some (.error "DoH HTTP headers too large") := by
  have hmore : ∀ j < h, (headerEnd (w.take j)).isNone := fun j hj => by
    rw [(headerEnd_take_eq_none_iff hend).mpr hj]
    rfl
  have hread : readCapped (fun buf => (headerEnd buf).isNone) (64 * 1024) [] (chunkAt w (h - 1)) =
      .tooLarge (w.take (h - 1) ++ (w.drop (h - 1)).take 4096) := by
    rw [chunkAt, bytewise, readCapped_singletons, List.nil_append, readCapped_of_large]
    · exact hmore (h - 1) (by omega)
    · simp only [List.length_append, List.length_take, List.length_drop]
      omega
    · intro j hj
      rw [List.length_take, lt_min_iff] at hj
      rw [List.nil_append, List.take_take, min_eq_left hj.1.le]
      exact hmore j (by omega)
    · rw [List.nil_append, List.length_take]
      omega
  rw [readDohResponse, hread]

theorem readDohBody_chunkAt (hn : 61441 < n) (hcap : n ≤ 65536) (hfits : h + n < 2 ^ 64)
    (hlen : h + 65536 < w.length) :
    (readDohBody h n (w.take h) (chunkAt (w.drop h) (n - 1)) atEnd).1 =
      some (.error "DoH response body too large") := by
  have hread : readCapped (fun buf => buf.length < h + n) (h + 65536) (w.take h)
      (chunkAt (w.drop h) (n - 1)) =
        .tooLarge (w.take (h + (n - 1)) ++ ((w.drop h).drop (n - 1)).take 4096) := by
    rw [chunkAt, bytewise, readCapped_singletons, ← List.take_add, readCapped_of_large]
    · simp only [List.length_take, decide_eq_true_eq]
      omega
    · simp only [List.length_append, List.length_take, List.length_drop]
      omega
    · intro j hj
      rw [List.length_take, lt_min_iff] at hj
      simp only [List.length_append, List.length_take, List.length_drop, decide_eq_true_eq]
      omega
    · simp only [List.length_append, List.length_take, List.length_drop]
      omega
  rw [readDohBody, if_pos hfits, hread]

/-! ## The streams that are read as they should be -/

theorem length_slice_body (hlen : h + n ≤ w.length) : (slice w h (h + n)).length = n := by
  rw [slice, List.length_take, List.length_drop]
  omega

theorem readable_headers (hw : ReadsExactly w) (hend : headerEnd w = some h) (hh : h ≤ 65536)
    (hcheck : checkHeaders (w.take h) = .ok n) :
    h + n < 2 ^ 64 ∧ (n ≤ 65536 → h + n ≤ w.length → responseLength (w.take h) = some n) := by
  obtain ⟨hpanic, -, hok, -⟩ := hw (bytewise w) .closed (segmented_bytewise w)
  rw [← bytewise_take_append w h, readDohResponse_bytewise hend hh hcheck] at hpanic hok
  have hfits : h + n < 2 ^ 64 := by
    by_contra hover
    rw [readDohBody, if_neg hover] at hpanic
    exact hpanic rfl
  refine ⟨hfits, fun hn hlen => ?_⟩
  obtain ⟨h', n', ⟨hend', hlength, hlen'⟩, hslice⟩ :=
    hok _ (readDohBody_bytewise hn hfits hlen)
  cases hend.symm.trans hend'
  have hlengths := congrArg List.length hslice
  rw [length_slice_body hlen, length_slice_body hlen'] at hlengths
  rw [hlength, hlengths]

theorem readable_response (hw : ReadsExactly w) (hresponse : IsResponse w h n) (hh : h < 65536)
    (hn : n ≤ 65535) :
    checkHeaders (w.take h) = .ok n ∧ (w.length ≤ 65536 ∨ h ≤ 61441) ∧
      (w.length ≤ h + 65536 ∨ n ≤ 61441) := by
  obtain ⟨hend, hlength, hlen⟩ := hresponse
  have hpos : 0 < h := (endOf_bounds hend).1.trans_lt' (by decide)
  have hcheck : checkHeaders (w.take h) = .ok n := by
    obtain ⟨body, hbody⟩ :=
      (hw (bytewise w) .closed (segmented_bytewise w)).2.2.2 h n ⟨hend, hlength, hlen⟩ hh hn
    have hout := (readDohResponse_spec (segmented_bytewise w) .closed).1
    rw [hbody] at hout
    cases hout with
    | ok hend' hh' hcheck hn' hfits hlen' =>
      cases hend.symm.trans hend'
      have hread := (readable_headers hw hend hh' hcheck).2 hn' hlen'
      cases hlength.symm.trans hread
      exact hcheck
  refine ⟨hcheck, ?_, ?_⟩
  · by_contra hlarge
    obtain ⟨hlong, hlarge⟩ := not_or.mp hlarge
    obtain ⟨body, hbody⟩ := (hw (chunkAt w (h - 1)) .closed (segmented_chunkAt (by omega))).2.2.2
      h n ⟨hend, hlength, hlen⟩ hh hn
    rw [readDohResponse_chunkAt hend (by omega) hh.le (by omega)] at hbody
    cases hbody
  · by_contra hlarge
    obtain ⟨hlong, hlarge⟩ := not_or.mp hlarge
    have hseg : Segmented w (bytewise (w.take h) ++ chunkAt (w.drop h) (n - 1)) := by
      have hchunk : Segmented (w.drop h) (chunkAt (w.drop h) (n - 1)) :=
        segmented_chunkAt (by rw [List.length_drop]; omega)
      refine ⟨by rw [List.flatten_append, bytewise_flatten, hchunk.flatten, List.take_append_drop],
        fun c hc => (List.mem_append.mp hc).elim ((segmented_bytewise _).length c)
          (hchunk.length c)⟩
    obtain ⟨body, hbody⟩ := (hw _ .closed hseg).2.2.2 h n ⟨hend, hlength, hlen⟩ hh hn
    rw [readDohResponse_bytewise hend hh.le hcheck,
      readDohBody_chunkAt (by omega) (by omega) (by omega) (by omega)] at hbody
    cases hbody

/-- A stream is read safely and exactly, however it is cut, if and only if what the function
    takes for headers of a response are such headers, with no length that overflows, and every
    response within the limits has headers that the function knows and is out of reach of the
    two caps. -/
theorem doh_reads_iff (w : Bytes) : ReadsExactly w ↔ Readable w := by
  constructor
  · intro hw h hend
    exact ⟨fun n hcheck hh => readable_headers hw hend hh hcheck,
      fun n hlength hlen hh hn => readable_response hw ⟨hend, hlength, hlen⟩ hh hn⟩
  · exact readsExactly_of_readable

def hugeResponse : Bytes :=
  asBytes "HTTP/1.1 200 OK\r\nContent-Length: 18446744073709551615\r\n\r\n"

theorem doh_length_overflows :
    Segmented hugeResponse [hugeResponse] ∧ (readDohResponse [hugeResponse] .closed).1 = none :=
  ⟨⟨by decide +kernel, by decide +kernel⟩, by decide +kernel⟩

/-- A response whose field is not spelled in one of the two ways is refused. -/
example :
    IsResponse (asBytes "HTTP/1.1 200 OK\r\nCONTENT-LENGTH: 2\r\n\r\nhi") 38 2 ∧
      (readDohResponse [asBytes "HTTP/1.1 200 OK\r\nCONTENT-LENGTH: 2\r\n\r\nhi"] .closed).1 =
        some (.error "DoH response missing Content-Length") :=
  ⟨⟨by decide +kernel, by decide +kernel, by decide +kernel⟩, by decide +kernel⟩

end SkadiCore.Client
