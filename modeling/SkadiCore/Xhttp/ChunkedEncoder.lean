import Mathlib.Data.List.TakeWhile
import SkadiCore.Common.Run
import SkadiCore.Xhttp.ChunkedDecoder

/-!
# The writer of a chunked request

Model of `ChunkedEncoder` (`crates/skadi-transport/src/xhttp/client.rs`, lines 325-431), on a
connection that takes as much as it likes at a time (`PolledWriter`), and of a caller that repeats a
`poll_write` that is pending with the same buffer or one that extends it.

**Defect.** A `poll_flush` writes out the frame of a `poll_write` that is pending, and the
repeated `poll_write` makes another one. So the caller here does not flush in between.
-/

namespace SkadiCore.Xhttp

/-! ## Sizes -/

def sizeText (n : ℕ) : Bytes := (Nat.toDigits 16 n).map asciiByte

variable {n : ℕ}

theorem exists_digit_of_mem : ∀ c ∈ Nat.toDigits 16 n, ∃ d < 16, c = d.digitChar := by
  induction n using Nat.strong_induction_on with
  | _ n ih =>
    intro c hc
    rw [Nat.toDigits_eq_if (by norm_num)] at hc
    split_ifs at hc with hlt
    · exact ⟨n, hlt, List.mem_singleton.mp hc⟩
    · rcases List.mem_append.mp hc with hc | hc
      · exact ih (n / 16) (by omega) c hc
      · exact ⟨n % 16, Nat.mod_lt _ (by norm_num), List.mem_singleton.mp hc⟩

theorem all_digits {P : Char → Bool} (h : (List.range 16).all (fun d => P d.digitChar) = true)
    (n : ℕ) : ∀ c ∈ Nat.toDigits 16 n, P c = true := by
  intro c hc
  obtain ⟨d, hd, rfl⟩ := exists_digit_of_mem c hc
  exact List.all_eq_true.mp h d (List.mem_range.mpr hd)

theorem pushDigit_digitChar {n d : ℕ} (hd : d < 16) (hlt : n * 16 + d < 2 ^ 64) :
    pushDigit n d.digitChar = .ok (n * 16 + d) := by
  have hall : ((List.range 16).all fun d => AddrParse.toDigit 16 d.digitChar == some d) = true := by
    decide
  have hdigit := eq_of_beq (List.all_eq_true.mp hall d (List.mem_range.mpr hd))
  rw [pushDigit, hdigit]
  exact if_pos hlt

theorem foldlM_toDigits (hn : n < 2 ^ 64) : (Nat.toDigits 16 n).foldlM pushDigit 0 = .ok n := by
  induction n using Nat.strong_induction_on with
  | _ n ih =>
    rw [Nat.toDigits_eq_if (by norm_num)]
    split_ifs with hlt
    · have hpush := pushDigit_digitChar (n := 0) hlt (by omega)
      rw [Nat.zero_mul, Nat.zero_add] at hpush
      rw [List.foldlM_cons, hpush]
      rfl
    · have hpush := pushDigit_digitChar (n := n / 16) (Nat.mod_lt n (by norm_num)) (by omega)
      rw [Nat.div_add_mod' n 16] at hpush
      rw [List.foldlM_append, ih (n / 16) (by omega) (by omega)]
      show [(n % 16).digitChar].foldlM pushDigit (n / 16) = _
      rw [List.foldlM_cons, hpush]
      rfl

theorem fromStrRadix16_toDigits (hn : n < 2 ^ 64) : fromStrRadix16 (Nat.toDigits 16 n) = .ok n := by
  have hsign := all_digits (P := fun c => c != '+' && c != '-') (by decide) n
  have hmem : '+' ∉ Nat.toDigits 16 n ∧ '-' ∉ Nat.toDigits 16 n :=
    ⟨fun h => absurd (hsign _ h) (by decide), fun h => absurd (hsign _ h) (by decide)⟩
  have hhead : (Nat.toDigits 16 n).head? ≠ some '+' :=
    fun h => hmem.1 (List.mem_of_mem_head? h)
  have hsingle : ¬ (Nat.toDigits 16 n = ['+'] ∨ Nat.toDigits 16 n = ['-']) := by
    rintro (h | h)
    · exact hmem.1 (h ▸ List.mem_singleton_self _)
    · exact hmem.2 (h ▸ List.mem_singleton_self _)
  rw [fromStrRadix16, if_neg (by simp), if_neg hsingle, if_neg hhead,
    foldlM_toDigits hn]

theorem trim_of_not_white {cs : List Char} (h : ∀ c ∈ cs, isWhitespace c = false) :
    trim (.ofList cs) = .ofList cs := by
  have hdrop : ∀ l : List Char, (∀ c ∈ l, isWhitespace c = false) →
      l.dropWhile isWhitespace = l := by
    intro l hl
    cases l with
    | nil => rfl
    | cons c l => rw [List.dropWhile_cons_of_neg (by simp [hl c List.mem_cons_self])]
  rw [trim, String.toList_ofList, hdrop cs h,
    hdrop cs.reverse (fun c hc => h c (List.mem_reverse.mp hc)), List.reverse_reverse]

theorem parseSize_sizeText (hn : n < 2 ^ 64) : parseSize (sizeText n) = .ok n := by
  have hascii := all_digits (P := fun c => decide (c.toNat < 128)) (by decide) n
  have hplain := all_digits (P := fun c => c != ';') (by decide) n
  have hwhite := all_digits (P := fun c => !isWhitespace c) (by decide) n
  have htext : fromUtf8 (sizeText n) = some (.ofList (Nat.toDigits 16 n)) := by
    rw [fromUtf8_eq_some_iff, asBytes_eq, String.toList_ofList,
      encode_ascii fun c hc => by simpa using hascii c hc]
    rfl
  have htake : (Nat.toDigits 16 n).takeWhile (· != ';') = Nat.toDigits 16 n :=
    List.takeWhile_eq_self_iff.mpr hplain
  rw [parseSize, htext]
  simp only [String.toList_ofList, htake]
  rw [trim_of_not_white fun c hc => by simpa using hwhite c hc, String.toList_ofList,
    fromStrRadix16_toDigits hn]
  rfl

theorem findCrlf_sizeText (n : ℕ) : findCrlf (sizeText n ++ crlf) = some (sizeText n).length := by
  refine findCrlf_line fun hmem => ?_
  obtain ⟨c, hc, hcr⟩ := List.mem_map.mp hmem
  have hall := all_digits (P := fun c => asciiByte c != 13) (by decide) n c hc
  rw [hcr] at hall
  exact absurd hall (by decide)

/-! ## The encoder -/

structure ChunkedEncoder where
  inner : PolledWriter IoError Byte
  pending : Bytes
  pendingReport : ℕ
  closing : Bool
  closed : Bool

def frame (buf : Bytes) : Bytes := sizeText buf.length ++ (crlf ++ (buf ++ crlf))

def lastFrame : Bytes := [48, 13, 10, 13, 10]

namespace ChunkedEncoder

def new (inner : PolledWriter IoError Byte) : ChunkedEncoder := ⟨inner, [], 0, false, false⟩

/-- The loop of `poll_write_pending` (lines 346-361). A pass that goes on writes some bytes. -/
def writeLoop : ℕ → ChunkedEncoder → ChunkedEncoder × Polled IoError Unit
  | 0, e => (e, .ready ())
  | fuel + 1, e =>
    if e.pending.isEmpty then (e, .ready ())
    else
      match e.inner.poll e.pending with
      | (inner, .pending) => ({ e with inner := inner }, .pending)
      | (inner, .failed err) => ({ e with inner := inner }, .failed err)
      | (inner, .ready n) =>
        if n = 0 then
          ({ e with inner := inner }, .failed ⟨.writeZero, "xhttp chunked write zero"⟩)
        else writeLoop fuel { e with inner := inner, pending := e.pending.drop n }

variable (e : ChunkedEncoder)

/-- `poll_write_pending` (lines 345-362). -/
def pollWritePending : ChunkedEncoder × Polled IoError Unit :=
  writeLoop e.pending.length e

def enframe (buf : Bytes) : ChunkedEncoder :=
  if e.pending.isEmpty then { e with pending := frame buf, pendingReport := buf.length } else e

/-- `poll_write` (lines 366-398). -/
def pollWrite (buf : Bytes) : ChunkedEncoder × Polled IoError ℕ :=
  if e.closed || e.closing then (e, .failed ⟨.brokenPipe, "xhttp chunked writer closed"⟩)
  else if buf.isEmpty then (e, .ready 0)
  else
    match (e.enframe buf).pollWritePending with
    | (e, .ready ()) => ({ e with pendingReport := 0 }, .ready e.pendingReport)
    | (e, .failed err) => (e, .failed err)
    | (e, .pending) => (e, .pending)

def endInner : ChunkedEncoder × Polled IoError Unit :=
  ({ e with inner := e.inner.pollEnd.1 }, e.inner.pollEnd.2)

/-- `poll_flush` (lines 400-405). -/
def pollFlush : ChunkedEncoder × Polled IoError Unit :=
  match e.pollWritePending with
  | (e, .ready ()) => e.endInner
  | other => other

def finish : ChunkedEncoder × Polled IoError Unit :=
  match e.pollWritePending with
  | (e, .ready ()) => endInner { e with closed := true }
  | other => other

/-- `poll_shutdown` (lines 407-430). -/
def pollShutdown : ChunkedEncoder × Polled IoError Unit :=
  if e.closed then e.endInner
  else if e.closing then e.finish
  else
    match e.pollWritePending with
    | (e, .ready ()) =>
      finish { e with pending := lastFrame, pendingReport := 0, closing := true }
    | other => other

inductive WritesOut (e : ChunkedEncoder) : ChunkedEncoder × Polled IoError Unit → Prop
  | all (inner : PolledWriter IoError Byte) : inner.Reliable →
      inner.written = e.inner.written ++ e.pending →
      WritesOut e ({ e with inner := inner, pending := [] }, .ready ())
  | some (inner : PolledWriter IoError Byte) (pending : Bytes) : inner.Reliable → pending ≠ [] →
      inner.written ++ pending = e.inner.written ++ e.pending →
      WritesOut e ({ e with inner := inner, pending := pending }, .pending)

theorem writeLoop_writesOut {fuel : ℕ} : ∀ {e : ChunkedEncoder}, e.inner.Reliable →
    e.pending.length ≤ fuel → e.WritesOut (writeLoop fuel e) := by
  have hdone : ∀ {e : ChunkedEncoder}, e.inner.Reliable → e.pending = [] →
      e.WritesOut (e, .ready ()) := by
    intro e hrel hnil
    have hall := WritesOut.all (e := e) e.inner hrel (by rw [hnil, List.append_nil])
    rwa [← hnil] at hall
  induction fuel with
  | zero =>
    intro e hrel hlen
    exact hdone hrel (List.eq_nil_of_length_eq_zero (Nat.le_zero.mp hlen))
  | succ fuel ih =>
    intro e hrel hlen
    by_cases hnil : e.pending = []
    · rw [writeLoop, if_pos (by simp [hnil])]
      exact hdone hrel hnil
    have hwrites := PolledWriter.poll_writes hrel hnil
    rw [writeLoop, if_neg (by simpa using hnil)]
    generalize e.inner.poll e.pending = p at hwrites
    cases hwrites with
    | pending inner hwritten hrel' =>
      exact .some inner e.pending hrel' hnil (by rw [hwritten])
    | ready inner n hn hle hwritten hrel' =>
      have hbytes : inner.written ++ e.pending.drop n = e.inner.written ++ e.pending := by
        rw [hwritten, List.append_assoc, List.take_append_drop]
      have hshort : (e.pending.drop n).length ≤ fuel := by
        rw [List.length_drop]
        omega
      have hnext := ih (e := { e with inner := inner, pending := e.pending.drop n }) hrel' hshort
      have hzero : ¬ n = 0 := by omega
      simp only [hzero, if_false]
      generalize writeLoop fuel { e with inner := inner, pending := e.pending.drop n } = q at hnext
      cases hnext with
      | all inner' hrel'' hwritten' => exact .all inner' hrel'' (hwritten'.trans hbytes)
      | some inner' pending hrel'' hne hwritten' =>
        exact .some inner' pending hrel'' hne (hwritten'.trans hbytes)

theorem pollWritePending_nil {e : ChunkedEncoder} (h : e.pending = []) :
    e.pollWritePending = (e, .ready ()) := by
  rw [pollWritePending, h]
  rfl

theorem pollWritePending_spec {e : ChunkedEncoder} (h : e.inner.Reliable) :
    e.WritesOut e.pollWritePending := writeLoop_writesOut h le_rfl

end ChunkedEncoder

/-! ## The chunks of what was accepted -/

def wire (cs : List Bytes) : Bytes := cs.flatMap fun c => if c = [] then [] else frame c

theorem wire_append (cs : List Bytes) (c : Bytes) :
    wire (cs ++ [c]) = wire cs ++ if c = [] then [] else frame c := by
  simp [wire]

theorem chunks_wire {cs : List Bytes} (h : ∀ c ∈ cs, c.length < 2 ^ 63) (tail : Bytes) :
    ∃ ds, ds.flatten = cs.flatten ∧ Chunks chunkFormat (wire cs ++ tail) ds tail := by
  induction cs with
  | nil => exact ⟨[], rfl, .nil tail⟩
  | cons c cs ih =>
    obtain ⟨hc, hcs⟩ := List.forall_mem_cons.mp h
    obtain ⟨ds, hflat, hchunks⟩ := ih hcs
    by_cases hnil : c = []
    · refine ⟨ds, by rw [hflat, hnil]; rfl, ?_⟩
      have hwire : wire (c :: cs) = wire cs := by simp [wire, hnil]
      rwa [hwire]
    · refine ⟨c :: ds, by rw [List.flatten_cons, List.flatten_cons, hflat], ?_⟩
      have hwire : wire (c :: cs) ++ tail =
          sizeText c.length ++ (crlf ++ (c ++ (crlf ++ (wire cs ++ tail)))) := by
        simp [wire, hnil, frame]
      rw [hwire]
      exact .cons (findCrlf_sizeText _) (parseSize_sizeText (by omega)) hnil hchunks

theorem decodes_wire {cs : List Bytes} (h : ∀ c ∈ cs, c.length < 2 ^ 63) :
    Decodes chunkFormat .line (wire cs ++ lastFrame) cs.flatten .complete := by
  obtain ⟨ds, hflat, hchunks⟩ := chunks_wire h lastFrame
  have hzero : parseSize [48] = .ok 0 := by decide +kernel
  exact decodes_complete_iff.mpr ⟨ds, lastFrame, hchunks, ⟨1, rfl, hzero⟩, hflat.symm⟩

/-! ## The caller -/

/-- An encoder and its caller: what `poll_write` has accepted, the buffer of a `poll_write` that
    is pending, and whether `poll_shutdown` was ready. -/
structure Encoding where
  encoder : ChunkedEncoder
  accepted : List Bytes
  outstanding : Option Bytes
  finished : Bool

inductive EncoderAct
  | write (buf : Bytes)
  | flush
  | shutdown

namespace Encoding

def init (script : List (WriteStep IoError)) : Encoding := ⟨.new ⟨[], script⟩, [], none, false⟩

def wrote (s : Encoding) (buf : Bytes) (e : ChunkedEncoder) : Polled IoError ℕ → Encoding
  | .ready n => ⟨e, s.accepted ++ [buf.take n], none, s.finished⟩
  | .failed _ => ⟨e, s.accepted, none, s.finished⟩
  | .pending => ⟨e, s.accepted, some buf, s.finished⟩

def shut (s : Encoding) (e : ChunkedEncoder) : Polled IoError Unit → Encoding
  | .ready () => { s with encoder := e, finished := true }
  | _ => { s with encoder := e }

def step (s : Encoding) : EncoderAct → Option Encoding
  | .write buf =>
    if buf.length < 2 ^ 63 then
      some (s.wrote buf (s.encoder.pollWrite buf).1 (s.encoder.pollWrite buf).2)
    else none
  | .flush => some { s with encoder := s.encoder.pollFlush.1 }
  | .shutdown => some (s.shut s.encoder.pollShutdown.1 s.encoder.pollShutdown.2)

def retries (s : Encoding) : EncoderAct → Bool
  | .write buf => s.outstanding.all fun old => old.isPrefixOf buf
  | _ => s.outstanding.isNone

/-- A pending write is made again, with at least the same data. -/
def Retries (s : Encoding) (a : EncoderAct) : Prop := s.retries a = true

inductive Stage (s : Encoding) : Prop
  | idle : s.encoder.closing = false → s.encoder.closed = false → s.outstanding = none →
      s.encoder.pending = [] → s.encoder.inner.written = wire s.accepted → s.finished = false →
      Stage s
  | writing (old buf : Bytes) : s.encoder.closing = false → s.encoder.closed = false →
      s.outstanding = some buf → old <+: buf → old ≠ [] → old.length < 2 ^ 63 →
      s.encoder.pendingReport = old.length → s.encoder.pending ≠ [] →
      s.encoder.inner.written ++ s.encoder.pending = wire s.accepted ++ frame old →
      s.finished = false → Stage s
  | closing : s.encoder.closing = true → s.encoder.closed = false → s.outstanding = none →
      s.encoder.inner.written ++ s.encoder.pending = wire s.accepted ++ lastFrame →
      s.finished = false → Stage s
  | closed : s.encoder.closed = true → s.outstanding = none → s.encoder.pending = [] →
      s.encoder.inner.written = wire s.accepted ++ lastFrame → Stage s

structure Inv (s : Encoding) : Prop where
  reliable : s.encoder.inner.Reliable
  short : ∀ c ∈ s.accepted, c.length < 2 ^ 63
  stage : s.Stage

variable {s t : Encoding}

theorem Inv.init {script : List (WriteStep IoError)}
    (h : (PolledWriter.mk ([] : Bytes) script).Reliable) : (init script).Inv :=
  ⟨h, fun _ hc => absurd hc (List.not_mem_nil), .idle rfl rfl rfl rfl rfl rfl⟩

/-! ### `poll_write` -/

theorem short_append {c : Bytes} (h : s.Inv) (hc : c.length < 2 ^ 63) :
    ∀ d ∈ s.accepted ++ [c], d.length < 2 ^ 63 := by
  intro d hd
  rcases List.mem_append.mp hd with hd | hd
  · exact h.short d hd
  · rw [List.mem_singleton.mp hd]
    exact hc

theorem Inv.write_closed {buf : Bytes} (h : s.Inv)
    (hclosed : (s.encoder.closed || s.encoder.closing) = true) (hout : s.outstanding = none) :
    (s.wrote buf (s.encoder.pollWrite buf).1 (s.encoder.pollWrite buf).2).Inv := by
  have hs : s.wrote buf (s.encoder.pollWrite buf).1 (s.encoder.pollWrite buf).2 = s := by
    rw [ChunkedEncoder.pollWrite, if_pos hclosed]
    obtain ⟨encoder, accepted, outstanding, finished⟩ := s
    cases hout
    rfl
  rwa [hs]

theorem Inv.write_frame {e : ChunkedEncoder} {old buf : Bytes} (h : s.Inv)
    (hclosing : e.closing = false) (hclosed : e.closed = false) (hrel : e.inner.Reliable)
    (hold : old <+: buf) (hne : old ≠ []) (hshort : old.length < 2 ^ 63)
    (hreport : e.pendingReport = old.length) (hfinished : s.finished = false)
    (hbytes : e.inner.written ++ e.pending = wire s.accepted ++ frame old)
    (hencoder : s.encoder.enframe buf = e)
    (hopen : ¬ (s.encoder.closed || s.encoder.closing) = true) :
    (s.wrote buf (s.encoder.pollWrite buf).1 (s.encoder.pollWrite buf).2).Inv := by
  have hbuf : buf ≠ [] := by
    rintro rfl
    exact hne (List.prefix_nil.mp hold)
  have htake : buf.take old.length = old := (List.prefix_iff_eq_take.mp hold).symm
  have hspec := e.pollWritePending_spec hrel
  rw [ChunkedEncoder.pollWrite, if_neg hopen, if_neg (by simpa using hbuf), hencoder]
  generalize e.pollWritePending = p at hspec
  cases hspec with
  | all inner hrel' hwritten =>
    simp only [wrote, hreport, htake]
    refine ⟨hrel', short_append h hshort, .idle hclosing hclosed rfl rfl ?_ hfinished⟩
    show inner.written = wire (s.accepted ++ [old])
    rw [hwritten, hbytes, wire_append, if_neg hne]
  | some inner pending hrel' hpending hwritten =>
    exact ⟨hrel', h.short, .writing old buf hclosing hclosed rfl hold hne hshort hreport hpending
      (hwritten.trans hbytes) hfinished⟩

theorem Inv.write {buf : Bytes} (h : s.Inv) (hretries : s.retries (.write buf) = true)
    (hlen : buf.length < 2 ^ 63) :
    (s.wrote buf (s.encoder.pollWrite buf).1 (s.encoder.pollWrite buf).2).Inv := by
  cases h.stage with
  | closing hclosing _ hout _ _ => exact h.write_closed (by simp [hclosing]) hout
  | closed hclosed hout _ _ => exact h.write_closed (by simp [hclosed]) hout
  | idle hclosing hclosed hout hpending hwritten hfinished =>
    have hopen : ¬ (s.encoder.closed || s.encoder.closing) = true := by simp [hclosing, hclosed]
    by_cases hbuf : buf = []
    · -- nothing is asked for, and nothing is accepted
      subst hbuf
      rw [ChunkedEncoder.pollWrite, if_neg hopen]
      refine ⟨h.reliable, short_append h (by norm_num), ?_⟩
      refine .idle hclosing hclosed rfl hpending ?_ hfinished
      show s.encoder.inner.written = wire (s.accepted ++ [[]])
      rw [hwritten, wire_append, if_pos rfl, List.append_nil]
    · refine h.write_frame (e := { s.encoder with
        pending := frame buf
        pendingReport := buf.length }) hclosing hclosed h.reliable (List.prefix_refl buf) hbuf
        hlen rfl hfinished (by rw [hwritten]) ?_ hopen
      rw [ChunkedEncoder.enframe, if_pos (by simp [hpending])]
  | writing old buf' hclosing hclosed hout hold hne hshort hreport hpending hbytes hfinished =>
    have hopen : ¬ (s.encoder.closed || s.encoder.closing) = true := by simp [hclosing, hclosed]
    have hext : buf' <+: buf := by simpa [retries, hout] using hretries
    refine h.write_frame hclosing hclosed h.reliable (hold.trans hext) hne hshort hreport hfinished
      hbytes ?_ hopen
    rw [ChunkedEncoder.enframe, if_neg (by simpa using hpending)]

/-! ### `poll_shutdown` and `poll_flush` -/

theorem Inv.finish {e : ChunkedEncoder} (h : s.Inv) (hclosing : e.closing = true)
    (hclosed : e.closed = false) (hrel : e.inner.Reliable) (hout : s.outstanding = none)
    (hfinished : s.finished = false)
    (hbytes : e.inner.written ++ e.pending = wire s.accepted ++ lastFrame) :
    (s.shut e.finish.1 e.finish.2).Inv := by
  have hspec := e.pollWritePending_spec hrel
  rw [ChunkedEncoder.finish]
  generalize e.pollWritePending = p at hspec
  cases hspec with
  | some inner pending hrel' _ hwritten =>
    exact ⟨hrel', h.short, .closing hclosing hclosed hout (hwritten.trans hbytes) hfinished⟩
  | all inner hrel' hwritten =>
    obtain ⟨hwritten', hrel''⟩ := PolledWriter.pollEnd_spec hrel'
    simp only [ChunkedEncoder.endInner]
    generalize inner.pollEnd = q at hwritten' hrel''
    have hend : q.1.written = wire s.accepted ++ lastFrame :=
      hwritten'.trans (hwritten.trans hbytes)
    cases q.2 with
    | pending | failed err | ready _ => exact ⟨hrel'', h.short, .closed rfl hout rfl hend⟩

theorem Inv.shutdown (h : s.Inv) (hout : s.outstanding = none) :
    (s.shut s.encoder.pollShutdown.1 s.encoder.pollShutdown.2).Inv := by
  unfold ChunkedEncoder.pollShutdown
  cases h.stage with
  | idle hclosing hclosed _ hpending hwritten hfinished =>
    rw [if_neg (by simp [hclosed]), if_neg (by simp [hclosing]),
      ChunkedEncoder.pollWritePending_nil hpending]
    exact h.finish rfl hclosed h.reliable hout hfinished (by rw [hwritten])
  | writing _ _ _ _ hsome =>
    rw [hout] at hsome
    cases hsome
  | closing hclosing hclosed _ hbytes hfinished =>
    rw [if_neg (by simp [hclosed]), if_pos hclosing]
    exact h.finish hclosing hclosed h.reliable hout hfinished hbytes
  | closed hclosed _ hpending hwritten =>
    rw [if_pos hclosed, ChunkedEncoder.endInner]
    obtain ⟨hwritten', hrel⟩ := PolledWriter.pollEnd_spec h.reliable
    generalize s.encoder.inner.pollEnd = q at hwritten' hrel
    cases q.2 with
    | pending | failed err | ready _ =>
      exact ⟨hrel, h.short, .closed hclosed hout hpending (hwritten'.trans hwritten)⟩

theorem Inv.flush (h : s.Inv) (hout : s.outstanding = none) :
    Inv { s with encoder := s.encoder.pollFlush.1 } := by
  have hspec := s.encoder.pollWritePending_spec h.reliable
  rw [ChunkedEncoder.pollFlush]
  cases h.stage with
  | idle hclosing hclosed _ hpending hwritten hfinished =>
    obtain ⟨hwritten', hrel⟩ := PolledWriter.pollEnd_spec h.reliable
    rw [ChunkedEncoder.pollWritePending_nil hpending]
    exact ⟨hrel, h.short, .idle hclosing hclosed hout hpending (hwritten'.trans hwritten) hfinished⟩
  | writing _ _ _ _ hsome =>
    rw [hout] at hsome
    cases hsome
  | closing hclosing hclosed _ hbytes hfinished =>
    generalize s.encoder.pollWritePending = p at hspec
    cases hspec with
    | some inner pending hrel _ hwritten =>
      exact ⟨hrel, h.short, .closing hclosing hclosed hout (hwritten.trans hbytes) hfinished⟩
    | all inner hrel hwritten =>
      obtain ⟨hwritten', hrel'⟩ := PolledWriter.pollEnd_spec hrel
      refine ⟨hrel', h.short, .closing hclosing hclosed hout ?_ hfinished⟩
      show inner.pollEnd.1.written ++ [] = _
      rw [List.append_nil, hwritten', hwritten, hbytes]
  | closed hclosed _ hpending hwritten =>
    obtain ⟨hwritten', hrel⟩ := PolledWriter.pollEnd_spec h.reliable
    rw [ChunkedEncoder.pollWritePending_nil hpending]
    exact ⟨hrel, h.short, .closed hclosed hout hpending (hwritten'.trans hwritten)⟩

/-! ### Whole runs -/

theorem Inv.step {a : EncoderAct} (h : s.Inv) (hretries : s.Retries a) (hst : s.step a = some t) :
    t.Inv := by
  cases a with
  | write buf =>
    rw [Encoding.step, Option.ite_none_right_eq_some] at hst
    obtain ⟨hlen, ht⟩ := hst
    cases ht
    exact h.write hretries hlen
  | flush =>
    cases hst
    exact h.flush (Option.isNone_iff_eq_none.mp hretries)
  | shutdown =>
    cases hst
    exact h.shutdown (Option.isNone_iff_eq_none.mp hretries)

theorem Inv.written (h : s.Inv) (hfinished : s.finished = true) :
    s.encoder.inner.written = wire s.accepted ++ lastFrame := by
  cases h.stage with
  | closed _ _ _ hwritten => exact hwritten
  | idle _ _ _ _ _ hf | writing _ _ _ _ _ _ _ _ _ _ _ hf | closing _ _ _ _ hf =>
    rw [hfinished] at hf
    cases hf

end Encoding

open Encoding in
/-- What `poll_write` accepted is returned, and then the end: for every run of a caller that
    repeats what is pending, up to a `poll_shutdown` that is ready, on every connection that
    takes bytes in any pieces; and for every way in which the produced bytes are cut into a
    `leftover` and reads, and all buffers. -/
theorem chunked_round_trip {script : List (WriteStep IoError)} {as : List EncoderAct} {s : Encoding}
    {leftover unread : Bytes} {answers : List (ReadStep IoError)} {sizes : List ℕ}
    (hsink : (PolledWriter.mk ([] : Bytes) script).Reliable)
    (hrun : Run step Retries (init script) as s) (hfinished : s.finished = true)
    (hcut : leftover ++ unread = s.encoder.inner.written)
    (hsource : (PolledReader.mk unread answers).Reliable) (hsizes : ∀ n ∈ sizes, 0 < n) :
    (Reading.readAll (.new ⟨unread, answers⟩ leftover) sizes).got <+: s.accepted.flatten ∧
      (∀ e, (Reading.readAll (.new ⟨unread, answers⟩ leftover) sizes).status ≠ .failed e) ∧
      ((Reading.readAll (.new ⟨unread, answers⟩ leftover) sizes).status = .ended →
        (Reading.readAll (.new ⟨unread, answers⟩ leftover) sizes).got = s.accepted.flatten) ∧
      (s.accepted.flatten.length + answers.length < sizes.length →
        (Reading.readAll (.new ⟨unread, answers⟩ leftover) sizes).status = .ended) := by
  have hinv : s.Inv := hrun.invariant (fun _ _ _ hs hC hst => hs.step hC hst) (.init hsink)
  have hdecodes : Decodes chunkFormat .line (leftover ++ unread) s.accepted.flatten .complete := by
    rw [hcut, hinv.written hfinished]
    exact decodes_wire hinv.short
  have hsound := Reading.reading_spec answers hsizes hdecodes
  generalize Reading.readAll (.new ⟨unread, answers⟩ leftover) sizes = r at hsound
  have hnofail : ∀ e, r.status ≠ .failed e := by
    intro e he
    obtain ⟨-, ⟨-, hv⟩ | hmem⟩ := hsound.failed e he
    · cases hv
    · exact hsource e hmem
  refine ⟨?_, hnofail, fun hended => (hsound.ended hended).1, fun hlen => ?_⟩
  · cases hs : r.status with
    | reading =>
      obtain ⟨-, -, rest, hrest, -, -⟩ := hsound.reading hs
      exact ⟨rest, hrest.symm⟩
    | ended => rw [(hsound.ended hs).1]
    | failed e => exact absurd hs (hnofail e)
  · refine (hsound.decided hlen).resolve_right ?_
    rintro ⟨e, he⟩
    exact hnofail e he

open Encoding in
theorem chunked_round_trip_pair :
    ∃ s : Encoding, Run step Retries (init [.accept 2, .pending])
        [.write [97], .write [97, 98], .write [98], .shutdown] s ∧
      s.accepted = [[97], [98]] ∧
      (Reading.readAll (.new ⟨s.encoder.inner.written, [.pending, .give 0]⟩ [])
        [1, 1, 1, 1, 1]).got = [97, 98] := by
  obtain ⟨s, hs, hfinished, haccepted⟩ : ∃ s : Encoding,
      exec step retries (init [.accept 2, .pending])
        [.write [97], .write [97, 98], .write [98], .shutdown] = some s ∧
      s.finished = true ∧ s.accepted = [[97], [98]] := ⟨_, rfl, rfl, rfl⟩
  have hrun : Run step Retries _ _ s := exec_run (fun _ _ h => h) hs
  have hsink : (⟨[], [.accept 2, .pending]⟩ : PolledWriter IoError Byte).Reliable := by
    intro step hstep
    simp only [List.mem_cons, List.not_mem_nil, or_false] at hstep
    rcases hstep with rfl | rfl <;> simp
  have hsource : (⟨s.encoder.inner.written, [.pending, .give 0]⟩ :
      PolledReader IoError Byte).Reliable := by
    intro e hmem
    simp at hmem
  have hcut : [] ++ s.encoder.inner.written = s.encoder.inner.written := rfl
  have hsizes : ∀ n ∈ [1, 1, 1, 1, 1], 0 < n := by decide
  obtain ⟨-, -, hgot, hended⟩ := chunked_round_trip hsink hrun hfinished hcut hsource hsizes
  rw [haccepted] at hgot hended
  exact ⟨s, hrun, haccepted, hgot (hended (by decide))⟩

-- a flush while a `poll_write` is pending: one byte is accepted, and written twice
example : (exec Encoding.step (fun _ _ => true) (.init [.pending])
    [.write [97], .flush, .write [97]]).map (fun s => (s.accepted, s.encoder.inner.written)) =
      some ([[97]], frame [97] ++ frame [97]) := rfl

end SkadiCore.Xhttp
