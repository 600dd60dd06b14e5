import SkadiCore.Core.Io
import SkadiCore.Core.Redact

/-!
# The writer of the log

Model of `RedactingWriterGuard` (`crates/skadi-server/src/observability/tracing_init.rs`, lines
30-50), which collects what is written and passes the complete lines on, redacted, when it is
flushed. `init_tracing` makes a new guard for every event (lines 18-21).

**Defect.** The guard has no `Drop`: what it has not been asked to flush is dropped with it.
-/

namespace SkadiCore.Server

/-! ## The guard -/

structure Stdout where
  received : Bytes := []
  fault : Option IoError := none

def Stdout.push (out : Stdout) (buf : Bytes) : Stdout := ⟨out.received ++ buf, out.fault⟩

def Stdout.writeAll (out : Stdout) (buf : Bytes) : Except IoError Unit × Stdout :=
  out.fault.elim (.ok (), out.push buf) fun e => (.error e, out)

def Stdout.flush (out : Stdout) : Except IoError Unit := out.fault.elim (.ok ()) .error

structure RedactingWriterGuard where
  inner : Stdout
  buffer : Bytes := []

def redactLine (line : Bytes) : Bytes := asBytes (redactBearerTokens (fromUtf8Lossy line))

namespace RedactingWriterGuard

/-- `write` (lines 36-39). -/
def write (g : RedactingWriterGuard) (buf : Bytes) : Except IoError ℕ × RedactingWriterGuard :=
  (.ok buf.length, { g with buffer := g.buffer ++ buf })

/-- The loop of `flush` (lines 42-48). Each time it takes a line from the buffer, which is gone
    also if the output refuses it. -/
def flushLoop : ℕ → RedactingWriterGuard → Except IoError Unit × RedactingWriterGuard
  | 0, g => (g.inner.flush, g)
  | fuel + 1, g =>
    match g.buffer.idxOf? 10 with
    | none => (g.inner.flush, g)
    | some pos =>
      let (answer, inner) := g.inner.writeAll (redactLine (g.buffer.take (pos + 1)))
      let g := { g with inner := inner, buffer := g.buffer.drop (pos + 1) }
      match answer with
      | .error e => (.error e, g)
      | .ok _ => flushLoop fuel g

/-- `flush` (lines 41-49). -/
def flush (g : RedactingWriterGuard) : Except IoError Unit × RedactingWriterGuard :=
  flushLoop g.buffer.length g

end RedactingWriterGuard

inductive WriterCall
  | write (buf : Bytes)
  | flush

namespace WriterCall

def apply (g : RedactingWriterGuard) : WriterCall → RedactingWriterGuard
  | write buf => (g.write buf).2
  | flush => g.flush.2

def bytes : WriterCall → Bytes
  | write buf => buf
  | flush => []

def since (kept : Bytes) : WriterCall → Bytes
  | write buf => kept ++ buf
  | flush => []

end WriterCall

def outputAfter (out : Stdout) (calls : List WriterCall) : Stdout :=
  (calls.foldl WriterCall.apply { inner := out }).inner

def sinceFlush (calls : List WriterCall) : Bytes := calls.foldl WriterCall.since []

/-! ## Lines -/

structure Line where
  body : Bytes
  closed : 10 ∉ body

def Line.text (l : Line) : Bytes := l.body ++ [10]

def textOf (lines : List Line) : Bytes := lines.flatMap Line.text

def redactedLines (lines : List Line) : Bytes := lines.flatMap fun l => redactLine l.text

theorem Line.text_ne_nil (l : Line) : l.text ≠ [] := by
  simp [Line.text]

theorem Line.idxOf_text (l : Line) (rest : Bytes) :
    (l.text ++ rest).idxOf? 10 = some l.body.length := by
  rw [Line.text]
  obtain ⟨body, closed⟩ := l
  induction body with
  | nil => rfl
  | cons b body ih =>
    obtain ⟨hb, hbody⟩ : 10 ≠ b ∧ 10 ∉ body := by simpa using closed
    have hne : (b == 10) = false := by simpa using Ne.symm hb
    rw [List.cons_append, List.cons_append, List.idxOf?_cons, hne, ih hbody]
    rfl

theorem exists_lines (bytes : Bytes) :
    ∃ lines rest, bytes = textOf lines ++ rest ∧ 10 ∉ rest := by
  induction bytes with
  | nil => exact ⟨[], [], rfl, by simp⟩
  | cons b bytes ih =>
    obtain ⟨lines, rest, rfl, hrest⟩ := ih
    by_cases hb : b = 10
    · exact ⟨⟨[], by simp⟩ :: lines, rest, by simp [textOf, Line.text, hb], hrest⟩
    · cases lines with
      | nil => exact ⟨[], b :: rest, rfl, by simp [hrest, Ne.symm hb]⟩
      | cons l lines =>
        refine ⟨⟨b :: l.body, by simp [l.closed, Ne.symm hb]⟩ :: lines, rest, ?_, hrest⟩
        simp [textOf, Line.text]

theorem exists_append_of_text {done lines : List Line} {rest : Bytes}
    (h : textOf lines = textOf done ++ rest) :
    ∃ left, lines = done ++ left ∧ rest = textOf left := by
  induction done generalizing lines with
  | nil => exact ⟨lines, rfl, h.symm⟩
  | cons d done ih =>
    cases lines with
    | nil => simp [textOf, Line.text] at h
    | cons l lines =>
      simp only [textOf, List.flatMap_cons, List.append_assoc] at h
      have hpos := congrArg (List.idxOf? 10) h
      rw [l.idxOf_text, d.idxOf_text, Option.some.injEq] at hpos
      have hlen : l.text.length = d.text.length := by simp [Line.text, hpos]
      obtain ⟨htext, hmore⟩ := List.append_inj h hlen
      obtain ⟨left, rfl, hleft⟩ := ih hmore
      have hline : l = d := by
        have hbody := List.append_cancel_right htext
        cases l
        cases d
        cases hbody
        rfl
      exact ⟨left, by rw [hline, List.cons_append], hleft⟩

/-! ## What a redacted line is -/

theorem redactLine_ne_nil {line : Bytes} (hne : line ≠ []) : redactLine line ≠ [] := by
  have hmangle : ∀ c, mangle c ≠ [] := fun c => by
    simp [mangle, String.utf8EncodeChar_ne_nil]
  have hreplace : ∀ cs : List Char, cs ≠ [] →
      bearer.replace mangle REDACTED.toList cs ≠ [] := by
    intro cs hcs
    obtain ⟨c, cs, rfl⟩ := List.exists_cons_of_ne_nil hcs
    cases hkey : bearer.key (c :: cs) with
    | true =>
      have hmark : REDACTED.toList ≠ [] := by decide +kernel
      rw [KeyedRuns.replace_key hkey]
      simp [hmark]
    | false =>
      rw [KeyedRuns.replace_cons hkey]
      simp [hmangle c]
  have htext := hreplace _ (fromUtf8Lossy_ne_nil hne)
  rw [← redactBearerTokens_toList] at htext
  obtain ⟨c, cs, hcs⟩ := List.exists_cons_of_ne_nil htext
  rw [redactLine, asBytes_eq, hcs, encode_cons]
  simp [String.utf8EncodeChar_ne_nil]

theorem redactedLines_eq_nil_iff {lines : List Line} : redactedLines lines = [] ↔ lines = [] := by
  cases lines with
  | nil => simp [redactedLines]
  | cons l lines => simp [redactedLines, redactLine_ne_nil l.text_ne_nil]

/-! ## Flushing -/

namespace RedactingWriterGuard

theorem flushLoop_rest {g : RedactingWriterGuard} (h : 10 ∉ g.buffer) (fuel : ℕ) :
    flushLoop fuel g = (g.inner.flush, g) := by
  cases fuel with
  | zero => rfl
  | succ fuel => rw [flushLoop, List.idxOf?_eq_none_iff.mpr h]

theorem flushLoop_line {out : Stdout} (hok : out.fault = none) (l : Line) (more : Bytes)
    (fuel : ℕ) :
    flushLoop (fuel + 1) ⟨out, l.text ++ more⟩ =
      flushLoop fuel ⟨out.push (redactLine l.text), more⟩ := by
  have hlen : l.text.length = l.body.length + 1 := by simp [Line.text]
  rw [flushLoop]
  simp only [l.idxOf_text, ← hlen, List.take_left, List.drop_left, Stdout.writeAll, hok,
    Option.elim_none]

theorem flushLoop_lines {rest : Bytes} (hrest : 10 ∉ rest) (lines : List Line) :
    ∀ {fuel : ℕ} {out : Stdout}, out.fault = none → lines.length ≤ fuel →
      flushLoop fuel ⟨out, textOf lines ++ rest⟩ = (.ok (), ⟨out.push (redactedLines lines), rest⟩)
      := by
  induction lines with
  | nil =>
    intro fuel out hok _
    have hpush : out.push (redactedLines []) = out := by simp [Stdout.push, redactedLines]
    rw [hpush, textOf, List.flatMap_nil, List.nil_append, flushLoop_rest hrest, Stdout.flush, hok]
    rfl
  | cons l lines ih =>
    intro fuel out hok hfuel
    obtain ⟨fuel, rfl⟩ : ∃ n, fuel = n + 1 := ⟨fuel - 1, by simp at hfuel; omega⟩
    have hpush : (out.push (redactLine l.text)).push (redactedLines lines) =
        out.push (redactedLines (l :: lines)) := by
      simp [Stdout.push, redactedLines]
    have hok' : (out.push (redactLine l.text)).fault = none := hok
    rw [textOf, List.flatMap_cons, List.append_assoc, flushLoop_line hok, ← textOf,
      ih hok' (by simpa using hfuel), hpush]

theorem length_le_textOf (lines : List Line) : lines.length ≤ (textOf lines).length := by
  induction lines with
  | nil => simp
  | cons l lines ih =>
    simp only [textOf, List.flatMap_cons, List.length_append, List.length_cons] at ih ⊢
    have := List.length_pos_of_ne_nil l.text_ne_nil
    omega

theorem flush_spec {out : Stdout} (hok : out.fault = none) (lines : List Line) {rest : Bytes}
    (hrest : 10 ∉ rest) :
    flush ⟨out, textOf lines ++ rest⟩ = (.ok (), ⟨out.push (redactedLines lines), rest⟩) := by
  refine flushLoop_lines hrest lines hok ?_
  show lines.length ≤ (textOf lines ++ rest).length
  rw [List.length_append]
  have := length_le_textOf lines
  omega

theorem flushLoop_fault {e : IoError} : ∀ {fuel : ℕ} {g : RedactingWriterGuard},
    g.inner.fault = some e → (flushLoop fuel g).2.inner = g.inner := by
  intro fuel g hfault
  cases fuel with
  | zero => rfl
  | succ fuel =>
    rw [flushLoop]
    cases g.buffer.idxOf? 10 with
    | none => rfl
    | some pos => simp only [Stdout.writeAll, hfault, Option.elim_some]

end RedactingWriterGuard

/-! ## The calls -/

/-- What the calls leave: the output has some lines of what was written, the buffer the bytes
    behind them, and among these stands what was written behind the last flush, behind bytes
    without a line feed. -/
structure Kept (out : Stdout) (calls : List WriterCall) (g : RedactingWriterGuard) : Prop where
  fault : g.inner.fault = none
  lines : ∃ done, calls.flatMap WriterCall.bytes = textOf done ++ g.buffer ∧
    g.inner.received = out.received ++ redactedLines done
  since : ∃ old, 10 ∉ old ∧ g.buffer = old ++ sinceFlush calls

variable {out : Stdout}

theorem Kept.snoc {calls : List WriterCall} {g : RedactingWriterGuard} (h : Kept out calls g)
    (c : WriterCall) : Kept out (calls ++ [c]) (c.apply g) := by
  obtain ⟨done, hwritten, hreceived⟩ := h.lines
  obtain ⟨old, hold, hbuffer⟩ := h.since
  cases c with
  | write buf =>
    refine ⟨h.fault, ⟨done, ?_, hreceived⟩, ⟨old, hold, ?_⟩⟩
    · simp [hwritten, WriterCall.bytes, WriterCall.apply, RedactingWriterGuard.write]
    · simp [hbuffer, sinceFlush, WriterCall.apply, WriterCall.since, RedactingWriterGuard.write]
  | flush =>
    obtain ⟨lines, rest, hsplit, hrest⟩ := exists_lines g.buffer
    have hflush : g.flush = (.ok (), ⟨g.inner.push (redactedLines lines), rest⟩) := by
      rw [← RedactingWriterGuard.flush_spec h.fault lines hrest, ← hsplit]
    refine ⟨?_, ⟨done ++ lines, ?_, ?_⟩, ⟨rest, hrest, ?_⟩⟩
    · simp [WriterCall.apply, hflush, Stdout.push, h.fault]
    · simp [hwritten, hsplit, WriterCall.bytes, WriterCall.apply, hflush, textOf]
    · simp [WriterCall.apply, hflush, Stdout.push, hreceived, redactedLines]
    · simp [WriterCall.apply, hflush, sinceFlush, WriterCall.since]

theorem kept_of_calls (hok : out.fault = none) (calls : List WriterCall) :
    Kept out calls (calls.foldl WriterCall.apply { inner := out }) := by
  induction calls using List.reverseRecOn with
  | nil => exact ⟨hok, ⟨[], rfl, by simp [redactedLines]⟩, ⟨[], by simp, rfl⟩⟩
  | append_singleton calls c ih =>
    rw [List.foldl_append]
    exact ih.snoc c

theorem inner_of_fault {e : IoError} (hfault : out.fault = some e) (calls : List WriterCall) :
    outputAfter out calls = out := by
  unfold outputAfter
  induction calls using List.reverseRecOn with
  | nil => rfl
  | append_singleton calls c ih =>
    rw [List.foldl_append, List.foldl_cons, List.foldl_nil]
    cases c with
    | write buf => exact ih
    | flush =>
      rw [← ih] at hfault
      exact (RedactingWriterGuard.flushLoop_fault hfault).trans ih

theorem textOf_eq_nil_iff_since {left : List Line} {old new : Bytes} (hold : 10 ∉ old)
    (h : textOf left = old ++ new) : left = [] ↔ new = [] := by
  constructor
  · rintro rfl
    exact (List.append_eq_nil_iff.mp h.symm).2
  · rintro rfl
    cases left with
    | nil => rfl
    | cons l left =>
      refine absurd ?_ hold
      rw [List.append_nil] at h
      rw [← h]
      simp [textOf, Line.text]

/-- The output received the lines, redacted, and nothing else. -/
def Delivered (out : Stdout) (lines : List Line) (calls : List WriterCall) : Prop :=
  (outputAfter out calls).received = out.received ++ redactedLines lines

/-- Over any calls that write complete lines, the output has all of them when the guard is
    dropped exactly if nothing was written behind the last flush and the output takes what it
    is given. -/
theorem delivered_iff (out : Stdout) {lines : List Line} {calls : List WriterCall}
    (hwritten : calls.flatMap WriterCall.bytes = textOf lines) :
    Delivered out lines calls ↔ lines = [] ∨ (out.fault = none ∧ sinceFlush calls = []) := by
  unfold Delivered
  cases hfault : out.fault with
  | some e =>
    rw [inner_of_fault hfault]
    simp [redactedLines_eq_nil_iff]
  | none =>
    have kept := kept_of_calls hfault calls
    obtain ⟨done, hdone, hreceived⟩ := kept.lines
    obtain ⟨old, hold, hbuffer⟩ := kept.since
    rw [hwritten] at hdone
    obtain ⟨left, rfl, hleft⟩ := exists_append_of_text hdone
    have hsince := textOf_eq_nil_iff_since hold (hleft.symm.trans hbuffer)
    rw [outputAfter, hreceived, List.append_cancel_left_eq]
    rw [redactedLines, redactedLines, List.flatMap_append, ← redactedLines, ← redactedLines,
      List.self_eq_append_right, redactedLines_eq_nil_iff, hsince]
    constructor
    · intro h
      exact .inr ⟨rfl, h⟩
    · rintro (h | h)
      · exact hsince.mp (List.append_eq_nil_iff.mp h).2
      · exact h.2

theorem delivered_split :
    Delivered {} [⟨[97], by decide⟩, ⟨[98], by decide⟩]
      [.write [97, 10, 98], .flush, .write [10], .flush] :=
  (delivered_iff {} (by decide)).mpr (.inr ⟨rfl, rfl⟩)

theorem line_lost :
    (outputAfter {} [.write [120, 10]]).received = [] ∧
    ¬ Delivered {} [⟨[120], by decide⟩] [.write [120, 10]] := by
  have hnone : (outputAfter {} [.write [120, 10]]).received = [] := rfl
  refine ⟨hnone, fun h => ?_⟩
  rw [Delivered, hnone] at h
  exact absurd (redactedLines_eq_nil_iff.mp h.symm) (by simp)

/-! ## Events -/

/-- An event of `tracing_subscriber`: it makes a guard with the closure of `init_tracing` (lines
    18-21), calls `write_all`, for which one `write` is enough, and drops the guard. -/
def logEvent (out : Stdout) (text : Bytes) : Stdout := outputAfter out [.write text]

theorem logEvent_lost (out : Stdout) (events : List Bytes) : events.foldl logEvent out = out := by
  induction events with
  | nil => rfl
  | cons text events ih => exact ih

end SkadiCore.Server
