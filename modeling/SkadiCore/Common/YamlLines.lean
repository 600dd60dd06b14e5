import Mathlib.Data.List.DropRight
import Mathlib.Data.List.ReduceOption
import Mathlib.Data.List.TakeWhile
import SkadiCore.Common.Quoted

/-!
# Block mappings of YAML

Documents of YAML 1.2 with one key on a line, and on the same line nothing or a scalar, plain
or in double quotes. The keys with their indentation and the values make up the tree. The
reader refuses all other documents: comments, sequences, flow collections, anchors, tags, single
quotes, keys that are not a word, scalars of several lines. None of these is the text of a
string that it stands for.

* `yaml_template_iff`: a document made of such lines is read as it is meant exactly if each of
  its values is.
-/

namespace SkadiCore.Yaml

def rules : QuoteRules where
  raw c := (c == '\t' || 0x20 ≤ c.toNat) && c != '"' && c != '\\'
  escape := escapeTable
    [('0', 0), ('a', 7), ('b', 8), ('t', 9), ('\t', 9), ('n', 10), ('v', 11), ('f', 12),
      ('r', 13), ('e', 27), (' ', 32), ('"', 34), ('/', 47), ('\\', 92), ('N', 0x85),
      ('_', 0xa0), ('L', 0x2028), ('P', 0x2029)] [('x', 2), ('u', 4), ('U', 8)]

def isBreak (c : Char) : Bool := c == '\n' || c == '\r'

def isWhite (c : Char) : Bool := c == ' ' || c == '\t'

def plainChar (c : Char) : Bool :=
  let n := c.toNat
  n == 9 || (0x20 ≤ n && n ≤ 0x7e) || n == 0x85 || (0xa0 ≤ n && n ≤ 0xfffd && n != 0xfeff) ||
    0x10000 ≤ n

def plainStart : List Char → Bool
  | [] => false
  | c :: s => !isWhite c && (!"-?:,[]\x7b\x7d#&*!|>'\"%@`".toList.contains c ||
      "-?:".toList.contains c && s.head?.any fun d => !isWhite d)

def isPlain (s : List Char) : Bool :=
  plainStart s && s.all plainChar && s.tails.all fun t =>
    (t.head? != some ':' || t.tail.head?.any fun d => !isWhite d) &&
      !(t.head?.any isWhite && t.tail.head? == some '#')

/-! ## The core schema -/

inductive NumberState
  | start | sign | zero | int | dot | frac | exp | expSign | expInt | oct | octInt | hex | hexInt

namespace NumberState

def step (s : NumberState) (c : Char) : Option NumberState :=
  let sign := c == '+' || c == '-'
  let exp := c == 'e' || c == 'E'
  match s with
  | start => if c == '0' then some zero else if c.isDigit then some int
      else if sign then some .sign else if c == '.' then some dot else none
  | .sign => if c.isDigit then some int else if c == '.' then some dot else none
  | zero => if c.isDigit then some int else if c == '.' then some frac
      else if exp then some .exp else if c == 'o' then some oct
      else if c == 'x' then some hex else none
  | int => if c.isDigit then some int else if c == '.' then some frac
      else if exp then some .exp else none
  | dot => if c.isDigit then some frac else none
  | frac => if c.isDigit then some frac else if exp then some .exp else none
  | .exp => if c.isDigit then some expInt else if sign then some expSign else none
  | expSign | expInt => if c.isDigit then some expInt else none
  | oct | octInt => if '0' ≤ c ∧ c ≤ '7' then some octInt else none
  | hex | hexInt => if (hexValue c).isSome then some hexInt else none

def isNumber : NumberState → Bool
  | zero | int | frac | expInt | octInt | hexInt => true
  | _ => false

end NumberState

def isOther (s : List Char) : Bool :=
  ["~", "null", "Null", "NULL", "true", "True", "TRUE", "false", "False", "FALSE", ".inf",
    ".Inf", ".INF", "+.inf", "+.Inf", "+.INF", "-.inf", "-.Inf", "-.INF", ".nan", ".NaN",
    ".NAN"].any (·.toList == s) || (s.foldlM NumberState.step .start).any (·.isNumber)

/-! ## The reader -/

inductive Scalar
  | string (s : List Char)
  | other (text : List Char)

structure Entry where
  indent : ℕ
  key : List Char
  value : Option Scalar

def readScalar (s : List Char) : Option Scalar :=
  if s.head? = some '"' then
    (unquote rules .text s.tail).bind fun p =>
      if p.2.all isWhite then some (.string p.1) else none
  else
    let text := s.rdropWhile isWhite
    if !isPlain text then none
    else if isOther text then some (.other text)
    else some (.string text)

def readValue (s : List Char) : Option (Option Scalar) :=
  let t := s.dropWhile isWhite
  if !s.head?.all isWhite then none
  else if t = [] then some none
  else (readScalar t).map some

def readLine (l : List Char) : Option (Option Entry) :=
  let s := l.dropWhile (· == ' ')
  let key := s.takeWhile Char.isAlphanum
  if key = [] then if s.all isWhite then some none else none
  else if (s.dropWhile Char.isAlphanum).head? = some ':' then
    (readValue (s.dropWhile Char.isAlphanum).tail).map fun value =>
      some ⟨(l.takeWhile (· == ' ')).length, key, value⟩
  else none

def read (doc : List Char) : Option (List Entry) :=
  ((doc.splitOnP isBreak).mapM readLine).map List.reduceOption

/-! ## Values that read back -/

section

variable {s y value : List Char}

/-- A plain scalar that is read as this string. -/
structure PlainSafe (s : List Char) : Prop where
  text : s.rdropWhile isWhite = s
  plain : isPlain s = true
  string : isOther s = false

instance : Decidable (PlainSafe s) :=
  decidable_of_iff (s.rdropWhile isWhite = s ∧ isPlain s = true ∧ isOther s = false)
    ⟨fun ⟨h1, h2, h3⟩ => ⟨h1, h2, h3⟩, fun ⟨h1, h2, h3⟩ => ⟨h1, h2, h3⟩⟩

theorem isBreak_eq_false (p : Char → Prop) (hn : ¬ p '\n') (hr : ¬ p '\r') {c : Char} (hc : p c) :
    isBreak c = false := by
  rw [isBreak, Bool.or_eq_false_iff, beq_eq_false_iff_ne, beq_eq_false_iff_ne]
  exact ⟨fun h => hn (h ▸ hc), fun h => hr (h ▸ hc)⟩

theorem readScalar_string (h : readScalar s = some (.string y)) :
    y.length ≤ s.length ∧ (s.length ≤ y.length → s = y ∧ PlainSafe y) := by
  simp only [readScalar] at h
  split_ifs at h with hquote hplain hother
  · -- The value between quotes is shorter than the text.
    obtain ⟨⟨z, r⟩, hz, hend⟩ := Option.bind_eq_some_iff.mp h
    simp only [Option.ite_none_right_eq_some, Option.some.injEq, Scalar.string.injEq] at hend
    obtain ⟨-, rfl⟩ := hend
    obtain ⟨c, hc, hconsumed⟩ := exists_consumed hz
    have hlen : s.length = c.length + r.length + 2 := by
      cases s with
      | nil => cases hquote
      | cons a s =>
        rw [List.tail_cons] at hc
        simp [hc]
        omega
    have := hconsumed.length_le
    exact ⟨by omega, by omega⟩
  · cases h
  · cases h
    have hpre := s.rdropWhile_prefix isWhite
    refine ⟨hpre.length_le, fun hlen => ?_⟩
    have heq := hpre.eq_of_length (le_antisymm hpre.length_le hlen)
    exact ⟨heq.symm, ⟨by rw [heq]; exact heq, by simpa using hplain, by simpa using hother⟩⟩

theorem PlainSafe.head (h : PlainSafe s) : ∃ c t, s = c :: t ∧ isWhite c = false ∧ c ≠ '"' := by
  have hplain := h.plain
  cases s with
  | nil => cases hplain
  | cons c t =>
    simp only [isPlain, plainStart, Bool.and_eq_true, Bool.not_eq_true'] at hplain
    refine ⟨c, t, rfl, hplain.1.1.1, ?_⟩
    rintro rfl
    exact absurd hplain.1.1.2 (by simp)

theorem PlainSafe.not_isBreak (h : PlainSafe s) : ∀ c ∈ s, isBreak c = false := by
  intro c hc
  have hplain := h.plain
  simp only [isPlain, Bool.and_eq_true, List.all_eq_true] at hplain
  exact isBreak_eq_false (plainChar · = true) (by decide) (by decide) (hplain.1.2 c hc)

theorem readValue_cons {c : Char} (hwhite : isWhite c = false) :
    readValue (' ' :: c :: s) = (readScalar (c :: s)).map some := by
  have hdrop : (' ' :: c :: s).dropWhile isWhite = c :: s := by
    rw [List.dropWhile_cons_of_pos rfl, List.dropWhile_cons_of_neg (by simp [hwhite])]
  simp [readValue, hdrop, show isWhite ' ' = true from rfl]

theorem readValue_plain_iff (hlen : s.length ≤ value.length) :
    readValue (' ' :: s) = some (some (.string value)) ↔ s = value ∧ PlainSafe value := by
  constructor
  · intro h
    simp only [readValue, List.dropWhile_cons_of_pos, show isWhite ' ' = true from rfl] at h
    split_ifs at h with hhead hnone
    · cases h
    · simp only [Option.map_eq_some_iff, Option.some.injEq, exists_eq_right] at h
      obtain ⟨hle, heq⟩ := readScalar_string h
      have hsub := List.dropWhile_suffix isWhite (l := s)
      have := hsub.length_le
      obtain ⟨hvalue, hsafe⟩ := heq (by omega)
      rw [hsub.eq_of_length (by rw [hvalue]; rw [hvalue] at this; omega)] at hvalue
      exact ⟨hvalue, hsafe⟩
  · rintro ⟨rfl, hsafe⟩
    obtain ⟨c, t, rfl, hwhite, hquote⟩ := hsafe.head
    rw [readValue_cons hwhite, readScalar, hsafe.text]
    simp [hquote, hsafe.plain, hsafe.string]

theorem readValue_quoted_iff (s value : List Char) :
    readValue (' ' :: '"' :: escapeQuotes s ++ ['"']) = some (some (.string value)) ↔
      s = value ∧ ∀ c ∈ s, c = '\t' ∨ 0x20 ≤ c.toNat := by
  have hraw : ∀ c : Char, (rules.raw c = true ∨ c = '"' ∨ c = '\\') ↔
      (c = '\t' ∨ 0x20 ≤ c.toNat) := by
    intro c
    by_cases hquote : c = '"'
    · simp [hquote]
    · by_cases hback : c = '\\'
      · simp [hback]
      · simp [rules, hquote, hback]
  rw [List.cons_append, List.cons_append, readValue_cons rfl, readScalar]
  simp only [List.head?_cons, if_true, List.tail_cons, Option.map_eq_some_iff,
    Option.some.injEq, exists_eq_right, Option.bind_eq_some_iff, Prod.exists, unquote_escaped_iff,
    hraw]
  constructor
  · rintro ⟨y, r, ⟨rfl, hsafe, rfl⟩, hend⟩
    cases hend
    exact ⟨rfl, hsafe⟩
  · rintro ⟨rfl, hsafe⟩
    exact ⟨s, [], ⟨rfl, hsafe, rfl⟩, rfl⟩

theorem readValue_open (s : List Char) : readValue (' ' :: '"' :: escapeQuotes s) = none := by
  have hopen := unquote_escaped (R := rules) s []
  rw [List.append_nil, show unquote rules .text [] = none from rfl] at hopen
  rw [readValue_cons rfl, readScalar]
  simp [hopen]

end

/-! ## Documents -/

inductive Text
  | null
  | yes
  | plain (value text : List Char) (fits : text.length ≤ value.length)
  | quoted (value text : List Char)

namespace Text

def chars : Text → List Char
  | null => []
  | yes => " true".toList
  | plain _ s _ => ' ' :: s
  | quoted _ s => ' ' :: '"' :: escapeQuotes s ++ ['"']

def value : Text → Option Scalar
  | null => none
  | yes => some (.other "true".toList)
  | plain v _ _ => some (.string v)
  | quoted v _ => some (.string v)

def Safe : Text → Prop
  | plain v s _ => s = v ∧ PlainSafe v
  | quoted v s => s = v ∧ ∀ c ∈ s, c = '\t' ∨ 0x20 ≤ c.toNat
  | _ => True

@[simp] theorem safe_null : null.Safe := trivial

@[simp] theorem safe_yes : yes.Safe := trivial

def firstLine (s : List Char) : List Char := s.takeWhile fun c => !isBreak c

theorem firstLine_eq_self_iff {s : List Char} :
    firstLine s = s ↔ ∀ c ∈ s, isBreak c = false := by
  simp [firstLine, List.takeWhile_eq_self_iff]

theorem firstLine_escapeQuotes (s : List Char) : firstLine (escapeQuotes s ++ ['"']) =
    escapeQuotes (firstLine s) ++ if s.any isBreak then [] else ['"'] := by
  induction s with
  | nil => rfl
  | cons c s ih =>
    by_cases hc : isBreak c = true
    · have hne : ¬ (c = '\\' ∨ c = '"') := by
        rintro (rfl | rfl)
        · cases hc
        · cases hc
      simp [firstLine, escapeQuotes, hc, hne]
    · have hpiece : ∀ x ∈ if c = '\\' ∨ c = '"' then ['\\', c] else [c],
          (!isBreak x) = true := by
        split_ifs <;> simp [hc, show isBreak '\\' = false from rfl]
      have hcons : ∀ l, escapeQuotes (c :: l) =
          (if c = '\\' ∨ c = '"' then ['\\', c] else [c]) ++ escapeQuotes l := fun _ => rfl
      have hfirst : firstLine (c :: s) = c :: firstLine s := by simp [firstLine, hc]
      rw [hfirst, hcons, hcons, List.append_assoc, firstLine, List.takeWhile_append_of_pos hpiece]
      simp only [firstLine] at ih
      simp [ih, firstLine, hc]

theorem firstLine_of_safe {text : Text} (h : text.Safe) : firstLine text.chars = text.chars := by
  cases text with
  | null => rfl
  | yes => rfl
  | plain v s fits =>
    obtain ⟨rfl, hsafe⟩ := h
    exact congrArg _ (firstLine_eq_self_iff.mpr hsafe.not_isBreak)
  | quoted v s =>
    have hbreak : ∀ c ∈ s, isBreak c = false :=
      fun c hc => isBreak_eq_false (fun c => c = '\t' ∨ 0x20 ≤ c.toNat) (by decide) (by decide)
        (h.2 c hc)
    have hline := firstLine_escapeQuotes s
    rw [if_neg (by simpa using hbreak), firstLine_eq_self_iff.mpr hbreak] at hline
    exact congrArg (fun l => ' ' :: '"' :: l) hline

theorem readValue_firstLine_iff {text : Text} :
    readValue (firstLine text.chars) = some text.value ↔ text.Safe := by
  refine ⟨fun hread => ?_, fun hsafe => ?_⟩
  · cases text with
    | null => trivial
    | yes => trivial
    | plain v s h =>
      have hpre : firstLine s <+: s := List.takeWhile_prefix _
      obtain ⟨heq, hsafe⟩ := (readValue_plain_iff (hpre.length_le.trans h)).mp hread
      rw [hpre.eq_of_length (le_antisymm hpre.length_le (heq ▸ h))] at heq
      exact ⟨heq, hsafe⟩
    | quoted v s =>
      have hline : firstLine (quoted v s).chars =
          ' ' :: '"' :: firstLine (escapeQuotes s ++ ['"']) := rfl
      rw [hline, firstLine_escapeQuotes] at hread
      split_ifs at hread with hbreak
      · rw [List.append_nil, readValue_open] at hread
        cases hread
      · rw [firstLine_eq_self_iff.mpr (by simpa using hbreak)] at hread
        exact (readValue_quoted_iff s v).mp hread
  · rw [firstLine_of_safe hsafe]
    cases text with
    | null => rfl
    | yes => rfl
    | plain v s h => exact (readValue_plain_iff h).mpr hsafe
    | quoted v s => exact (readValue_quoted_iff s v).mpr hsafe

theorem exists_break (text : Text) (s : List Char) : ∃ c s', isBreak c = true ∧
    text.chars ++ '\n' :: s = firstLine text.chars ++ c :: s' ∧ (text.Safe → s' = s) := by
  have hsplit : firstLine text.chars ++ text.chars.dropWhile (fun c => !isBreak c) = text.chars :=
    List.takeWhile_append_dropWhile
  cases hrest : text.chars.dropWhile (fun c => !isBreak c) with
  | nil =>
    rw [hrest, List.append_nil] at hsplit
    exact ⟨'\n', s, rfl, by rw [hsplit], fun _ => rfl⟩
  | cons c rest =>
    rw [hrest] at hsplit
    refine ⟨c, rest ++ '\n' :: s, ?_, ?_, fun hsafe => ?_⟩
    · have hhead := List.head_dropWhile_not (fun c => !isBreak c) (l := text.chars)
      simpa [hrest] using hhead
    · conv_lhs => rw [← hsplit]
      simp
    · rw [firstLine_of_safe hsafe] at hsplit
      simp at hsplit

end Text

abbrev Word := { s : List Char // s ≠ [] ∧ s.all Char.isAlphanum = true }

inductive Line
  | blank
  | entry (indent : ℕ) (key : Word) (text : Text)

namespace Line

def chars : Line → List Char
  | blank => ['\n']
  | entry n key text => List.replicate n ' ' ++ key.val ++ ':' :: text.chars ++ ['\n']

def entries : Line → List Entry
  | blank => []
  | entry n key text => [⟨n, key.val, text.value⟩]

def Safe : Line → Prop
  | blank => True
  | entry _ _ text => text.Safe

@[simp] theorem safe_blank : blank.Safe := trivial

end Line

theorem read_append {l s : List Char} {c : Char} (hl : ∀ c ∈ l, isBreak c = false)
    (hc : isBreak c = true) : read (l ++ c :: s) =
      (readLine l).bind fun e => (read s).map (e.toList ++ ·) := by
  rw [read, List.splitOnP_append_cons_of_forall_mem hl c hc, List.mapM_cons]
  cases readLine l with
  | none => rfl
  | some e =>
    cases h : (s.splitOnP isBreak).mapM readLine <;> cases e <;> simp [read, h]

theorem readLine_entry {n : ℕ} {key : List Char} (hne : key ≠ [])
    (hkey : ∀ c ∈ key, c.isAlphanum = true) (s : List Char) :
    readLine (List.replicate n ' ' ++ key ++ ':' :: s) =
      (readValue s).map fun value => some ⟨n, key, value⟩ := by
  obtain ⟨c, rest, rfl⟩ := List.exists_cons_of_ne_nil hne
  have hspace : c ≠ ' ' := by
    rintro rfl
    exact absurd (hkey ' ' List.mem_cons_self) (by decide)
  have hdrop : (List.replicate n ' ' ++ (c :: rest) ++ ':' :: s).dropWhile (· == ' ') =
      (c :: rest) ++ ':' :: s := by
    rw [List.append_assoc, List.dropWhile_append_of_pos (by simp), List.cons_append,
      List.dropWhile_cons_of_neg (by simpa using hspace)]
  have htake : (List.replicate n ' ' ++ (c :: rest) ++ ':' :: s).takeWhile (· == ' ') =
      List.replicate n ' ' := by
    rw [List.append_assoc, List.takeWhile_append_of_pos (by simp), List.cons_append,
      List.takeWhile_cons_of_neg (by simpa using hspace), List.append_nil]
  have hword : ((c :: rest) ++ ':' :: s).takeWhile Char.isAlphanum = c :: rest := by
    rw [List.takeWhile_append_of_pos hkey, List.takeWhile_cons_of_neg (by decide),
      List.append_nil]
  have hafter : ((c :: rest) ++ ':' :: s).dropWhile Char.isAlphanum = ':' :: s := by
    rw [List.dropWhile_append_of_pos hkey, List.dropWhile_cons_of_neg (by decide)]
  simp only [readLine, hdrop, htake, hword, hafter]
  simp

theorem Line.read_iff {l : Line} {s : List Char} {es : List Entry} :
    read (l.chars ++ s) = some (l.entries ++ es) ↔ l.Safe ∧ read s = some es := by
  cases l with
  | blank =>
    have hblank := read_append (l := []) (s := s) (c := '\n') (by simp) rfl
    simp only [List.nil_append] at hblank
    simp [chars, entries, Safe, hblank, show readLine [] = some none from rfl]
  | entry n key text =>
    have hkey := List.all_eq_true.mp key.property.2
    obtain ⟨c, s', hc, heq, hs⟩ := text.exists_break s
    have hfirst : ∀ c ∈ List.replicate n ' ' ++ key.val ++ ':' :: Text.firstLine text.chars,
        isBreak c = false := by
      intro c hc
      simp only [List.mem_append, List.mem_replicate, List.mem_cons] at hc
      rcases hc with (⟨-, rfl⟩ | hc) | rfl | hc
      · rfl
      · exact isBreak_eq_false (·.isAlphanum = true) (by decide) (by decide) (hkey c hc)
      · rfl
      · simpa using List.mem_takeWhile_imp hc
    have hline : (entry n key text).chars ++ s =
        (List.replicate n ' ' ++ key.val ++ ':' :: Text.firstLine text.chars) ++ c :: s' := by
      simp only [chars, List.append_assoc, List.cons_append, List.nil_append, heq]
    rw [hline, read_append hfirst hc, readLine_entry key.property.1 hkey, Safe,
      ← Text.readValue_firstLine_iff]
    cases hread : readValue (Text.firstLine text.chars) with
    | none => simp
    | some v =>
      simp only [Option.map_some, Option.bind_some, Option.toList_some, Option.map_eq_some_iff,
        List.cons_append, List.nil_append, entries, List.cons.injEq, Entry.mk.injEq, true_and,
        Option.some.injEq]
      constructor
      · rintro ⟨fs, hfs, rfl, rfl⟩
        rw [hs (Text.readValue_firstLine_iff.mp hread)] at hfs
        exact ⟨rfl, hfs⟩
      · rintro ⟨rfl, hes⟩
        rw [hs (Text.readValue_firstLine_iff.mp hread)]
        exact ⟨es, hes, rfl, rfl⟩

theorem yaml_template_iff (lines : List Line) :
    read (lines.flatMap Line.chars) = some (lines.flatMap Line.entries) ↔
      ∀ l ∈ lines, l.Safe := by
  induction lines with
  | nil => exact iff_of_true rfl (by simp)
  | cons l lines ih =>
    rw [List.flatMap_cons, List.flatMap_cons, Line.read_iff, ih, List.forall_mem_cons]

end SkadiCore.Yaml
