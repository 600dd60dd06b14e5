import Mathlib.Data.List.Basic
import Mathlib.Data.Nat.Basic
import Mathlib.Tactic.Common

/-!
# Strings in double quotes

The strings of JSON, TOML and YAML on one line: characters that stand for themselves, and
escapes. The rules of a format say which these are.

* `unquote_raw_iff`: text that is put between quotes as it is reads back exactly if every
  character of it stands for itself.
* `unquote_escaped_iff`: with backslashes and quotes escaped, it does so exactly if every
  other character stands for itself.
* `reads_template_iff`: a document made of texts and quoted values is read as it is meant
  exactly if each of its values is.
-/

namespace SkadiCore

inductive Escape
  | char (c : Char)
  | code (digits : ℕ)

structure QuoteRules where
  /-- The characters that stand for themselves. -/
  raw : Char → Bool
  escape : Char → Option Escape
  raw_quote : raw '"' = false := by rfl
  raw_backslash : raw '\\' = false := by rfl
  escape_quote : escape '"' = some (.char '"') := by rfl
  escape_backslash : escape '\\' = some (.char '\\') := by rfl

def escapeTable (chars codes : List (Char × ℕ)) (c : Char) : Option Escape :=
  ((chars.lookup c).map fun n => .char (.ofNat n)) <|> (codes.lookup c).map .code

inductive QuoteMode
  | text
  | escape
  | code (digits value : ℕ)

def hexValue (c : Char) : Option ℕ :=
  if c.isDigit then some (c.toNat - 48)
  else if 'a' ≤ c ∧ c ≤ 'f' then some (c.toNat - 87)
  else if 'A' ≤ c ∧ c ≤ 'F' then some (c.toNat - 55)
  else none

def unquote (R : QuoteRules) : QuoteMode → List Char → Option (List Char × List Char)
  | _, [] => none
  | .text, c :: s =>
    if c = '"' then some ([], s)
    else if c = '\\' then unquote R .escape s
    else if R.raw c then (unquote R .text s).map fun p => (c :: p.1, p.2)
    else none
  | .escape, c :: s =>
    match R.escape c with
    | some (.char d) => (unquote R .text s).map fun p => (d :: p.1, p.2)
    | some (.code n) => unquote R (.code (n - 1) 0) s
    | none => none
  | .code n v, c :: s =>
    match hexValue c with
    | none => none
    | some d =>
      if n ≠ 0 then unquote R (.code (n - 1) (16 * v + d)) s
      else if (16 * v + d).isValidChar then
        (unquote R .text s).map fun p => (Char.ofNat (16 * v + d) :: p.1, p.2)
      else none

def escapeQuotes (s : List Char) : List Char :=
  s.flatMap fun c => if c = '\\' ∨ c = '"' then ['\\', c] else [c]

section

variable {R : QuoteRules} {mode : QuoteMode} {s y r v : List Char}

structure Consumed (R : QuoteRules) (mode : QuoteMode) (c y : List Char) : Prop where
  length_le : y.length ≤ c.length
  count_le : c.count '"' ≤ y.count '"'
  exact : mode = .text → y.length = c.length → c = y ∧ ∀ x ∈ c, R.raw x = true

theorem Consumed.raw {a : Char} {c y : List Char} (h : Consumed R .text c y) (ha : R.raw a) :
    Consumed R .text (a :: c) (a :: y) where
  length_le := Nat.succ_le_succ h.length_le
  count_le := by
    simp only [List.count_cons]
    exact Nat.add_le_add_right h.count_le _
  exact _ hlen := by
    obtain ⟨rfl, hraw⟩ := h.exact rfl (Nat.succ_inj.mp hlen)
    exact ⟨rfl, List.forall_mem_cons.mpr ⟨ha, hraw⟩⟩

theorem Consumed.other {a : Char} {c y z : List Char} {next : QuoteMode}
    (h : Consumed R next c y) (hmode : mode = .text → z = y)
    (hlen : z.length ≤ y.length + 1) (hcount : y.count '"' + [a].count '"' ≤ z.count '"') :
    Consumed R mode (a :: c) z where
  length_le := Nat.le_trans hlen (Nat.succ_le_succ h.length_le)
  count_le := by
    have := h.count_le
    rw [← List.singleton_append, List.count_append]
    omega
  exact htext heq := by
    have := h.length_le
    rw [hmode htext, List.length_cons] at heq
    omega

theorem hexValue_quote : hexValue '"' = none := rfl

theorem exists_consumed (h : unquote R mode s = some (y, r)) :
    ∃ c, s = c ++ '"' :: r ∧ Consumed R mode c y := by
  induction s generalizing mode y with
  | nil => cases mode <;> cases h
  | cons a s ih =>
    cases mode with
    | text =>
      rw [unquote] at h
      split_ifs at h with hquote hback hraw
      · cases h
        exact ⟨[], by rw [hquote]; rfl, le_rfl, le_rfl, fun _ _ => ⟨rfl, by simp⟩⟩
      · obtain ⟨c, rfl, hc⟩ := ih h
        exact ⟨a :: c, rfl, hc.other (fun _ => rfl) (Nat.le_succ _) (by simp [hback])⟩
      · simp only [Option.map_eq_some_iff, Prod.exists, Prod.mk.injEq] at h
        obtain ⟨z, _, hz, rfl, rfl⟩ := h
        obtain ⟨c, rfl, hc⟩ := ih hz
        exact ⟨a :: c, rfl, hc.raw hraw⟩
    | escape =>
      rw [unquote] at h
      split at h
      next d hd =>
        simp only [Option.map_eq_some_iff, Prod.exists, Prod.mk.injEq] at h
        obtain ⟨z, _, hz, rfl, rfl⟩ := h
        obtain ⟨c, rfl, hc⟩ := ih hz
        refine ⟨a :: c, rfl, hc.other (by simp) le_rfl ?_⟩
        by_cases ha : a = '"'
        · rw [ha, R.escape_quote] at hd
          cases hd
          simp [ha]
        · simp [ha, List.count_cons]
      next n hn =>
        obtain ⟨c, rfl, hc⟩ := ih h
        refine ⟨a :: c, rfl, hc.other (by simp) (Nat.le_succ _) ?_⟩
        have ha : a ≠ '"' := by
          rintro rfl
          rw [R.escape_quote] at hn
          cases hn
        simp [ha]
      next => cases h
    | code n value =>
      have ha : a ≠ '"' := by
        rintro rfl
        rw [unquote, hexValue_quote] at h
        cases h
      rw [unquote] at h
      split at h
      · cases h
      split_ifs at h
      · obtain ⟨c, rfl, hc⟩ := ih h
        exact ⟨a :: c, rfl, hc.other (by simp) (Nat.le_succ _) (by simp [ha])⟩
      · simp only [Option.map_eq_some_iff, Prod.exists, Prod.mk.injEq] at h
        obtain ⟨z, _, hz, rfl, rfl⟩ := h
        obtain ⟨c, rfl, hc⟩ := ih hz
        exact ⟨a :: c, rfl, hc.other (by simp) le_rfl (by simp [ha, List.count_cons])⟩

theorem unquote_raw (h : ∀ x ∈ v, R.raw x = true) :
    unquote R .text (v ++ '"' :: s) = some (v, s) := by
  induction v with
  | nil => rfl
  | cons x v ih =>
    obtain ⟨hx, hv⟩ := List.forall_mem_cons.mp h
    have hquote : x ≠ '"' := fun h => by simp [h, R.raw_quote] at hx
    have hback : x ≠ '\\' := fun h => by simp [h, R.raw_backslash] at hx
    simp [unquote, hquote, hback, hx, ih hv]

theorem unquote_raw_iff :
    unquote R .text (v ++ '"' :: s) = some (v, r) ↔ (∀ x ∈ v, R.raw x = true) ∧ r = s := by
  refine ⟨fun h => ?_, fun ⟨h, hr⟩ => hr ▸ unquote_raw h⟩
  obtain ⟨c, hc, hconsumed⟩ := exists_consumed h
  -- A quote behind `v` would be one of `c`, and so one more than `v` has.
  have hlen : c.length ≤ v.length := by
    by_contra hlt
    have hsub : v ++ ['"'] <+: c := by
      refine List.prefix_of_prefix_length_le ⟨s, ?_⟩ ⟨'"' :: r, hc.symm⟩ (by simp; omega)
      simp
    have := hsub.sublist.count_le '"'
    have := hconsumed.count_le
    simp only [List.count_append, List.count_singleton_self] at *
    omega
  obtain ⟨rfl, hraw⟩ := hconsumed.exact rfl (le_antisymm hconsumed.length_le hlen)
  simp only [List.append_cancel_left_eq, List.cons.injEq, true_and] at hc
  exact ⟨hraw, hc.symm⟩

theorem unquote_escaped (v s : List Char) :
    unquote R .text (escapeQuotes v ++ s) =
      if v.all fun x => R.raw x || x == '"' || x == '\\' then
        (unquote R .text s).map fun p => (v ++ p.1, p.2)
      else none := by
  induction v with
  | nil =>
    cases h : unquote R .text s <;> simp [escapeQuotes, h]
  | cons x v ih =>
    have hcons : escapeQuotes (x :: v) ++ s =
        (if x = '\\' ∨ x = '"' then ['\\', x] else [x]) ++ (escapeQuotes v ++ s) := by
      simp [escapeQuotes]
    rw [hcons, List.all_cons]
    by_cases hx : x = '\\' ∨ x = '"'
    · have hescape : R.escape x = some (.char x) := by
        rcases hx with rfl | rfl
        · exact R.escape_backslash
        · exact R.escape_quote
      have hstep : ∀ t, unquote R .text ('\\' :: x :: t) =
          (unquote R .text t).map fun p => (x :: p.1, p.2) := by
        intro t
        simp [unquote, hescape]
      have htest : (R.raw x || x == '"' || x == '\\') = true := by
        rcases hx with rfl | rfl <;> simp
      rw [if_pos hx, List.cons_append, List.cons_append, List.nil_append, hstep, ih, htest,
        Bool.true_and]
      split_ifs <;> simp [Function.comp_def]
    · have hquote : x ≠ '"' := fun h => hx (.inr h)
      have hback : x ≠ '\\' := fun h => hx (.inl h)
      have htest : (R.raw x || x == '"' || x == '\\') = R.raw x := by
        rw [beq_false_of_ne hquote, beq_false_of_ne hback, Bool.or_false, Bool.or_false]
      rw [if_neg hx, List.singleton_append, unquote, if_neg hquote, if_neg hback, ih, htest]
      cases R.raw x with
      | false => simp
      | true =>
        simp only [if_true, Bool.true_and]
        split_ifs <;> simp [Function.comp_def]

theorem unquote_escaped_iff : unquote R .text (escapeQuotes v ++ '"' :: s) = some (y, r) ↔
    v = y ∧ (∀ x ∈ v, R.raw x = true ∨ x = '"' ∨ x = '\\') ∧ r = s := by
  have hall : (v.all fun x => R.raw x || x == '"' || x == '\\') = true ↔
      ∀ x ∈ v, R.raw x = true ∨ x = '"' ∨ x = '\\' := by
    simp [or_assoc]
  rw [unquote_escaped]
  split_ifs with h
  · simp only [unquote, if_true, Option.map_some, List.append_nil, Option.some.injEq,
      Prod.mk.injEq]
    exact ⟨fun ⟨hy, hr⟩ => ⟨hy, hall.mp h, hr.symm⟩, fun ⟨hy, _, hr⟩ => ⟨hy, hr.symm⟩⟩
  · exact iff_of_false (by simp) (fun hread => h (hall.mpr hread.2.1))

end

/-! ## Documents -/

inductive DocToken
  | char (c : Char)
  | string (s : List Char)

/-- The text consists of these characters and quoted strings. -/
inductive ReadsAs (R : QuoteRules) : List Char → List DocToken → Prop
  | nil : ReadsAs R [] []
  | char {c s ts} : c ≠ '"' → ReadsAs R s ts → ReadsAs R (c :: s) (.char c :: ts)
  | string {s y r ts} : unquote R .text s = some (y, r) → ReadsAs R r ts →
      ReadsAs R ('"' :: s) (.string y :: ts)

inductive DocPart
  | text (s : List Char)
  | raw (value : List Char)
  | escaped (value text : List Char)

namespace DocPart

def chars : DocPart → List Char
  | text s => s
  | raw v => '"' :: v ++ ['"']
  | escaped _ t => '"' :: escapeQuotes t ++ ['"']

def tokens : DocPart → List DocToken
  | text s => s.map .char
  | raw v => [.string v]
  | escaped v _ => [.string v]

def Safe (R : QuoteRules) : DocPart → Prop
  | text s => '"' ∉ s
  | raw v => ∀ x ∈ v, R.raw x = true
  | escaped v t => t = v ∧ ∀ x ∈ v, R.raw x = true ∨ x = '"' ∨ x = '\\'

end DocPart

section

variable {R : QuoteRules} {s : List Char} {ts : List DocToken}

theorem readsAs_text_iff (l : List Char) :
    ReadsAs R (l ++ s) (l.map .char ++ ts) ↔ '"' ∉ l ∧ ReadsAs R s ts := by
  induction l with
  | nil => simp
  | cons c l ih =>
    rw [List.cons_append, List.map_cons, List.cons_append, List.mem_cons, not_or, and_assoc,
      ← ih]
    refine ⟨fun h => ?_, fun h => .char (Ne.symm h.1) h.2⟩
    cases h with
    | char hc h => exact ⟨Ne.symm hc, h⟩

theorem readsAs_string_iff {v : List Char} : ReadsAs R ('"' :: s) (.string v :: ts) ↔
    ∃ r, unquote R .text s = some (v, r) ∧ ReadsAs R r ts := by
  refine ⟨fun h => ?_, fun ⟨r, hr, h⟩ => .string hr h⟩
  cases h with
  | string hr h => exact ⟨_, hr, h⟩

theorem DocPart.readsAs_iff (p : DocPart) :
    ReadsAs R (p.chars ++ s) (p.tokens ++ ts) ↔ p.Safe R ∧ ReadsAs R s ts := by
  cases p with
  | text l => exact readsAs_text_iff l
  | raw v => simp [chars, tokens, Safe, readsAs_string_iff, unquote_raw_iff, and_assoc]
  | escaped v t =>
    simp only [chars, tokens, Safe, List.cons_append, List.append_assoc, List.nil_append,
      readsAs_string_iff, unquote_escaped_iff]
    constructor
    · rintro ⟨r, ⟨rfl, hsafe, rfl⟩, h⟩
      exact ⟨⟨rfl, hsafe⟩, h⟩
    · rintro ⟨⟨rfl, hsafe⟩, h⟩
      exact ⟨s, ⟨rfl, hsafe, rfl⟩, h⟩

theorem reads_template_iff (parts : List DocPart) :
    ReadsAs R (parts.flatMap DocPart.chars) (parts.flatMap DocPart.tokens) ↔
      ∀ p ∈ parts, p.Safe R := by
  induction parts with
  | nil => simpa using ReadsAs.nil
  | cons p parts ih =>
    rw [List.flatMap_cons, List.flatMap_cons, p.readsAs_iff, ih, List.forall_mem_cons]

end

end SkadiCore
