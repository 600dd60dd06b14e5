import Mathlib.Data.List.TakeWhile
import SkadiCore.Core.Redact

/-!
# Whether redaction hides a token

A place for a token is a text around it: some text before, the word `bearer` in any case, white
space, the token, and a text behind that begins with a boundary. The token is hidden if the
redacted text is the same for all tokens in that place.

**Defect.** A second space or a tab ends the token before it has begun, and a keyword right
behind another one is read as its token: the text behind is then written as it stands.
-/

namespace SkadiCore

structure Token where
  text : List Char
  nonempty : text ≠ []
  unbounded : ∀ c ∈ text, isBoundary c = false

structure Place where
  before : List Char
  keyword : List Char
  gap : List Char
  behind : List Char
  keyword_lower : keyword.map Char.toLower = "bearer".toList
  gap_white : ∀ c ∈ gap, isWhitespace c = true
  behind_bounded : ∀ c ∈ behind.head?, isBoundary c = true

namespace Place

def fill (w : Place) (t : Token) : String :=
  .ofList (w.before ++ (w.keyword ++ (w.gap ++ (t.text ++ w.behind))))

/-- The redacted text is the same for every token at this place. -/
def Hides (w : Place) : Prop :=
  ∀ t t' : Token, redactBearerTokens (w.fill t) = redactBearerTokens (w.fill t')

/-- The white space is read together with the keyword and the token: one space for the keyword,
    unless the text before ends inside a token, and no boundary. -/
def Covered (w : Place) : Prop :=
  if bearer.endsInRun w.before then ∀ c ∈ w.gap, isBoundary c = false
  else ∃ gap, w.gap = ' ' :: gap ∧ ∀ c ∈ gap, isBoundary c = false

end Place

/-! ## The letters of the keyword -/

theorem ascii_of_toLower {c d : Char} (h : c.toLower = d) (hd : d.toNat < 128) :
    c.toNat < 128 := by
  by_contra hc
  rw [toLower_of_not_ascii hc] at h
  exact hc (h ▸ hd)

variable {c : Char}

theorem toLower_ne_of_white (h : isWhitespace c = true) : c.toLower ≠ 'b' := by
  intro hb
  have hall := all_ascii (P := fun c => !(isWhitespace c && c.toLower == 'b'))
    (by decide +kernel) (ascii_of_toLower hb (by decide))
  simp [h, hb] at hall

theorem isBoundary_of_toLower (h : c.toLower ∈ "bearer".toList) : isBoundary c = false := by
  have hword : ("bearer".toList.all fun d => decide (d.toNat < 128)) = true := by decide
  have hc := ascii_of_toLower rfl (by simpa using List.all_eq_true.mp hword _ h)
  have hall := all_ascii (P := fun c => !(isBoundary c && decide (c.toLower ∈ "bearer".toList)))
    (by decide +kernel) hc
  simpa only [h, decide_true, Bool.and_true, Bool.not_eq_true'] using hall

theorem eq_space_of_toLower (h : c.toLower = ' ') : c = ' ' := by
  have hall := all_ascii (P := fun c => c.toLower != ' ' || c == ' ')
    (by decide +kernel) (ascii_of_toLower h (by decide))
  simpa [h] using hall

theorem key_cons_of_ne (h : c.toLower ≠ 'b') (cs : List Char) : bearer.key (c :: cs) = false := by
  have hword : "bearer ".toList = 'b' :: "earer ".toList := by decide
  rw [Bool.eq_false_iff]
  intro hkey
  have hlower : ((c :: cs).take 7).map Char.toLower = "bearer ".toList := eq_of_beq hkey
  rw [hword, List.take_succ_cons, List.map_cons, List.cons.injEq] at hlower
  exact h hlower.1

theorem replace_append_of_ne {cs : List Char} (h : ∀ c ∈ cs, c.toLower ≠ 'b') (x mark : List Char) :
    bearer.replace mangle mark (cs ++ x) = cs.flatMap mangle ++ bearer.replace mangle mark x := by
  induction cs with
  | nil => rfl
  | cons c cs ih =>
    obtain ⟨hc, hcs⟩ := List.forall_mem_cons.mp h
    rw [List.cons_append, KeyedRuns.replace_cons (key_cons_of_ne hc _), ih hcs,
      List.flatMap_cons, List.append_assoc]

theorem replace_letter_ne {cs : List Char} (h : ∀ c ∈ cs, c.toLower ≠ 'b') (x mark : List Char) :
    bearer.replace mangle mark (cs ++ (['a'] ++ x)) ≠
      bearer.replace mangle mark (cs ++ (['c'] ++ x)) := by
  have ha : ∀ c ∈ ['a'], c.toLower ≠ 'b' := List.forall_mem_singleton.mpr (by decide)
  have hc : ∀ c ∈ ['c'], c.toLower ≠ 'b' := List.forall_mem_singleton.mpr (by decide)
  rw [replace_append_of_ne h, replace_append_of_ne h, replace_append_of_ne ha,
    replace_append_of_ne hc]
  intro heq
  have hletters := List.append_cancel_right (List.append_cancel_left heq)
  exact absurd hletters (by decide)

/-! ## The word behind a text -/

namespace Place

variable (w : Place)

theorem keyword_length : w.keyword.length = 6 := by
  have hlen := congrArg List.length w.keyword_lower
  rw [List.length_map] at hlen
  rw [hlen]
  decide

theorem exists_keyword : ∃ b letters, w.keyword = b :: letters ∧ b.toLower = 'b' ∧
    letters.map Char.toLower = "earer".toList := by
  have hword : "bearer".toList = 'b' :: "earer".toList := by decide
  have hlower := w.keyword_lower
  rw [hword] at hlower
  obtain ⟨b, letters, hkeyword, hb, hletters⟩ := List.map_eq_cons_iff.mp hlower
  exact ⟨b, letters, hkeyword, hb, hletters⟩

theorem keyword_unbounded : ∀ c ∈ w.keyword, isBoundary c = false := by
  intro c hc
  apply isBoundary_of_toLower
  rw [← w.keyword_lower]
  exact List.mem_map_of_mem hc

theorem separate (l x : List Char) : bearer.Separate l (w.keyword ++ x) := by
  have hword : ((List.range 7).all fun k => k == 0 || "bearer ".toList[k]? != some 'b') = true := by
    decide
  obtain ⟨b, letters, hkeyword, hb, -⟩ := w.exists_keyword
  intro l₁ l₂ _ hne
  by_cases hlen : 7 ≤ l₂.length
  · show (((l₂ ++ _).take 7).map Char.toLower == _) = ((l₂.take 7).map Char.toLower == _)
    rw [List.take_append_of_le_length hlen]
  · have hshort : bearer.key l₂ = false := by
      rw [Bool.eq_false_iff]
      intro hkey
      exact hlen (bearer.key_len l₂ hkey)
    rw [hshort, Bool.eq_false_iff]
    intro hkey
    have hlower : ((l₂ ++ (w.keyword ++ x)).take 7).map Char.toLower = "bearer ".toList :=
      eq_of_beq hkey
    have hpos : 0 < l₂.length := List.length_pos_of_ne_nil hne
    have hat := congrArg (·[l₂.length]?) hlower
    simp only [List.getElem?_map, List.getElem?_take, hkeyword] at hat
    rw [if_pos (by omega), List.getElem?_append_right le_rfl, Nat.sub_self] at hat
    simp only [List.cons_append, List.getElem?_cons_zero, Option.map_some, hb] at hat
    have := List.all_eq_true.mp hword l₂.length (List.mem_range.mpr (by omega))
    rw [← hat] at this
    simp only [bne_self_eq_false, Bool.or_false, beq_iff_eq] at this
    omega

theorem redact_fill (t : Token) : (redactBearerTokens (w.fill t)).toList =
    bearer.replace mangle REDACTED.toList w.before ++
      bearer.replace mangle REDACTED.toList
        (bearer.resume w.before (w.keyword ++ (w.gap ++ (t.text ++ w.behind)))) := by
  rw [redactBearerTokens_toList, fill, String.toList_ofList,
    KeyedRuns.replace_append (w.separate w.before _)]

/-! ## The token -/

variable {gap : List Char}

theorem dropWhile_covered (h : ∀ c ∈ gap, isBoundary c = false) (t : Token) (x : List Char) :
    (gap ++ (t.text ++ x)).dropWhile (!isBoundary ·) = x.dropWhile (!isBoundary ·) := by
  rw [List.dropWhile_append_of_pos fun c hc => by simp [h c hc],
    List.dropWhile_append_of_pos fun c hc => by simp [t.unbounded c hc]]

theorem dropWhile_open (h : ¬ ∀ c ∈ gap, isBoundary c = false) (x : List Char) :
    (gap ++ x).dropWhile (!isBoundary ·) = gap.dropWhile (!isBoundary ·) ++ x := by
  rw [List.dropWhile_append, if_neg]
  intro hempty
  apply h
  intro c hc
  have hnil : gap.dropWhile (!isBoundary ·) = [] := by simpa using hempty
  simpa using List.dropWhile_eq_nil_iff.mp hnil c hc

theorem ne_of_mem_dropWhile (h : ∀ c ∈ gap, isWhitespace c = true) :
    ∀ c ∈ gap.dropWhile (!isBoundary ·), c.toLower ≠ 'b' := by
  intro c hc
  exact toLower_ne_of_white (h c ((List.dropWhile_sublist _).subset hc))

def letterA : Token := ⟨['a'], by decide, List.forall_mem_singleton.mpr (by decide)⟩

def letterC : Token := ⟨['c'], by decide, List.forall_mem_singleton.mpr (by decide)⟩

theorem not_hides (common : List Char) {text : List Char}
    (hne : ∀ c ∈ text, c.toLower ≠ 'b')
    (h : ∀ t, (redactBearerTokens (w.fill t)).toList =
      common ++ bearer.replace mangle REDACTED.toList (text ++ (t.text ++ w.behind))) :
    ¬ w.Hides := by
  intro hides
  have heq := congrArg String.toList (hides letterA letterC)
  rw [h, h] at heq
  exact replace_letter_ne hne _ _ (List.append_cancel_left heq)

theorem hides_of_eq (common : List Char)
    (h : ∀ t, (redactBearerTokens (w.fill t)).toList = common) : w.Hides := by
  intro t t'
  rw [← String.toList_inj, h, h]

theorem hides_iff_of_skipped (common : List Char) (hgap : ∀ c ∈ gap, isWhitespace c = true)
    (h : ∀ t, (redactBearerTokens (w.fill t)).toList =
      common ++ bearer.replace mangle REDACTED.toList
        ((gap ++ (t.text ++ w.behind)).dropWhile (!isBoundary ·))) :
    w.Hides ↔ ∀ c ∈ gap, isBoundary c = false := by
  constructor
  · intro hides
    by_contra hopen
    refine w.not_hides common (ne_of_mem_dropWhile hgap) (fun t => ?_) hides
    rw [h, dropWhile_open hopen]
  · intro hcovered
    refine w.hides_of_eq (common ++ bearer.replace mangle REDACTED.toList
      (w.behind.dropWhile (!isBoundary ·))) fun t => ?_
    rw [h, dropWhile_covered hcovered]

theorem hides_iff_of_run (hrun : bearer.endsInRun w.before = true) :
    w.Hides ↔ ∀ c ∈ w.gap, isBoundary c = false := by
  refine w.hides_iff_of_skipped (bearer.replace mangle REDACTED.toList w.before) w.gap_white
    fun t => ?_
  have hskip : ∀ x, (w.keyword ++ x).dropWhile (!bearer.stop ·) =
      x.dropWhile (!isBoundary ·) := by
    intro x
    refine List.dropWhile_append_of_pos fun c hc => ?_
    show (!isBoundary c) = true
    rw [w.keyword_unbounded c hc]
    rfl
  rw [redact_fill, KeyedRuns.resume, if_pos hrun, hskip]

theorem take_space (x : List Char) :
    (w.keyword ++ ' ' :: x).take bearer.len = w.keyword ++ [' '] := by
  show (w.keyword ++ ' ' :: x).take (6 + 1) = _
  rw [← w.keyword_length, List.take_length_add_append]
  rfl

theorem key_space (x : List Char) : bearer.key (w.keyword ++ ' ' :: x) = true := by
  show (((w.keyword ++ ' ' :: x).take bearer.len).map Char.toLower == "bearer ".toList) = true
  rw [take_space, List.map_append, w.keyword_lower]
  decide

theorem rest_space (x : List Char) :
    bearer.rest (w.keyword ++ ' ' :: x) = x.dropWhile (!isBoundary ·) := by
  have hdrop : (w.keyword ++ ' ' :: x).drop (6 + 1) = x := by
    rw [← w.keyword_length, List.drop_length_add_append]
    rfl
  exact congrArg (·.dropWhile (!isBoundary ·)) hdrop

theorem replace_word {x : List Char} (h : x.head? ≠ some ' ') (mark : List Char) :
    bearer.replace mangle mark (w.keyword ++ x) =
      w.keyword.flatMap mangle ++ bearer.replace mangle mark x := by
  have hearer : ("earer".toList.all fun d => d != 'b') = true := by decide
  have hspace : "bearer ".toList[6]? = some ' ' := by decide
  have hkey : bearer.key (w.keyword ++ x) = false := by
    rw [Bool.eq_false_iff]
    intro hkey
    have hlower : ((w.keyword ++ x).take 7).map Char.toLower = "bearer ".toList := eq_of_beq hkey
    have hat := congrArg (·[6]?) hlower
    simp only [List.getElem?_map, List.getElem?_take, hspace] at hat
    rw [if_pos (by norm_num), List.getElem?_append_right (by rw [w.keyword_length]),
      w.keyword_length, Nat.sub_self, ← List.head?_eq_getElem?] at hat
    obtain ⟨c, hc, hlow⟩ := Option.map_eq_some_iff.mp hat
    exact h (by rw [hc, eq_space_of_toLower hlow])
  obtain ⟨b, letters, hkeyword, -, hletters⟩ := w.exists_keyword
  have hne : ∀ c ∈ letters, c.toLower ≠ 'b' := by
    intro c hc hb
    have hmem : 'b' ∈ "earer".toList := by
      rw [← hletters, ← hb]
      exact List.mem_map_of_mem hc
    exact absurd (List.all_eq_true.mp hearer _ hmem) (by decide)
  rw [hkeyword, List.cons_append] at hkey ⊢
  rw [KeyedRuns.replace_cons hkey, replace_append_of_ne hne, List.flatMap_cons, List.append_assoc]

theorem hides_iff_of_not_run (hrun : bearer.endsInRun w.before = false) :
    w.Hides ↔ ∃ gap, w.gap = ' ' :: gap ∧ ∀ c ∈ gap, isBoundary c = false := by
  have hread : ∀ x, bearer.resume w.before x = x := by
    intro x
    rw [KeyedRuns.resume, if_neg (by simp [hrun])]
  by_cases hspace : ∃ gap, w.gap = ' ' :: gap
  · obtain ⟨gap, hgap⟩ := hspace
    have hwhite : ∀ c ∈ gap, isWhitespace c = true := by
      intro c hc
      exact w.gap_white c (hgap ▸ List.mem_cons_of_mem _ hc)
    have hskipped : ∀ t, (redactBearerTokens (w.fill t)).toList =
        (bearer.replace mangle REDACTED.toList w.before ++
          ((w.keyword ++ [' ']).flatMap mangle ++ REDACTED.toList)) ++
        bearer.replace mangle REDACTED.toList
          ((gap ++ (t.text ++ w.behind)).dropWhile (!isBoundary ·)) := by
      intro t
      rw [redact_fill, hread, hgap, List.cons_append, KeyedRuns.replace_key (w.key_space _),
        rest_space, take_space, ← List.append_assoc]
    rw [w.hides_iff_of_skipped _ hwhite hskipped, hgap]
    simp
  · constructor
    · intro hides
      refine absurd hides (w.not_hides
        (bearer.replace mangle REDACTED.toList w.before ++ w.keyword.flatMap mangle)
        (fun c hc => toLower_ne_of_white (w.gap_white c hc)) fun t => ?_)
      have hhead : (w.gap ++ (t.text ++ w.behind)).head? ≠ some ' ' := by
        intro hhead
        cases hgap : w.gap with
        | nil =>
          obtain ⟨c, cs, htext⟩ := List.exists_cons_of_ne_nil t.nonempty
          have hc := t.unbounded c (by rw [htext]; exact List.mem_cons_self)
          rw [hgap, htext] at hhead
          cases hhead
          exact absurd hc (by decide)
        | cons c gap =>
          rw [hgap] at hhead
          cases hhead
          exact hspace ⟨gap, hgap⟩
      rw [redact_fill, hread, w.replace_word hhead, ← List.append_assoc]
    · rintro ⟨gap, hgap, -⟩
      exact absurd ⟨gap, hgap⟩ hspace

/-- The token is hidden exactly if the white space is one space followed by no boundary
    (`Covered`). Where the text before ends inside a token itself, no space belongs to the
    keyword, and the white space has to have no boundary at all. -/
theorem hides_iff : w.Hides ↔ w.Covered := by
  unfold Covered
  split_ifs with hrun
  · exact w.hides_iff_of_run hrun
  · exact w.hides_iff_of_not_run (by simpa using hrun)

def alone (before gap : List Char) (h : gap.all isWhitespace = true) : Place where
  before := before
  keyword := "Bearer".toList
  gap := gap
  behind := []
  keyword_lower := by decide +kernel
  gap_white := List.all_eq_true.mp h
  behind_bounded := by simp

theorem token_written :
    redactBearerTokens "Bearer a" = "Bearer [REDACTED]" ∧
    redactBearerTokens "Bearer  a" = "Bearer [REDACTED] a" ∧
    redactBearerTokens "Bearer\ta" = "Bearer\ta" ∧
    redactBearerTokens "bearer Bearer a" = "bearer [REDACTED] a" ∧
    ¬ (alone [] [' ', ' '] (by decide)).Hides ∧
    ¬ (alone "bearer ".toList [' '] (by decide)).Hides := by
  have hspaces : redactBearerTokens "Bearer  a" = "Bearer [REDACTED] a" := by decide +kernel
  have hnested : redactBearerTokens "bearer Bearer a" = "bearer [REDACTED] a" := by
    decide +kernel
  refine ⟨by decide +kernel, hspaces, by decide +kernel, hnested, fun h => ?_, fun h => ?_⟩
  · have hsame : redactBearerTokens "Bearer  a" = redactBearerTokens "Bearer  c" :=
      h letterA letterC
    rw [hspaces] at hsame
    exact absurd hsame (by decide +kernel)
  · have hsame : redactBearerTokens "bearer Bearer a" = redactBearerTokens "bearer Bearer c" := by
      have hfill := h letterA letterC
      rwa [show (alone "bearer ".toList [' '] (by decide)).fill letterA = "bearer Bearer a" by
        decide +kernel, show (alone "bearer ".toList [' '] (by decide)).fill letterC =
        "bearer Bearer c" by decide +kernel] at hfill
    rw [hnested] at hsame
    exact absurd hsame (by decide +kernel)

end Place

end SkadiCore
