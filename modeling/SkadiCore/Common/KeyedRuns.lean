import Mathlib.Tactic

/-!
# Runs behind a keyword

A text is read from the left. Where a keyword begins, the keyword is taken together with the
run of symbols behind it, up to the next stop symbol; elsewhere one symbol is taken. The text
is then put together again with a mark in the place of every run.

* `flatMap_text_pieces`: the pieces are the text.
* `replace_append`: what is read of a text behind another one only depends on whether the
  first ends in a run, if no keyword begins in the first and ends in the second.
* `pieces_of_no_key`, `exists_of_run_mem`: a text without keywords is kept, and every run stands
  behind a keyword of the text.
-/

namespace SkadiCore

structure KeyedRuns (α : Type*) where
  key : List α → Bool
  len : ℕ
  stop : α → Bool
  len_pos : 0 < len
  key_len : ∀ l, key l = true → len ≤ l.length

inductive Piece (α : Type*)
  | kept (a : α)
  | run (keyword token : List α)

namespace Piece

variable {α β : Type*}

def text : Piece α → List α
  | kept a => [a]
  | run keyword token => keyword ++ token

def render (keep : α → List β) (mark : List β) : Piece α → List β
  | kept a => keep a
  | run keyword _ => keyword.flatMap keep ++ mark

def isRun : Piece α → Bool
  | kept _ => false
  | run _ _ => true

end Piece

namespace KeyedRuns

variable {α β : Type*} (R : KeyedRuns α)

def token (l : List α) : List α := (l.drop R.len).takeWhile (!R.stop ·)

def rest (l : List α) : List α := (l.drop R.len).dropWhile (!R.stop ·)

def piecesLoop : ℕ → List α → List (Piece α)
  | 0, _ => []
  | _ + 1, [] => []
  | fuel + 1, a :: l =>
    if R.key (a :: l) then
      .run ((a :: l).take R.len) (R.token (a :: l)) :: piecesLoop fuel (R.rest (a :: l))
    else .kept a :: piecesLoop fuel l

def pieces (l : List α) : List (Piece α) := R.piecesLoop l.length l

def replace (keep : α → List β) (mark : List β) (l : List α) : List β :=
  (R.pieces l).flatMap (Piece.render keep mark)

def endsInRun (l : List α) : Bool := (R.pieces l).getLast?.any Piece.isRun

variable {R} {l x : List α}

theorem ne_nil_of_key (h : R.key l = true) : l ≠ [] := by
  rintro rfl
  have hlen := R.key_len [] h
  have hpos := R.len_pos
  simp only [List.length_nil] at hlen
  omega

theorem length_rest_lt (h : R.key l = true) : (R.rest l).length < l.length := by
  have hlen := R.key_len l h
  have hpos := R.len_pos
  have hdrop : (R.rest l).length ≤ (l.drop R.len).length := (List.dropWhile_suffix _).length_le
  rw [List.length_drop] at hdrop
  omega

theorem scan_induction {P : List α → Prop} (hnil : P [])
    (hkey : ∀ l, R.key l = true → P (R.rest l) → P l)
    (hcons : ∀ a l, R.key (a :: l) = false → P l → P (a :: l)) (l : List α) : P l := by
  induction hn : l.length using Nat.strong_induction_on generalizing l with
  | _ n ih =>
    subst hn
    cases l with
    | nil => exact hnil
    | cons a l =>
      cases h : R.key (a :: l) with
      | true => exact hkey _ h (ih _ (length_rest_lt h) _ rfl)
      | false => exact hcons a l h (ih _ (Nat.lt_succ_self _) l rfl)

theorem piecesLoop_eq : ∀ {fuel : ℕ}, l.length ≤ fuel → R.piecesLoop fuel l = R.pieces l := by
  unfold pieces
  induction l using scan_induction (R := R) with
  | hnil =>
    intro fuel _
    cases fuel <;> rfl
  | hkey l h ih =>
    intro fuel hfuel
    obtain ⟨a, l, rfl⟩ := List.exists_cons_of_ne_nil (ne_nil_of_key h)
    obtain ⟨fuel, rfl⟩ : ∃ n, fuel = n + 1 := ⟨fuel - 1, by simp at hfuel; omega⟩
    have hrest := length_rest_lt h
    simp only [List.length_cons] at hfuel hrest ⊢
    simp only [piecesLoop, h, if_true, List.cons.injEq, true_and]
    exact (ih (by omega)).trans (ih (by omega)).symm
  | hcons a l h ih =>
    intro fuel hfuel
    obtain ⟨fuel, rfl⟩ : ∃ n, fuel = n + 1 := ⟨fuel - 1, by simp at hfuel; omega⟩
    simp only [List.length_cons] at hfuel ⊢
    simp only [piecesLoop, h, Bool.false_eq_true, if_false]
    rw [ih (by omega)]

@[simp] theorem pieces_nil : R.pieces [] = [] := rfl

theorem pieces_key (h : R.key l = true) :
    R.pieces l = .run (l.take R.len) (R.token l) :: R.pieces (R.rest l) := by
  have hrest := length_rest_lt h
  obtain ⟨a, l, rfl⟩ := List.exists_cons_of_ne_nil (ne_nil_of_key h)
  rw [pieces, List.length_cons, piecesLoop, if_pos h, piecesLoop_eq]
  simp only [List.length_cons] at hrest
  omega

theorem pieces_cons {a : α} (h : R.key (a :: l) = false) :
    R.pieces (a :: l) = .kept a :: R.pieces l := by
  rw [pieces, List.length_cons, piecesLoop, if_neg (by simp [h])]
  rfl

theorem pieces_eq_nil_iff : R.pieces l = [] ↔ l = [] := by
  cases l with
  | nil => simp
  | cons a l =>
    cases h : R.key (a :: l) with
    | true => simp [pieces_key h]
    | false => simp [pieces_cons h]

theorem flatMap_text_pieces (l : List α) : (R.pieces l).flatMap Piece.text = l := by
  induction l using scan_induction (R := R) with
  | hnil => rfl
  | hkey l h ih =>
    rw [pieces_key h, List.flatMap_cons, ih]
    simp only [Piece.text, token, rest, List.append_assoc, List.takeWhile_append_dropWhile,
      List.take_append_drop]
  | hcons a l h ih =>
    rw [pieces_cons h, List.flatMap_cons, ih]
    rfl

/-! ## Putting the text together -/

section Replace

variable {keep : α → List β} {mark : List β}

@[simp] theorem replace_nil : R.replace keep mark [] = [] := rfl

theorem replace_key (h : R.key l = true) :
    R.replace keep mark l =
      (l.take R.len).flatMap keep ++ mark ++ R.replace keep mark (R.rest l) := by
  rw [replace, pieces_key h, List.flatMap_cons]
  rfl

theorem replace_cons {a : α} (h : R.key (a :: l) = false) :
    R.replace keep mark (a :: l) = keep a ++ R.replace keep mark l := by
  rw [replace, pieces_cons h, List.flatMap_cons]
  rfl

theorem endsInRun_key (h : R.key l = true) :
    R.endsInRun l = ((R.rest l).isEmpty || R.endsInRun (R.rest l)) := by
  unfold endsInRun
  rw [pieces_key h]
  cases hrest : R.pieces (R.rest l) with
  | nil =>
    have := pieces_eq_nil_iff.mp hrest
    simp [this, Piece.isRun]
  | cons p ps =>
    have hne : R.rest l ≠ [] := fun he => by rw [he] at hrest; cases hrest
    have hempty : (R.rest l).isEmpty = false := by simpa using hne
    rw [List.getLast?_cons_cons, hempty, Bool.false_or]

theorem endsInRun_cons {a : α} (h : R.key (a :: l) = false) :
    R.endsInRun (a :: l) = R.endsInRun l := by
  unfold endsInRun
  rw [pieces_cons h]
  cases hrest : R.pieces l with
  | nil => rfl
  | cons p ps => rw [List.getLast?_cons_cons]

def Separate (R : KeyedRuns α) (l x : List α) : Prop :=
  ∀ l₁ l₂, l = l₁ ++ l₂ → l₂ ≠ [] → R.key (l₂ ++ x) = R.key l₂

theorem Separate.suffix {l₁ l₂ : List α} (h : R.Separate l x) (hl : l = l₁ ++ l₂) :
    R.Separate l₂ x := by
  intro m₁ m₂ hm hne
  exact h (l₁ ++ m₁) m₂ (by rw [hl, hm, List.append_assoc]) hne

def resume (R : KeyedRuns α) (l x : List α) : List α :=
  if R.endsInRun l then x.dropWhile (!R.stop ·) else x

theorem rest_append (h : R.key l = true) (x : List α) :
    R.rest (l ++ x) = if (R.rest l).isEmpty then x.dropWhile (!R.stop ·) else R.rest l ++ x := by
  rw [rest, List.drop_append_of_le_length (R.key_len l h), List.dropWhile_append]
  rfl

theorem replace_append (h : R.Separate l x) :
    R.replace keep mark (l ++ x) = R.replace keep mark l ++ R.replace keep mark (R.resume l x) := by
  induction l using scan_induction (R := R) with
  | hnil => rfl
  | hkey l hkey ih =>
    have hkey' : R.key (l ++ x) = true := by
      rw [h [] l rfl (ne_nil_of_key hkey), hkey]
    have hsuffix : l = (l.take R.len ++ R.token l) ++ R.rest l := by
      simp only [token, rest, List.append_assoc, List.takeWhile_append_dropWhile,
        List.take_append_drop]
    rw [replace_key hkey', replace_key hkey, List.take_append_of_le_length (R.key_len l hkey),
      rest_append hkey, resume, endsInRun_key hkey]
    cases hempty : (R.rest l).isEmpty with
    | true =>
      have hnil : R.rest l = [] := by simpa using hempty
      simp [hnil]
    | false =>
      have ih := ih (h.suffix hsuffix)
      simp only [Bool.false_eq_true, if_false, Bool.false_or, List.append_assoc]
      rw [ih, resume]
  | hcons a l hkey ih =>
    have hkey' : R.key (a :: (l ++ x)) = false := by
      rw [← List.cons_append, h [] (a :: l) rfl (by simp), hkey]
    have hsuffix : a :: l = [a] ++ l := rfl
    rw [List.cons_append, replace_cons hkey', replace_cons hkey,
      ih (h.suffix hsuffix), resume, resume, endsInRun_cons hkey, List.append_assoc]

end Replace

/-! ## Where the runs are -/

/-- The key stands somewhere in `l`. -/
def HasKey (R : KeyedRuns α) (l : List α) : Prop := ∃ l₁ l₂, l = l₁ ++ l₂ ∧ R.key l₂ = true

theorem HasKey.cons {a : α} (h : R.HasKey l) : R.HasKey (a :: l) := by
  obtain ⟨l₁, l₂, rfl, hkey⟩ := h
  exact ⟨a :: l₁, l₂, rfl, hkey⟩

theorem pieces_of_no_key (h : ¬ R.HasKey l) : R.pieces l = l.map .kept := by
  induction l with
  | nil => rfl
  | cons a l ih =>
    have hkey : R.key (a :: l) = false := by
      rw [Bool.eq_false_iff]
      intro hkey
      exact h ⟨[], a :: l, rfl, hkey⟩
    rw [pieces_cons hkey, ih fun hl => h hl.cons, List.map_cons]

theorem replace_of_no_key {keep : α → List β} {mark : List β} (h : ¬ R.HasKey l) :
    R.replace keep mark l = l.flatMap keep := by
  rw [replace, pieces_of_no_key h, List.flatMap_map]
  rfl

theorem exists_run_of_hasKey (h : R.HasKey l) : ∃ p ∈ R.pieces l, p.isRun = true := by
  induction l using scan_induction (R := R) with
  | hnil =>
    obtain ⟨l₁, l₂, hl, hkey⟩ := h
    have hnil : l₂ = [] := (List.append_eq_nil_iff.mp hl.symm).2
    exact absurd hnil (ne_nil_of_key hkey)
  | hkey l hkey ih =>
    rw [pieces_key hkey]
    exact ⟨_, List.mem_cons_self, rfl⟩
  | hcons a l hkey ih =>
    obtain ⟨l₁, l₂, hl, hkey'⟩ := h
    cases l₁ with
    | nil =>
      rw [List.nil_append] at hl
      rw [← hl, hkey] at hkey'
      cases hkey'
    | cons b l₁ =>
      rw [List.cons_append, List.cons.injEq] at hl
      obtain ⟨p, hp, hrun⟩ := ih ⟨l₁, l₂, hl.2, hkey'⟩
      rw [pieces_cons hkey]
      exact ⟨p, List.mem_cons_of_mem _ hp, hrun⟩

theorem exists_of_run_mem {keyword tok : List α} (h : .run keyword tok ∈ R.pieces l) :
    (∃ l', R.key l' = true ∧ keyword = l'.take R.len) ∧ ∀ a ∈ tok, R.stop a = false := by
  induction l using scan_induction (R := R) with
  | hnil => cases h
  | hkey l hkey ih =>
    rw [pieces_key hkey, List.mem_cons] at h
    rcases h with h | h
    · cases h
      refine ⟨⟨l, hkey, rfl⟩, fun a ha => ?_⟩
      simpa using List.all_eq_true.mp List.all_takeWhile a ha
    · exact ih h
  | hcons a l hkey ih =>
    rw [pieces_cons hkey, List.mem_cons] at h
    rcases h with h | h
    · cases h
    · exact ih h

end KeyedRuns

end SkadiCore
