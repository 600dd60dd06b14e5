import Mathlib.Tactic

/-!
# Reading a stream in chunks

A loop that reads while its buffer does not suffice. What it stops with depends on
how the stream is cut into chunks.

* `readWhile_flatten`: no byte is lost and none is read twice.
* `readWhile_stop`: the loop stops because its buffer suffices, or at the end.
* `readWhile_readWhile`: a loop behind one that asks for less is the second loop alone.

`read_exact` is a loop of another kind: it takes from the chunks exactly as many bytes
as are asked for, so that the chunks make no difference (`fill_fst`, `fill_snd`).

* `parseMany_encode`: parsing one item after the other gives back what was encoded.
-/

namespace SkadiCore

variable {β : Type*}

def readWhile (more : List β → Bool) : List β → List (List β) → List β × List (List β)
  | buf, [] => (buf, [])
  | buf, c :: cs => if more buf then readWhile more (buf ++ c) cs else (buf, c :: cs)

variable {more more' : List β → Bool}

theorem readWhile_flatten (more : List β → Bool) (buf : List β) (cs : List (List β)) :
    (readWhile more buf cs).1 ++ (readWhile more buf cs).2.flatten = buf ++ cs.flatten := by
  induction cs generalizing buf with
  | nil => rfl
  | cons c cs ih =>
    rw [readWhile]
    split_ifs with h
    · rw [ih, List.flatten_cons, List.append_assoc]
    · rfl

theorem readWhile_stop (more : List β → Bool) (buf : List β) (cs : List (List β)) :
    more (readWhile more buf cs).1 = false ∨ (readWhile more buf cs).2 = [] := by
  induction cs generalizing buf with
  | nil => exact .inr rfl
  | cons c cs ih =>
    rw [readWhile]
    split_ifs with h
    · exact ih (buf ++ c)
    · exact .inl (by simpa using h)

theorem readWhile_of_more {buf : List β} {cs : List (List β)}
    (h : more (readWhile more buf cs).1 = true) :
    readWhile more buf cs = (buf ++ cs.flatten, []) := by
  have hnil : (readWhile more buf cs).2 = [] :=
    (readWhile_stop more buf cs).resolve_left (by simp [h])
  have hflat := readWhile_flatten more buf cs
  rw [hnil, List.flatten_nil, List.append_nil] at hflat
  exact Prod.ext hflat hnil

theorem readWhile_readWhile (hmore : ∀ l, more l = true → more' l = true) (buf : List β)
    (cs : List (List β)) :
    readWhile more' (readWhile more buf cs).1 (readWhile more buf cs).2 =
      readWhile more' buf cs := by
  induction cs generalizing buf with
  | nil => rfl
  | cons c cs ih =>
    rw [readWhile.eq_2 more]
    split_ifs with h
    · rw [ih, readWhile.eq_2 more', if_pos (hmore buf h)]
    · rfl

/-! ## Reading exactly -/

/-- The loop of `read_exact` for `n` bytes: every `read` takes what the next segment
    has, at most as much as is missing. The bytes, and the segments that are left. -/
def fill : ℕ → List (List β) → List β × List (List β)
  | _, [] => ([], [])
  | n, seg :: segs =>
    if seg.length < n then
      (seg ++ (fill (n - seg.length) segs).1, (fill (n - seg.length) segs).2)
    else (seg.take n, seg.drop n :: segs)

theorem fill_fst (n : ℕ) (segs : List (List β)) : (fill n segs).1 = segs.flatten.take n := by
  induction segs generalizing n with
  | nil => simp [fill]
  | cons seg segs ih =>
    rw [fill, List.flatten_cons]
    split_ifs with h
    · rw [ih, List.take_append, List.take_of_length_le h.le]
    · rw [List.take_append_of_le_length (not_lt.mp h)]

theorem fill_snd (n : ℕ) (segs : List (List β)) :
    (fill n segs).2.flatten = segs.flatten.drop n := by
  induction segs generalizing n with
  | nil => simp [fill]
  | cons seg segs ih =>
    rw [fill, List.flatten_cons]
    split_ifs with h
    · rw [ih, List.drop_append, List.drop_eq_nil_of_le h.le, List.nil_append]
    · rw [List.flatten_cons, List.drop_append_of_le_length (not_lt.mp h)]

theorem length_fill_lt {n : ℕ} {segs : List (List β)} :
    (fill n segs).1.length < n ↔ segs.flatten.length < n := by
  rw [fill_fst, List.length_take]
  omega

/-! ## Parsing one item after the other -/

section ParseMany

variable {α ε : Type*}

def parseMany (parse : List β → Except ε (α × ℕ)) : ℕ → List β → Except ε (List α × List β)
  | 0, input => .ok ([], input)
  | k + 1, input =>
    match parse input with
    | .error e => .error e
    | .ok (a, n) =>
      match parseMany parse k (input.drop n) with
      | .error e => .error e
      | .ok (as, rest) => .ok (a :: as, rest)

theorem parseMany_encode {parse : List β → Except ε (α × ℕ)} {encode : α → List β} {as : List α}
    (h : ∀ a ∈ as, ∀ rest, parse (encode a ++ rest) = .ok (a, (encode a).length))
    (rest : List β) :
    parseMany parse as.length ((as.map encode).flatten ++ rest) = .ok (as, rest) := by
  induction as with
  | nil => rfl
  | cons a as ih =>
    have ha := h a (by simp) ((as.map encode).flatten ++ rest)
    rw [List.map_cons, List.flatten_cons, List.append_assoc, List.length_cons, parseMany, ha]
    simp only [List.drop_left, ih fun b hb => h b (by simp [hb])]

end ParseMany

end SkadiCore
