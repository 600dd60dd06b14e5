import SkadiCore.Common.Chunks

/-!
# Reading frames from a stream, with reads that can be dropped

A function that reads one frame is a program of `read_exact` calls. The stream hands
it the bytes in pieces; what is left of the program behind some bytes is a program
again. A loop runs such a program over and over. When something else happens first it
drops the program it is running, with the bytes that were taken for it, and later
starts a new one.

* `ReadProg.Reads p bs a`: the program takes exactly `bs` and returns `a`.
* `Reads.after_eq`, `Reads.after_prefix`: however `bs` is cut, the program returns
  behind the last byte of `bs` and asks for no byte behind it.
* `ReadProg.run_eq`: on a stream that arrives in segments the program returns what it
  returns on the stream in one piece.
* `ReadLoop.Ahead fs s`: the frames `fs` are ahead of the loop, the first of them
  possibly taken in part. Kept by every piece that is taken (`Ahead.take`), and by a
  drop before any byte was taken (`Ahead.drop`).
-/

namespace SkadiCore

/-- A program that reads from a stream: return, or read exactly `n` bytes and go on
    with them; `fail` says what it returns when the stream fails or ends before. -/
inductive ReadProg (β ε α : Type)
  | ret (a : α)
  | exact (n : ℕ) (fail : ε → α) (next : List β → ReadProg β ε α)

namespace ReadProg

variable {β ε α : Type}

def after : ReadProg β ε α → List β → ReadProg β ε α
  | ret a, _ => ret a
  | exact n fail next, bs =>
    if bs.length < n then exact (n - bs.length) fail fun cs => next (bs ++ cs)
    else (next (bs.take n)).after (bs.drop n)

inductive Reads : ReadProg β ε α → List β → α → Prop
  | ret (a : α) : Reads (.ret a) [] a
  | exact {n fail next bs cs a} (hn : bs.length = n) (h : Reads (next bs) cs a) :
      Reads (.exact n fail next) (bs ++ cs) a

variable {p : ReadProg β ε α} {a : α} {bs cs : List β}

theorem Reads.last {n : ℕ} {fail : ε → α} {next : List β → ReadProg β ε α} (hn : bs.length = n)
    (h : next bs = .ret a) : Reads (.exact n fail next) bs a := by
  rw [← List.append_nil bs]
  exact .exact hn (h ▸ .ret a)

theorem Reads.after_eq (h : Reads p bs a) : p.after bs = .ret a := by
  induction h with
  | ret => rfl
  | exact hn h ih => simpa [after, ← hn] using ih

theorem Reads.after_prefix (h : Reads p (bs ++ cs) a) (hcs : cs ≠ []) :
    ∃ n fail next, p.after bs = .exact n fail next ∧ 0 < n ∧ n ≤ cs.length := by
  generalize heq : bs ++ cs = ds at h
  induction h generalizing bs with
  | ret => simp [hcs] at heq
  | @exact n fail next ds es a hn h ih =>
    by_cases hlt : bs.length < n
    · refine ⟨n - bs.length, fail, fun cs => next (bs ++ cs), by simp [after, hlt], by omega, ?_⟩
      have := congrArg List.length heq
      simp at this
      omega
    · obtain ⟨bs, rfl⟩ : ∃ bs', bs = ds ++ bs' := by
        obtain ⟨l, hl⟩ := List.prefix_of_prefix_length_le ⟨es, rfl⟩ ⟨cs, heq⟩ (by omega)
        exact ⟨l, hl.symm⟩
      obtain ⟨m, fail', next', hafter, hm⟩ :=
        @ih bs (by simpa using heq)
      exact ⟨m, fail', next', by simp [after, ← hn, hafter], hm⟩

/-! ## Running a program on a whole stream -/

def runOn (e : ε) : ReadProg β ε α → List β → α × List β
  | ret a, bs => (a, bs)
  | exact n fail next, bs =>
    if bs.length < n then (fail e, []) else (next (bs.take n)).runOn e (bs.drop n)

def run (e : ε) : ReadProg β ε α → List (List β) → α × List (List β)
  | ret a, segs => (a, segs)
  | exact n fail next, segs =>
    if (fill n segs).1.length < n then (fail e, [])
    else (next (fill n segs).1).run e (fill n segs).2

theorem run_eq (e : ε) (p : ReadProg β ε α) (segs : List (List β)) :
    ((p.run e segs).1, (p.run e segs).2.flatten) = p.runOn e segs.flatten := by
  induction p generalizing segs with
  | ret a => rfl
  | exact n fail next ih =>
    rw [run, runOn]
    simp only [length_fill_lt]
    split_ifs with h
    · rfl
    · rw [ih, fill_fst, fill_snd]

end ReadProg

structure ReadLoop (β : Type) where
  unread : List β
  consumed : List β

namespace ReadLoop

variable {β ε α : Type}

def init (stream : List β) : ReadLoop β := ⟨stream, []⟩

def take (p : ReadProg β ε α) (s : ReadLoop β) (k : ℕ) : Option (ReadLoop β × Option α) :=
  match p.after s.consumed with
  | .ret _ => none
  | .exact n _ _ =>
    if 0 < k ∧ k ≤ n ∧ k ≤ s.unread.length then
      match p.after (s.consumed ++ s.unread.take k) with
      | .ret a => some (⟨s.unread.drop k, []⟩, some a)
      | .exact _ _ _ => some (⟨s.unread.drop k, s.consumed ++ s.unread.take k⟩, none)
    else none

def drop (s : ReadLoop β) : ReadLoop β := { s with consumed := [] }

def failed (p : ReadProg β ε α) (s : ReadLoop β) (e : ε) : Option α :=
  match p.after s.consumed with
  | .ret _ => none
  | .exact _ fail _ => some (fail e)

def Frames (p : ReadProg β ε α) (fs : List (List β × α)) : Prop :=
  ∀ f ∈ fs, p.Reads f.1 f.2 ∧ f.1 ≠ []

def bytes (fs : List (List β × α)) : List β := (fs.map Prod.fst).flatten

def Ahead (fs : List (List β × α)) (s : ReadLoop β) : Prop :=
  (fs = [] ∧ s.consumed = [] ∧ s.unread = []) ∨
    ∃ f rest cs, fs = f :: rest ∧ f.1 = s.consumed ++ cs ∧ cs ≠ [] ∧ s.unread = cs ++ bytes rest

variable {p : ReadProg β ε α} {fs : List (List β × α)} {s t : ReadLoop β} {k : ℕ}

theorem ahead_of_bytes (hf : Frames p fs) : Ahead fs ⟨bytes fs, []⟩ := by
  cases fs with
  | nil => exact .inl ⟨rfl, rfl, rfl⟩
  | cons f rest => exact .inr ⟨f, rest, f.1, rfl, rfl, (hf f (by simp)).2, by simp [bytes]⟩

theorem Ahead.take {r : Option α} (hf : Frames p fs) (hs : Ahead fs s)
    (h : s.take p k = some (t, r)) :
    (r = none ∧ Ahead fs t) ∨ ∃ f rest, fs = f :: rest ∧ r = some f.2 ∧ Ahead rest t := by
  obtain ⟨-, -, hu⟩ | ⟨f, rest, cs, rfl, hfc, hcs, hu⟩ := hs
  · unfold ReadLoop.take at h
    split at h
    · cases h
    · split_ifs at h with hk
      simp [hu] at hk
      omega
  · have hreads : p.Reads (s.consumed ++ cs) f.2 := hfc ▸ (hf f (by simp)).1
    obtain ⟨n, fail, next, hafter, hn, hle⟩ := hreads.after_prefix hcs
    simp only [ReadLoop.take, hafter] at h
    split_ifs at h with hk
    have htake : s.unread.take k = cs.take k := by
      rw [hu, List.take_append_of_le_length (by omega)]
    have hdrop : s.unread.drop k = cs.drop k ++ bytes rest := by
      rw [hu, List.drop_append_of_le_length (by omega)]
    rw [htake, hdrop] at h
    by_cases hlast : cs.drop k = []
    · rw [List.take_of_length_le (List.drop_eq_nil_iff.mp hlast), hreads.after_eq] at h
      cases h
      rw [hlast, List.nil_append]
      exact .inr ⟨f, rest, rfl, rfl, ahead_of_bytes fun g hg => hf g (by simp [hg])⟩
    · have hreads' : p.Reads ((s.consumed ++ cs.take k) ++ cs.drop k) f.2 := by simpa using hreads
      obtain ⟨n', fail', next', hafter', -⟩ := hreads'.after_prefix hlast
      rw [hafter'] at h
      cases h
      exact .inl ⟨rfl, .inr ⟨f, rest, cs.drop k, rfl, by simp [hfc], hlast, rfl⟩⟩

theorem Ahead.drop (hs : Ahead fs s) (hc : s.consumed = []) : Ahead fs s.drop := by
  obtain ⟨unread, consumed⟩ := s
  cases hc
  exact hs

theorem Ahead.bytes_eq (hs : Ahead fs s) : s.consumed ++ s.unread = bytes fs := by
  obtain ⟨rfl, hc, hu⟩ | ⟨f, rest, cs, rfl, hfc, -, hu⟩ := hs
  · simp [hc, hu, bytes]
  · simp [hu, hfc, bytes]

theorem Ahead.eq_nil (hs : Ahead fs s) (hu : s.unread = []) : fs = [] ∧ s.consumed = [] := by
  obtain ⟨rfl, hc, -⟩ | ⟨f, rest, cs, rfl, -, hcs, hu'⟩ := hs
  · exact ⟨rfl, hc⟩
  · rw [hu'] at hu
    exact absurd (List.append_eq_nil_iff.mp hu).1 hcs

theorem Ahead.exists_take (hf : Frames p fs) (hs : Ahead fs s) (hu : s.unread ≠ []) :
    ∃ t r, s.take p 1 = some (t, r) ∧ t.unread.length < s.unread.length := by
  obtain ⟨-, -, hu'⟩ | ⟨f, rest, cs, rfl, hfc, hcs, -⟩ := hs
  · exact absurd hu' hu
  · have hreads : p.Reads (s.consumed ++ cs) f.2 := hfc ▸ (hf f (by simp)).1
    obtain ⟨n, fail, next, hafter, hn, -⟩ := hreads.after_prefix hcs
    have hpos : 0 < s.unread.length := List.length_pos_iff.mpr hu
    simp only [ReadLoop.take, hafter, if_pos (show 0 < 1 ∧ 1 ≤ n ∧ 1 ≤ s.unread.length by omega)]
    cases p.after (s.consumed ++ s.unread.take 1) with
    | ret a => exact ⟨_, _, rfl, by simp; omega⟩
    | exact n' fail' next' => exact ⟨_, _, rfl, by simp; omega⟩

end ReadLoop

end SkadiCore
