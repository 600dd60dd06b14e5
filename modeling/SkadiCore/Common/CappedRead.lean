import Mathlib.Data.List.Basic
import Mathlib.Tactic

/-!
# Reading with a cap

A loop that reads chunks of a stream while its buffer does not suffice, and gives up when the
buffer has become too large. The cap is tested behind each chunk, before the loop looks
whether the buffer now suffices, so that a large chunk can exceed a cap that its first bytes
would have kept.
-/

namespace SkadiCore

variable {β : Type*}

inductive CappedRead (β : Type*)
  | enough (buf : List β) (rest : List (List β))
  | ended (buf : List β)
  | tooLarge (buf : List β)

def readCapped (more : List β → Bool) (cap : ℕ) : List β → List (List β) → CappedRead β
  | buf, [] => if more buf then .ended buf else .enough buf []
  | buf, c :: cs =>
    if more buf then
      if cap < (buf ++ c).length then .tooLarge (buf ++ c) else readCapped more cap (buf ++ c) cs
    else .enough buf (c :: cs)

variable {more : List β → Bool} {cap k : ℕ} {buf buf' : List β} {cs rest : List (List β)}

theorem readCapped_of_not_more (h : more buf = false) :
    readCapped more cap buf cs = .enough buf cs := by
  cases cs <;> simp [readCapped, h]

theorem readCapped_of_large {c : List β} (h : more buf = true) (hcap : cap < (buf ++ c).length) :
    readCapped more cap buf (c :: cs) = .tooLarge (buf ++ c) := by
  rw [readCapped, if_pos h, if_pos hcap]

theorem readCapped_enough (h : readCapped more cap buf cs = .enough buf' rest) :
    more buf' = false ∧ buf' ++ rest.flatten = buf ++ cs.flatten ∧ (∀ c ∈ rest, c ∈ cs) ∧
      (buf' = buf ∨ buf'.length ≤ cap) := by
  induction cs generalizing buf with
  | nil =>
    rw [readCapped] at h
    split_ifs at h with hmore
    cases h
    exact ⟨by simpa using hmore, rfl, by simp, .inl rfl⟩
  | cons c cs ih =>
    rw [readCapped] at h
    split_ifs at h with hmore hcap
    · obtain ⟨hstop, hflat, hrest, hlen⟩ := ih h
      refine ⟨hstop, by simpa using hflat, fun d hd => List.mem_cons_of_mem c (hrest d hd), .inr ?_⟩
      rcases hlen with rfl | hlen
      · omega
      · exact hlen
    · cases h
      exact ⟨by simpa using hmore, rfl, fun _ hd => hd, .inl rfl⟩

theorem readCapped_ended (h : readCapped more cap buf cs = .ended buf') :
    more buf' = true ∧ buf' = buf ++ cs.flatten ∧ (buf' = buf ∨ buf'.length ≤ cap) := by
  induction cs generalizing buf with
  | nil =>
    rw [readCapped] at h
    split_ifs at h with hmore
    cases h
    exact ⟨hmore, by simp, .inl rfl⟩
  | cons c cs ih =>
    rw [readCapped] at h
    split_ifs at h with hmore hcap
    obtain ⟨hstop, hflat, hlen⟩ := ih h
    refine ⟨hstop, by simpa using hflat, .inr ?_⟩
    rcases hlen with rfl | hlen
    · omega
    · exact hlen

theorem readCapped_tooLarge (hcs : ∀ c ∈ cs, c.length ≤ k)
    (h : readCapped more cap buf cs = .tooLarge buf') :
    cap < buf'.length ∧ buf' <+: buf ++ cs.flatten ∧
      ∃ prev, more prev = true ∧ prev <+: buf' ∧ buf'.length ≤ prev.length + k ∧
        (prev = buf ∨ prev.length ≤ cap) := by
  induction cs generalizing buf with
  | nil =>
    rw [readCapped] at h
    split_ifs at h
  | cons c cs ih =>
    rw [readCapped] at h
    split_ifs at h with hmore hcap
    · cases h
      refine ⟨hcap, by simp, buf, hmore, List.prefix_append _ _, ?_, .inl rfl⟩
      have hc := hcs c List.mem_cons_self
      rw [List.length_append]
      omega
    · obtain ⟨hlarge, hpre, prev, hprev, hinit, hlen, hbound⟩ :=
        ih (fun d hd => hcs d (List.mem_cons_of_mem c hd)) h
      refine ⟨hlarge, by simpa using hpre, prev, hprev, hinit, hlen, .inr ?_⟩
      rcases hbound with rfl | hbound
      · omega
      · exact hbound

theorem readCapped_singletons {a : List β} (hmore : ∀ j < a.length, more (buf ++ a.take j) = true)
    (hcap : (buf ++ a).length ≤ cap) :
    readCapped more cap buf (a.map (fun b => [b]) ++ cs) = readCapped more cap (buf ++ a) cs := by
  induction a generalizing buf with
  | nil => simp
  | cons b a ih =>
    have hfirst : more buf = true := by simpa using hmore 0 (by simp)
    have hlen : ¬ cap < (buf ++ [b]).length := by
      simp only [List.length_append, List.length_cons, List.length_nil] at hcap ⊢
      omega
    rw [List.map_cons, List.cons_append, readCapped, if_pos hfirst, if_neg hlen, ih]
    · rw [List.append_assoc, List.singleton_append]
    · intro j hj
      simpa using hmore (j + 1) (by simpa using hj)
    · simpa using hcap

end SkadiCore
