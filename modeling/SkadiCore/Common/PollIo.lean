import Mathlib.Tactic

/-!
# Polled readers and writers

What `AsyncRead` and `AsyncWrite` promise of a stream: a call that is not pending moves some
bytes, as many as it likes, and a reader returns none only at the end. How a stream answers is
a script, one entry for each call; behind the script it moves as much as it can. So every
finite behaviour is that of some script.

* `PolledReader.poll_reads`: everything a call of `poll_read` can do.
* `PolledWriter.poll_writes`: everything a call of `poll_write` can do.
-/

namespace SkadiCore

inductive Polled (ε α : Type*)
  | pending
  | failed (e : ε)
  | ready (a : α)
  deriving DecidableEq

inductive ReadStep (ε : Type*)
  | pending
  | give (n : ℕ)
  | failed (e : ε)

inductive WriteStep (ε : Type*)
  | pending
  | accept (n : ℕ)
  | failed (e : ε)

structure PolledReader (ε α : Type*) where
  unread : List α
  script : List (ReadStep ε)

structure PolledWriter (ε α : Type*) where
  written : List α
  script : List (WriteStep ε)

variable {ε α : Type*}

namespace PolledReader

def give (s : PolledReader ε α) (n : ℕ) (script : List (ReadStep ε)) :
    PolledReader ε α × Polled ε (List α) :=
  (⟨s.unread.drop n, script⟩, .ready (s.unread.take n))

def poll (s : PolledReader ε α) (room : ℕ) : PolledReader ε α × Polled ε (List α) :=
  match s.script with
  | [] => s.give room []
  | .pending :: script => (⟨s.unread, script⟩, .pending)
  | .give n :: script => s.give (min room (n + 1)) script
  | .failed e :: script => (⟨s.unread, script⟩, .failed e)

/-- No read fails. -/
def Reliable (s : PolledReader ε α) : Prop := ∀ e, .failed e ∉ s.script

inductive Reads (s : PolledReader ε α) (room : ℕ) : PolledReader ε α × Polled ε (List α) → Prop
  | ready (t : PolledReader ε α) (out : List α) : s.unread = out ++ t.unread → out.length ≤ room →
      (out = [] → s.unread = []) → t.script <:+ s.script → Reads s room (t, .ready out)
  | pending (t : PolledReader ε α) : t.unread = s.unread → t.script <:+ s.script →
      t.script.length < s.script.length → Reads s room (t, .pending)
  | failed (t : PolledReader ε α) (e : ε) : .failed e ∈ s.script → Reads s room (t, .failed e)

theorem reads_give {s : PolledReader ε α} {n room : ℕ} {script : List (ReadStep ε)} (hn : 0 < n)
    (hroom : n ≤ room) (hscript : script <:+ s.script) : s.Reads room (s.give n script) := by
  refine .ready _ _ (List.take_append_drop n s.unread).symm ?_ ?_ hscript
  · exact (List.length_take_le _ _).trans hroom
  · intro hnil
    exact (List.take_eq_nil_iff.mp hnil).resolve_left (by omega)

theorem poll_reads (s : PolledReader ε α) {room : ℕ} (hroom : 0 < room) :
    s.Reads room (s.poll room) := by
  obtain ⟨unread, script⟩ := s
  cases script with
  | nil => exact reads_give hroom le_rfl (List.suffix_refl _)
  | cons step script =>
    cases step with
    | pending =>
      exact .pending _ rfl (List.suffix_cons _ _) (Nat.lt_succ_self _)
    | give n =>
      exact reads_give (lt_min hroom (Nat.succ_pos n)) (min_le_left _ _) (List.suffix_cons _ _)
    | failed e => exact .failed _ e List.mem_cons_self

end PolledReader

namespace PolledWriter

def take (s : PolledWriter ε α) (buf : List α) (n : ℕ) (script : List (WriteStep ε)) :
    PolledWriter ε α × Polled ε ℕ :=
  (⟨s.written ++ buf.take n, script⟩, .ready (min n buf.length))

def poll (s : PolledWriter ε α) (buf : List α) : PolledWriter ε α × Polled ε ℕ :=
  match s.script with
  | [] => s.take buf buf.length []
  | .pending :: script => (⟨s.written, script⟩, .pending)
  | .accept n :: script => s.take buf n script
  | .failed e :: script => (⟨s.written, script⟩, .failed e)

def pollEnd (s : PolledWriter ε α) : PolledWriter ε α × Polled ε Unit :=
  match s.script with
  | [] => (s, .ready ())
  | .pending :: script => (⟨s.written, script⟩, .pending)
  | .accept _ :: script => (⟨s.written, script⟩, .ready ())
  | .failed e :: script => (⟨s.written, script⟩, .failed e)

/-- No write fails or takes 0 bytes. -/
def Reliable (s : PolledWriter ε α) : Prop :=
  ∀ step ∈ s.script, (∀ e, step ≠ .failed e) ∧ step ≠ .accept 0

inductive Writes (s : PolledWriter ε α) (buf : List α) : PolledWriter ε α × Polled ε ℕ → Prop
  | ready (t : PolledWriter ε α) (n : ℕ) : 0 < n → n ≤ buf.length →
      t.written = s.written ++ buf.take n → t.Reliable → Writes s buf (t, .ready n)
  | pending (t : PolledWriter ε α) : t.written = s.written → t.Reliable → Writes s buf (t, .pending)

variable {s : PolledWriter ε α} {script : List (WriteStep ε)}

theorem Reliable.tail {step : WriteStep ε} (h : s.Reliable) (hs : s.script = step :: script)
    (written : List α) : Reliable ⟨written, script⟩ := by
  intro step' hstep
  exact h step' (hs ▸ List.mem_cons_of_mem _ hstep)

theorem writes_take {buf : List α} {n : ℕ} (hbuf : buf ≠ []) (hn : 0 < n)
    (hscript : Reliable ⟨s.written ++ buf.take n, script⟩) :
    s.Writes buf (s.take buf n script) := by
  have hpos := List.length_pos_of_ne_nil hbuf
  refine .ready _ _ (lt_min hn hpos) (min_le_right _ _) ?_ hscript
  simp [List.take_eq_take_min]

theorem poll_writes (hs : s.Reliable) {buf : List α} (hbuf : buf ≠ []) :
    s.Writes buf (s.poll buf) := by
  obtain ⟨written, script⟩ := s
  cases script with
  | nil => exact writes_take hbuf (List.length_pos_of_ne_nil hbuf) fun _ h => absurd h (by simp)
  | cons step script =>
    cases step with
    | pending => exact .pending _ rfl (hs.tail rfl _)
    | accept n =>
      have hne := (hs _ List.mem_cons_self).2
      have hn : 0 < n := by
        refine Nat.pos_of_ne_zero ?_
        rintro rfl
        exact hne rfl
      exact writes_take hbuf hn (hs.tail rfl _)
    | failed e => exact absurd rfl ((hs _ List.mem_cons_self).1 e)

theorem pollEnd_spec (hs : s.Reliable) :
    s.pollEnd.1.written = s.written ∧ s.pollEnd.1.Reliable := by
  obtain ⟨written, script⟩ := s
  cases script with
  | nil => exact ⟨rfl, hs⟩
  | cons step script => cases step <;> exact ⟨rfl, hs.tail rfl _⟩

end PolledWriter

end SkadiCore
