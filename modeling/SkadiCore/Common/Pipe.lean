import SkadiCore.Common.Run

/-!
# One direction of a relay

A pipe reads from a source and writes to a sink: it reads a buffer, writes all of it,
and reads again; at the end of the source it shuts the sink down.

* `Pipe.Moves p p'`: one of the operations leads from `p` to `p'`.
* `Pipe.Carries stream p`: what was written, is being written and was not read yet is
  the stream, in this order. Kept by every move (`Carries.moves`), so that what was
  written is the beginning of the stream (`Carries.written_isPrefix`), and all of it once
  the pipe is done (`Carries.written_eq`).
* `Pipe.Counts p`: the counter is the number of items written, apart from the buffer that
  is being written.
* `Pipe.run_logged`: the operations of a run are reads and writes, then the end of the
  source, then the shutdown.
-/

namespace SkadiCore

inductive PipePhase (β : Type)
  | reading
  | writing (buf : List β) (n : ℕ)
  | closing
  | done
  deriving DecidableEq

structure Pipe (β : Type) where
  unread : List β
  written : List β
  phase : PipePhase β
  count : ℕ
  deriving DecidableEq

namespace Pipe

variable {β : Type}

def start (stream : List β) : Pipe β := ⟨stream, [], .reading, 0⟩

def pending (p : Pipe β) : List β :=
  match p.phase with
  | .writing buf _ => buf
  | _ => []

def left (p : Pipe β) : ℕ := 2 * p.unread.length + p.pending.length

def readDone (p : Pipe β) : Bool :=
  match p.phase with
  | .closing | .done => true
  | _ => false

def busy (p : Pipe β) : Bool :=
  match p.phase with
  | .writing _ _ | .closing => true
  | _ => false

def read (max n : ℕ) (p : Pipe β) : Option (Pipe β) :=
  match p.phase with
  | .reading =>
    if 0 < n ∧ n ≤ max ∧ n ≤ p.unread.length then
      some { p with unread := p.unread.drop n, phase := .writing (p.unread.take n) n }
    else none
  | _ => none

def eof (p : Pipe β) : Option (Pipe β) :=
  match p.phase with
  | .reading => if p.unread.isEmpty then some { p with phase := .closing } else none
  | _ => none

def write (k : ℕ) (p : Pipe β) : Option (Pipe β) :=
  match p.phase with
  | .writing buf n =>
    if 0 < k ∧ k < buf.length then
      some { p with written := p.written ++ buf.take k, phase := .writing (buf.drop k) n }
    else if 0 < k ∧ k = buf.length then
      some { p with written := p.written ++ buf, phase := .reading, count := p.count + n }
    else none
  | _ => none

def close (p : Pipe β) : Option (Pipe β) :=
  match p.phase with
  | .closing => some { p with phase := .done }
  | _ => none

inductive Op
  | read (n : ℕ)
  | eof
  | write (k : ℕ)
  | close
  deriving DecidableEq

def Op.isRead : Op → Bool
  | read _ | eof => true
  | write _ | close => false

def apply (max : ℕ) (p : Pipe β) : Op → Option (Pipe β)
  | .read n => p.read max n
  | .eof => p.eof
  | .write k => p.write k
  | .close => p.close

inductive Moves (max : ℕ) (p p' : Pipe β) : Prop
  | read (n : ℕ) (h : p.read max n = some p')
  | eof (h : p.eof = some p')
  | write (k : ℕ) (h : p.write k = some p')
  | close (h : p.close = some p')

structure Carries (stream : List β) (p : Pipe β) : Prop where
  content : p.written ++ p.pending ++ p.unread = stream
  drained : p.readDone = true → p.unread = []
  buffer : ∀ buf n, p.phase = .writing buf n → buf ≠ []

variable {stream : List β} {p p' : Pipe β} {max : ℕ}

theorem busy_of_pending (h : p.pending ≠ []) : p.busy = true := by
  cases hphase : p.phase <;> simp_all [pending, busy]

variable {o : Op}

theorem moves_of_apply (h : p.apply max o = some p') : Moves max p p' := by
  cases o with
  | read n => exact .read n h
  | eof => exact .eof h
  | write k => exact .write k h
  | close => exact .close h

theorem Moves.exists_apply (h : Moves max p p') : ∃ o, p.apply max o = some p' := by
  cases h with
  | read n h => exact ⟨.read n, h⟩
  | eof h => exact ⟨.eof, h⟩
  | write k h => exact ⟨.write k, h⟩
  | close h => exact ⟨.close, h⟩

theorem apply_cases (h : p.apply max o = some p') :
    (∃ n, o = .read n ∧ p.phase = .reading ∧ 0 < n ∧ n ≤ p.unread.length ∧
      p' = { p with unread := p.unread.drop n, phase := .writing (p.unread.take n) n }) ∨
    (o = .eof ∧ p.phase = .reading ∧ p.unread = [] ∧ p' = { p with phase := .closing }) ∨
    (∃ k buf n, o = .write k ∧ p.phase = .writing buf n ∧ k < buf.length ∧
      p' = { p with written := p.written ++ buf.take k, phase := .writing (buf.drop k) n }) ∨
    (∃ k buf n, o = .write k ∧ p.phase = .writing buf n ∧
      p' = { p with written := p.written ++ buf, phase := .reading, count := p.count + n }) ∨
    (o = .close ∧ p.phase = .closing ∧ p' = { p with phase := .done }) := by
  cases hphase : p.phase <;> cases o <;>
    simp only [apply, read, eof, write, close, hphase, Option.ite_none_right_eq_some,
      reduceCtorEq, Option.some.injEq] at h
  case reading.read n => exact .inl ⟨n, rfl, rfl, h.1.1, h.1.2.2, h.2.symm⟩
  case reading.eof => exact .inr (.inl ⟨rfl, rfl, by simpa using h.1, h.2.symm⟩)
  case writing.write buf n k =>
    split_ifs at h with hk hk'
    · exact .inr (.inr (.inl ⟨k, buf, n, rfl, rfl, hk.2, (Option.some.inj h).symm⟩))
    · exact .inr (.inr (.inr (.inl ⟨k, buf, n, rfl, rfl, (Option.some.inj h).symm⟩)))
  case closing.close => exact .inr (.inr (.inr (.inr ⟨rfl, rfl, h.symm⟩)))

theorem phase_of_apply (h : p.apply max o = some p') :
    (o.isRead = true ∧ p.phase = .reading) ∨ (o.isRead = false ∧ p.busy = true) := by
  obtain ⟨n, rfl, hphase, -⟩ | ⟨rfl, hphase, -⟩ | ⟨k, buf, n, rfl, hphase, -⟩ |
    ⟨k, buf, n, rfl, hphase, -⟩ | ⟨rfl, hphase, -⟩ := apply_cases h <;>
    simp [busy, hphase, Op.isRead]

theorem not_reading_of_apply (h : p.apply max o = some p') (ho : ∀ k, o ≠ .write k) :
    p'.phase ≠ .reading := by
  obtain ⟨n, -, -, -, -, rfl⟩ | ⟨-, -, -, rfl⟩ | ⟨k, buf, n, rfl, -⟩ | ⟨k, buf, n, rfl, -⟩ |
    ⟨-, -, rfl⟩ := apply_cases h
  · simp
  · simp
  · exact absurd rfl (ho k)
  · exact absurd rfl (ho k)
  · simp

theorem pending_of_apply (hp : p.pending ≠ []) (h : p.apply max o = some p') :
    p'.phase = .reading ∨ p'.pending ≠ [] := by
  obtain ⟨n, -, hphase, -⟩ | ⟨-, hphase, -⟩ | ⟨k, buf, n, -, -, hk, rfl⟩ |
    ⟨k, buf, n, -, -, rfl⟩ | ⟨-, hphase, -⟩ := apply_cases h
  · simp [pending, hphase] at hp
  · simp [pending, hphase] at hp
  · exact .inr (List.ne_nil_of_length_pos (by simp [pending]; omega))
  · exact .inl rfl
  · simp [pending, hphase] at hp

theorem carries_start (stream : List β) : Carries stream (start stream) :=
  ⟨rfl, by simp [start, readDone], by simp [start]⟩

theorem Carries.apply (hp : Carries stream p) (h : p.apply max o = some p') :
    Carries stream p' := by
  obtain ⟨hcontent, hdrained, -⟩ := hp
  obtain ⟨n, -, hphase, hpos, hn, rfl⟩ | ⟨-, hphase, hunread, rfl⟩ |
    ⟨k, buf, n, -, hphase, hk, rfl⟩ | ⟨k, buf, n, -, hphase, rfl⟩ | ⟨-, hphase, rfl⟩ :=
    apply_cases h <;>
    simp only [pending, hphase] at hcontent
  · refine ⟨by simpa [pending] using hcontent, by simp [readDone], ?_⟩
    rintro buf m h
    cases h
    exact List.ne_nil_of_length_pos (by simp; omega)
  · exact ⟨by simpa [pending] using hcontent, fun _ => hunread, by simp⟩
  · refine ⟨by simpa [pending] using hcontent, by simp [readDone], ?_⟩
    rintro buf' m h
    cases h
    exact List.ne_nil_of_length_pos (by simp; omega)
  · exact ⟨by simpa [pending] using hcontent, by simp [readDone], by simp⟩
  · exact ⟨by simpa [pending] using hcontent, fun _ => hdrained (by simp [readDone, hphase]),
      by simp⟩

theorem Carries.moves (hp : Carries stream p) (h : Moves max p p') : Carries stream p' := by
  obtain ⟨o, h⟩ := h.exists_apply
  exact hp.apply h

theorem Carries.written_isPrefix (hp : Carries stream p) : p.written <+: stream :=
  ⟨p.pending ++ p.unread, by rw [← List.append_assoc, hp.content]⟩

theorem Carries.written_eq (hp : Carries stream p) (h : p.readDone = true) :
    p.written = stream := by
  have hpending : p.pending = [] := by
    unfold readDone at h
    unfold pending
    split at h <;> simp_all
  rw [← hp.content, hp.drained h, hpending, List.append_nil, List.append_nil]

theorem Carries.exists_write (hp : Carries stream p) {buf : List β} {n : ℕ}
    (h : p.phase = .writing buf n) :
    p.write buf.length =
      some { p with written := p.written ++ buf, phase := .reading, count := p.count + n } := by
  have hlen : 0 < buf.length := List.length_pos_iff.mpr (hp.buffer buf n h)
  simp [write, h, hlen]

theorem Carries.exists_free (hp : Carries stream p) (hbusy : p.busy = true) :
    ∃ p', ((∃ k, p.write k = some p') ∨ p.close = some p') ∧ p'.busy = false := by
  unfold busy at hbusy
  split at hbusy
  · next buf n h => exact ⟨_, .inl ⟨_, hp.exists_write h⟩, rfl⟩
  · next h => exact ⟨{ p with phase := .done }, .inr (by simp [close, h]), rfl⟩
  · cases hbusy

theorem Carries.exists_left (hp : Carries stream p) (hmax : 0 < max) (hne : p.written ≠ stream) :
    ∃ p', ((∃ k, p.write k = some p') ∨ ∃ n, p.read max n = some p') ∧ p'.left < p.left := by
  cases h : p.phase with
  | writing buf n =>
    refine ⟨_, .inl ⟨_, hp.exists_write h⟩, ?_⟩
    have := List.length_pos_iff.mpr (hp.buffer buf n h)
    simp only [left, pending, h, List.length_nil]
    omega
  | reading =>
    have hunread : p.unread ≠ [] := by
      intro hnil
      apply hne
      rw [← hp.content, hnil, pending, h, List.append_nil, List.append_nil]
    have hlen := List.length_pos_iff.mpr hunread
    refine ⟨{ p with unread := p.unread.drop 1, phase := .writing (p.unread.take 1) 1 },
      .inr ⟨1, by simp only [read, h]; rw [if_pos ⟨by omega, hmax, hlen⟩]⟩, ?_⟩
    simp only [left, pending, h, List.length_drop, List.length_take, List.length_nil]
    omega
  | closing => exact absurd (hp.written_eq (by simp [readDone, h])) hne
  | done => exact absurd (hp.written_eq (by simp [readDone, h])) hne

/-! ## The counter -/

def inFlight (p : Pipe β) : ℕ :=
  match p.phase with
  | .writing _ n => n
  | _ => 0

def Counts (p : Pipe β) : Prop := p.written.length + p.pending.length = p.count + p.inFlight

theorem counts_start (stream : List β) : (start stream).Counts := rfl

theorem Counts.apply (hp : p.Counts) (h : p.apply max o = some p') : p'.Counts := by
  unfold Counts at hp ⊢
  obtain ⟨n, -, hphase, -, hn, rfl⟩ | ⟨-, hphase, -, rfl⟩ | ⟨k, buf, n, -, hphase, hk, rfl⟩ |
    ⟨k, buf, n, -, hphase, rfl⟩ | ⟨-, hphase, rfl⟩ := apply_cases h <;>
    simp only [pending, inFlight, hphase, List.length_nil, List.length_append, List.length_take,
      List.length_drop] at hp ⊢ <;> omega

theorem Counts.count_eq (hp : p.Counts) (hc : p.Carries stream) (h : p.phase = .done) :
    p.count = stream.length := by
  have hwritten := hc.written_eq (by simp [readDone, h])
  simp only [Counts, pending, inFlight, h, hwritten, List.length_nil] at hp
  omega

/-! ## The operations of a run -/

/-- No operation ends the stream. -/
def Transfers (os : List Op) : Prop := .eof ∉ os ∧ .close ∉ os

def Logged (os : List Op) : PipePhase β → Prop
  | .reading | .writing _ _ => Transfers os
  | .closing => ∃ body, Transfers body ∧ os = body ++ [.eof]
  | .done => ∃ body, Transfers body ∧ os = body ++ [.eof, .close]

variable {os : List Op}

theorem Transfers.read (h : Transfers os) (n : ℕ) : Transfers (os ++ [.read n]) := by
  simpa [Transfers] using h

theorem Transfers.write (h : Transfers os) (k : ℕ) : Transfers (os ++ [.write k]) := by
  simpa [Transfers] using h

theorem Logged.apply (hp : Logged os p.phase) (h : p.apply max o = some p') :
    Logged (os ++ [o]) p'.phase := by
  obtain ⟨n, rfl, hphase, -, -, rfl⟩ | ⟨rfl, hphase, -, rfl⟩ | ⟨k, buf, n, rfl, hphase, -, rfl⟩ |
    ⟨k, buf, n, rfl, hphase, rfl⟩ | ⟨rfl, hphase, rfl⟩ := apply_cases h <;>
    rw [hphase] at hp
  · exact Transfers.read hp n
  · exact ⟨os, hp, rfl⟩
  · exact Transfers.write hp k
  · exact Transfers.write hp k
  · obtain ⟨body, hbody, rfl⟩ := hp
    exact ⟨body, hbody, by simp⟩

variable {C : Pipe β → Op → Prop}

theorem run_logged (h : Run (apply max) C (start stream) os p) : Logged os p.phase := by
  induction h with
  | nil => exact ⟨by simp, by simp⟩
  | snoc _ _ hst ih => exact ih.apply hst

theorem run_counts (h : Run (apply max) C (start stream) os p) : p.Counts :=
  h.invariant (fun _ _ _ hp _ hst => hp.apply hst) (counts_start stream)

theorem run_carries (h : Run (apply max) C (start stream) os p) : p.Carries stream :=
  h.invariant (fun _ _ _ hp _ hst => hp.apply hst) (carries_start stream)

end Pipe

end SkadiCore
