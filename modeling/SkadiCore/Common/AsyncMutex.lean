import SkadiCore.Common.Run

/-!
# A fair asynchronous mutex

The lock of an asynchronous runtime: a party that finds it taken joins a queue,
and the guard, when it is dropped, hands the lock to the head of the queue, so
that a party served once cannot overtake one that waits. A party whose task is
dropped leaves the queue, or hands the lock on if it has it.
-/

namespace SkadiCore

structure AsyncMutex (τ : Type*) where
  queue : List τ
  deriving DecidableEq

namespace AsyncMutex

variable {τ : Type*}

def free : AsyncMutex τ := ⟨[]⟩

def holder (m : AsyncMutex τ) : Option τ := m.queue.head?

def lock (m : AsyncMutex τ) (p : τ) : AsyncMutex τ := ⟨m.queue ++ [p]⟩

def leave [DecidableEq τ] (m : AsyncMutex τ) (p : τ) : AsyncMutex τ := ⟨m.queue.erase p⟩

variable {m : AsyncMutex τ}

theorem mem_of_holder {p : τ} (h : m.holder = some p) : p ∈ m.queue :=
  List.mem_of_mem_head? h

theorem queue_of_holder {p : τ} (h : m.holder = some p) : m.queue = p :: m.queue.tail :=
  (List.cons_head?_tail h).symm

theorem holder_lock_of_holder {q : τ} (p : τ) (h : m.holder = some q) :
    (m.lock p).holder = some q := by
  have hq := queue_of_holder h
  simp only [holder, lock]
  rw [hq]
  rfl

theorem holder_lock_free (p : τ) (h : m.queue = []) : (m.lock p).holder = some p := by
  simp [holder, lock, h]

theorem holder_leave_of_ne [DecidableEq τ] {p q : τ} (h : m.holder = some q) (hne : q ≠ p) :
    (m.leave p).holder = some q := by
  have hq := queue_of_holder h
  simp only [holder, leave]
  rw [hq, List.erase_cons_tail (by simpa using hne)]
  rfl

theorem queue_leave_holder [DecidableEq τ] {p : τ} (h : m.holder = some p) :
    (m.leave p).queue = m.queue.tail := by
  have hq := queue_of_holder h
  simp only [leave]
  rw [hq, List.erase_cons_head]
  rfl

end AsyncMutex

end SkadiCore
