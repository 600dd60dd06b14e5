import Mathlib.Tactic

/-!
# A bounded channel

A channel of `tokio::sync::mpsc` with one receiver: a queue of at most `capacity`
messages. The messages received so far are part of the state, so that `sent` is
everything ever put into the channel.
-/

namespace SkadiCore

inductive TrySendError
  | full
  | closed
  deriving DecidableEq

structure Channel (α : Type*) (capacity : ℕ) where
  received : List α
  queue : List α
  closed : Bool
  bounded : queue.length ≤ capacity

namespace Channel

variable {α : Type*} {capacity : ℕ}

def new (α : Type*) (capacity : ℕ) : Channel α capacity := ⟨[], [], false, Nat.zero_le _⟩

variable (c : Channel α capacity)

def sent : List α := c.received ++ c.queue

def trySend (x : α) : Except TrySendError (Channel α capacity) :=
  if c.closed then .error .closed
  else if h : c.queue.length < capacity then
    .ok { c with queue := c.queue ++ [x], bounded := by simpa using h }
  else .error .full

def offer (x : α) : Channel α capacity :=
  match c.trySend x with
  | .ok c' => c'
  | .error _ => c

def recv : Option (Channel α capacity) :=
  match h : c.queue with
  | [] => none
  | x :: queue =>
    some ⟨c.received ++ [x], queue, c.closed, by
      have := c.bounded
      rw [h] at this
      exact (Nat.le_succ _).trans this⟩

def close : Channel α capacity := { c with closed := true }

def free : Bool := c.closed || decide (c.queue.length < capacity)

variable {c c' : Channel α capacity} {x : α}

theorem trySend_cases (c : Channel α capacity) (x : α) :
    (c.free = true ∧ c.trySend x = .error .closed) ∨
      (c.free = false ∧ c.trySend x = .error .full) ∨
      ∃ c', c.free = true ∧ c.trySend x = .ok c' ∧ c'.queue = c.queue ++ [x] ∧
        c'.received = c.received := by
  by_cases hc : c.closed
  · left
    simp [trySend, free, hc]
  by_cases h : c.queue.length < capacity
  · right; right
    refine ⟨⟨c.received, c.queue ++ [x], c.closed, by simpa using h⟩, by simp [free, h], ?_,
      rfl, rfl⟩
    rw [trySend, if_neg hc, dif_pos h]
  · right; left
    simp [trySend, free, hc, h]

theorem offer_of_lt (hc : c.closed = false) (h : c.queue.length < capacity) (x : α) :
    (c.offer x).queue = c.queue ++ [x] ∧ (c.offer x).received = c.received ∧
      (c.offer x).closed = false := by
  simp [offer, trySend, hc, h]

theorem offer_of_full (h : c.queue.length = capacity) (x : α) : c.offer x = c := by
  cases hc : c.closed <;> simp [offer, trySend, hc, h]

theorem recv_eq (h : c.recv = some c') :
    ∃ x queue, c.queue = x :: queue ∧ c'.queue = queue ∧ c'.received = c.received ++ [x] ∧
      c'.closed = c.closed := by
  unfold recv at h
  split at h
  · cases h
  · rename_i x queue hq
    cases h
    exact ⟨x, queue, hq, rfl, rfl, rfl⟩

theorem exists_recv {queue : List α} (h : c.queue = x :: queue) : ∃ c', c.recv = some c' := by
  unfold recv
  split
  · simp_all
  · exact ⟨_, rfl⟩

theorem recv_eq_none : c.recv = none ↔ c.queue = [] := by
  unfold recv
  split <;> simp_all

theorem sent_recv (h : c.recv = some c') : c'.sent = c.sent := by
  obtain ⟨x, queue, hq, hq', hr, -⟩ := recv_eq h
  simp [sent, hq, hq', hr]

end Channel

end SkadiCore
