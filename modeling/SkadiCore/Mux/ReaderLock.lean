import SkadiCore.Mux.KeepLock
import SkadiCore.Mux.ReaderView

/-!
# A session reader gets to its socket

The loop of a session reader begins with `upstream.lock().await`
(`crates/skadi-transport/src/mux.rs`, lines 600 and 629). The lock is free, or the main
loop has it and writes the payload of a KEEP frame. A reader at the head of its loop is
at the mutex or past it (`LocksInv.reader`), so a run of these two leads to the socket
(`reader_enters`).
-/

namespace SkadiCore.Mux.Relay

open SkadiCore.Relay

variable {s t : Relay} {u : ℕ}

/-- The steps that give reader `u` the lock of its socket. -/
def TowardsSocket (u : ℕ) : Relay → Act → Prop :=
  fun s a => WritesPayload s a ∨ a = .reader u .request ∨ a = .reader u .enter

structure Entered (s t : Relay) (u : ℕ) : Prop extends TasksKept s t where
  pc : (t.upstream u).pc .reader = .inside
  source : (t.upstream u).source = (s.upstream u).source

variable {x : Task UInt16}

theorem enters_of_holder (limits : RelayLimits) (hx : s.At u x .reading)
    (hpc : (s.upstream u).pc .reader ≠ .away) (hh : (s.upstream u).mutex.holder = some .reader) :
    ∃ as t, Run (step limits) (TowardsSocket u) s as t ∧ Entered s t u := by
  cases hp : (s.upstream u).pc .reader with
  | away => exact absurd hp hpc
  | inside => exact ⟨[], s, .nil s, ⟨rfl, rfl, rfl⟩, hp, rfl⟩
  | waiting =>
    refine ⟨_, s.setUpstream u
      { s.upstream u with pc := Function.update (s.upstream u).pc .reader .inside },
      .single (a := .reader u .enter) (.inr (.inr rfl)) ?_, ⟨rfl, rfl, rfl⟩, ?_, ?_⟩
    · simp [step, readerStep, hx.task, hx.running, pumpStep, hx.pump,
        DuplexLock.enter_of_holder hp hh]
    · simp [setUpstream]
    · simp [setUpstream]

theorem enters_of_queued (limits : RelayLimits) (hi : s.Inv) (hx : s.At u x .reading)
    (hq : .reader ∈ (s.upstream u).mutex.queue) :
    ∃ as t, Run (step limits) (TowardsSocket u) s as t ∧ Entered s t u := by
  have hpc := (hi.locks u).waits .reader hq
  rcases (hi.locks u).next hq with hside | ⟨side, hne, hside, hnext⟩
  · exact enters_of_holder limits hx hpc hside
  · obtain rfl : side = .writer := by cases side <;> simp_all
    -- the main loop has the lock, so it is about to write a payload
    have hkeep := (hi.keep u).mp ((hi.locks u).waits .writer (AsyncMutex.mem_of_holder hside))
    obtain ⟨payload, hm⟩ : ∃ payload, s.main = .keep u payload := by
      cases hm : s.main <;> simp [hm, Main.keeps] at hkeep
      exact ⟨_, by rw [hkeep]⟩
    obtain ⟨as, r, hrun, -, -, hup, htasks⟩ := keep_of_holder limits hi hm hside
    have hrx : r.At u x .reading :=
      ⟨by rw [htasks.table]; exact hx.task, hx.running, by rw [htasks.reader]; exact hx.pump⟩
    obtain ⟨bs, t, hrun', ht⟩ := enters_of_holder limits hrx
      (by simpa [hup, DuplexLock.leave] using hpc) (by rw [hup]; exact hnext)
    refine ⟨_, t, (hrun.mono fun _ _ => .inl).append hrun', ⟨ht.table.trans htasks.table,
      ht.reader.trans htasks.reader, ht.writer.trans htasks.writer⟩, ht.pc, ?_⟩
    rw [ht.source, hup]
    rfl

theorem reader_enters (limits : RelayLimits) (hi : s.Inv) (hx : s.At u x .reading) :
    ∃ as t, Run (step limits) (TowardsSocket u) s as t ∧ Entered s t u := by
  by_cases hq : .reader ∈ (s.upstream u).mutex.queue
  · exact enters_of_queued limits hi hx hq
  · have hpc := (hi.locks u).waiting
      ((hi.reader u).mpr (by simp [reads, hx.isRunning, hx.pump])) hq
    let r := s.setUpstream u { s.upstream u with mutex := (s.upstream u).mutex.lock .reader }
    have hst : s.step limits (.reader u .request) = some r := by
      simp [r, step, readerStep, hx.task, hx.running, pumpStep, hx.pump,
        DuplexLock.request_of_waiting hpc hq]
    obtain ⟨as, t, hrun, ht⟩ := enters_of_queued limits (s := r) (u := u) (x := x)
      ((step_effect hst).inv hi) ⟨hx.task, hx.running, hx.pump⟩
      (by simp [r, setUpstream, AsyncMutex.lock])
    refine ⟨_, t, (Run.single (.inr (.inl rfl)) hst).append hrun,
      ⟨ht.table, ht.reader, ht.writer⟩, ht.pc, ?_⟩
    rw [ht.source]
    simp [r, setUpstream]

end SkadiCore.Mux.Relay
