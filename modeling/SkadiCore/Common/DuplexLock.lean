import SkadiCore.Common.AsyncMutex

/-!
# A duplex stream behind one mutex

A reading and a writing side share a stream behind an asynchronous mutex, and the
reading side waits for data while it has the lock. `ρ` is the incoming half of
the stream; `readable` says that a read would complete.

* `Safe`, `Safe.not_blocked`: if the writer never asks for the lock while the
  reader has it and nothing is there to read, this state is not reached.
-/

namespace SkadiCore

inductive Side
  | reader
  | writer
  deriving DecidableEq

inductive LockPc
  | away
  | waiting
  | inside
  deriving DecidableEq

structure DuplexLock (ρ : Type*) where
  mutex : AsyncMutex Side
  pc : Side → LockPc
  source : ρ

namespace DuplexLock

variable {ρ : Type*}

def new (source : ρ) : DuplexLock ρ := ⟨.free, fun _ => .away, source⟩

def start (d : DuplexLock ρ) (x : Side) : DuplexLock ρ :=
  { d with pc := Function.update d.pc x .waiting }

def request (d : DuplexLock ρ) (x : Side) : Option (DuplexLock ρ) :=
  if d.pc x = .waiting ∧ x ∉ d.mutex.queue then some { d with mutex := d.mutex.lock x } else none

def enter (d : DuplexLock ρ) (x : Side) : Option (DuplexLock ρ) :=
  if d.pc x = .waiting ∧ d.mutex.holder = some x then
    some { d with pc := Function.update d.pc x .inside }
  else none

def leave (d : DuplexLock ρ) (x : Side) : DuplexLock ρ :=
  { d with pc := Function.update d.pc x .away, mutex := d.mutex.leave x }

structure Inv (d : DuplexLock ρ) : Prop where
  nodup : d.mutex.queue.Nodup
  waits : ∀ x ∈ d.mutex.queue, d.pc x ≠ .away
  inside : ∀ x, d.pc x = .inside → d.mutex.holder = some x

theorem Inv.waiting {d : DuplexLock ρ} {x : Side} (hi : d.Inv) (haway : d.pc x ≠ .away)
    (hq : x ∉ d.mutex.queue) : d.pc x = .waiting := by
  cases hpc : d.pc x with
  | waiting => rfl
  | away => exact absurd hpc haway
  | inside => exact absurd (AsyncMutex.mem_of_holder (hi.inside x hpc)) hq

variable (readable : ρ → Bool)

/-- The writer waits for the lock that the reader holds, which has nothing to read. -/
def Blocked (d : DuplexLock ρ) : Prop :=
  .writer ∈ d.mutex.queue ∧ d.mutex.holder = some .reader ∧ d.pc .reader = .inside ∧
    readable d.source = false

def Safe (d : DuplexLock ρ) : Prop :=
  .writer ∈ d.mutex.queue → d.mutex.holder = some .reader → readable d.source = true

variable {readable} {d d' : DuplexLock ρ} {x : Side}

theorem request_eq (h : d.request x = some d') : d' = { d with mutex := d.mutex.lock x } := by
  unfold request at h
  split_ifs at h
  exact (Option.some.inj h).symm

theorem enter_eq (h : d.enter x = some d') :
    d' = { d with pc := Function.update d.pc x .inside } := by
  unfold enter at h
  split_ifs at h
  exact (Option.some.inj h).symm

theorem enter_of_holder (hpc : d.pc x = .waiting) (hh : d.mutex.holder = some x) :
    d.enter x = some { d with pc := Function.update d.pc x .inside } := by
  simp [enter, hpc, hh]

theorem request_of_waiting (hpc : d.pc x = .waiting) (hq : x ∉ d.mutex.queue) :
    d.request x = some { d with mutex := d.mutex.lock x } := by
  simp [request, hpc, hq]

theorem new_inv (source : ρ) : (new source).Inv :=
  ⟨by simp [new, AsyncMutex.free], by simp [new, AsyncMutex.free], fun x hx => by simp [new] at hx⟩

theorem new_safe (source : ρ) : (new source).Safe readable := by
  simp [Safe, new, AsyncMutex.free]

theorem Inv.start (hi : d.Inv) (hx : d.pc x = .away) : (d.start x).Inv := by
  have hq : x ∉ d.mutex.queue := fun h => hi.waits x h hx
  refine ⟨hi.nodup, fun y hy => ?_, fun y hy => ?_⟩
  · have hyx : y ≠ x := by rintro rfl; exact hq hy
    simpa [DuplexLock.start, hyx] using hi.waits y hy
  · have hyx : y ≠ x := by rintro rfl; simp [DuplexLock.start] at hy
    exact hi.inside y (by simpa [DuplexLock.start, hyx] using hy)

theorem Inv.request (hi : d.Inv) (h : d.request x = some d') : d'.Inv := by
  unfold DuplexLock.request at h
  split_ifs at h with hx
  cases h
  refine ⟨?_, ?_, fun y hy => AsyncMutex.holder_lock_of_holder x (hi.inside y hy)⟩
  · simpa [AsyncMutex.lock, List.nodup_append] using ⟨hi.nodup, fun a ha e => hx.2 (e ▸ ha)⟩
  · intro y hy
    rcases List.mem_append.mp hy with hy | hy
    · exact hi.waits y hy
    · rw [List.mem_singleton.mp hy, hx.1]; simp

theorem Inv.enter (hi : d.Inv) (h : d.enter x = some d') : d'.Inv := by
  unfold DuplexLock.enter at h
  split_ifs at h with hx
  cases h
  refine ⟨hi.nodup, fun y hy => ?_, fun y hy => ?_⟩
  · by_cases hyx : y = x
    · subst hyx; simp
    · simpa [hyx] using hi.waits y hy
  · by_cases hyx : y = x
    · rw [hyx]; exact hx.2
    · exact hi.inside y (by simpa [hyx] using hy)

theorem Inv.leave (hi : d.Inv) (x : Side) : (d.leave x).Inv := by
  refine ⟨hi.nodup.erase x, fun y hy => ?_, fun y hy => ?_⟩
  · obtain ⟨hne, hy⟩ := hi.nodup.mem_erase_iff.mp hy
    simpa [DuplexLock.leave, hne] using hi.waits y hy
  · have hne : y ≠ x := by rintro rfl; simp [DuplexLock.leave] at hy
    have hy' : d.pc y = .inside := by simpa [DuplexLock.leave, hne] using hy
    exact AsyncMutex.holder_leave_of_ne (hi.inside y hy') hne

theorem Safe.not_blocked (hs : d.Safe readable) : ¬ d.Blocked readable := by
  rintro ⟨hw, hh, -, hr⟩
  rw [hs hw hh] at hr
  cases hr

theorem Safe.start (hs : d.Safe readable) (x : Side) : (d.start x).Safe readable := hs

theorem Safe.request (hs : d.Safe readable)
    (hx : x = .writer → d.mutex.holder = some .reader → readable d.source = true)
    (h : d.request x = some d') : d'.Safe readable := by
  unfold DuplexLock.request at h
  split_ifs at h with hq
  cases h
  intro hw hh
  cases hqueue : d.mutex.queue with
  | nil =>
    have := AsyncMutex.holder_lock_free x hqueue
    rw [hh] at this
    cases x with
    | reader => simp [AsyncMutex.lock, hqueue] at hw
    | writer => cases this
  | cons y ys =>
    have hy : d.mutex.holder = some y := by simp [AsyncMutex.holder, hqueue]
    have hyr := AsyncMutex.holder_lock_of_holder x hy
    rw [hh] at hyr
    obtain rfl := Option.some.inj hyr
    rcases List.mem_append.mp hw with hw | hw
    · exact hs hw hy
    · exact hx (List.mem_singleton.mp hw).symm hy

theorem Safe.enter (hs : d.Safe readable) (h : d.enter x = some d') : d'.Safe readable := by
  unfold DuplexLock.enter at h
  split_ifs at h
  cases h
  exact hs

theorem Inv.leave_safe (hi : d.Inv) (x : Side) (source : ρ) :
    ({ d.leave x with source := source } : DuplexLock ρ).Safe readable := by
  intro hw hh
  have hmem : ∀ y, y ∈ (d.leave x).mutex.queue → y ≠ x ∧ y ∈ d.mutex.queue := fun y hy =>
    hi.nodup.mem_erase_iff.mp hy
  obtain ⟨hwx, hw'⟩ := hmem _ hw
  obtain ⟨hrx, -⟩ := hmem _ (AsyncMutex.mem_of_holder hh)
  cases x with
  | reader => exact absurd rfl hrx
  | writer => exact absurd rfl hwx

theorem Safe.of_readable (hs : d.Safe readable) {source : ρ}
    (h : readable d.source = true → readable source = true) :
    ({ d with source := source } : DuplexLock ρ).Safe readable :=
  fun hw hh => h (hs hw hh)

theorem Inv.next (hi : d.Inv) (hx : x ∈ d.mutex.queue) :
    d.mutex.holder = some x ∨
      ∃ y, y ≠ x ∧ d.mutex.holder = some y ∧ (d.leave y).mutex.holder = some x := by
  cases hq : d.mutex.queue with
  | nil => rw [hq] at hx; cases hx
  | cons y ys =>
    have hy : d.mutex.holder = some y := by simp [AsyncMutex.holder, hq]
    by_cases hyx : y = x
    · exact .inl (hyx ▸ hy)
    · refine .inr ⟨y, hyx, hy, ?_⟩
      have hnodup := hi.nodup
      rw [hq] at hx hnodup
      have hys : x ∈ ys := (List.mem_cons.mp hx).resolve_left (Ne.symm hyx)
      -- there are two sides, so only `x` can wait behind `y`
      have hall : ∀ z ∈ ys, z = x := by
        intro z hz
        have hzy : z ≠ y := by rintro rfl; exact (List.nodup_cons.mp hnodup).1 hz
        cases x <;> cases y <;> cases z <;> simp_all
      have htail : (d.leave y).mutex.queue = ys := by
        have := AsyncMutex.queue_leave_holder hy
        rwa [hq] at this
      cases ys with
      | nil => cases hys
      | cons z zs => simp [AsyncMutex.holder, htail, hall z (by simp)]

theorem Safe.writer_next (hi : d.Inv) (hs : d.Safe readable) (hw : .writer ∈ d.mutex.queue) :
    d.mutex.holder = some .writer ∨
      (d.mutex.holder = some .reader ∧ readable d.source = true ∧
        (d.leave .reader).mutex.holder = some .writer) := by
  rcases hi.next hw with h | ⟨y, hne, hy, hnext⟩
  · exact .inl h
  · cases y with
    | writer => exact absurd rfl hne
    | reader => exact .inr ⟨hy, hs hw hy, hnext⟩

end DuplexLock

end SkadiCore
