import SkadiCore.Common.Run

/-!
# A table of tasks that remove themselves

One party opens entries in a table keyed by `κ`: it spawns a task, then inserts
the task under its key, replacing an entry that is there. The task runs on its
own; when it ends it removes the entry *under its key* from the table. The party
may remove an entry and abort its task, or abort all of them at once. An aborted
task runs on until it is dropped at an await point.
-/

namespace SkadiCore

inductive TaskStatus
  | running
  | finished
  | dropped
  deriving DecidableEq

structure Task (κ : Type*) where
  key : κ
  status : TaskStatus
  aborted : Bool
  deriving DecidableEq

/-- The table `entries` from keys to tasks, all tasks spawned so far (numbered
    below `next`), and the task that is spawned but not inserted yet. -/
structure TaskTable (κ : Type*) where
  entries : κ → Option ℕ
  task : ℕ → Option (Task κ)
  next : ℕ
  opening : Option (κ × ℕ)

namespace TaskTable

variable {κ : Type*}

def init : TaskTable κ := ⟨fun _ => none, fun _ => none, 0, none⟩

variable (t : TaskTable κ)

def Running (u : ℕ) (k : κ) : Prop :=
  ∃ b, t.task u = some ⟨k, .running, b⟩

/-- Task `u`, of key `k`, runs and is not aborted. -/
def Live (u : ℕ) (k : κ) : Prop := t.task u = some ⟨k, .running, false⟩

def isRunning (u : ℕ) : Bool := (t.task u).any fun x => x.status == .running

def Fresh : Prop := ∀ u, t.next ≤ u → t.task u = none

def KeyFree (k : κ) : Prop := ∀ u, ¬ t.Running u k

def keyFree [DecidableEq κ] (t : TaskTable κ) (k : κ) : Bool :=
  (List.range t.next).all fun u => (t.task u).all fun x => x.key != k || x.status != .running

def spawn (k : κ) : TaskTable κ :=
  { t with
    task := Function.update t.task t.next (some ⟨k, .running, false⟩)
    next := t.next + 1
    opening := some (k, t.next) }

def abortTask (u : ℕ) : TaskTable κ :=
  { t with task := Function.update t.task u ((t.task u).map fun k => { k with aborted := true }) }

def setStatus (u : ℕ) (st : TaskStatus) : TaskTable κ :=
  { t with task := Function.update t.task u ((t.task u).map fun k => { k with status := st }) }

def drop (u : ℕ) : TaskTable κ := t.setStatus u .dropped

def insert [DecidableEq κ] (t : TaskTable κ) : TaskTable κ :=
  match t.opening with
  | none => t
  | some (k, u) => { t with entries := Function.update t.entries k (some u), opening := none }

def openTask [DecidableEq κ] (t : TaskTable κ) (k : κ) : TaskTable κ := (t.spawn k).insert

def remove [DecidableEq κ] (t : TaskTable κ) (k : κ) : TaskTable κ :=
  match t.entries k with
  | none => t
  | some u => { t.abortTask u with entries := Function.update t.entries k none }

def finish [DecidableEq κ] (t : TaskTable κ) (u : ℕ) : TaskTable κ :=
  match t.task u with
  | none => t
  | some k =>
    { t.setStatus u .finished with entries := Function.update t.entries k.key none }

def drain : TaskTable κ :=
  { t with
    entries := fun _ => none
    task := fun u => (t.task u).map fun k =>
      if t.entries k.key = some u then { k with aborted := true } else k }

/-! ## Tracking -/

structure Keyed : Prop where
  stored : ∀ k u, t.entries k = some u → (t.task u).map Task.key = some k
  opened : ∀ k u, t.opening = some (k, u) →
    (t.task u).map Task.key = some k ∧ ∀ k', t.entries k' ≠ some u

structure Tracked : Prop where
  fresh : t.Fresh
  keyed : ∀ k u, t.entries k = some u → (t.task u).map Task.key = some k
  opened : ∀ k u, t.opening = some (k, u) →
    (t.task u).map Task.key = some k ∧ ∀ v, t.Running v k → v = u
  unique : ∀ k u v, t.Running u k → t.Running v k → u = v
  listed : ∀ k u, t.Live u k → t.entries k = some u ∨ t.opening = some (k, u)

structure Owned : Prop extends t.Tracked where
  closed : t.opening = none
  live : ∀ k u, t.entries k = some u → t.Live u k

variable {t t' : TaskTable κ} {u v : ℕ} {k k' : κ}

theorem Live.running (h : t.Live u k) : t.Running u k := ⟨false, h⟩

theorem isRunning_iff : t.isRunning u = true ↔ ∃ k, t.Running u k := by
  cases h : t.task u with
  | none => simp [isRunning, Running, h]
  | some x => obtain ⟨key, status, aborted⟩ := x; simp [isRunning, Running, h]

theorem init_owned : (init : TaskTable κ).Owned := by
  refine ⟨⟨fun u _ => rfl, ?_, ?_, ?_, ?_⟩, rfl, ?_⟩ <;> simp [init, Running, Live]

theorem Fresh.of_key (hf : t.Fresh) (hnext : t'.next = t.next)
    (hkey : ∀ u, (t'.task u).map Task.key = (t.task u).map Task.key) : t'.Fresh := by
  intro u hu
  have := hkey u
  rw [hf u (hnext ▸ hu)] at this
  simpa using this

theorem init_keyed : (init : TaskTable κ).Keyed := by
  constructor <;> simp [init]

theorem Keyed.shrink (ht : t.Keyed)
    (hkey : ∀ u, (t'.task u).map Task.key = (t.task u).map Task.key)
    (hent : ∀ k u, t'.entries k = some u → t.entries k = some u)
    (hopen : t'.opening = t.opening) : t'.Keyed := by
  refine ⟨fun k u hu => ?_, fun k u hu => ?_⟩
  · rw [hkey]; exact ht.stored k u (hent k u hu)
  · rw [hkey]
    obtain ⟨h1, h2⟩ := ht.opened k u (hopen ▸ hu)
    exact ⟨h1, fun k' hk' => h2 k' (hent k' u hk')⟩

theorem Tracked.shrink (ht : t.Tracked) (hnext : t'.next = t.next)
    (hkey : ∀ u, (t'.task u).map Task.key = (t.task u).map Task.key)
    (hrun : ∀ k u, t'.Running u k → t.Running u k) (hlive : ∀ k u, t'.Live u k → t.Live u k)
    (hent : ∀ k u, t'.entries k = some u → t.entries k = some u)
    (hopen : t'.opening = t.opening)
    (hlist : ∀ k u, t'.Live u k → t.entries k = some u → t'.entries k = some u) : t'.Tracked := by
  refine ⟨ht.fresh.of_key hnext hkey, ?_, ?_, ?_, ?_⟩
  · intro k u hu
    rw [hkey]; exact ht.keyed k u (hent k u hu)
  · intro k u hu
    rw [hkey]
    obtain ⟨h1, h2⟩ := ht.opened k u (hopen ▸ hu)
    exact ⟨h1, fun v hv => h2 v (hrun k v hv)⟩
  · intro k u v hu hv
    exact ht.unique k u v (hrun k u hu) (hrun k v hv)
  · intro k u hu
    rcases ht.listed k u (hlive k u hu) with h | h
    · exact .inl (hlist k u hu h)
    · exact .inr (hopen ▸ h)

theorem running_update {x : Option (Task κ)} (ht : t'.task = Function.update t.task u x) :
    t'.Running v k ↔ (v = u ∧ ∃ b, x = some ⟨k, .running, b⟩) ∨ (v ≠ u ∧ t.Running v k) := by
  unfold Running
  rw [ht]
  by_cases h : v = u
  · subst h; simp
  · simp [h]

theorem live_update {x : Option (Task κ)} (ht : t'.task = Function.update t.task u x) :
    t'.Live v k ↔ (v = u ∧ x = some ⟨k, .running, false⟩) ∨ (v ≠ u ∧ t.Live v k) := by
  unfold Live
  rw [ht]
  by_cases h : v = u
  · subst h; simp
  · simp [h]

theorem map_key_abortTask (u v : ℕ) :
    ((t.abortTask u).task v).map Task.key = (t.task v).map Task.key := by
  by_cases h : v = u
  · subst h; cases ht : t.task v <;> simp [abortTask, ht]
  · simp [abortTask, h]

theorem map_key_setStatus (u v : ℕ) (st : TaskStatus) :
    ((t.setStatus u st).task v).map Task.key = (t.task v).map Task.key := by
  by_cases h : v = u
  · subst h; cases ht : t.task v <;> simp [setStatus, ht]
  · simp [setStatus, h]

theorem map_key_drain (u : ℕ) : (t.drain.task u).map Task.key = (t.task u).map Task.key := by
  cases ht : t.task u with
  | none => simp [drain, ht]
  | some x => simp only [drain, ht, Option.map_some]; split_ifs <;> rfl

theorem task_abortTask (u v : ℕ) :
    (t.abortTask u).task v = t.task v ∨
      ∃ x, t.task v = some x ∧ (t.abortTask u).task v = some { x with aborted := true } := by
  by_cases h : v = u
  · subst h
    cases hx : t.task v with
    | none => exact .inl (by simp [abortTask, hx])
    | some x => exact .inr ⟨x, rfl, by simp [abortTask, hx]⟩
  · exact .inl (by simp [abortTask, h])

theorem task_drain (v : ℕ) :
    t.drain.task v = t.task v ∨
      ∃ x, t.task v = some x ∧ t.drain.task v = some { x with aborted := true } := by
  cases hx : t.task v with
  | none => exact .inl (by simp [drain, hx])
  | some x =>
    by_cases he : t.entries x.key = some v
    · exact .inr ⟨x, rfl, by simp [drain, hx, he]⟩
    · exact .inl (by simp [drain, hx, he])

/-! ## Which tasks run -/

@[simp]
theorem isRunning_abortTask : (t.abortTask u).isRunning v = t.isRunning v := by
  by_cases h : v = u
  · subst h; cases ht : t.task v <;> simp [isRunning, abortTask, ht]
  · simp [isRunning, abortTask, h]

@[simp]
theorem isRunning_drain : t.drain.isRunning u = t.isRunning u := by
  cases ht : t.task u with
  | none => simp [isRunning, drain, ht]
  | some x => simp only [isRunning, drain, ht, Option.map_some, Option.any_some]; split_ifs <;> rfl

variable {st : TaskStatus}

theorem isRunning_setStatus (hst : st ≠ .running) :
    (t.setStatus u st).isRunning v = (t.isRunning v && decide (v ≠ u)) := by
  by_cases h : v = u
  · subst h; cases ht : t.task v <;> simp [isRunning, setStatus, ht, hst]
  · simp [isRunning, setStatus, h]

theorem isRunning_spawn : (t.spawn k).isRunning v = (t.isRunning v || decide (v = t.next)) := by
  by_cases h : v = t.next
  · subst h; simp [isRunning, spawn]
  · simp [isRunning, spawn, h]

theorem Fresh.isRunning_next (hf : t.Fresh) : t.isRunning t.next = false := by
  simp [isRunning, hf t.next le_rfl]

theorem Fresh.spawn (hf : t.Fresh) (k : κ) : (t.spawn k).Fresh := by
  intro v hv
  have hv : t.next + 1 ≤ v := hv
  have hne : v ≠ t.next := by omega
  simpa [TaskTable.spawn, hne] using hf v (by omega)

theorem Fresh.drop (hf : t.Fresh) (u : ℕ) : (t.drop u).Fresh :=
  hf.of_key rfl fun v => map_key_setStatus u v .dropped

theorem Fresh.drain (hf : t.Fresh) : t.drain.Fresh := hf.of_key rfl map_key_drain

theorem Keyed.drop (ht : t.Keyed) (u : ℕ) : (t.drop u).Keyed :=
  ht.shrink (fun v => map_key_setStatus u v .dropped) (fun _ _ h => h) rfl

theorem Keyed.drain (ht : t.Keyed) : t.drain.Keyed :=
  ht.shrink map_key_drain (fun k u h => by simp [TaskTable.drain] at h) rfl

theorem Keyed.spawn (ht : t.Keyed) (hf : t.Fresh) (k : κ) : (t.spawn k).Keyed := by
  have hnew : ∀ k', t.entries k' ≠ some t.next := by
    intro k' hk'
    have := ht.stored k' _ hk'
    rw [hf _ le_rfl] at this
    cases this
  refine ⟨fun k' u hu => ?_, fun k' u hu => ?_⟩
  · have hne : u ≠ t.next := by rintro rfl; exact hnew k' hu
    simpa [TaskTable.spawn, hne] using ht.stored k' u hu
  · obtain ⟨rfl, rfl⟩ : k = k' ∧ t.next = u := by simpa [TaskTable.spawn] using hu
    exact ⟨by simp [TaskTable.spawn], hnew⟩

/-! ## Aborting and dropping -/

theorem running_abortTask : (t.abortTask u).Running v k ↔ t.Running v k := by
  rw [running_update (t := t) rfl]
  by_cases h : v = u
  · subst h
    cases ht : t.task v with
    | none => simp [Running, ht]
    | some x => obtain ⟨key, status, aborted⟩ := x; simp [Running, ht]
  · simp [h]

theorem live_abortTask : (t.abortTask u).Live v k ↔ v ≠ u ∧ t.Live v k := by
  rw [live_update (t := t) rfl]
  cases t.task u <;> simp

theorem running_setStatus (hst : st ≠ .running) :
    (t.setStatus u st).Running v k ↔ v ≠ u ∧ t.Running v k := by
  rw [running_update (t := t) rfl]
  cases t.task u <;> simp [hst]

theorem live_setStatus (hst : st ≠ .running) :
    (t.setStatus u st).Live v k ↔ v ≠ u ∧ t.Live v k := by
  rw [live_update (t := t) rfl]
  cases t.task u <;> simp [hst]

theorem Tracked.drop (ht : t.Tracked) (u : ℕ) : (t.drop u).Tracked := by
  refine ht.shrink rfl (fun v => map_key_setStatus u v .dropped) ?_ ?_ (fun _ _ h => h) rfl
    (fun _ _ _ h => h)
  · intro k v hv; exact ((running_setStatus (by simp)).mp hv).2
  · intro k v hv; exact ((live_setStatus (by simp)).mp hv).2

variable {x : Task κ}

theorem Owned.drop (ht : t.Owned) (hu : t.task u = some x) (ha : x.aborted = true) :
    (t.drop u).Owned := by
  refine ⟨ht.toTracked.drop u, ht.closed, fun k v hv => ?_⟩
  have hlive := ht.live k v hv
  refine (live_setStatus (by simp)).mpr ⟨?_, hlive⟩
  rintro rfl
  unfold Live at hlive
  rw [hu] at hlive
  cases hlive
  cases ha

theorem running_of_drain (h : t.drain.Running u k) : t.Running u k := by
  obtain ⟨b, hb⟩ := h
  obtain ⟨x, hx, hx'⟩ := Option.map_eq_some_iff.mp hb
  obtain ⟨key, status, aborted⟩ := x
  split_ifs at hx' <;> cases hx' <;> exact ⟨_, hx⟩

theorem live_of_drain (h : t.drain.Live u k) : t.Live u k ∧ t.entries k ≠ some u := by
  obtain ⟨x, hx, hx'⟩ := Option.map_eq_some_iff.mp h
  split_ifs at hx' with he
  · simp at hx'
  · subst hx'
    exact ⟨hx, he⟩

theorem Tracked.drain (ht : t.Tracked) : t.drain.Tracked :=
  ht.shrink rfl map_key_drain (fun _ _ h => running_of_drain h) (fun _ _ h => (live_of_drain h).1)
    (fun k u h => by simp [TaskTable.drain] at h) rfl
    (fun _ _ h he => absurd he (live_of_drain h).2)

theorem Tracked.drain_not_live (ht : t.Tracked) (hc : t.opening = none) : ¬ t.drain.Live u k := by
  intro hu
  rcases ht.drain.listed k u hu with h | h
  · simp [TaskTable.drain] at h
  · simp [TaskTable.drain, hc] at h

theorem Owned.drain (ht : t.Owned) : t.drain.Owned :=
  ⟨ht.toTracked.drain, ht.closed, fun k u h => by simp [TaskTable.drain] at h⟩

/-! ## Opening, removing, finishing -/

theorem Tracked.spawn (ht : t.Tracked) (hk : t.KeyFree k) (hc : t.opening = none) :
    (t.spawn k).Tracked := by
  have hnew : t.task t.next = none := ht.fresh _ le_rfl
  have hrun : ∀ k' v, (t.spawn k).Running v k' ↔
      (v = t.next ∧ k' = k) ∨ (v ≠ t.next ∧ t.Running v k') := by
    intro k' v; rw [running_update (t := t) rfl]; simp [eq_comm]
  have hlive : ∀ k' v, (t.spawn k).Live v k' ↔
      (v = t.next ∧ k' = k) ∨ (v ≠ t.next ∧ t.Live v k') := by
    intro k' v; rw [live_update (t := t) rfl]; simp [eq_comm]
  refine ⟨ht.fresh.spawn k, ?_, ?_, ?_, ?_⟩
  · intro k' v hv
    have hkey := ht.keyed k' v hv
    have : v ≠ t.next := by rintro rfl; rw [hnew] at hkey; cases hkey
    simpa [TaskTable.spawn, this] using hkey
  · intro k' v hv
    obtain ⟨rfl, rfl⟩ : k = k' ∧ t.next = v := by simpa [TaskTable.spawn] using hv
    refine ⟨by simp [TaskTable.spawn], fun v hv => ?_⟩
    rcases (hrun _ _).mp hv with ⟨h, -⟩ | ⟨-, h⟩
    · exact h
    · exact absurd h (hk v)
  · intro k' v v' hv hv'
    rcases (hrun _ _).mp hv with ⟨h1, h2⟩ | ⟨h1, h2⟩ <;>
      rcases (hrun _ _).mp hv' with ⟨h1', h2'⟩ | ⟨h1', h2'⟩
    · rw [h1, h1']
    · exact absurd (h2 ▸ h2') (hk v')
    · exact absurd (h2' ▸ h2) (hk v)
    · exact ht.unique k' v v' h2 h2'
  · intro k' v hv
    rcases (hlive _ _).mp hv with ⟨rfl, rfl⟩ | ⟨-, h⟩
    · exact .inr rfl
    · rcases ht.listed k' v h with h' | h'
      · exact .inl h'
      · rw [hc] at h'; cases h'

theorem Owned.entry_of_running (ht : t.Owned) (hu : t.Running u k) (he : t.entries k = some v) :
    v = u :=
  ht.unique k v u (ht.live k v he).running hu

variable [DecidableEq κ]

@[simp]
theorem task_insert : t.insert.task = t.task := by
  unfold TaskTable.insert; cases t.opening <;> rfl

@[simp]
theorem next_insert : t.insert.next = t.next := by
  unfold TaskTable.insert; cases t.opening <;> rfl

@[simp]
theorem opening_insert : t.insert.opening = none := by
  unfold TaskTable.insert; cases h : t.opening <;> simp [h]

@[simp]
theorem next_remove : (t.remove k).next = t.next := by
  unfold TaskTable.remove; cases t.entries k <;> rfl

@[simp]
theorem opening_remove : (t.remove k).opening = t.opening := by
  unfold TaskTable.remove; cases t.entries k <;> rfl

theorem task_remove (v : ℕ) :
    (t.remove k).task v = t.task v ∨
      ∃ x, t.task v = some x ∧ (t.remove k).task v = some { x with aborted := true } := by
  unfold TaskTable.remove
  cases t.entries k with
  | none => exact .inl rfl
  | some u => exact task_abortTask u v

theorem map_key_remove (v : ℕ) : ((t.remove k).task v).map Task.key = (t.task v).map Task.key := by
  unfold TaskTable.remove
  cases t.entries k with
  | none => rfl
  | some u => exact map_key_abortTask u v

@[simp]
theorem isRunning_insert : t.insert.isRunning v = t.isRunning v := by simp [isRunning]

@[simp]
theorem isRunning_remove : (t.remove k).isRunning v = t.isRunning v := by
  unfold TaskTable.remove
  cases t.entries k with
  | none => rfl
  | some u => exact isRunning_abortTask

theorem live_of_remove (h : (t.remove k).Live u k') : t.Live u k' := by
  unfold TaskTable.remove at h
  cases he : t.entries k with
  | none => rwa [he] at h
  | some v => rw [he] at h; exact (live_abortTask.mp h).2

omit [DecidableEq κ] in
theorem Fresh.all_iff (hf : t.Fresh) {P : Task κ → Bool} :
    ((List.range t.next).all fun u => (t.task u).all P) = true ↔
      ∀ u x, t.task u = some x → P x = true := by
  simp only [List.all_eq_true, List.mem_range]
  constructor
  · intro h u x hx
    have hu : u < t.next := by
      by_contra hu
      rw [hf u (not_lt.mp hu)] at hx
      cases hx
    simpa [hx] using h u hu
  · intro h u _
    cases hx : t.task u with
    | none => rfl
    | some x => exact h u x hx

theorem Fresh.keyFree_iff (hf : t.Fresh) : t.keyFree k = true ↔ t.KeyFree k := by
  refine hf.all_iff.trans ⟨?_, ?_⟩
  · rintro h u ⟨b, hb⟩
    simpa using h u _ hb
  · rintro h u ⟨key, status, aborted⟩ hx
    by_contra hne
    obtain ⟨rfl, rfl⟩ : key = k ∧ status = .running := by simpa using hne
    exact h u ⟨aborted, hx⟩

theorem finish_eq (hu : t.task u = some x) :
    t.finish u =
      { t.setStatus u .finished with entries := Function.update t.entries x.key none } := by
  simp [finish, hu]

theorem running_finish (hu : t.task u = some x) :
    (t.finish u).Running v k ↔ v ≠ u ∧ t.Running v k := by
  rw [finish_eq hu]
  exact running_setStatus (t := t) (by simp)

theorem live_finish (hu : t.task u = some x) : (t.finish u).Live v k ↔ v ≠ u ∧ t.Live v k := by
  rw [finish_eq hu]
  exact live_setStatus (t := t) (by simp)

theorem isRunning_finish (hu : t.task u = some x) :
    (t.finish u).isRunning v = (t.isRunning v && decide (v ≠ u)) := by
  rw [finish_eq hu]
  exact isRunning_setStatus (t := t) (by simp)

theorem Fresh.insert (hf : t.Fresh) : t.insert.Fresh := hf.of_key (by simp) (by simp)

theorem Fresh.remove (hf : t.Fresh) (k : κ) : (t.remove k).Fresh :=
  hf.of_key (by simp) map_key_remove

theorem Fresh.finish (hf : t.Fresh) (hu : t.task u = some x) : (t.finish u).Fresh := by
  rw [finish_eq hu]
  exact hf.of_key rfl fun v => map_key_setStatus u v .finished

theorem entries_insert (h : t.insert.entries k = some u) :
    t.entries k = some u ∨ t.opening = some (k, u) := by
  unfold TaskTable.insert at h
  cases ho : t.opening with
  | none => rw [ho] at h; exact .inl h
  | some ku =>
    obtain ⟨k', v⟩ := ku
    simp only [ho] at h
    by_cases hk : k = k'
    · subst hk
      obtain rfl : v = u := by simpa using h
      exact .inr rfl
    · exact .inl (by simpa [hk] using h)

theorem Keyed.insert (ht : t.Keyed) : t.insert.Keyed := by
  refine ⟨fun k u hu => ?_, fun k u hu => by simp at hu⟩
  rw [task_insert]
  rcases entries_insert hu with h | h
  · exact ht.stored k u h
  · exact (ht.opened k u h).1

theorem entries_remove (h : (t.remove k).entries k' = some u) : t.entries k' = some u := by
  unfold TaskTable.remove at h
  cases he : t.entries k with
  | none => rwa [he] at h
  | some v =>
    simp only [he] at h
    by_cases hk : k' = k
    · subst hk; simp at h
    · simpa [hk] using h

theorem Keyed.remove (ht : t.Keyed) (k : κ) : (t.remove k).Keyed :=
  ht.shrink map_key_remove (fun _ _ h => entries_remove h) (by simp)

theorem Keyed.finish (ht : t.Keyed) (hu : t.task u = some x) : (t.finish u).Keyed := by
  rw [finish_eq hu]
  refine ht.shrink (fun v => map_key_setStatus u v .finished) (fun k v hv => ?_) rfl
  by_cases hk : k = x.key
  · subst hk; simp at hv
  · simpa [hk] using hv

theorem Tracked.insert (ht : t.Tracked) : t.insert.Tracked := by
  unfold TaskTable.insert
  cases ho : t.opening with
  | none => exact ht
  | some ku =>
    obtain ⟨k, u⟩ := ku
    obtain ⟨hkey, hrun⟩ := ht.opened k u ho
    refine ⟨ht.fresh, ?_, by simp, ht.unique, ?_⟩
    · intro k' v hv
      by_cases hk : k' = k
      · subst hk
        obtain rfl : u = v := by simpa using hv
        exact hkey
      · exact ht.keyed k' v (by simpa [Function.update_of_ne hk] using hv)
    · intro k' v hv
      left
      by_cases hk : k' = k
      · subst hk
        rw [hrun v (Live.running hv)]
        simp
      · rcases ht.listed k' v hv with h | h
        · simpa [Function.update_of_ne hk] using h
        · rw [ho] at h; simp [Ne.symm hk] at h

theorem Owned.openTask (ht : t.Owned) (hk : t.KeyFree k) : (t.openTask k).Owned := by
  refine ⟨(ht.toTracked.spawn hk ht.closed).insert, rfl, fun k' u hu => ?_⟩
  have hu : Function.update t.entries k (some t.next) k' = some u := hu
  have hlive : (t.openTask k).Live u k' ↔ _ := live_update (t := t) (u := t.next) rfl
  by_cases hkk : k' = k
  · subst hkk
    obtain rfl : t.next = u := by simpa using hu
    exact hlive.mpr (.inl ⟨rfl, rfl⟩)
  · rw [Function.update_of_ne hkk] at hu
    have h := ht.live k' u hu
    refine hlive.mpr (.inr ⟨?_, h⟩)
    rintro rfl
    unfold Live at h
    rw [ht.fresh _ le_rfl] at h
    cases h

theorem Tracked.remove (ht : t.Tracked) (k : κ) : (t.remove k).Tracked := by
  unfold TaskTable.remove
  cases he : t.entries k with
  | none => exact ht
  | some u =>
    refine ht.shrink rfl (map_key_abortTask u) ?_ ?_ ?_ rfl ?_
    · intro k' v hv; exact running_abortTask.mp hv
    · intro k' v hv; exact (live_abortTask.mp hv).2
    · intro k' v hv
      by_cases hk : k' = k
      · subst hk; simp at hv
      · simpa [Function.update_of_ne hk] using hv
    · intro k' v hv he'
      have hne := (live_abortTask.mp hv).1
      have hk : k' ≠ k := by
        rintro rfl
        rw [he] at he'
        exact hne (Option.some.inj he').symm
      simpa [Function.update_of_ne hk] using he'

theorem Owned.remove (ht : t.Owned) (k : κ) : (t.remove k).Owned := by
  refine ⟨ht.toTracked.remove k, ?_, ?_⟩
  · unfold TaskTable.remove; cases t.entries k <;> exact ht.closed
  · intro k' v hv
    unfold TaskTable.remove at hv ⊢
    cases he : t.entries k with
    | none => rw [he] at hv; exact ht.live k' v hv
    | some u =>
      simp only [he] at hv ⊢
      by_cases hk : k' = k
      · subst hk; simp at hv
      · simp only [Function.update_of_ne hk] at hv
        refine live_abortTask.mpr ⟨?_, ht.live k' v hv⟩
        rintro rfl
        have h1 := ht.keyed k' v hv
        rw [ht.keyed k v he] at h1
        exact hk (Option.some.inj h1).symm

theorem entries_finish (hu : t.Running u k) :
    (t.finish u).entries = Function.update t.entries k none := by
  obtain ⟨b, hb⟩ := hu
  simp [finish, hb]

theorem Tracked.finish (ht : t.Tracked) (hu : t.Running u k) : (t.finish u).Tracked := by
  have hent := entries_finish hu
  obtain ⟨b, hb⟩ := hu
  refine ht.shrink (by rw [finish_eq hb]; rfl)
    (fun v => by rw [finish_eq hb]; exact map_key_setStatus u v .finished)
    (fun _ _ h => ((running_finish hb).mp h).2) (fun _ _ h => ((live_finish hb).mp h).2) ?_
    (by rw [finish_eq hb]; rfl) ?_
  · intro k' v hv
    rw [hent] at hv
    by_cases hk : k' = k
    · subst hk; simp at hv
    · simpa [Function.update_of_ne hk] using hv
  · intro k' v hv he
    obtain ⟨hne, hv⟩ := (live_finish hb).mp hv
    have hk : k' ≠ k := by
      rintro rfl
      exact hne (ht.unique k' v u hv.running ⟨b, hb⟩)
    rw [hent, Function.update_of_ne hk]
    exact he

theorem Owned.finish (ht : t.Owned) (hu : t.Running u k) : (t.finish u).Owned := by
  have hent := entries_finish hu
  refine ⟨ht.toTracked.finish hu, ?_, fun k' v hv => ?_⟩ <;> obtain ⟨b, hb⟩ := hu
  · rw [finish_eq hb]
    exact ht.closed
  · rw [hent] at hv
    have hk : k' ≠ k := by rintro rfl; simp at hv
    rw [Function.update_of_ne hk] at hv
    refine (live_finish hb).mpr ⟨?_, ht.live k' v hv⟩
    rintro rfl
    have := ht.keyed k' v hv
    rw [hb] at this
    exact hk (Option.some.inj this).symm

end TaskTable

end SkadiCore
