import SkadiCore.Common.Run
import SkadiCore.Mux.Xudp

/-!
# The XUDP registry over time

The registry is a map of independent entries: what an operation does to the entry
of one GlobalID depends on that entry alone (`entry_apply`). The lifetime of an
entry is therefore that of a small machine, `XudpOp.onEntry`.
-/

namespace SkadiCore.Mux

variable {η : Type*}

/-! ## Operations -/

inductive XudpOp (η : Type*)
  | acquire (id : GlobalId) (bind : Except String ℕ)
  | detach (id : GlobalId) (now : ℕ)
  | registerReader (id : GlobalId) (abort : η)
  | cleanup (now : ℕ)

def XudpManager.apply (m : XudpManager η) : XudpOp η → XudpManager η × List η
  | .acquire id bind => ((m.acquireInner id bind).1, (m.acquireInner id bind).2.1)
  | .detach id now => m.detachInner id now
  | .registerReader id abort => (m.registerReaderInner id abort, [])
  | .cleanup now => m.cleanupExpired now

def XudpManager.entry (m : XudpManager η) (id : GlobalId) : Option (XudpEntry η) :=
  m.entries.lookup id

namespace XudpEntry

def acquired (e : XudpEntry η) : XudpEntry η :=
  if e.status = .initializing then e
  else { e with readerAbort := none, expireAt := none, status := .active }

def detached (now : ℕ) (e : XudpEntry η) : XudpEntry η :=
  if e.status = .active then
    { e with readerAbort := none, status := .expiring, expireAt := some (now + XUDP_EXPIRE_TTL) }
  else e

def registered (abort : η) (e : XudpEntry η) : XudpEntry η := { e with readerAbort := some abort }

end XudpEntry

def acquiredEntry (bind : Except String ℕ) : Option (XudpEntry η) → Option (XudpEntry η)
  | some e => some e.acquired
  | none => bind.toOption.map fun socket => ⟨socket, .active, none, none⟩

def XudpOp.onEntry (id : GlobalId) : XudpOp η → Option (XudpEntry η) → Option (XudpEntry η)
  | .acquire i bind, e => if i = id then acquiredEntry bind e else e
  | .detach i now, e => if i = id then e.map (XudpEntry.detached now) else e
  | .registerReader i abort, e => if i = id then e.map (XudpEntry.registered abort) else e
  | .cleanup now, e => e.filter fun e => !XudpManager.expired now e

/-! ## Independence of the entries -/

namespace XudpManager

variable {m : XudpManager η} {id : GlobalId}

theorem entry_insert (i : GlobalId) (e : XudpEntry η) :
    entry ⟨m.entries.insert i e⟩ id = if i = id then some e else m.entry id := by
  unfold entry
  split_ifs with h
  · subst h; exact AList.lookup_insert _
  · exact AList.lookup_insert_ne (Ne.symm h)

section

variable {i : GlobalId} {f : Option (XudpEntry η) → Option (XudpEntry η)}

theorem entry_keep (h : f (m.entry i) = m.entry i) :
    m.entry id = if i = id then f (m.entry id) else m.entry id := by
  split_ifs with hi
  · rw [← hi, h]
  · rfl

theorem entry_write {e : XudpEntry η} (h : f (m.entry i) = some e) :
    entry ⟨m.entries.insert i e⟩ id = if i = id then f (m.entry id) else m.entry id := by
  rw [entry_insert]
  split_ifs with hi
  · rw [← hi, h]
  · rfl

end

theorem entry_acquireInner (m : XudpManager η) (id i : GlobalId) (bind : Except String ℕ) :
    (m.acquireInner i bind).1.entry id =
      if i = id then acquiredEntry bind (m.entry id) else m.entry id := by
  unfold acquireInner
  cases he : m.entries.lookup i with
  | none =>
    replace he : m.entry i = none := he
    cases bind with
    | error msg => exact entry_keep (by rw [he]; rfl)
    | ok socket => exact entry_write (by rw [he]; rfl)
  | some e =>
    replace he : m.entry i = some e := he
    by_cases hs : e.status = .initializing
    · simp only [hs, if_true]
      exact entry_keep (by simp [he, acquiredEntry, XudpEntry.acquired, hs])
    · simp only [hs, if_false]
      exact entry_write (by simp [he, acquiredEntry, XudpEntry.acquired, hs])

theorem entry_detachInner (m : XudpManager η) (id i : GlobalId) (now : ℕ) :
    (m.detachInner i now).1.entry id =
      if i = id then (m.entry id).map (XudpEntry.detached now) else m.entry id := by
  unfold detachInner
  cases he : m.entries.lookup i with
  | none =>
    replace he : m.entry i = none := he
    exact entry_keep (by rw [he]; rfl)
  | some e =>
    replace he : m.entry i = some e := he
    by_cases hs : e.status = .active
    · simp only [hs, if_true]
      exact entry_write (by simp [he, XudpEntry.detached, hs])
    · simp only [hs, if_false]
      exact entry_keep (by simp [he, XudpEntry.detached, hs])

theorem entry_registerReaderInner (m : XudpManager η) (id i : GlobalId) (abort : η) :
    (m.registerReaderInner i abort).entry id =
      if i = id then (m.entry id).map (XudpEntry.registered abort) else m.entry id := by
  unfold registerReaderInner
  cases he : m.entries.lookup i with
  | none =>
    replace he : m.entry i = none := he
    exact entry_keep (by rw [he]; rfl)
  | some e =>
    replace he : m.entry i = some e := he
    exact entry_write (by rw [he]; rfl)

theorem lookup_foldl_erase (id : GlobalId) (gone : List (Sigma fun _ : GlobalId => XudpEntry η))
    (es : AList fun _ : GlobalId => XudpEntry η) :
    (gone.foldl (fun es e => es.erase e.1) es).lookup id =
      if id ∈ gone.map Sigma.fst then none else es.lookup id := by
  induction gone generalizing es with
  | nil => simp
  | cons e gone ih =>
    rw [List.foldl_cons, ih]
    simp only [List.map_cons, List.mem_cons]
    by_cases hid : id = e.1
    · rw [if_pos (Or.inl hid), hid, AList.lookup_erase, ite_self]
    · rw [AList.lookup_erase_ne hid]
      exact if_congr (by simp [hid]) rfl rfl

theorem mem_expired_iff (m : XudpManager η) (id : GlobalId) (now : ℕ) :
    id ∈ (m.entries.entries.filter fun e => expired now e.2).map Sigma.fst ↔
      ∃ e, m.entry id = some e ∧ expired now e := by
  simp only [List.mem_map, List.mem_filter]
  constructor
  · rintro ⟨⟨i, e⟩, ⟨he, hx⟩, rfl⟩
    exact ⟨e, AList.mem_lookup_iff.mpr he, hx⟩
  · rintro ⟨e, he, hx⟩
    exact ⟨⟨id, e⟩, ⟨AList.mem_lookup_iff.mp he, hx⟩, rfl⟩

theorem entry_cleanupExpired (m : XudpManager η) (id : GlobalId) (now : ℕ) :
    (m.cleanupExpired now).1.entry id = (m.entry id).filter fun e => !expired now e := by
  have h := lookup_foldl_erase id (m.entries.entries.filter fun e => expired now e.2)
    m.entries
  rw [show (m.cleanupExpired now).1.entry id = _ from h]
  simp only [mem_expired_iff]
  change (if _ then none else m.entry id) = _
  cases he : m.entry id with
  | none => simp
  | some e => cases hx : expired now e <;> simp [hx, Option.filter]

theorem entry_apply (m : XudpManager η) (op : XudpOp η) (id : GlobalId) :
    (m.apply op).1.entry id = op.onEntry id (m.entry id) := by
  cases op with
  | acquire i bind => exact entry_acquireInner m id i bind
  | detach i now => exact entry_detachInner m id i now
  | registerReader i abort => exact entry_registerReaderInner m id i abort
  | cleanup now => exact entry_cleanupExpired m id now

theorem acquireInner_of_entry {e : XudpEntry η} (he : m.entry id = some e)
    (bind : Except String ℕ) : (m.acquireInner id bind).2.2 = .ok (e.socket, true) := by
  unfold acquireInner
  rw [show m.entries.lookup id = some e from he]
  simp only
  split_ifs <;> rfl

theorem acquireInner_of_none (he : m.entry id = none) (bind : Except String ℕ) :
    (m.acquireInner id bind).2.2 =
      (bind.map fun socket => (socket, false)).mapError fun msg => ⟨.other, msg⟩ := by
  unfold acquireInner
  rw [show m.entries.lookup id = none from he]
  cases bind <;> rfl

theorem entry_of_acquire {bind : Except String ℕ} {socket : ℕ} {hit : Bool}
    (h : (m.acquireInner id bind).2.2 = .ok (socket, hit)) :
    ∃ e, (m.acquireInner id bind).1.entry id = some e ∧ e.socket = socket := by
  rw [entry_acquireInner, if_pos rfl]
  cases he : m.entry id with
  | some e =>
    rw [acquireInner_of_entry he] at h
    cases h
    refine ⟨_, rfl, ?_⟩
    unfold XudpEntry.acquired
    split_ifs <;> rfl
  | none =>
    rw [acquireInner_of_none he] at h
    cases bind with
    | error msg => cases h
    | ok s => cases h; exact ⟨_, rfl, rfl⟩

end XudpManager

/-! ## The lifetime of an entry -/

def XudpEntry.Settled (e : XudpEntry η) : Prop :=
  e.status ≠ .initializing ∧ (e.expireAt.isSome ↔ e.status = .expiring)

namespace XudpEntry

variable {e : XudpEntry η}

theorem acquired_eq (h : e.Settled) :
    e.acquired = { e with readerAbort := none, expireAt := none, status := .active } :=
  if_neg h.1

theorem Settled.detached (h : e.Settled) (now : ℕ) : (e.detached now).Settled := by
  unfold XudpEntry.detached
  split_ifs
  · exact ⟨by simp, by simp⟩
  · exact h

end XudpEntry

namespace XudpOp

variable {op : XudpOp η} {id : GlobalId} {o : Option (XudpEntry η)}

theorem settled_onEntry (h : ∀ e ∈ o, e.Settled) : ∀ e ∈ op.onEntry id o, e.Settled := by
  cases op with
  | acquire i bind =>
    simp only [onEntry]
    split_ifs
    · cases o with
      | none =>
        cases bind with
        | error msg => simp [acquiredEntry, Except.toOption]
        | ok socket => simp [acquiredEntry, Except.toOption, XudpEntry.Settled]
      | some e =>
        simp only [acquiredEntry, Option.mem_some_iff, forall_eq',
          XudpEntry.acquired_eq (h e rfl)]
        exact ⟨by simp, by simp⟩
    · exact h
  | detach i now =>
    simp only [onEntry]
    split_ifs
    · intro e' he'
      obtain ⟨e, he, rfl⟩ := Option.mem_map.mp he'
      exact (h e he).detached now
    · exact h
  | registerReader i abort =>
    simp only [onEntry]
    split_ifs
    · intro e' he'
      obtain ⟨e, he, rfl⟩ := Option.mem_map.mp he'
      exact h e he
    · exact h
  | cleanup now => exact fun e he => h e (Option.mem_filter_iff.mp he).1

theorem socket_onEntry {e' : XudpEntry η} (hop : ∀ bind, op ≠ .acquire id bind)
    (he' : e' ∈ op.onEntry id o) : ∃ e ∈ o, e'.socket = e.socket := by
  cases op with
  | acquire i bind =>
    have hi : i ≠ id := fun h => hop bind (h ▸ rfl)
    simp only [onEntry, if_neg hi] at he'
    exact ⟨e', he', rfl⟩
  | detach i now =>
    simp only [onEntry] at he'
    split_ifs at he'
    · obtain ⟨e, he, rfl⟩ := Option.mem_map.mp he'
      refine ⟨e, he, ?_⟩
      unfold XudpEntry.detached
      split_ifs <;> rfl
    · exact ⟨e', he', rfl⟩
  | registerReader i abort =>
    simp only [onEntry] at he'
    split_ifs at he'
    · obtain ⟨e, he, rfl⟩ := Option.mem_map.mp he'
      exact ⟨e, he, rfl⟩
    · exact ⟨e', he', rfl⟩
  | cleanup now => exact ⟨e', (Option.mem_filter_iff.mp he').1, rfl⟩

def Waits (socket deadline : ℕ) (o : Option (XudpEntry η)) : Prop :=
  ∃ e, o = some e ∧ e.socket = socket ∧ e.status = .expiring ∧ e.expireAt = some deadline

theorem Waits.onEntry {socket deadline : ℕ} (h : Waits socket deadline o)
    (hop : ∀ bind, op ≠ .acquire id bind) (hnow : ∀ now, op = .cleanup now → now < deadline) :
    Waits socket deadline (op.onEntry id o) := by
  obtain ⟨e, rfl, hsocket, hstatus, hexpire⟩ := h
  cases op with
  | acquire i bind =>
    have hi : i ≠ id := fun h => hop bind (h ▸ rfl)
    exact ⟨e, if_neg hi, hsocket, hstatus, hexpire⟩
  | detach i now =>
    have hd : e.detached now = e := if_neg (by simp [hstatus])
    refine ⟨e, ?_, hsocket, hstatus, hexpire⟩
    simp [XudpOp.onEntry, hd]
  | registerReader i abort =>
    by_cases hi : i = id
    · exact ⟨e.registered abort, if_pos hi, hsocket, hstatus, hexpire⟩
    · exact ⟨e, if_neg hi, hsocket, hstatus, hexpire⟩
  | cleanup now =>
    have hx : XudpManager.expired now e = false := by
      have := hnow now rfl
      simp [XudpManager.expired, hexpire, this]
    exact ⟨e, by simp [XudpOp.onEntry, hx, Option.filter], hsocket, hstatus, hexpire⟩

end XudpOp

/-! ## Operations at non-decreasing times -/

structure TimedRegistry (η : Type*) where
  registry : XudpManager η
  now : ℕ

namespace TimedRegistry

def init : TimedRegistry η := ⟨.new, 0⟩

/-- The operation may run at `t`: `detach_inner` reads the clock under the lock,
    `cleanup_expired` before it asks for the lock (line 124). -/
def runsAt (t : ℕ) : XudpOp η → Bool
  | .detach _ now => now == t
  | .cleanup now => decide (now ≤ t)
  | _ => true

def step (s : TimedRegistry η) (a : ℕ × XudpOp η) : Option (TimedRegistry η) :=
  if s.now ≤ a.1 ∧ runsAt a.1 a.2 then some ⟨(s.registry.apply a.2).1, a.1⟩ else none

/-- The operation does not acquire `id`. -/
def noAcquire (id : GlobalId) (_ : TimedRegistry η) (a : ℕ × XudpOp η) : Prop :=
  ∀ bind, a.2 ≠ .acquire id bind

variable {s t : TimedRegistry η} {as : List (ℕ × XudpOp η)} {id : GlobalId}

theorem step_eq_some_iff {a : ℕ × XudpOp η} : s.step a = some t ↔
    (s.now ≤ a.1 ∧ runsAt a.1 a.2) ∧ t = ⟨(s.registry.apply a.2).1, a.1⟩ := by
  unfold step
  split_ifs with h
  · simp [h, eq_comm]
  · simp [h]

theorem entry_of_step {a : ℕ × XudpOp η} (h : s.step a = some t) (id : GlobalId) :
    t.registry.entry id = a.2.onEntry id (s.registry.entry id) := by
  obtain ⟨-, rfl⟩ := step_eq_some_iff.mp h
  exact XudpManager.entry_apply _ _ _

theorem settled_of_run (h : Run step Any init as s) :
    ∀ id, ∀ e ∈ s.registry.entry id, e.Settled := by
  refine h.invariant (I := fun s => ∀ id, ∀ e ∈ s.registry.entry id, XudpEntry.Settled e) ?_ ?_
  · intro s a t hs _ hst id
    rw [entry_of_step hst]
    exact XudpOp.settled_onEntry (hs id)
  · intro id e he
    cases he

theorem socket_of_run {socket : ℕ} (hs : ∀ e ∈ s.registry.entry id, e.socket = socket)
    (h : Run step (noAcquire id) s as t) : ∀ e ∈ t.registry.entry id, e.socket = socket := by
  refine h.invariant (I := fun s => ∀ e ∈ s.registry.entry id, XudpEntry.socket e = socket) ?_ hs
  intro s a t hs ha hst e' he'
  rw [entry_of_step hst] at he'
  obtain ⟨e, he, heq⟩ := XudpOp.socket_onEntry ha he'
  rw [heq, hs e he]

theorem waits_of_run {socket deadline : ℕ} (hs : XudpOp.Waits socket deadline (s.registry.entry id))
    (h : Run step (noAcquire id) s as t) (ht : t.now < deadline) :
    XudpOp.Waits socket deadline (t.registry.entry id) := by
  refine h.invariant (I := fun s => s.now < deadline →
    XudpOp.Waits socket deadline (s.registry.entry id)) ?_ (fun _ => hs) ht
  intro s a t hs ha hst ht
  obtain ⟨⟨hnow, hat⟩, rfl⟩ := step_eq_some_iff.mp hst
  rw [entry_of_step hst]
  refine (hs (lt_of_le_of_lt hnow ht)).onEntry ha fun now hop => ?_
  simp only [hop, runsAt, decide_eq_true_eq] at hat
  exact lt_of_le_of_lt hat ht

/-- The lifetime of registry entries. The last part follows one entry: acquired in
    `s`, Active in `s₂` and detached there at `t`, when it becomes Expiring, not acquired
    between, and next acquired in `s₄` at `t'`. -/
theorem registry_lifetime (h : Run step Any init as s) :
    (∀ id, ∀ e ∈ s.registry.entry id,
      e.status ≠ .initializing ∧ (e.expireAt.isSome ↔ e.status = .expiring)) ∧
    (∀ now id, ∀ e ∈ s.registry.entry id, e.status = .active →
      (s.registry.cleanupExpired now).1.entry id = some e) ∧
    ∀ id bind socket hit t₀ s₁ bs s₂ e t s₃,
      (s.registry.acquireInner id bind).2.2 = .ok (socket, hit) →
      s.step (t₀, .acquire id bind) = some s₁ →
      Run step (noAcquire id) s₁ bs s₂ → s₂.registry.entry id = some e → e.status = .active →
      s₂.step (t, .detach id t) = some s₃ →
      (∃ e₃, s₃.registry.entry id = some e₃ ∧ e₃.socket = socket ∧ e₃.status = .expiring ∧
        e₃.expireAt = some (t + XUDP_EXPIRE_TTL)) ∧
      ∀ cs s₄ bind' t' s₅, Run step (noAcquire id) s₃ cs s₄ →
        t' < t + XUDP_EXPIRE_TTL → s₄.step (t', .acquire id bind') = some s₅ →
        (s₄.registry.acquireInner id bind').2.2 = .ok (socket, true) ∧
          ∃ e', s₅.registry.entry id = some e' ∧ e'.socket = socket ∧ e'.status = .active := by
  refine ⟨settled_of_run h, ?_, ?_⟩
  · intro now id e he hactive
    rw [XudpManager.entry_cleanupExpired, Option.mem_def.mp he]
    simp [Option.filter, XudpManager.expired, hactive]
  · intro id bind socket hit t₀ s₁ bs s₂ e t s₃ hacq h₁ hbs he hactive h₃
    -- the entry has the socket of the first acquire until it is detached
    obtain ⟨e₁, he₁, hsocket₁⟩ := XudpManager.entry_of_acquire hacq
    have hs₁ : s₁.registry = (s.registry.acquireInner id bind).1 := by
      rw [(step_eq_some_iff.mp h₁).2]; rfl
    have hsocket : e.socket = socket :=
      socket_of_run (fun e' he' => by
        rw [hs₁, he₁] at he'
        cases he'
        exact hsocket₁) hbs e he
    -- from then on it waits
    have hwait : XudpOp.Waits socket (t + XUDP_EXPIRE_TTL) (s₃.registry.entry id) := by
      rw [entry_of_step h₃, he]
      refine ⟨e.detached t, if_pos rfl, ?_⟩
      simp [XudpEntry.detached, hactive, hsocket]
    refine ⟨hwait, fun cs s₄ bind' t' s₅ hcs ht' h₅ => ?_⟩
    have hnow : s₄.now < t + XUDP_EXPIRE_TTL :=
      lt_of_le_of_lt (step_eq_some_iff.mp h₅).1.1 ht'
    obtain ⟨e₄, he₄, hsocket₄, hstatus₄, -⟩ := waits_of_run hwait hcs hnow
    refine ⟨by rw [XudpManager.acquireInner_of_entry he₄, hsocket₄], e₄.acquired, ?_, ?_⟩
    · rw [entry_of_step h₅, he₄]
      exact if_pos rfl
    · simp [XudpEntry.acquired, hstatus₄, hsocket₄]

def sampleId : GlobalId := List.Vector.replicate 8 7

theorem registry_lifetime_reattach :
    ∃ s₄ s₅ : TimedRegistry ℕ,
      Run step Any init [(0, .acquire sampleId (.ok 40)), (5, .detach sampleId 5),
        (9, .detach sampleId 9), (30 * 10 ^ 9, .cleanup (30 * 10 ^ 9))] s₄ ∧
      s₄.step (4 + XUDP_EXPIRE_TTL, .acquire sampleId (.ok 41)) = some s₅ ∧
      (s₄.registry.acquireInner sampleId (.ok 41)).2.2 = .ok (40, true) ∧
      ∃ e, s₅.registry.entry sampleId = some e ∧ e.socket = 40 ∧ e.status = .active := by
  obtain ⟨s₁, s₃, s₃', s₄, s₅, e, h₁, he, hactive, h₃, h₃', h₄, h₅⟩ :
      ∃ (s₁ s₃ s₃' s₄ s₅ : TimedRegistry ℕ) (e : XudpEntry ℕ),
        init.step (0, .acquire sampleId (.ok 40)) = some s₁ ∧
        s₁.registry.entry sampleId = some e ∧ e.status = .active ∧
        s₁.step (5, .detach sampleId 5) = some s₃ ∧ s₃.step (9, .detach sampleId 9) = some s₃' ∧
        s₃'.step (30 * 10 ^ 9, .cleanup (30 * 10 ^ 9)) = some s₄ ∧
        s₄.step (4 + XUDP_EXPIRE_TTL, .acquire sampleId (.ok 41)) = some s₅ :=
    ⟨_, _, _, _, _, _, rfl, rfl, rfl, rfl, rfl, rfl, rfl⟩
  have hcs : Run step (noAcquire sampleId) s₃
      [(9, .detach sampleId 9), (30 * 10 ^ 9, .cleanup (30 * 10 ^ 9))] s₄ :=
    (Run.single (by simp [noAcquire]) h₃').snoc (by simp [noAcquire]) h₄
  have hrun := ((Run.single trivial h₁).snoc (C := Any) trivial h₃).append hcs.any
  exact ⟨s₄, s₅, hrun, h₅, ((registry_lifetime (Run.nil init)).2.2 _ _ _ _ _ _ _ _ _ _ _
    rfl h₁ (Run.nil s₁) he hactive h₃).2 _ _ _ _ _ hcs (by decide) h₅⟩

end TimedRegistry

end SkadiCore.Mux
