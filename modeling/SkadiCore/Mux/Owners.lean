import SkadiCore.Mux.Registry

/-!
# Who owns an XUDP cone

Any number of mux connections use the registry under the same GlobalIDs. The
registry keeps no owner: `detach_inner` (`crates/skadi-transport/src/xudp.rs`,
lines 102-114) cannot tell whose detach it is. Here the owner is recorded beside
the registry: the connection of the latest acquire of an id, the readers it has
registered since, and whether it has detached.
-/

namespace SkadiCore.Mux

/-! ## Model -/

structure Owner where
  conn : ℕ
  detached : Bool
  readers : List ℕ

/-- The registry with the owners of its ids. A reader task is a number: it is
    spawned when it is registered (`mux.rs`, lines 364-374), and `tasks` has the id
    of each. -/
structure Owners where
  registry : XudpManager ℕ
  owner : GlobalId → Option Owner
  tasks : List GlobalId
  aborted : List ℕ

inductive OwnerAct
  | acquire (c : ℕ) (id : GlobalId) (bind : Except String ℕ)
  | registerReader (c : ℕ) (id : GlobalId)
  | detach (c : ℕ) (id : GlobalId) (now : ℕ)
  | cleanup (now : ℕ)

namespace Owners

def init : Owners where
  registry := .new
  owner := fun _ => none
  tasks := []
  aborted := []

def op (s : Owners) : OwnerAct → XudpOp ℕ
  | .acquire _ id bind => .acquire id bind
  | .registerReader _ id => .registerReader id s.tasks.length
  | .detach _ id now => .detach id now
  | .cleanup now => .cleanup now

def owns (s : Owners) (c : ℕ) (id : GlobalId) : Bool := (s.owner id).any fun o => o.conn == c

def setOwner (s : Owners) (id : GlobalId) (f : Owner → Owner) : GlobalId → Option Owner :=
  Function.update s.owner id ((s.owner id).map f)

def ownerAfter (s : Owners) : OwnerAct → GlobalId → Option Owner
  | .acquire c id bind =>
    match (s.registry.acquireInner id bind).2.2 with
    | .ok _ => Function.update s.owner id (some ⟨c, false, []⟩)
    | .error _ => s.owner
  | .registerReader c id =>
    if s.owns c id then s.setOwner id fun o => { o with readers := s.tasks.length :: o.readers }
    else s.owner
  | .detach c id _ =>
    if s.owns c id then s.setOwner id fun o => { o with detached := true } else s.owner
  | .cleanup _ => s.owner

def tasksAfter (s : Owners) : OwnerAct → List GlobalId
  | .registerReader _ id => s.tasks ++ [id]
  | _ => s.tasks

def step (s : Owners) (a : OwnerAct) : Option Owners :=
  some
    { registry := (s.registry.apply (s.op a)).1
      owner := s.ownerAfter a
      tasks := s.tasksAfter a
      aborted := s.aborted ++ (s.registry.apply (s.op a)).2 }

def active (s : Owners) (id : GlobalId) : Bool :=
  (s.registry.entry id).any fun e => e.status == .active

def lateDetach (s : Owners) : OwnerAct → Bool
  | .detach c id _ => s.owns c id || !s.active id
  | _ => true

end Owners

/-! ## What an operation aborts -/

namespace XudpManager

variable {η : Type*} {m : XudpManager η} {id : GlobalId} {h : η}

def Holds (m : XudpManager η) (id : GlobalId) (h : η) : Prop :=
  ∃ e, m.entry id = some e ∧ e.readerAbort = some h

theorem holds_of_mem_acquireInner {bind : Except String ℕ}
    (hh : h ∈ (m.acquireInner id bind).2.1) : m.Holds id h := by
  unfold acquireInner at hh
  cases he : m.entries.lookup id with
  | none => cases bind <;> simp [he] at hh
  | some e =>
    rw [he] at hh
    by_cases hs : e.status = .initializing
    · simp [hs] at hh
    · simp only [hs, if_false, Option.mem_toList] at hh
      exact ⟨e, he, hh⟩

theorem holds_of_mem_detachInner {now : ℕ} (hh : h ∈ (m.detachInner id now).2) :
    m.Holds id h ∧ ∃ e, m.entry id = some e ∧ e.status = .active := by
  unfold detachInner at hh
  cases he : m.entries.lookup id with
  | none => simp [he] at hh
  | some e =>
    rw [he] at hh
    by_cases hs : e.status = .active
    · simp only [hs, if_true, Option.mem_toList] at hh
      exact ⟨⟨e, he, hh⟩, e, he, hs⟩
    · simp [hs] at hh

theorem holds_of_mem_cleanupExpired {now : ℕ} (hh : h ∈ (m.cleanupExpired now).2) :
    ∃ id e, m.entry id = some e ∧ e.readerAbort = some h ∧ e.status = .expiring := by
  obtain ⟨⟨id, e⟩, he, hh⟩ := List.mem_filterMap.mp hh
  obtain ⟨he, hx⟩ := List.mem_filter.mp he
  simp only [expired, Bool.and_eq_true, beq_iff_eq] at hx
  exact ⟨id, e, AList.mem_lookup_iff.mpr he, hh, hx.1⟩

end XudpManager

theorem XudpOp.readerAbort_onEntry {op : XudpOp ℕ} {id : GlobalId} {o : Option (XudpEntry ℕ)}
    {e' : XudpEntry ℕ} {h : ℕ} (he' : op.onEntry id o = some e') (hh : e'.readerAbort = some h) :
    op = .registerReader id h ∨ ∃ e, o = some e ∧ e.readerAbort = some h := by
  cases op with
  | acquire i bind =>
    simp only [onEntry] at he'
    split_ifs at he'
    · cases o with
      | none => cases bind <;> cases he'; cases hh
      | some e =>
        cases he'
        unfold XudpEntry.acquired at hh
        split_ifs at hh
        exact .inr ⟨e, rfl, hh⟩
    · exact .inr ⟨e', he', hh⟩
  | detach i now =>
    simp only [onEntry] at he'
    split_ifs at he'
    · obtain ⟨e, rfl, rfl⟩ := Option.map_eq_some_iff.mp he'
      unfold XudpEntry.detached at hh
      split_ifs at hh
      exact .inr ⟨e, rfl, hh⟩
    · exact .inr ⟨e', he', hh⟩
  | registerReader i abort =>
    simp only [onEntry] at he'
    split_ifs at he' with hi
    · obtain ⟨e, rfl, rfl⟩ := Option.map_eq_some_iff.mp he'
      cases hh
      exact .inl (by rw [hi])
    · exact .inr ⟨e', he', hh⟩
  | cleanup now =>
    exact .inr ⟨e', (Option.mem_filter_iff.mp (Option.mem_def.mpr he')).1, hh⟩

namespace Owners

variable {s t : Owners} {a : OwnerAct} {as : List OwnerAct} {id : GlobalId} {h : ℕ}

/-! ## The registry and its readers -/

theorem step_eq (hst : s.step a = some t) :
    t = ⟨(s.registry.apply (s.op a)).1, s.ownerAfter a, s.tasksAfter a,
      s.aborted ++ (s.registry.apply (s.op a)).2⟩ := by
  cases hst; rfl

theorem owner_of_step (hst : s.step a = some t) : t.owner = s.ownerAfter a := by
  rw [step_eq hst]

theorem aborted_of_step (hst : s.step a = some t) :
    t.aborted = s.aborted ++ (s.registry.apply (s.op a)).2 := by
  rw [step_eq hst]

theorem entry_of_step (hst : s.step a = some t) (id : GlobalId) :
    t.registry.entry id = (s.op a).onEntry id (s.registry.entry id) := by
  rw [step_eq hst]
  exact XudpManager.entry_apply _ _ _

theorem tasks_le_tasksAfter (s : Owners) (a : OwnerAct) : s.tasks <+: s.tasksAfter a := by
  cases a <;> simp [tasksAfter]

theorem getElem?_tasksAfter (a : OwnerAct) (hh : s.tasks[h]? = some id) :
    (s.tasksAfter a)[h]? = some id := by
  obtain ⟨ts, hts⟩ := tasks_le_tasksAfter s a
  rw [← hts, List.getElem?_append_left (List.getElem?_eq_some_iff.mp hh).1, hh]

structure Inv (s : Owners) : Prop where
  settled : ∀ id, ∀ e ∈ s.registry.entry id, e.Settled
  handle : ∀ id h, s.registry.Holds id h → s.tasks[h]? = some id
  reader : ∀ id o h, s.owner id = some o → h ∈ o.readers → s.tasks[h]? = some id
  spawned : ∀ h ∈ s.aborted, h < s.tasks.length

theorem Inv.lt_of_mem_apply (hi : s.Inv) (hh : h ∈ (s.registry.apply (s.op a)).2) :
    h < s.tasks.length := by
  obtain ⟨id, hid⟩ : ∃ id, s.registry.Holds id h := by
    cases a with
    | acquire c id bind => exact ⟨id, XudpManager.holds_of_mem_acquireInner hh⟩
    | registerReader c id => cases hh
    | detach c id now => exact ⟨id, (XudpManager.holds_of_mem_detachInner hh).1⟩
    | cleanup now =>
      obtain ⟨id, e, he, hh, -⟩ := XudpManager.holds_of_mem_cleanupExpired hh
      exact ⟨id, e, he, hh⟩
  exact (List.getElem?_eq_some_iff.mp (hi.handle id h hid)).1

theorem ownerAfter_cases (s : Owners) (a : OwnerAct) (id : GlobalId) :
    s.ownerAfter a id = s.owner id ∨
      (∃ c bind r, a = .acquire c id bind ∧ (s.registry.acquireInner id bind).2.2 = .ok r ∧
        s.ownerAfter a id = some ⟨c, false, []⟩) ∨
      (∃ c, a = .registerReader c id ∧ s.ownerAfter a id =
        (s.owner id).map fun o => { o with readers := s.tasks.length :: o.readers }) ∨
      ∃ c now, a = .detach c id now ∧ s.owns c id = true ∧
        s.ownerAfter a id = (s.owner id).map fun o => { o with detached := true } := by
  cases a with
  | acquire c i bind =>
    simp only [ownerAfter]
    cases hr : (s.registry.acquireInner i bind).2.2 with
    | error e => exact .inl rfl
    | ok r =>
      by_cases hid : id = i
      · subst hid
        exact .inr (.inl ⟨c, bind, r, rfl, hr, Function.update_self _ _ _⟩)
      · exact .inl (Function.update_of_ne hid _ _)
  | registerReader c i =>
    simp only [ownerAfter]
    split_ifs
    · by_cases hid : id = i
      · subst hid
        exact .inr (.inr (.inl ⟨c, rfl, Function.update_self _ _ _⟩))
      · exact .inl (Function.update_of_ne hid _ _)
    · exact .inl rfl
  | detach c i now =>
    simp only [ownerAfter]
    split_ifs with hown
    · by_cases hid : id = i
      · subst hid
        exact .inr (.inr (.inr ⟨c, now, rfl, hown, Function.update_self _ _ _⟩))
      · exact .inl (Function.update_of_ne hid _ _)
    · exact .inl rfl
  | cleanup now => exact .inl rfl

theorem reader_cases {o' : Owner} (ho' : s.ownerAfter a id = some o') (hh : h ∈ o'.readers) :
    (∃ o, s.owner id = some o ∧ h ∈ o.readers) ∨
      ∃ c, a = .registerReader c id ∧ h = s.tasks.length := by
  rcases ownerAfter_cases s a id with heq | ⟨c, bind, r, rfl, -, heq⟩ | ⟨c, rfl, heq⟩ |
    ⟨c, now, rfl, -, heq⟩ <;> rw [heq] at ho'
  · exact .inl ⟨o', ho', hh⟩
  · cases ho'
    cases hh
  · obtain ⟨o, ho, rfl⟩ := Option.map_eq_some_iff.mp ho'
    rcases List.mem_cons.mp hh with rfl | hh
    · exact .inr ⟨c, rfl, rfl⟩
    · exact .inl ⟨o, ho, hh⟩
  · obtain ⟨o, ho, rfl⟩ := Option.map_eq_some_iff.mp ho'
    exact .inl ⟨o, ho, hh⟩

theorem exists_owner {o' : Owner} (ha : ∀ c bind, a ≠ .acquire c id bind)
    (ho' : s.ownerAfter a id = some o') (hd' : o'.detached = false) :
    ∃ o, s.owner id = some o ∧ o.detached = false := by
  rcases ownerAfter_cases s a id with heq | ⟨c, bind, r, rfl, -, -⟩ | ⟨c, rfl, heq⟩ |
    ⟨c, now, rfl, -, heq⟩
  · exact ⟨o', heq ▸ ho', hd'⟩
  · exact absurd rfl (ha c bind)
  · obtain ⟨o, ho, rfl⟩ := Option.map_eq_some_iff.mp (heq ▸ ho')
    exact ⟨o, ho, hd'⟩
  · obtain ⟨o, -, rfl⟩ := Option.map_eq_some_iff.mp (heq ▸ ho')
    cases hd'

theorem Inv.step (hi : s.Inv) (hst : s.step a = some t) : t.Inv where
  settled id := by
    rw [entry_of_step hst]
    exact XudpOp.settled_onEntry (hi.settled id)
  handle id h := by
    rintro ⟨e', he', hh⟩
    rw [entry_of_step hst] at he'
    rw [step_eq hst]
    rcases XudpOp.readerAbort_onEntry he' hh with hop | ⟨e, he, hh⟩
    · cases a with
      | registerReader c i => cases hop; simp [tasksAfter]
      | _ => cases hop
    · exact getElem?_tasksAfter a (hi.handle id h ⟨e, he, hh⟩)
  reader id o' h ho' hh := by
    rw [step_eq hst] at ho' ⊢
    rcases reader_cases ho' hh with ⟨o, ho, hh⟩ | ⟨c, rfl, rfl⟩
    · exact getElem?_tasksAfter a (hi.reader id o h ho hh)
    · simp [tasksAfter]
  spawned h hh := by
    rw [step_eq hst] at hh ⊢
    refine lt_of_lt_of_le ?_ (tasks_le_tasksAfter s a).length_le
    rcases List.mem_append.mp hh with hh | hh
    · exact hi.spawned h hh
    · exact hi.lt_of_mem_apply hh

theorem inv_init : init.Inv := by
  refine ⟨?_, ?_, ?_, ?_⟩ <;> simp [init, XudpManager.new, XudpManager.Holds, XudpManager.entry]

theorem inv_of_run (h : Run step Any init as s) : s.Inv :=
  h.invariant (fun _ _ _ hi _ hst => hi.step hst) inv_init

/-! ## What the latest owner keeps -/

theorem active_iff :
    s.active id = true ↔ ∃ e, s.registry.entry id = some e ∧ e.status = .active := by
  simp [active, Option.any_eq_true]

theorem Inv.eq_of_holds {id' : GlobalId} {o : Owner} (hi : s.Inv) (ho : s.owner id = some o)
    (hh : h ∈ o.readers) (hid' : s.registry.Holds id' h) : id' = id := by
  have := (hi.handle id' h hid').symm.trans (hi.reader id o h ho hh)
  exact Option.some.inj this

def Keeps (s : Owners) (id : GlobalId) : Prop :=
  ∀ o, s.owner id = some o → o.detached = false →
    s.active id = true ∧ ∀ h ∈ o.readers, h ∉ s.aborted

theorem Keeps.of_eq (hk : s.Keeps id) (howner : t.owner id = s.owner id)
    (hentry : s.active id = true → t.active id = true)
    (haborted : ∀ o h, s.owner id = some o → o.detached = false → h ∈ o.readers →
      h ∈ t.aborted → h ∈ s.aborted) : t.Keeps id := by
  intro o ho hd
  rw [howner] at ho
  obtain ⟨hactive, hreaders⟩ := hk o ho hd
  exact ⟨hentry hactive, fun h hh hab => hreaders h hh (haborted o h ho hd hh hab)⟩

variable {i : GlobalId}

theorem Keeps.of_other (hi : s.Inv) (hk : s.Keeps id) (hid : id ≠ i) (hst : s.step a = some t)
    (howner : s.ownerAfter a id = s.owner id)
    (hentry : (s.op a).onEntry id (s.registry.entry id) = s.registry.entry id)
    (hholds : ∀ h ∈ (s.registry.apply (s.op a)).2, s.registry.Holds i h) : t.Keeps id := by
  refine hk.of_eq (by rw [owner_of_step hst, howner]) (fun hactive => ?_)
    fun o h ho _ hh hab => ?_
  · rw [active_iff] at hactive ⊢
    rwa [entry_of_step hst, hentry]
  · rw [aborted_of_step hst] at hab
    rcases List.mem_append.mp hab with hab | hab
    · exact hab
    · exact absurd (hi.eq_of_holds ho hh (hholds h hab)).symm hid

theorem Keeps.acquire {c : ℕ} {bind : Except String ℕ} (hi : s.Inv) (hk : s.Keeps id)
    (hst : s.step (.acquire c i bind) = some t) : t.Keeps id := by
  by_cases hid : id = i
  · subst hid
    intro o ho hd
    rw [owner_of_step hst] at ho
    cases hr : (s.registry.acquireInner id bind).2.2 with
    | ok r =>
      -- the acquire makes the entry Active and its owner has no reader yet
      obtain rfl : o = ⟨c, false, []⟩ := by simpa [ownerAfter, hr, eq_comm] using ho
      refine ⟨active_iff.mpr ?_, by simp⟩
      rw [entry_of_step hst id]
      cases he : s.registry.entry id with
      | none =>
        rw [XudpManager.acquireInner_of_none he] at hr
        cases bind with
        | error msg => cases hr
        | ok socket => exact ⟨_, if_pos rfl, rfl⟩
      | some e =>
        refine ⟨e.acquired, if_pos rfl, ?_⟩
        rw [XudpEntry.acquired_eq (hi.settled id e he)]
    | error err =>
      -- there was no entry, hence no owner that has not detached
      have ho' : s.owner id = some o := by simpa [ownerAfter, hr] using ho
      obtain ⟨e, he, -⟩ := active_iff.mp (hk o ho' hd).1
      rw [XudpManager.acquireInner_of_entry he] at hr
      cases hr
  · refine hk.of_other hi hid hst ?_ (if_neg (Ne.symm hid)) fun h hh =>
      XudpManager.holds_of_mem_acquireInner hh
    rcases ownerAfter_cases s (.acquire c i bind) id with heq | ⟨_, _, _, ⟨⟩, _⟩ | ⟨_, ⟨⟩, _⟩ |
      ⟨_, _, ⟨⟩, _⟩
    · exact heq
    · exact absurd rfl hid

theorem Keeps.registerReader {c : ℕ} (hi : s.Inv) (hk : s.Keeps id)
    (hst : s.step (.registerReader c i) = some t) : t.Keeps id := by
  have haborted : t.aborted = s.aborted := by
    rw [aborted_of_step hst]
    exact List.append_nil _
  have hactive : s.active id = true → t.active id = true := by
    rw [active_iff, active_iff, entry_of_step hst id]
    rintro ⟨e, he, hs⟩
    simp only [op, XudpOp.onEntry, he]
    split_ifs
    · exact ⟨_, rfl, hs⟩
    · exact ⟨e, rfl, hs⟩
  intro o' ho' hd'
  rw [owner_of_step hst] at ho'
  obtain ⟨o, ho, hd⟩ := exists_owner (by simp) ho' hd'
  refine ⟨hactive (hk o ho hd).1, fun h hh hab => ?_⟩
  rw [haborted] at hab
  rcases reader_cases ho' hh with ⟨o₁, ho₁, hh⟩ | ⟨-, -, rfl⟩
  · cases ho.symm.trans ho₁
    exact (hk o ho hd).2 h hh hab
  · exact lt_irrefl _ (hi.spawned _ hab)

theorem Keeps.detach {c : ℕ} {now : ℕ} (hi : s.Inv) (hk : s.Keeps id)
    (hlate : s.lateDetach (.detach c i now) = true) (hst : s.step (.detach c i now) = some t) :
    t.Keeps id := by
  by_cases hid : id = i
  · subst hid
    intro o' ho' hd'
    rw [owner_of_step hst] at ho'
    obtain ⟨o, ho, hd⟩ := exists_owner (by simp) ho' hd'
    -- the entry is Active, so that the detach is the owner's own
    have hactive := (hk o ho hd).1
    have hown : s.owns c id = true := by simpa [lateDetach, hactive] using hlate
    simp only [ownerAfter, hown, if_true, setOwner, Function.update_self, ho, Option.map_some,
      Option.some.injEq] at ho'
    subst ho'
    cases hd'
  · refine hk.of_other hi hid hst ?_ (if_neg (Ne.symm hid)) fun h hh =>
      (XudpManager.holds_of_mem_detachInner hh).1
    rcases ownerAfter_cases s (.detach c i now) id with heq | ⟨_, _, _, ⟨⟩, _⟩ | ⟨_, ⟨⟩, _⟩ |
      ⟨_, _, ⟨⟩, _⟩
    · exact heq
    · exact absurd rfl hid

theorem Keeps.cleanup {now : ℕ} (hi : s.Inv) (hk : s.Keeps id)
    (hst : s.step (.cleanup now) = some t) : t.Keeps id := by
  refine hk.of_eq (by rw [owner_of_step hst]; rfl) (fun hactive => ?_)
    fun o h ho hd hh hab => ?_
  · rw [active_iff] at hactive ⊢
    obtain ⟨e, he, hs⟩ := hactive
    refine ⟨e, ?_, hs⟩
    rw [entry_of_step hst, he]
    simp [op, XudpOp.onEntry, Option.filter, XudpManager.expired, hs]
  · rw [aborted_of_step hst] at hab
    rcases List.mem_append.mp hab with hab | hab
    · exact hab
    · obtain ⟨id', e', he', hh', hs'⟩ := XudpManager.holds_of_mem_cleanupExpired hab
      obtain rfl := hi.eq_of_holds ho hh ⟨e', he', hh'⟩
      obtain ⟨e, he, hs⟩ := active_iff.mp (hk o ho hd).1
      cases he.symm.trans he'
      rw [hs] at hs'
      cases hs'

theorem keeps_of_run (h : Run step (lateDetach · ·) init as s) : s.Inv ∧ ∀ id, s.Keeps id := by
  refine h.invariant (I := fun s => s.Inv ∧ ∀ id, s.Keeps id) ?_ ⟨inv_init, ?_⟩
  · rintro s a t ⟨hi, hk⟩ ha hst
    refine ⟨hi.step hst, fun id => ?_⟩
    cases a with
    | acquire c i bind => exact (hk id).acquire hi hst
    | registerReader c i => exact (hk id).registerReader hi hst
    | detach c i now => exact (hk id).detach hi ha hst
    | cleanup now => exact (hk id).cleanup hi hst
  · rintro id o ⟨⟩

theorem detachInner_entry_iff (m : XudpManager ℕ) (id : GlobalId) (now : ℕ) :
    ((m.detachInner id now).1.entry id = m.entry id ∧ (m.detachInner id now).2 = []) ↔
      ∀ e, m.entry id = some e → e.status ≠ .active := by
  rw [XudpManager.entry_detachInner, if_pos rfl]
  constructor
  · rintro ⟨heq, -⟩ e he hs
    rw [he, Option.map_some, Option.some.injEq] at heq
    have := congrArg XudpEntry.status heq
    simp [XudpEntry.detached, hs] at this
  · intro hne
    refine ⟨?_, ?_⟩
    · cases he : m.entry id with
      | none => rfl
      | some e => simp [XudpEntry.detached, hne e he]
    · refine List.eq_nil_iff_forall_not_mem.mpr fun h hh => ?_
      obtain ⟨-, e, he, hs⟩ := XudpManager.holds_of_mem_detachInner hh
      exact hne e he hs

/-- Superseded owners. In every reachable state a detach by a connection that did not
    perform the latest acquire of the id leaves the entry alone exactly if the entry
    is not Active; in runs in which such detaches come only then, the latest owner
    has an Active entry and unaborted readers until it detaches. -/
theorem superseded_detach_iff (as : List OwnerAct) (s : Owners) :
    (Run step Any init as s → ∀ c id now t, s.owns c id = false →
      s.step (.detach c id now) = some t →
      ((t.registry.entry id = s.registry.entry id ∧ t.aborted = s.aborted) ↔
        s.lateDetach (.detach c id now) = true)) ∧
    (Run step (lateDetach · ·) init as s → ∀ id o, s.owner id = some o →
      o.detached = false →
      (∃ e, s.registry.entry id = some e ∧ e.status = .active) ∧
        ∀ h ∈ o.readers, h ∉ s.aborted) := by
  refine ⟨fun _ c id now t hown hst => ?_, fun hrun id o ho hd => ?_⟩
  · have hlate : s.lateDetach (.detach c id now) = true ↔
        ∀ e, s.registry.entry id = some e → e.status ≠ .active := by
      simp only [lateDetach, hown, Bool.false_or, Bool.not_eq_true', ← Bool.not_eq_true, active_iff]
      push Not
      rfl
    rw [hlate, ← detachInner_entry_iff _ _ now, step_eq hst]
    refine and_congr Iff.rfl ?_
    exact List.append_right_eq_self
  · obtain ⟨hactive, hreaders⟩ := (keeps_of_run hrun).2 id o ho hd
    exact ⟨active_iff.mp hactive, hreaders⟩

theorem superseded_detach_iff_late :
    ∃ s o, Run step (lateDetach · ·) init [.acquire 1 TimedRegistry.sampleId (.ok 40),
        .detach 1 TimedRegistry.sampleId 5, .detach 3 TimedRegistry.sampleId 6,
        .acquire 2 TimedRegistry.sampleId (.ok 41),
        .registerReader 2 TimedRegistry.sampleId] s ∧
      s.owner TimedRegistry.sampleId = some o ∧ o.conn = 2 ∧
      (∃ e, s.registry.entry TimedRegistry.sampleId = some e ∧ e.status = .active) ∧
      ∀ h ∈ o.readers, h ∉ s.aborted := by
  have hrun : Run step (lateDetach · ·) init [.acquire 1 TimedRegistry.sampleId (.ok 40),
      .detach 1 TimedRegistry.sampleId 5, .detach 3 TimedRegistry.sampleId 6,
      .acquire 2 TimedRegistry.sampleId (.ok 41), .registerReader 2 TimedRegistry.sampleId] _ :=
    exec_run (fun _ _ h => h) rfl
  exact ⟨_, _, hrun, rfl, rfl, (superseded_detach_iff _ _).2 hrun _ _ rfl rfl⟩

def reconnect : List OwnerAct :=
  [.acquire 1 TimedRegistry.sampleId (.ok 40), .registerReader 1 TimedRegistry.sampleId,
    .acquire 2 TimedRegistry.sampleId (.ok 41), .registerReader 2 TimedRegistry.sampleId,
    .detach 1 TimedRegistry.sampleId 5]

theorem superseded_detach_disturbs :
    ∃ s o e, Run step Any init reconnect s ∧ s.owner TimedRegistry.sampleId = some o ∧
      o.conn = 2 ∧ o.detached = false ∧ o.readers = [1] ∧
      s.registry.entry TimedRegistry.sampleId = some e ∧ e.status = .expiring ∧
      1 ∈ s.aborted := by
  exact ⟨_, _, _, exec_any rfl, rfl, rfl, rfl, rfl, rfl, rfl, .tail _ (.head _)⟩

end Owners

end SkadiCore.Mux
