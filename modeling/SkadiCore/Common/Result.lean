import Mathlib.Tactic

/-!
# Fallible code

`Result` is `Except`, `?` its bind and `map_err` its `mapError`. A check returns nothing, and a
sequence of checks passes exactly if each of them does: `bind_eq_ok` takes a sequence apart.
A loop that builds a list succeeds with the values of its steps (`mapM_eq_ok`).
-/

namespace SkadiCore

variable {ε α β : Type}

def bailIf (failed : Bool) (message : ε) : Except ε Unit :=
  if failed then .error message else .ok ()

def checkIf (enabled : Bool) (check : Except ε Unit) : Except ε Unit :=
  if enabled then check else .ok ()

def okOr (message : ε) : Option α → Except ε α
  | some a => .ok a
  | none => .error message

def withContext {ε' : Type} (message : ε) : Except ε' α → Except ε α
  | .ok a => .ok a
  | .error _ => .error message

/-- The result is not an error. -/
def IsOk (x : Except ε α) : Prop := ∃ a, x = .ok a

@[simp] theorem isOk_ok (a : α) : IsOk (.ok a : Except ε α) := ⟨a, rfl⟩

@[simp] theorem isOk_error (e : ε) : ¬ IsOk (.error e : Except ε α) := fun ⟨_, h⟩ => by cases h

variable {message : ε}

@[simp]
theorem bailIf_eq_ok {failed : Bool} {u : Unit} :
    bailIf failed message = .ok u ↔ failed = false := by
  cases failed <;> simp [bailIf]

@[simp]
theorem checkIf_eq_ok {enabled : Bool} {check : Except ε Unit} {u : Unit} :
    checkIf enabled check = .ok u ↔ (enabled = true → check = .ok ()) := by
  cases enabled <;> simp [checkIf]

variable {a : α}

@[simp]
theorem okOr_eq_ok {x : Option α} : okOr message x = .ok a ↔ x = some a := by
  cases x <;> simp [okOr]

@[simp]
theorem withContext_eq_ok {ε' : Type} {x : Except ε' α} :
    withContext message x = .ok a ↔ x = .ok a := by
  cases x <;> simp [withContext]

@[simp]
theorem mapError_eq_ok {ε' : Type} {f : ε' → ε} {x : Except ε' α} :
    x.mapError f = .ok a ↔ x = .ok a := by
  cases x <;> simp [Except.mapError]

variable {f : α → Except ε β} {x : Except ε α}

theorem bind_eq_ok {b : β} : (x >>= f) = .ok b ↔ ∃ a, x = .ok a ∧ f a = .ok b := by
  cases x with
  | error e => simp [bind, Except.bind]
  | ok a => simp [bind, Except.bind]

theorem map_eq_ok {f : α → β} {b : β} : x.map f = .ok b ↔ ∃ a, x = .ok a ∧ f a = b := by
  cases x with
  | error e => simp [Except.map]
  | ok a => simp [Except.map]

theorem isOk_bind : IsOk (x >>= f) ↔ ∃ a, x = .ok a ∧ IsOk (f a) := by
  cases x with
  | error e => simp [bind, Except.bind]
  | ok a => simp [bind, Except.bind]

theorem exists_unit {p : Unit → Prop} : (∃ u, p u) ↔ p () := ⟨fun ⟨_, h⟩ => h, fun h => ⟨(), h⟩⟩

variable {l : List α}

theorem mapM_eq_ok :
    ∀ {bs : List β}, l.mapM f = .ok bs ↔ List.Forall₂ (fun a b => f a = .ok b) l bs := by
  induction l with
  | nil =>
    intro bs
    simp [pure, Except.pure, eq_comm]
  | cons a l ih =>
    intro bs
    simp only [List.mapM_cons, bind_eq_ok, ih, pure, Except.pure, Except.ok.injEq,
      List.forall₂_cons_left_iff]
    constructor
    · rintro ⟨b, hb, bs', hbs', rfl⟩
      exact ⟨b, bs', hb, hbs', rfl⟩
    · rintro ⟨b, bs', hb, hbs', rfl⟩
      exact ⟨b, hb, bs', hbs', rfl⟩

variable {bs : List β}

theorem exists_of_mem_mapM (h : l.mapM f = .ok bs) {b : β} (hb : b ∈ bs) :
    ∃ a ∈ l, f a = .ok b := by
  induction mapM_eq_ok.mp h with
  | nil => cases hb
  | cons hab hrest ih =>
    rcases List.mem_cons.mp hb with rfl | hb
    · exact ⟨_, List.mem_cons_self, hab⟩
    · obtain ⟨a, ha, hab⟩ := ih (mapM_eq_ok.mpr hrest) hb
      exact ⟨a, List.mem_cons_of_mem _ ha, hab⟩

theorem isOk_of_mem_mapM (h : l.mapM f = .ok bs) (ha : a ∈ l) : IsOk (f a) := by
  induction mapM_eq_ok.mp h with
  | nil => cases ha
  | cons hab hrest ih =>
    rcases List.mem_cons.mp ha with rfl | ha
    · exact ⟨_, hab⟩
    · exact ih (mapM_eq_ok.mpr hrest) ha

theorem getElem?_of_mapM (h : l.mapM f = .ok bs) {i : ℕ} (ha : l[i]? = some a) :
    ∃ b, bs[i]? = some b ∧ f a = .ok b := by
  induction mapM_eq_ok.mp h generalizing i with
  | nil => cases ha
  | cons hab hrest ih =>
    cases i with
    | zero =>
      cases ha
      exact ⟨_, rfl, hab⟩
    | succ i => exact ih (mapM_eq_ok.mpr hrest) ha

theorem mapM_isOk (h : ∀ a ∈ l, IsOk (f a)) : IsOk (l.mapM f) := by
  induction l with
  | nil => exact ⟨[], rfl⟩
  | cons a l ih =>
    obtain ⟨⟨b, hb⟩, hl⟩ := List.forall_mem_cons.mp h
    obtain ⟨bs, hbs⟩ := ih hl
    exact ⟨b :: bs, mapM_eq_ok.mpr (.cons hb (mapM_eq_ok.mp hbs))⟩

theorem option_mapM_isOk {x : Option α} : IsOk (x.mapM f) ↔ ∀ a ∈ x, IsOk (f a) := by
  cases x with
  | none => simp [pure, Except.pure]
  | some a =>
    cases h : f a with
    | error e => simp [h, Functor.map, Except.map]
    | ok b => simp [h, Functor.map, Except.map]

end SkadiCore
