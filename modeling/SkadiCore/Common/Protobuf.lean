import SkadiCore.Common.Bytes

/-!
# Protobuf messages on the wire

A message is a sequence of fields. A field is a tag, which holds its number and the type of its
body, and the body. Tags, lengths and integers are varints: seven bits a byte, lowest first,
the top bit on every byte but the last, at most ten bytes.

`Field.WellFormed` is what the format asks of a field. `Framed` is less: it is what a reader
needs that takes varints modulo `2 ^ 64`, does not look at field numbers, and lets a body of
fixed size end with the string.

* `Framed.unique`: a string can be split into fields in one way only.
* `Field.wellFormed_iff`: a field that is framed is well formed if it has none of the flaws
  that such a reader overlooks.
-/

namespace SkadiCore.Protobuf

/-! ## Varints -/

/-- A varint of at most `n` bytes. -/
inductive Varint : ℕ → Bytes → Prop
  | last {n : ℕ} {b : Byte} (h : b.toNat < 128) : Varint (n + 1) [b]
  | more {n : ℕ} {b : Byte} {v : Bytes} (h : 128 ≤ b.toNat) (hv : Varint n v) :
    Varint (n + 1) (b :: v)

def value : Bytes → ℕ
  | [] => 0
  | b :: v => b.toNat % 128 + 128 * value v

variable {n : ℕ} {v w rest rest' : Bytes}

theorem Varint.ne_nil (h : Varint n v) : v ≠ [] := by
  cases h with
  | last _ => exact List.cons_ne_nil _ _
  | more _ _ => exact List.cons_ne_nil _ _

theorem Varint.append_inj (hv : Varint n v) (hw : Varint n w) (h : v ++ rest = w ++ rest') :
    v = w ∧ rest = rest' := by
  induction hv generalizing w with
  | last hb =>
    cases hw with
    | last _ => exact ⟨by rw [(List.cons.inj h).1], (List.cons.inj h).2⟩
    | more hb' _ =>
      rw [(List.cons.inj h).1] at hb
      omega
  | more hb hv ih =>
    cases hw with
    | last hb' =>
      rw [(List.cons.inj h).1] at hb
      omega
    | more _ hw =>
      obtain ⟨rfl, rfl⟩ := ih hw (List.cons.inj h).2
      exact ⟨by rw [(List.cons.inj h).1], rfl⟩

variable {P : Bytes → Bytes → Prop}

theorem exists_varint_last_iff {b : Byte} {l : Bytes} (h : b.toNat < 128) :
    (∃ v rest, b :: l = v ++ rest ∧ Varint (n + 1) v ∧ P v rest) ↔ P [b] l := by
  constructor
  · rintro ⟨v, rest, heq, hv, hP⟩
    obtain ⟨rfl, rfl⟩ := hv.append_inj (.last h) heq.symm
    exact hP
  · exact fun hP => ⟨[b], l, rfl, .last h, hP⟩

theorem exists_varint_more_iff {b : Byte} {l : Bytes} (h : 128 ≤ b.toNat) :
    (∃ v rest, b :: l = v ++ rest ∧ Varint (n + 1) v ∧ P v rest) ↔
      ∃ v rest, l = v ++ rest ∧ Varint n v ∧ P (b :: v) rest := by
  constructor
  · rintro ⟨v, rest, heq, hv, hP⟩
    cases hv with
    | last hb =>
      rw [(List.cons.inj heq).1] at h
      omega
    | more hb hv =>
      obtain ⟨rfl, htail⟩ := List.cons.inj heq
      exact ⟨_, rest, htail, hv, hP⟩
  · rintro ⟨v, rest, rfl, hv, hP⟩
    exact ⟨b :: v, rest, rfl, .more h hv, hP⟩

/-! ## Fields -/

inductive Body
  | varint (v : Bytes)
  | fixed64 (b : Bytes)
  | delimited (len b : Bytes)
  | fixed32 (b : Bytes)
  deriving DecidableEq

def Body.wireType : Body → ℕ
  | varint _ => 0
  | fixed64 _ => 1
  | delimited _ _ => 2
  | fixed32 _ => 5

def Body.bytes : Body → Bytes
  | varint v => v
  | fixed64 b => b
  | delimited len b => len ++ b
  | fixed32 b => b

def Body.payload : Body → Option Bytes
  | delimited _ b => some b
  | _ => none

theorem Body.exists_payload {b : Body} (h : b.wireType = 2) : ∃ s, b.payload = some s := by
  cases b <;> cases h
  exact ⟨_, rfl⟩

theorem Body.payload_eq_none {b : Body} (h : b.wireType ≠ 2) : b.payload = none := by
  cases b with
  | delimited len b => exact absurd rfl h
  | varint v => rfl
  | fixed64 b => rfl
  | fixed32 b => rfl

def payloadOf (n number : ℕ) (body : Body) : Option Bytes :=
  if number = n then body.payload else none

theorem payloadOf_eq_some_iff {n number : ℕ} {body : Body} {s : Bytes} :
    payloadOf n number body = some s ↔ number = n ∧ body.payload = some s := by
  unfold payloadOf
  by_cases h : number = n <;> simp [h]

structure Field where
  tag : Bytes
  body : Body
  deriving DecidableEq

def Field.bytes (f : Field) : Bytes := f.tag ++ f.body.bytes

def Field.number (f : Field) : ℕ := value f.tag / 8

def wire (fields : List Field) : Bytes := fields.flatMap Field.bytes

@[simp] theorem wire_nil : wire [] = [] := rfl

@[simp]
theorem wire_cons (f : Field) (fields : List Field) :
    wire (f :: fields) = f.tag ++ (f.body.bytes ++ wire fields) := by
  simp [wire, Field.bytes]

def lastOf {β : Type} (g : Field → Option β) (fields : List Field) : Option β :=
  (fields.filterMap g).getLast?

variable {β : Type}

@[simp] theorem lastOf_nil (g : Field → Option β) : lastOf g [] = none := rfl

theorem lastOf_cons (g : Field → Option β) (f : Field) (fields : List Field) :
    lastOf g (f :: fields) = (lastOf g fields).or (g f) := by
  unfold lastOf
  cases hf : g f with
  | none => rw [List.filterMap_cons_none hf, Option.or_none]
  | some x => rw [List.filterMap_cons_some hf, List.getLast?_cons, Option.or_some]

variable {fields : List Field}

theorem lastOf_congr {g g' : Field → Option β} (h : ∀ f ∈ fields, g f = g' f) :
    lastOf g fields = lastOf g' fields := by
  rw [lastOf, lastOf, List.filterMap_congr h]

theorem exists_of_lastOf {g : Field → Option β} {x : β} (h : lastOf g fields = some x) :
    ∃ f ∈ fields, g f = some x := by
  obtain ⟨l, hl⟩ := List.getLast?_eq_some_iff.mp h
  have hx : x ∈ fields.filterMap g := by
    rw [hl]
    exact List.mem_append_right _ (List.mem_singleton_self x)
  exact List.mem_filterMap.mp hx

theorem lastOf_bind {β γ : Type} {g : Field → Option β} {p : β → Option γ}
    (h : ∀ f ∈ fields, ∀ x ∈ g f, (p x).isSome) :
    lastOf (fun f => (g f).bind p) fields = (lastOf g fields).bind p := by
  induction fields with
  | nil => rfl
  | cons f fields ih =>
    obtain ⟨hf, hfields⟩ := List.forall_mem_cons.mp h
    rw [lastOf_cons, lastOf_cons, ih hfields]
    cases hlast : lastOf g fields with
    | none => rfl
    | some x =>
      obtain ⟨f', hf', hx⟩ := exists_of_lastOf hlast
      obtain ⟨y, hy⟩ := Option.isSome_iff_exists.mp (hfields f' hf' x hx)
      simp [hy]

/-- A field's value as the protobuf encoding has it. -/
def Body.WellFormed : Body → Prop
  | varint v => Varint 10 v ∧ value v < 2 ^ 64
  | fixed64 b => b.length = 8
  | delimited len b => Varint 10 len ∧ value len < 2 ^ 64 ∧ b.length = value len
  | fixed32 b => b.length = 4

/-- A field as the protobuf encoding has it. -/
structure Field.WellFormed (f : Field) : Prop where
  tag : Varint 10 f.tag
  fits : value f.tag < 2 ^ 64
  wireType : value f.tag % 8 = f.body.wireType
  pos : 1 ≤ f.number
  lt : f.number < 2 ^ 29
  body : f.body.WellFormed

/-! ## Readers that check less -/

def Body.Framed (last : Prop) : Body → Prop
  | varint v => Varint 10 v
  | fixed64 b => b.length = 8 ∨ b.length < 8 ∧ last
  | delimited len b => Varint 10 len ∧ b.length = value len % 2 ^ 64
  | fixed32 b => b.length = 4 ∨ b.length < 4 ∧ last

structure Field.Framed (last : Prop) (f : Field) : Prop where
  tag : Varint 10 f.tag
  wireType : value f.tag % 8 = f.body.wireType
  body : f.body.Framed last

def Framed : List Field → Prop
  | [] => True
  | f :: fields => f.Framed (fields = []) ∧ Framed fields

/-- A value above 64 bits, or a fixed-width one that is cut. -/
def Body.Flawed : Body → Prop
  | varint v => 2 ^ 64 ≤ value v
  | fixed64 b => b.length < 8
  | delimited len _ => 2 ^ 64 ≤ value len
  | fixed32 b => b.length < 4

/-- The parser accepts this field though it is not well formed. -/
def Field.Flawed (f : Field) : Prop :=
  2 ^ 64 ≤ value f.tag ∨ f.number = 0 ∨ 2 ^ 29 ≤ f.number ∨ f.body.Flawed

variable {last : Prop} {b : Body} {f : Field} {fields fields' : List Field}

theorem Body.wellFormed_iff (h : b.Framed last) : b.WellFormed ↔ ¬ b.Flawed := by
  cases b with
  | varint v =>
    simp only [Body.Framed, Body.WellFormed, Body.Flawed] at h ⊢
    simp [h]
  | fixed64 b =>
    simp only [Body.Framed, Body.WellFormed, Body.Flawed] at h ⊢
    omega
  | delimited len b =>
    simp only [Body.Framed, Body.WellFormed, Body.Flawed] at h ⊢
    constructor
    · rintro ⟨-, hlt, -⟩
      omega
    · intro hlt
      have hmod : value len % 2 ^ 64 = value len := Nat.mod_eq_of_lt (by omega)
      exact ⟨h.1, by omega, by rw [h.2, hmod]⟩
  | fixed32 b =>
    simp only [Body.Framed, Body.WellFormed, Body.Flawed] at h ⊢
    omega

theorem Field.wellFormed_iff (h : f.Framed last) : f.WellFormed ↔ ¬ f.Flawed := by
  unfold Field.Flawed
  constructor
  · rintro ⟨-, hfits, -, hpos, hlt, hbody⟩
    have hflawed := (Body.wellFormed_iff h.body).mp hbody
    rintro (hover | hzero | hlarge | hflaw)
    · omega
    · omega
    · omega
    · exact hflawed hflaw
  · intro hflaw
    push Not at hflaw
    obtain ⟨hfits, hpos, hlt, hbody⟩ := hflaw
    exact ⟨h.tag, hfits, h.wireType, by omega, hlt, (Body.wellFormed_iff h.body).mpr hbody⟩

theorem Body.WellFormed.framed (h : b.WellFormed) : b.Framed last := by
  cases b with
  | varint v => exact h.1
  | fixed64 b => exact .inl h
  | delimited len b => exact ⟨h.1, by rw [Nat.mod_eq_of_lt h.2.1]; exact h.2.2⟩
  | fixed32 b => exact .inl h

theorem Field.WellFormed.framed (h : f.WellFormed) : f.Framed last :=
  ⟨h.tag, h.wireType, h.body.framed⟩

theorem framed_of_wellFormed (h : ∀ f ∈ fields, f.WellFormed) : Framed fields := by
  induction fields with
  | nil => trivial
  | cons f fields ih =>
    obtain ⟨hf, hfields⟩ := List.forall_mem_cons.mp h
    exact ⟨hf.framed, ih hfields⟩

theorem Framed.of_mem (h : Framed fields) (hf : f ∈ fields) : ∃ last, f.Framed last := by
  induction fields with
  | nil => cases hf
  | cons g fields ih =>
    rcases List.mem_cons.mp hf with rfl | hf
    · exact ⟨_, h.1⟩
    · exact ih h.2 hf

theorem Framed.wellFormed (h : Framed fields) (hflaw : ∀ f ∈ fields, ¬ f.Flawed) :
    ∀ f ∈ fields, f.WellFormed := by
  intro f hf
  obtain ⟨last, hframed⟩ := h.of_mem hf
  exact (Field.wellFormed_iff hframed).mpr (hflaw f hf)

/-! ## A message can be read in one way only -/

theorem wire_eq_nil_iff (h : Framed fields) : wire fields = [] ↔ fields = [] := by
  cases fields with
  | nil => simp
  | cons f fields =>
    have htag := h.1.tag.ne_nil
    simp [htag]

theorem fixed_append_inj {size : ℕ} {last last' : Prop}
    (hv : v.length = size ∨ v.length < size ∧ last) (hw : w.length = size ∨ w.length < size ∧ last')
    (hrest : last → rest = []) (hrest' : last' → rest' = []) (h : v ++ rest = w ++ rest') :
    v = w ∧ rest = rest' := by
  have hlen := congrArg List.length h
  rw [List.length_append, List.length_append] at hlen
  refine List.append_inj h ?_
  rcases hv with hv | ⟨hv, hlast⟩
  · rcases hw with hw | ⟨hw, hlast'⟩
    · omega
    · rw [hrest' hlast', List.length_nil] at hlen
      omega
  · rw [hrest hlast, List.length_nil] at hlen
    rcases hw with hw | ⟨hw, hlast'⟩
    · omega
    · rw [hrest' hlast', List.length_nil] at hlen
      omega

theorem Body.append_inj {b b' : Body} {last last' : Prop} (hb : b.Framed last)
    (hb' : b'.Framed last') (hrest : last → rest = []) (hrest' : last' → rest' = [])
    (htype : b.wireType = b'.wireType) (h : b.bytes ++ rest = b'.bytes ++ rest') :
    b = b' ∧ rest = rest' := by
  cases b <;> cases b' <;> cases htype
  case varint.varint v w =>
    obtain ⟨rfl, rfl⟩ := Varint.append_inj hb hb' h
    exact ⟨rfl, rfl⟩
  case fixed64.fixed64 v w =>
    obtain ⟨rfl, rfl⟩ := fixed_append_inj hb hb' hrest hrest' h
    exact ⟨rfl, rfl⟩
  case delimited.delimited len v len' w =>
    simp only [Body.bytes, List.append_assoc] at h
    obtain ⟨rfl, hbody⟩ := Varint.append_inj hb.1 hb'.1 h
    obtain ⟨rfl, rfl⟩ := List.append_inj hbody (hb.2.trans hb'.2.symm)
    exact ⟨rfl, rfl⟩
  case fixed32.fixed32 v w =>
    obtain ⟨rfl, rfl⟩ := fixed_append_inj hb hb' hrest hrest' h
    exact ⟨rfl, rfl⟩

theorem Framed.unique (h : Framed fields) (h' : Framed fields') (heq : wire fields = wire fields') :
    fields = fields' := by
  induction fields generalizing fields' with
  | nil => exact ((wire_eq_nil_iff h').mp heq.symm).symm
  | cons f fields ih =>
    cases fields' with
    | nil => exact (wire_eq_nil_iff h).mp heq
    | cons f' fields' =>
      rw [wire_cons, wire_cons] at heq
      obtain ⟨htag, hrest⟩ := Varint.append_inj h.1.tag h'.1.tag heq
      have htype : f.body.wireType = f'.body.wireType := by
        rw [← h.1.wireType, ← h'.1.wireType, htag]
      obtain ⟨hbody, hfields⟩ := Body.append_inj h.1.body h'.1.body
        (fun hl => by rw [hl, wire_nil]) (fun hl => by rw [hl, wire_nil]) htype hrest
      obtain ⟨tag, body⟩ := f
      obtain ⟨tag', body'⟩ := f'
      obtain rfl : tag = tag' := htag
      obtain rfl : body = body' := hbody
      rw [ih h.2 h'.2 hfields]

end SkadiCore.Protobuf
