import SkadiCore.Common.Protobuf
import SkadiCore.Common.Result
import SkadiCore.Vless.Addons

/-!
# What `parse_addons` reads

The readers of `crates/skadi-protocol/src/vless/addons.rs` in terms of protobuf fields. Each of
them is described by what it leaves of the input, so that an offset past the end is the same as
one at the end.

* `readVarint_reads_iff`, `readTag_reads_iff`, `readLengthDelimited_reads_iff` and
  `skipField_reads_iff`: the parts of a field.
* `parseFlowMessage_ok_iff`, `parseAddons_ok_iff`: the parsers accept the messages of the rules
  `lenient`, with the values of the last fields.
-/

namespace SkadiCore.Vless

open Protobuf

variable {α : Type} {data rest : Bytes} {offset next maxLen : ℕ}

def Reads (data : Bytes) (x : Except AddonsError (α × ℕ)) (a : α) (rest : Bytes) : Prop :=
  ∃ next, x = .ok (a, next) ∧ data.drop next = rest

theorem drop_add_of_append {v : Bytes} (h : data.drop offset = v ++ rest) :
    data.drop (offset + v.length) = rest := by
  rw [← List.drop_drop, h, List.drop_left]

theorem lt_length_of_append {v : Bytes} (hv : v ≠ []) (h : data.drop offset = v ++ rest) :
    offset < data.length := by
  by_contra hge
  rw [List.drop_of_length_le (by omega)] at h
  exact hv (List.append_eq_nil_iff.mp h.symm).1

/-! ## Varints -/

theorem and_seven_bits (b : Byte) : (b &&& 0x7F).toNat = b.toNat % 128 := by
  rw [UInt8.toNat_and]
  exact Nat.and_two_pow_sub_one_eq_mod b.toNat 7

theorem and_top_bit_eq_zero_iff (b : Byte) : b &&& 0x80 = 0 ↔ b.toNat < 128 := by
  have h : ∀ b : Fin 256, (UInt8.ofNat b.val &&& 0x80 = 0 ↔ b.val < 128) := by decide +kernel
  have hb := h ⟨b.toNat, b.toNat_lt⟩
  rwa [UInt8.ofNat_toNat] at hb

theorem toNat_or_shiftLeft {result : UInt64} {shift : ℕ} (b : Byte) (hshift : shift ≤ 63)
    (hresult : result.toNat < 2 ^ shift) :
    (result ||| ((b &&& 0x7F).toUInt64 <<< UInt64.ofNat shift)).toNat =
      result.toNat + b.toNat % 128 * 2 ^ shift % 2 ^ 64 := by
  have hpow : 2 ^ 64 = 2 ^ (64 - shift) * 2 ^ shift := by
    rw [← Nat.pow_add, Nat.sub_add_cancel (by omega)]
  have hofNat : (UInt64.ofNat shift).toNat % 64 = shift := by
    rw [UInt64.toNat_ofNat']
    omega
  rw [UInt64.toNat_or, UInt64.toNat_shiftLeft, hofNat, UInt8.toNat_toUInt64, and_seven_bits,
    Nat.shiftLeft_eq, hpow, Nat.mul_mod_mul_right, Nat.or_comm, Nat.mul_comm,
    ← Nat.two_pow_add_eq_or_of_lt hresult, Nat.add_comm]

theorem readVarintLoop_ok_iff {bytes : Bytes} {pos k n : ℕ} {result x : UInt64}
    (hk : k + n = 10) (hn : 1 ≤ n) (hresult : result.toNat < 2 ^ (7 * k)) :
    readVarintLoop bytes pos result (7 * k) = .ok (x, next) ↔
      ∃ v rest, bytes = v ++ rest ∧ Varint n v ∧
        x.toNat = (result.toNat + value v * 2 ^ (7 * k)) % 2 ^ 64 ∧ next = pos + v.length := by
  induction bytes generalizing pos k n result with
  | nil =>
    constructor
    · intro h
      cases h
    · rintro ⟨v, rest, hbytes, hv, -⟩
      exact absurd (List.append_eq_nil_iff.mp hbytes.symm).1 hv.ne_nil
  | cons byte bytes ih =>
    obtain ⟨n, rfl⟩ := Nat.exists_eq_add_of_le' hn
    have hor := toNat_or_shiftLeft byte (by omega) hresult
    rw [readVarintLoop]
    by_cases hlast : byte.toNat < 128
    · have hlt := (result ||| (byte &&& 0x7F).toUInt64 <<< UInt64.ofNat (7 * k)).toNat_lt
      rw [hor] at hlt
      rw [if_pos ((and_top_bit_eq_zero_iff byte).mpr hlast), exists_varint_last_iff hlast,
        Except.ok.injEq, Prod.mk.injEq, ← UInt64.toNat_inj, hor]
      simp only [value, Nat.mul_zero, Nat.add_zero, List.length_singleton]
      omega
    · rw [if_neg (by rw [and_top_bit_eq_zero_iff]; exact hlast),
        exists_varint_more_iff (by omega)]
      by_cases hten : 7 * k + 7 > 63
      · -- this is the tenth byte, and it wants another one
        obtain rfl : n = 0 := by omega
        rw [if_pos hten]
        constructor
        · intro h
          cases h
        · rintro ⟨v, rest, -, hv, -⟩
          cases hv
      · have hpow : 2 ^ (7 * (k + 1)) = 128 * 2 ^ (7 * k) := by
          rw [show 7 * (k + 1) = 7 + 7 * k by ring, Nat.pow_add]
        have hle : 2 ^ (7 * (k + 1)) ≤ 2 ^ 64 := Nat.pow_le_pow_right (by decide) (by omega)
        have hbits : byte.toNat % 128 * 2 ^ (7 * k) ≤ 127 * 2 ^ (7 * k) :=
          Nat.mul_le_mul_right _ (by omega)
        rw [Nat.mod_eq_of_lt (by omega)] at hor
        have hvalue : ∀ v, result.toNat + value (byte :: v) * 2 ^ (7 * k) =
            result.toNat + byte.toNat % 128 * 2 ^ (7 * k) + value v * 2 ^ (7 * (k + 1)) := by
          intro v
          rw [hpow, value]
          ring
        rw [if_neg hten, show 7 * k + 7 = 7 * (k + 1) from rfl,
          ih (show k + 1 + n = 10 by omega) (by omega) (by rw [hor]; omega), hor]
        simp only [hvalue, List.length_cons, Nat.add_assoc, Nat.add_comm 1]

theorem readVarint_ok_iff {x : UInt64} :
    readVarint data offset = .ok (x, next) ↔
      ∃ v rest, data.drop offset = v ++ rest ∧ Varint 10 v ∧ x.toNat = value v % 2 ^ 64 ∧
        next = offset + v.length := by
  unfold readVarint
  have hloop := @readVarintLoop_ok_iff next (data.drop offset) offset 0 10 0 x rfl (by decide)
    (by decide)
  simpa using hloop

theorem readVarint_reads_iff {x : UInt64} :
    Reads data (readVarint data offset) x rest ↔
      ∃ v, data.drop offset = v ++ rest ∧ Varint 10 v ∧ x.toNat = value v % 2 ^ 64 := by
  constructor
  · rintro ⟨next, hread, rfl⟩
    obtain ⟨v, rest, hdrop, hv, hx, rfl⟩ := readVarint_ok_iff.mp hread
    exact ⟨v, by rw [drop_add_of_append hdrop, hdrop], hv, hx⟩
  · rintro ⟨v, hdrop, hv, hx⟩
    exact ⟨offset + v.length, readVarint_ok_iff.mpr ⟨v, rest, hdrop, hv, hx, rfl⟩,
      drop_add_of_append hdrop⟩

theorem toNat_tag (x : UInt64) : (x >>> 3).toUInt32.toNat = x.toNat / 8 % 2 ^ 32 := by
  rw [UInt64.toNat_toUInt32, UInt64.toNat_shiftRight, Nat.shiftRight_eq_div_pow]
  rfl

theorem toNat_wireType (x : UInt64) : (x &&& 0x07).toUInt8.toNat = x.toNat % 8 := by
  have hand : x.toNat &&& 7 = x.toNat % 8 := Nat.and_two_pow_sub_one_eq_mod x.toNat 3
  rw [UInt64.toNat_toUInt8, UInt64.toNat_and, show (0x07 : UInt64).toNat = 7 from rfl, hand]
  omega

variable {wireType : Byte}

theorem readTag_ok_iff {tag : UInt32} :
    readTag data offset = .ok (tag, wireType, next) ↔
      ∃ x, readVarint data offset = .ok (x, next) ∧ tag.toNat = x.toNat / 8 % 2 ^ 32 ∧
        wireType.toNat = x.toNat % 8 := by
  simp only [← toNat_tag, ← toNat_wireType, UInt32.toNat_inj, UInt8.toNat_inj]
  unfold readTag
  cases readVarint data offset with
  | error e => simp
  | ok p =>
    obtain ⟨x, next'⟩ := p
    simp only [Except.ok.injEq, Prod.mk.injEq]
    constructor
    · rintro ⟨rfl, rfl, rfl⟩
      exact ⟨x, ⟨rfl, rfl⟩, rfl, rfl⟩
    · rintro ⟨x, ⟨rfl, rfl⟩, rfl, rfl⟩
      exact ⟨rfl, rfl, rfl⟩

theorem readTag_reads_iff {tag : UInt32} :
    (∃ next, readTag data offset = .ok (tag, wireType, next) ∧ data.drop next = rest) ↔
      ∃ v, data.drop offset = v ++ rest ∧ Varint 10 v ∧
        tag.toNat = value v % 2 ^ 64 / 8 % 2 ^ 32 ∧ wireType.toNat = value v % 8 := by
  have hmod : ∀ v, value v % 2 ^ 64 % 8 = value v % 8 := fun v => by omega
  simp only [readTag_ok_iff]
  constructor
  · rintro ⟨next, ⟨x, hvarint, htag, htype⟩, hrest⟩
    obtain ⟨v, hdrop, hv, hx⟩ := readVarint_reads_iff.mp ⟨_, hvarint, hrest⟩
    exact ⟨v, hdrop, hv, by rw [htag, hx], by rw [htype, hx, hmod]⟩
  · rintro ⟨v, hdrop, hv, htag, htype⟩
    have hx : (UInt64.ofNat (value v)).toNat = value v % 2 ^ 64 := UInt64.toNat_ofNat'
    obtain ⟨next, hvarint, hrest⟩ := readVarint_reads_iff.mpr ⟨v, hdrop, hv, hx⟩
    exact ⟨next, ⟨_, hvarint, by rw [htag, hx], by rw [htype, hx, hmod]⟩, hrest⟩

/-! ## Bodies -/

structure BodyAt (data : Bytes) (offset wireType : ℕ) (body : Body) (rest : Bytes) : Prop where
  wireType : body.wireType = wireType
  drop : data.drop offset = body.bytes ++ rest
  framed : body.Framed (rest = [])

theorem readLengthDelimited_reads_iff {b : Bytes} :
    Reads data (readLengthDelimited data offset maxLen) b rest ↔
      ∃ body, BodyAt data offset 2 body rest ∧ body.payload = some b ∧ b.length ≤ maxLen := by
  unfold readLengthDelimited
  constructor
  · rintro ⟨next, hread, rfl⟩
    cases hvarint : readVarint data offset with
    | error e =>
      rw [hvarint] at hread
      cases hread
    | ok p =>
      obtain ⟨x, start⟩ := p
      obtain ⟨len, hdrop, hlen, hx⟩ := readVarint_reads_iff.mp ⟨_, hvarint, rfl⟩
      rw [hvarint] at hread
      dsimp only at hread
      split_ifs at hread with hmax hend
      cases hread
      have hlength : (slice data start (start + x.toNat)).length = x.toNat := by
        rw [slice, List.length_take, List.length_drop]
        omega
      refine ⟨.delimited len _, ⟨rfl, ?_, hlen, by rw [hlength, hx]⟩, rfl, by omega⟩
      rw [hdrop, Body.bytes, List.append_assoc, slice, Nat.add_sub_cancel_left, ← List.drop_drop,
        List.take_append_drop]
  · rintro ⟨body, ⟨htype, hdrop, hframed⟩, hpayload, hmax⟩
    cases body <;> cases hpayload
    rename_i len
    obtain ⟨hlen, hlength⟩ := hframed
    have hx : (UInt64.ofNat (value len)).toNat = b.length := by
      rw [UInt64.toNat_ofNat', hlength]
    rw [Body.bytes, List.append_assoc] at hdrop
    have hvarint := readVarint_ok_iff.mpr ⟨len, b ++ rest, hdrop, hlen, hx.trans hlength, rfl⟩
    have hstart := drop_add_of_append hdrop
    have hoffset := lt_length_of_append hlen.ne_nil hdrop
    have htotal := congrArg List.length hdrop
    simp only [List.length_drop, List.length_append] at htotal
    rw [hvarint]
    dsimp only
    rw [hx, if_neg (by omega), if_neg (by omega)]
    refine ⟨_, ?_, drop_add_of_append hstart⟩
    rw [slice, hstart, Nat.add_sub_cancel_left, List.take_left]

theorem drop_add_eq_iff {size : ℕ} :
    data.drop (offset + size) = rest ↔
      ∃ b, data.drop offset = b ++ rest ∧ (b.length = size ∨ b.length < size ∧ rest = []) := by
  constructor
  · rintro rfl
    refine ⟨(data.drop offset).take size, ?_, ?_⟩
    · rw [← List.drop_drop, List.take_append_drop]
    · rw [List.length_take, List.drop_eq_nil_iff, List.length_drop]
      omega
  · rintro ⟨b, hdrop, hsize | ⟨hsize, rfl⟩⟩
    · rw [← hsize]
      exact drop_add_of_append hdrop
    · have hlength := congrArg List.length hdrop
      rw [List.length_drop, List.append_nil] at hlength
      rw [List.drop_eq_nil_iff]
      omega

theorem skipField_reads_iff :
    (∃ next, skipField data maxLen wireType offset = .ok next ∧ data.drop next = rest) ↔
      ∃ body, BodyAt data offset wireType.toNat body rest ∧
        ∀ b ∈ body.payload, b.length ≤ maxLen := by
  constructor
  · rintro ⟨next, hskip, hrest⟩
    unfold skipField skipVarint at hskip
    split_ifs at hskip with h₀ h₁ h₂ h₅
    · obtain ⟨⟨x, next'⟩, hvarint, rfl⟩ := map_eq_ok.mp hskip
      obtain ⟨v, hdrop, hv, -⟩ := readVarint_reads_iff.mp ⟨_, hvarint, hrest⟩
      exact ⟨.varint v, ⟨by rw [h₀]; rfl, hdrop, hv⟩, fun b hb => by cases hb⟩
    · cases hskip
      obtain ⟨b, hdrop, hsize⟩ := drop_add_eq_iff.mp hrest
      exact ⟨.fixed64 b, ⟨by rw [h₁]; rfl, hdrop, hsize⟩, fun b hb => by cases hb⟩
    · obtain ⟨⟨b, next'⟩, hread, rfl⟩ := map_eq_ok.mp hskip
      obtain ⟨body, hbody, hpayload, hmax⟩ := readLengthDelimited_reads_iff.mp ⟨_, hread, hrest⟩
      refine ⟨body, by rw [h₂]; exact hbody, fun b' hb' => ?_⟩
      rw [hpayload] at hb'
      cases hb'
      exact hmax
    · cases hskip
      obtain ⟨b, hdrop, hsize⟩ := drop_add_eq_iff.mp hrest
      exact ⟨.fixed32 b, ⟨by rw [h₅]; rfl, hdrop, hsize⟩, fun b hb => by cases hb⟩
  · rintro ⟨body, ⟨htype, hdrop, hframed⟩, hmax⟩
    unfold skipField skipVarint
    cases body with
    | varint v =>
      obtain rfl : wireType = 0 := UInt8.toNat_inj.mp htype.symm
      have hx : (UInt64.ofNat (value v)).toNat = value v % 2 ^ 64 := UInt64.toNat_ofNat'
      obtain ⟨next, hvarint, hrest⟩ := readVarint_reads_iff.mpr ⟨v, hdrop, hframed, hx⟩
      exact ⟨next, by rw [if_pos rfl, hvarint]; rfl, hrest⟩
    | fixed64 b =>
      obtain rfl : wireType = 1 := UInt8.toNat_inj.mp htype.symm
      exact ⟨_, rfl, drop_add_eq_iff.mpr ⟨b, hdrop, hframed⟩⟩
    | delimited len b =>
      obtain rfl : wireType = 2 := UInt8.toNat_inj.mp htype.symm
      obtain ⟨next, hread, hrest⟩ := readLengthDelimited_reads_iff.mpr
        ⟨.delimited len b, ⟨htype, hdrop, hframed⟩, rfl, hmax b rfl⟩
      exact ⟨next, by rw [if_neg (by decide), if_neg (by decide), if_pos rfl, hread]; rfl, hrest⟩
    | fixed32 b =>
      obtain rfl : wireType = 5 := UInt8.toNat_inj.mp htype.symm
      exact ⟨_, rfl, drop_add_eq_iff.mpr ⟨b, hdrop, hframed⟩⟩

/-! ## The loop -/

/-- A field number as the parser computes it. -/
def shortNumber (f : Field) : ℕ := value f.tag % 2 ^ 64 / 8 % 2 ^ 32

def FieldReader.Follows (reader : FieldReader α) (data : Bytes) (Accept : ℕ → Body → Prop)
    (put : α → ℕ → Body → α) : Prop :=
  ∀ a tag wireType offset a' rest, Reads data (reader.read a tag wireType offset) a' rest ↔
    ∃ body, BodyAt data offset wireType.toNat body rest ∧ Accept tag.toNat body ∧
      a' = put a tag.toNat body

section Loop

variable {reader : FieldReader α} {Accept : ℕ → Body → Prop} {put : α → ℕ → Body → α} {a a' : α}

theorem readFields_done (h : data.length ≤ offset) : readFields reader data offset a = .ok a := by
  rw [readFields, if_neg (by omega)]

theorem readFields_step (hlt : offset < data.length) :
    readFields reader data offset a = .ok a' ↔
      ∃ tag wireType next b next', readTag data offset = .ok (tag, wireType, next) ∧
        reader.read a tag wireType next = .ok (b, next') ∧
        readFields reader data next' b = .ok a' := by
  rw [readFields, if_pos hlt]
  split
  · next htag => simp [htag]
  · next tag wireType next htag =>
    split
    · next hread => simp [htag, hread]
    · next b next' hread => simp [htag, hread]

theorem readField_iff (h : reader.Follows data Accept put) :
    (∃ tag wireType next next', readTag data offset = .ok (tag, wireType, next) ∧
      reader.read a tag wireType next = .ok (a', next') ∧ data.drop next' = rest) ↔
    ∃ f : Field, data.drop offset = f.tag ++ (f.body.bytes ++ rest) ∧ f.Framed (rest = []) ∧
      Accept (shortNumber f) f.body ∧ a' = put a (shortNumber f) f.body := by
  constructor
  · rintro ⟨tag, wireType, next, next', htag, hread, hrest⟩
    obtain ⟨v, hdrop, hv, hnumber, htype⟩ := readTag_reads_iff.mp ⟨_, htag, rfl⟩
    obtain ⟨body, hbody, haccept, hput⟩ := (h _ _ _ _ _ _).mp ⟨_, hread, hrest⟩
    rw [hnumber] at haccept hput
    exact ⟨⟨v, body⟩, by rw [hdrop, hbody.drop], ⟨hv, by rw [hbody.wireType, htype], hbody.framed⟩,
      haccept, hput⟩
  · rintro ⟨f, hdrop, hframed, haccept, hput⟩
    have hnumber : (UInt32.ofNat (shortNumber f)).toNat = shortNumber f := by
      rw [UInt32.toNat_ofNat', shortNumber, Nat.mod_mod]
    have htype : (UInt8.ofNat (value f.tag % 8)).toNat = value f.tag % 8 :=
      toNat_ofNat_of_lt (by omega)
    obtain ⟨next, htag, hbody⟩ := readTag_reads_iff.mpr ⟨f.tag, hdrop, hframed.tag, hnumber, htype⟩
    rw [← hnumber] at haccept hput
    have hbodyAt : BodyAt data next (UInt8.ofNat (value f.tag % 8)).toNat f.body rest :=
      ⟨by rw [htype, hframed.wireType], hbody, hframed.body⟩
    obtain ⟨next', hread, hrest⟩ := (h _ _ _ _ _ _).mpr ⟨f.body, hbodyAt, haccept, hput⟩
    exact ⟨_, _, next, next', htag, hread, hrest⟩

theorem readFields_ok_iff (h : reader.Follows data Accept put) :
    readFields reader data offset a = .ok a' ↔
      ∃ fields, data.drop offset = wire fields ∧ Framed fields ∧
        (∀ f ∈ fields, Accept (shortNumber f) f.body) ∧
        a' = fields.foldl (fun a f => put a (shortNumber f) f.body) a := by
  induction hn : data.length - offset using Nat.strongRecOn generalizing offset a with
  | ind n ih =>
  by_cases hlt : offset < data.length
  · rw [readFields_step hlt]
    constructor
    · rintro ⟨tag, wireType, next, b, next', htag, hread, hrest⟩
      have hmore := readTag_lt htag
      have hback := reader.le hread
      obtain ⟨fields, hdrop, hframed, haccept, rfl⟩ := (ih _ (by omega) rfl).mp hrest
      obtain ⟨f, hf, hframed', haccept', rfl⟩ :=
        (readField_iff h).mp ⟨_, _, _, _, htag, hread, hdrop⟩
      rw [wire_eq_nil_iff hframed] at hframed'
      exact ⟨f :: fields, by rw [hf, wire_cons], ⟨hframed', hframed⟩,
        List.forall_mem_cons.mpr ⟨haccept', haccept⟩, rfl⟩
    · rintro ⟨fields, hdrop, hframed, haccept, rfl⟩
      cases fields with
      | nil =>
        rw [wire_nil, List.drop_eq_nil_iff] at hdrop
        omega
      | cons f fields =>
        obtain ⟨hf, hfields⟩ := List.forall_mem_cons.mp haccept
        rw [wire_cons] at hdrop
        have hfirst := hframed.1
        rw [← wire_eq_nil_iff hframed.2] at hfirst
        obtain ⟨tag, wireType, next, next', htag, hread, hrest⟩ :=
          (readField_iff h).mpr ⟨f, hdrop, hfirst, hf, rfl⟩
        have hmore := readTag_lt htag
        have hback := reader.le hread
        refine ⟨tag, wireType, next, _, next', htag, hread, (ih _ (by omega) rfl).mpr ?_⟩
        exact ⟨fields, hrest, hframed.2, hfields, rfl⟩
  · have hnil : data.drop offset = [] := List.drop_of_length_le (by omega)
    rw [readFields_done (by omega), hnil]
    constructor
    · intro h
      cases h
      exact ⟨[], rfl, trivial, fun f hf => (List.not_mem_nil hf).elim, rfl⟩
    · rintro ⟨fields, hwire, hframed, -, rfl⟩
      rw [(wire_eq_nil_iff hframed).mp hwire.symm]
      rfl

end Loop

/-! ## The two loops -/

section Branches

variable {a a' : α} {x : Except AddonsError (α × ℕ)} {P : Body → Prop} {Q : Bytes → Prop}

theorem reads_payload_iff
    (hx : ∀ next, x = .ok (a', next) ↔
      ∃ b, readLengthDelimited data offset maxLen = .ok (b, next) ∧ Q b)
    (hP : ∀ body b, body.payload = some b → (P body ↔ b.length ≤ maxLen ∧ Q b)) :
    Reads data x a' rest ↔ ∃ body, BodyAt data offset 2 body rest ∧ P body := by
  constructor
  · rintro ⟨next, hread, hrest⟩
    obtain ⟨b, hread, hQ⟩ := (hx next).mp hread
    obtain ⟨body, hbody, hpayload, hmax⟩ := readLengthDelimited_reads_iff.mp ⟨_, hread, hrest⟩
    exact ⟨body, hbody, (hP body b hpayload).mpr ⟨hmax, hQ⟩⟩
  · rintro ⟨body, hbody, hPbody⟩
    obtain ⟨b, hpayload⟩ := Body.exists_payload hbody.wireType
    obtain ⟨hmax, hQ⟩ := (hP body b hpayload).mp hPbody
    obtain ⟨next, hread, hrest⟩ := readLengthDelimited_reads_iff.mpr ⟨body, hbody, hpayload, hmax⟩
    exact ⟨next, (hx next).mpr ⟨b, hread, hQ⟩, hrest⟩

theorem reads_skipField_iff {wireType : Byte}
    (hP : ∀ body : Body, body.wireType = wireType.toNat →
      (P body ↔ (∀ b ∈ body.payload, b.length ≤ maxLen) ∧ a' = a)) :
    Reads data ((skipField data maxLen wireType offset).map fun next => (a, next)) a' rest ↔
      ∃ body, BodyAt data offset wireType.toNat body rest ∧ P body := by
  constructor
  · rintro ⟨next, hread, hrest⟩
    obtain ⟨next', hskip, heq⟩ := map_eq_ok.mp hread
    cases heq
    obtain ⟨body, hbody, hmax⟩ := skipField_reads_iff.mp ⟨_, hskip, hrest⟩
    exact ⟨body, hbody, (hP body hbody.wireType).mpr ⟨hmax, rfl⟩⟩
  · rintro ⟨body, hbody, hPbody⟩
    obtain ⟨hmax, rfl⟩ := (hP body hbody.wireType).mp hPbody
    obtain ⟨next, hskip, hrest⟩ := skipField_reads_iff.mpr ⟨body, hbody, hmax⟩
    exact ⟨next, by rw [hskip]; rfl, hrest⟩

end Branches

theorem wireType_of_payload {body : Body} {wireType : Byte} (hbody : body.wireType = wireType.toNat)
    (hpayload : body.payload ≠ none) : wireType = 2 := by
  by_contra hne
  refine hpayload (Body.payload_eq_none ?_)
  rw [hbody]
  exact fun h => hne (UInt8.toNat_inj.mp h)

def textOf (number : ℕ) (body : Body) : Option String :=
  (payloadOf 1 number body).bind fromUtf8

/-- What `parse_flow_message` demands of a field. -/
def FlowAccepts (number : ℕ) (body : Body) : Prop :=
  ∀ b ∈ body.payload, b.length ≤ MAX_NESTED ∧ (number = 1 → (fromUtf8 b).isSome)

theorem readFlowField_text {flowType text : String} :
    readFlowField data flowType 1 2 offset = .ok (text, next) ↔
      ∃ b, readLengthDelimited data offset MAX_NESTED = .ok (b, next) ∧ fromUtf8 b = some text := by
  rw [readFlowField, if_pos ⟨rfl, rfl⟩]
  cases readLengthDelimited data offset MAX_NESTED with
  | error e => simp
  | ok p =>
    obtain ⟨b, next'⟩ := p
    cases hutf8 : fromUtf8 b with
    | none => simp [hutf8]
    | some text' =>
      simp only [hutf8, Except.ok.injEq, Prod.mk.injEq]
      constructor
      · rintro ⟨rfl, rfl⟩
        exact ⟨b, ⟨rfl, rfl⟩, hutf8⟩
      · rintro ⟨b, ⟨rfl, rfl⟩, htext⟩
        exact ⟨Option.some.inj (hutf8.symm.trans htext), rfl⟩

theorem follows_readFlowField (data : Bytes) :
    FieldReader.Follows ⟨readFlowField data, readFlowField_le⟩ data FlowAccepts
      fun flowType number body => (textOf number body).getD flowType := by
  intro flowType tag wireType offset flowType' rest
  show Reads data (readFlowField data flowType tag wireType offset) flowType' rest ↔ _
  by_cases htype : tag = 1 ∧ wireType = 2
  · obtain ⟨rfl, rfl⟩ := htype
    refine reads_payload_iff (fun next => readFlowField_text) fun body b hpayload => ?_
    simp only [FlowAccepts, textOf, payloadOf, hpayload]
    cases hutf8 : fromUtf8 b with
    | none => simp [hutf8]
    | some text => simp [hutf8, eq_comm (a := flowType')]
  · rw [readFlowField, if_neg htype]
    refine reads_skipField_iff fun body hbody => ?_
    by_cases hpayload : body.payload = none
    · simp [FlowAccepts, textOf, payloadOf, hpayload]
    · have hwire := wireType_of_payload hbody hpayload
      have hnumber : tag.toNat ≠ 1 := fun h => htype ⟨UInt32.toNat_inj.mp h, hwire⟩
      simp [FlowAccepts, textOf, payloadOf, hnumber]

def flowOf (number : ℕ) (body : Body) : Option String :=
  (payloadOf 1 number body).bind fun b => (parseFlowMessage b).toOption

/-- What `parse_addons` demands of a field. -/
def AddonsAccepts (Nested : Bytes → Prop) (number : ℕ) (body : Body) : Prop :=
  ∀ b ∈ body.payload,
    if number = 1 then b.length ≤ MAX_NESTED ∧ Nested b
    else if number = 2 then b.length ≤ MAX_SEED
    else b.length ≤ MAX_ADDONS_SKIP

def putField (addons : VlessAddons) (number : ℕ) (body : Body) : VlessAddons :=
  ⟨(flowOf number body).or addons.flow, (payloadOf 2 number body).or addons.seed⟩

variable {addons addons' : VlessAddons}

theorem readAddonsField_flow :
    readAddonsField data addons 1 2 offset = .ok (addons', next) ↔
      ∃ b, readLengthDelimited data offset MAX_NESTED = .ok (b, next) ∧
        ∃ flow, parseFlowMessage b = .ok flow ∧ { addons with flow := some flow } = addons' := by
  rw [readAddonsField, if_pos ⟨rfl, rfl⟩]
  cases readLengthDelimited data offset MAX_NESTED with
  | error e => simp
  | ok p =>
    obtain ⟨b, next'⟩ := p
    simp only [map_eq_ok, Except.ok.injEq, Prod.mk.injEq]
    constructor
    · rintro ⟨flow, hflow, rfl, rfl⟩
      exact ⟨b, ⟨rfl, rfl⟩, flow, hflow, rfl⟩
    · rintro ⟨b, ⟨rfl, rfl⟩, flow, hflow, rfl⟩
      exact ⟨flow, hflow, rfl, rfl⟩

theorem readAddonsField_seed :
    readAddonsField data addons 2 2 offset = .ok (addons', next) ↔
      ∃ b, readLengthDelimited data offset MAX_SEED = .ok (b, next) ∧
        { addons with seed := some b } = addons' := by
  rw [readAddonsField, if_neg (by decide), if_pos ⟨rfl, rfl⟩, map_eq_ok]
  simp

theorem follows_readAddonsField (data : Bytes) :
    FieldReader.Follows ⟨readAddonsField data, readAddonsField_le⟩ data
      (AddonsAccepts fun b => IsOk (parseFlowMessage b)) putField := by
  intro addons tag wireType offset addons' rest
  show Reads data (readAddonsField data addons tag wireType offset) addons' rest ↔ _
  by_cases hflow : tag = 1 ∧ wireType = 2
  · obtain ⟨rfl, rfl⟩ := hflow
    refine reads_payload_iff (fun next => readAddonsField_flow) fun body b hpayload => ?_
    simp only [AddonsAccepts, putField, flowOf, payloadOf, hpayload]
    cases hparse : parseFlowMessage b with
    | error e => simp [hparse]
    | ok flow => simp [hparse, eq_comm (a := addons'), Except.toOption]
  by_cases hseed : tag = 2 ∧ wireType = 2
  · obtain ⟨rfl, rfl⟩ := hseed
    refine reads_payload_iff (fun next => readAddonsField_seed) fun body b hpayload => ?_
    simp [AddonsAccepts, putField, flowOf, payloadOf, hpayload, eq_comm (a := addons')]
  · rw [readAddonsField, if_neg hflow, if_neg hseed]
    refine reads_skipField_iff fun body hbody => ?_
    by_cases hpayload : body.payload = none
    · simp [AddonsAccepts, putField, flowOf, payloadOf, hpayload]
    · have hwire := wireType_of_payload hbody hpayload
      have hone : tag.toNat ≠ 1 := fun h => hflow ⟨UInt32.toNat_inj.mp h, hwire⟩
      have htwo : tag.toNat ≠ 2 := fun h => hseed ⟨UInt32.toNat_inj.mp h, hwire⟩
      simp [AddonsAccepts, putField, flowOf, payloadOf, hone, htwo]

/-! ## What the parsers accept -/

/-- How the number of a field is read, and which fields are accepted. -/
structure Rules where
  number : Field → ℕ
  Ok : List Field → Prop

/-- The protobuf format. -/
def format : Rules := ⟨Field.number, fun fields => ∀ f ∈ fields, f.WellFormed⟩

/-- What the parser of the source accepts. -/
def lenient : Rules := ⟨shortNumber, Framed⟩

namespace Rules

variable (R : Rules)

/-- `data` is these fields, accepted as a flow message under the rules. -/
structure FlowFields (data : Bytes) (fields : List Field) : Prop where
  wire : data = wire fields
  ok : R.Ok fields
  accepts : ∀ f ∈ fields, FlowAccepts (R.number f) f.body

def flowText (fields : List Field) : String :=
  (lastOf (fun f => textOf (R.number f) f.body) fields).getD ""

/-- Under the rules, the flow message `data` means `text`. -/
def IsFlow (data : Bytes) (text : String) : Prop :=
  ∃ fields, R.FlowFields data fields ∧ text = R.flowText fields

/-- `data` is these fields, accepted as addons under the rules. -/
structure AddonsFields (data : Bytes) (fields : List Field) : Prop where
  wire : data = wire fields
  ok : R.Ok fields
  accepts : ∀ f ∈ fields,
    AddonsAccepts (fun b => ∃ nested, R.FlowFields b nested) (R.number f) f.body

variable {R} in
theorem AddonsFields.nested {fields : List Field} {f : Field} {b : Bytes}
    (h : R.AddonsFields data fields) (hf : f ∈ fields)
    (hb : payloadOf 1 (R.number f) f.body = some b) : ∃ nested, R.FlowFields b nested := by
  obtain ⟨hnumber, hpayload⟩ := payloadOf_eq_some_iff.mp hb
  have haccepts := h.accepts f hf b hpayload
  rw [if_pos hnumber] at haccepts
  exact haccepts.2

def lastPayload (n : ℕ) (fields : List Field) : Option Bytes :=
  lastOf (fun f => payloadOf n (R.number f) f.body) fields

/-- Under the rules, `data` means `addons`: the last field of a number counts. -/
def IsAddons (data : Bytes) (addons : VlessAddons) : Prop :=
  ∃ fields, R.AddonsFields data fields ∧ addons.seed = R.lastPayload 2 fields ∧
    Option.Rel R.IsFlow (R.lastPayload 1 fields) addons.flow

end Rules

theorem foldl_textOf (fields : List Field) (a : String) :
    fields.foldl (fun a f => (textOf (shortNumber f) f.body).getD a) a =
      (lastOf (fun f => textOf (shortNumber f) f.body) fields).getD a := by
  induction fields generalizing a with
  | nil => rfl
  | cons f fields ih => rw [List.foldl_cons, ih, lastOf_cons, Option.getD_or]

theorem parseFlowMessage_ok_iff {text : String} :
    parseFlowMessage data = .ok text ↔ lenient.IsFlow data text := by
  rw [parseFlowMessage, readFields_ok_iff (follows_readFlowField data), List.drop_zero]
  constructor
  · rintro ⟨fields, hdata, hframed, haccepts, rfl⟩
    exact ⟨fields, ⟨hdata, hframed, haccepts⟩, foldl_textOf fields ""⟩
  · rintro ⟨fields, ⟨hdata, hframed, haccepts⟩, rfl⟩
    exact ⟨fields, hdata, hframed, haccepts, (foldl_textOf fields "").symm⟩

theorem isOk_parseFlowMessage_iff :
    IsOk (parseFlowMessage data) ↔ ∃ fields, lenient.FlowFields data fields := by
  constructor
  · rintro ⟨text, h⟩
    obtain ⟨fields, hfields, -⟩ := parseFlowMessage_ok_iff.mp h
    exact ⟨fields, hfields⟩
  · rintro ⟨fields, hfields⟩
    exact ⟨_, parseFlowMessage_ok_iff.mpr ⟨fields, hfields, rfl⟩⟩

theorem foldl_putField (fields : List Field) (a : VlessAddons) :
    fields.foldl (fun a f => putField a (shortNumber f) f.body) a =
      ⟨(lastOf (fun f => flowOf (shortNumber f) f.body) fields).or a.flow,
        (lenient.lastPayload 2 fields).or a.seed⟩ := by
  induction fields generalizing a with
  | nil => rfl
  | cons f fields ih =>
    simp only [Rules.lastPayload] at ih ⊢
    rw [List.foldl_cons, ih, lastOf_cons, lastOf_cons, Option.or_assoc, Option.or_assoc]
    rfl

theorem flow_eq_iff {fields : List Field} (h : lenient.AddonsFields data fields)
    {flow : Option String} :
    flow = lastOf (fun f => flowOf (shortNumber f) f.body) fields ↔
      Option.Rel lenient.IsFlow (lenient.lastPayload 1 fields) flow := by
  have hparse : ∀ f ∈ fields, ∀ b ∈ payloadOf 1 (shortNumber f) f.body,
      IsOk (parseFlowMessage b) := by
    intro f hf b hb
    exact isOk_parseFlowMessage_iff.mpr (h.nested hf hb)
  have hlast : lastOf (fun f => flowOf (shortNumber f) f.body) fields =
      (lenient.lastPayload 1 fields).bind fun b => (parseFlowMessage b).toOption := by
    refine lastOf_bind fun f hf b hb => ?_
    obtain ⟨text, htext⟩ := hparse f hf b hb
    rw [htext]
    rfl
  rw [hlast]
  cases hpayload : lenient.lastPayload 1 fields with
  | none =>
    constructor
    · rintro rfl
      exact .none
    · intro h
      cases h
      rfl
  | some b =>
    obtain ⟨f, hf, hb⟩ := exists_of_lastOf hpayload
    obtain ⟨text, htext⟩ := hparse f hf b hb
    rw [Option.bind_some, htext]
    constructor
    · rintro rfl
      exact .some (parseFlowMessage_ok_iff.mp htext)
    · intro h
      cases h with
      | some htext' =>
        rw [← parseFlowMessage_ok_iff, htext] at htext'
        cases htext'
        rfl

theorem parseAddons_ok_iff {addons : VlessAddons} :
    parseAddons data = .ok addons ↔ lenient.IsAddons data addons := by
  rw [parseAddons, readFields_ok_iff (follows_readAddonsField data), List.drop_zero]
  simp only [isOk_parseFlowMessage_iff]
  constructor
  · rintro ⟨fields, hdata, hframed, haccepts, rfl⟩
    have hfields : lenient.AddonsFields data fields := ⟨hdata, hframed, haccepts⟩
    rw [foldl_putField, Option.or_none, Option.or_none]
    exact ⟨fields, hfields, rfl, (flow_eq_iff hfields).mp rfl⟩
  · rintro ⟨fields, hfields, hseed, hflow⟩
    refine ⟨fields, hfields.wire, hfields.ok, hfields.accepts, ?_⟩
    rw [foldl_putField, Option.or_none, Option.or_none, ← hseed, ← (flow_eq_iff hfields).mpr hflow]

end SkadiCore.Vless
