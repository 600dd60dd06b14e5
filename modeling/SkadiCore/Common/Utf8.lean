import SkadiCore.Common.Bytes

/-!
# UTF-8

The bytes of a text by its characters, and what the standard library makes of bytes that are no
text.

* `encode_ascii`: the bytes of ASCII characters.
-/

namespace SkadiCore

def asciiByte (c : Char) : Byte := UInt8.ofNat c.toNat

def encode (cs : List Char) : Bytes := cs.flatMap String.utf8EncodeChar

theorem asBytes_eq (s : String) : asBytes s = encode s.toList := by
  rw [asBytes, ← String.utf8Encode_toList]
  simp [List.utf8Encode, encode]

theorem encode_cons (c : Char) (cs : List Char) :
    encode (c :: cs) = String.utf8EncodeChar c ++ encode cs := rfl

variable {c : Char}

theorem utf8EncodeChar_ascii (h : c.toNat < 128) : String.utf8EncodeChar c = [asciiByte c] := by
  have h' : c.val.toNat ≤ 127 := by
    have : c.val.toNat = c.toNat := rfl
    omega
  rw [String.utf8EncodeChar]
  simp only [h', if_true]
  rfl

theorem le_of_mem_utf8EncodeChar (h : ¬ c.toNat < 128) :
    ∀ b ∈ String.utf8EncodeChar c, 128 ≤ b.toNat := by
  have h' : ¬ c.val.toNat ≤ 127 := by
    have : c.val.toNat = c.toNat := rfl
    omega
  intro b hb
  rw [String.utf8EncodeChar] at hb
  simp only [h', if_false] at hb
  split_ifs at hb <;> simp only [List.mem_cons, List.not_mem_nil, or_false] at hb <;>
    rcases hb with rfl | rfl | rfl | rfl <;> simp only [UInt8.toNat_ofNat'] <;> omega

theorem all_ascii {P : Char → Bool} (h : (List.range 128).all (fun n => P (Char.ofNat n)) = true)
    (hc : c.toNat < 128) : P c = true := by
  have := List.all_eq_true.mp h c.toNat (List.mem_range.mpr hc)
  rwa [Char.ofNat_toNat] at this

theorem toNat_asciiByte (h : c.toNat < 128) : (asciiByte c).toNat = c.toNat :=
  toNat_ofNat_of_lt (by omega)

theorem asciiByte_inj {c d : Char} (hc : c.toNat < 128) (hd : d.toNat < 128)
    (h : asciiByte c = asciiByte d) : c = d := by
  have hnat := congrArg UInt8.toNat h
  rw [toNat_asciiByte hc, toNat_asciiByte hd] at hnat
  rw [← Char.ofNat_toNat c, hnat, Char.ofNat_toNat]

theorem encode_ascii {cs : List Char} (h : ∀ c ∈ cs, c.toNat < 128) :
    encode cs = cs.map asciiByte := by
  induction cs with
  | nil => rfl
  | cons c cs ih =>
    obtain ⟨hc, hcs⟩ := List.forall_mem_cons.mp h
    rw [encode_cons, utf8EncodeChar_ascii hc, ih hcs]
    rfl

/-! ## Bytes that are no text -/

def secondOk (first second : Byte) : Bool :=
  if first == 0xe0 then 0xa0 ≤ second && second ≤ 0xbf
  else if first == 0xed then 0x80 ≤ second && second ≤ 0x9f
  else if first == 0xf0 then 0x90 ≤ second && second ≤ 0xbf
  else if first == 0xf4 then 0x80 ≤ second && second ≤ 0x8f
  else 0xe1 ≤ first && first ≤ 0xf3 && 0x80 ≤ second && second ≤ 0xbf

def invalidLen : Bytes → ℕ
  | first :: second :: bytes =>
    if secondOk first second then
      if 0xf0 ≤ first && bytes.head?.any (fun third => 0x80 ≤ third && third ≤ 0xbf) then 3 else 2
    else 1
  | _ => 1

def firstChar (bytes : Bytes) : Option (ℕ × String) :=
  [1, 2, 3, 4].findSome? fun n => (fromUtf8 (bytes.take n)).map fun s => (n, s)

def lossyLoop : ℕ → Bytes → List Char
  | 0, _ => []
  | _ + 1, [] => []
  | fuel + 1, b :: bytes =>
    ((firstChar (b :: bytes)).elim ['�'] fun p => p.2.toList) ++
      lossyLoop fuel ((b :: bytes).drop
        ((firstChar (b :: bytes)).elim (invalidLen (b :: bytes)) Prod.fst))

def fromUtf8Lossy (bytes : Bytes) : String :=
  (fromUtf8 bytes).getD (.ofList (lossyLoop bytes.length bytes))

def validUpTo : ℕ → Bytes → ℕ
  | 0, _ => 0
  | fuel + 1, bytes =>
    ((firstChar bytes).filter fun _ => !bytes.isEmpty).elim 0 fun p =>
      p.1 + validUpTo fuel (bytes.drop p.1)

def isIncomplete (bytes : Bytes) : Bool :=
  bytes.head?.any (fun first => 0xc2 ≤ first && first ≤ 0xf4) && invalidLen bytes == bytes.length

def utf8ErrorText (bytes : Bytes) : String :=
  let index := validUpTo bytes.length bytes
  let len := invalidLen (bytes.drop index)
  if isIncomplete (bytes.drop index) then s!"incomplete utf-8 byte sequence from index {index}"
  else s!"invalid utf-8 sequence of {len} bytes from index {index}"

theorem ne_nil_of_fromUtf8 {bytes : Bytes} {s : String} (h : fromUtf8 bytes = some s)
    (hne : bytes ≠ []) : s.toList ≠ [] := by
  intro hs
  have hbytes := fromUtf8_eq_some_iff.mp h
  rw [asBytes_eq, hs] at hbytes
  exact hne hbytes.symm

theorem fromUtf8Lossy_ne_nil {bytes : Bytes} (hne : bytes ≠ []) :
    (fromUtf8Lossy bytes).toList ≠ [] := by
  unfold fromUtf8Lossy
  cases h : fromUtf8 bytes with
  | some s => exact ne_nil_of_fromUtf8 h hne
  | none =>
    obtain ⟨b, bytes, rfl⟩ := List.exists_cons_of_ne_nil hne
    rw [Option.getD_none, String.toList_ofList, List.length_cons, lossyLoop]
    refine List.append_ne_nil_of_left_ne_nil ?_ _
    cases hfirst : firstChar (b :: bytes) with
    | none => simp
    | some p =>
      obtain ⟨n, hn, hp⟩ := List.exists_of_findSome?_eq_some hfirst
      obtain ⟨s, hs, rfl⟩ := Option.map_eq_some_iff.mp hp
      refine ne_nil_of_fromUtf8 hs ?_
      obtain ⟨n, rfl⟩ : ∃ m, n = m + 1 := by
        refine ⟨n - 1, ?_⟩
        simp only [List.mem_cons, List.not_mem_nil, or_false] at hn
        omega
      simp

end SkadiCore
