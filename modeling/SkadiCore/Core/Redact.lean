import SkadiCore.Common.KeyedRuns
import SkadiCore.Common.Utf8

/-!
# Redaction of bearer tokens

Model of `redact_bearer_tokens` (`crates/skadi-core/src/secret.rs`, lines 53-83). The function
reads the bytes of a text and writes each byte as a character of its own.
-/

namespace SkadiCore

def REDACTED : String := "[REDACTED]"

/-- `is_bearer_token_boundary` (lines 78-83): space, tab, line feed, carriage return, the two
    quotes, comma, closing brace and bracket, backslash. -/
def isBearerTokenBoundary (byte : Byte) : Bool :=
  [32, 9, 10, 13, 34, 39, 44, 125, 93, 92].contains byte

def lowerByte (b : Byte) : Byte := if 65 ≤ b ∧ b ≤ 90 then b + 32 else b

def BEARER_PREFIX : Bytes := [98, 101, 97, 114, 101, 114, 32]

def startsBearer (bytes : Bytes) : Bool :=
  decide (BEARER_PREFIX.length ≤ bytes.length) &&
    (bytes.take BEARER_PREFIX.length).map lowerByte == BEARER_PREFIX

def byteChar (b : Byte) : Char := Char.ofNat b.toNat

/-- The loop (lines 58-74) on the bytes from `i` on. It takes at least one byte at a time. -/
def redactLoop : ℕ → Bytes → List Char
  | 0, _ => []
  | _ + 1, [] => []
  | fuel + 1, b :: bytes =>
    if startsBearer (b :: bytes) then
      ((b :: bytes).take BEARER_PREFIX.length).map byteChar ++ REDACTED.toList ++
        redactLoop fuel
          (((b :: bytes).drop BEARER_PREFIX.length).dropWhile (!isBearerTokenBoundary ·))
    else byteChar b :: redactLoop fuel bytes

/-- `redact_bearer_tokens` (lines 54-76). -/
def redactBearerTokens (input : String) : String :=
  .ofList (redactLoop (asBytes input).length (asBytes input))

/-! ## On characters -/

def isBoundary (c : Char) : Bool :=
  decide (c.toNat < 128) && isBearerTokenBoundary (UInt8.ofNat c.toNat)

def bearer : KeyedRuns Char where
  key cs := (cs.take 7).map Char.toLower == "bearer ".toList
  len := 7
  stop := isBoundary
  len_pos := by norm_num
  key_len cs h := by
    have := congrArg List.length (eq_of_beq h)
    simp only [List.length_map, List.length_take] at this
    have hlen : "bearer ".toList.length = 7 := by decide
    omega

def mangle (c : Char) : List Char := (String.utf8EncodeChar c).map byteChar

/-! ## ASCII -/

variable {c : Char}

theorem byteChar_asciiByte (h : c.toNat < 128) : byteChar (asciiByte c) = c := by
  rw [byteChar, toNat_asciiByte h, Char.ofNat_toNat]

theorem mangle_ascii (h : c.toNat < 128) : mangle c = [c] := by
  rw [mangle, utf8EncodeChar_ascii h, List.map_singleton]
  exact congrArg (fun d => [d]) (byteChar_asciiByte h)

theorem toLower_ascii (h : c.toNat < 128) :
    c.toLower.toNat < 128 ∧ lowerByte (asciiByte c) = asciiByte c.toLower := by
  have hall : ∀ n < 128, (Char.ofNat n).toLower.toNat < 128 ∧
      lowerByte (asciiByte (Char.ofNat n)) = asciiByte (Char.ofNat n).toLower := by
    decide +kernel
  have hc := hall c.toNat h
  rwa [Char.ofNat_toNat] at hc

theorem toLower_of_not_ascii (h : ¬ c.toNat < 128) : c.toLower = c := by
  have hval : ¬ (c.val ≥ 'A'.val ∧ c.val ≤ 'Z'.val) := by
    rintro ⟨-, hle⟩
    have hnat : c.toNat ≤ 'Z'.toNat := UInt32.le_iff_toNat_le.mp hle
    have hz : 'Z'.toNat = 90 := by decide
    omega
  exact dif_neg hval

theorem lowerByte_of_le {b : Byte} (h : 128 ≤ b.toNat) : lowerByte b = b := by
  have hle : ¬ (65 ≤ b ∧ b ≤ 90) := by
    rintro ⟨-, hle⟩
    have hnat : b.toNat ≤ 90 := UInt8.le_iff_toNat_le.mp hle
    omega
  rw [lowerByte, if_neg hle]

theorem isBearerTokenBoundary_of_le {b : Byte} (h : 128 ≤ b.toNat) :
    isBearerTokenBoundary b = false := by
  have hall : ([32, 9, 10, 13, 34, 39, 44, 125, 93, 92] : Bytes).all (·.toNat < 128) = true := by
    decide
  rw [isBearerTokenBoundary, Bool.eq_false_iff]
  intro hmem
  have hlt := List.all_eq_true.mp hall b (List.elem_iff.mp hmem)
  simp only [decide_eq_true_eq] at hlt
  omega

theorem isBoundary_of_not_ascii (h : ¬ c.toNat < 128) : isBoundary c = false := by
  simp [isBoundary, h]

theorem isBoundary_ascii (h : c.toNat < 128) :
    isBoundary c = isBearerTokenBoundary (asciiByte c) := by
  simp [isBoundary, h, asciiByte]

variable {cs : List Char}

theorem map_byteChar_ascii (h : ∀ c ∈ cs, c.toNat < 128) :
    (cs.map asciiByte).map byteChar = cs := by
  induction cs with
  | nil => rfl
  | cons c cs ih =>
    obtain ⟨hc, hcs⟩ := List.forall_mem_cons.mp h
    rw [List.map_cons, List.map_cons, byteChar_asciiByte hc, ih hcs]

theorem flatMap_mangle_ascii (h : ∀ c ∈ cs, c.toNat < 128) : cs.flatMap mangle = cs := by
  induction cs with
  | nil => rfl
  | cons c cs ih =>
    obtain ⟨hc, hcs⟩ := List.forall_mem_cons.mp h
    rw [List.flatMap_cons, mangle_ascii hc, ih hcs]
    rfl

/-! ## The two readings -/

theorem take_encode_iff {word : List Char} (hword : ∀ c ∈ word, c.toNat < 128) (cs : List Char) :
    ((encode cs).take word.length).map lowerByte = word.map asciiByte ↔
      (cs.take word.length).map Char.toLower = word := by
  induction word generalizing cs with
  | nil => simp
  | cons p word ih =>
    obtain ⟨hp, hword⟩ := List.forall_mem_cons.mp hword
    cases cs with
    | nil => simp [encode]
    | cons c cs =>
      by_cases hc : c.toNat < 128
      · obtain ⟨hlow, hbyte⟩ := toLower_ascii hc
        have hfirst : asciiByte c.toLower = asciiByte p ↔ c.toLower = p :=
          ⟨asciiByte_inj hlow hp, congrArg asciiByte⟩
        rw [encode_cons, utf8EncodeChar_ascii hc]
        simp only [List.singleton_append, List.length_cons, List.take_succ_cons, List.map_cons,
          List.cons.injEq, ih hword cs]
        rw [hbyte, hfirst]
      · obtain ⟨b, bs, hbytes⟩ := List.exists_cons_of_ne_nil (String.utf8EncodeChar_ne_nil (c := c))
        have hb : 128 ≤ b.toNat := le_of_mem_utf8EncodeChar hc b (by simp [hbytes])
        rw [encode_cons, hbytes]
        simp only [List.cons_append, List.length_cons, List.take_succ_cons, List.map_cons,
          List.cons.injEq, lowerByte_of_le hb, toLower_of_not_ascii hc]
        constructor
        · rintro ⟨h, -⟩
          rw [h, toNat_asciiByte hp] at hb
          omega
        · rintro ⟨rfl, -⟩
          exact absurd hp hc

theorem bearer_ascii : ∀ c ∈ "bearer ".toList, c.toNat < 128 := by
  have hall : ("bearer ".toList.all fun c => decide (c.toNat < 128)) = true := by decide +kernel
  intro c hc
  simpa using List.all_eq_true.mp hall c hc

theorem startsBearer_encode (cs : List Char) : startsBearer (encode cs) = bearer.key cs := by
  have hword : BEARER_PREFIX = "bearer ".toList.map asciiByte := by decide +kernel
  have hiff := take_encode_iff bearer_ascii cs
  rw [Bool.eq_iff_iff]
  simp only [startsBearer, bearer, Bool.and_eq_true, decide_eq_true_eq, beq_iff_eq]
  constructor
  · rintro ⟨-, h⟩
    exact hiff.mp (by rw [← hword]; exact h)
  · intro h
    have hbytes := hiff.mpr h
    rw [← hword] at hbytes
    refine ⟨?_, hbytes⟩
    have hlen := congrArg List.length hbytes
    simp only [List.length_map, List.length_take] at hlen
    omega

theorem dropWhile_encode (cs : List Char) :
    (encode cs).dropWhile (!isBearerTokenBoundary ·) = encode (cs.dropWhile (!isBoundary ·)) := by
  induction cs with
  | nil => rfl
  | cons c cs ih =>
    by_cases hc : c.toNat < 128
    · rw [encode_cons, utf8EncodeChar_ascii hc, List.singleton_append, List.dropWhile_cons,
        List.dropWhile_cons, isBoundary_ascii hc, ih]
      split_ifs
      · rfl
      · rw [encode_cons, utf8EncodeChar_ascii hc]
        rfl
    · rw [encode_cons, List.dropWhile_cons, isBoundary_of_not_ascii hc,
        List.dropWhile_append_of_pos, ih]
      · rfl
      · intro b hb
        rw [isBearerTokenBoundary_of_le (le_of_mem_utf8EncodeChar hc b hb)]
        rfl

theorem ascii_of_key (h : bearer.key cs = true) : ∀ c ∈ cs.take 7, c.toNat < 128 := by
  intro c hc
  have hlower : (cs.take 7).map Char.toLower = "bearer ".toList := eq_of_beq h
  have hmem : c.toLower ∈ "bearer ".toList := by
    rw [← hlower]
    exact List.mem_map_of_mem hc
  by_contra hascii
  have := bearer_ascii _ hmem
  rw [toLower_of_not_ascii hascii] at this
  exact hascii this

theorem encode_key (h : bearer.key cs = true) :
    encode cs = (cs.take 7).map asciiByte ++ encode (cs.drop 7) ∧
      ((cs.take 7).map asciiByte).length = BEARER_PREFIX.length := by
  constructor
  · rw [← encode_ascii (ascii_of_key h), encode, encode, encode, ← List.flatMap_append,
      List.take_append_drop]
  · have hlen : 7 ≤ cs.length := bearer.key_len cs h
    simp [BEARER_PREFIX, hlen]

/-! ## The loop -/

theorem redactLoop_nil (fuel : ℕ) : redactLoop fuel [] = [] := by
  cases fuel <;> rfl

theorem redactLoop_high {bs : Bytes} (h : ∀ b ∈ bs, 128 ≤ b.toNat) (fuel : ℕ) (bytes : Bytes) :
    redactLoop (bs.length + fuel) (bs ++ bytes) = bs.map byteChar ++ redactLoop fuel bytes := by
  induction bs with
  | nil => simp
  | cons b bs ih =>
    obtain ⟨hb, hbs⟩ := List.forall_mem_cons.mp h
    have hstart : startsBearer (b :: (bs ++ bytes)) = false := by
      have hne : lowerByte b ≠ 98 := by
        rw [lowerByte_of_le hb]
        rintro rfl
        exact absurd hb (by decide)
      simp [startsBearer, BEARER_PREFIX, hne]
    rw [List.length_cons, Nat.add_right_comm, List.cons_append, redactLoop,
      if_neg (by simp [hstart]),
      ih hbs, List.map_cons, List.cons_append]

theorem redactLoop_key {bytes : Bytes} (h : startsBearer bytes = true) (fuel : ℕ) :
    redactLoop (fuel + 1) bytes =
      (bytes.take BEARER_PREFIX.length).map byteChar ++ REDACTED.toList ++
        redactLoop fuel
          ((bytes.drop BEARER_PREFIX.length).dropWhile (!isBearerTokenBoundary ·)) := by
  cases bytes with
  | nil => cases h
  | cons b bytes => rw [redactLoop, if_pos h]

theorem redactLoop_encode (cs : List Char) : ∀ {fuel : ℕ}, (encode cs).length ≤ fuel →
    redactLoop fuel (encode cs) = bearer.replace mangle REDACTED.toList cs := by
  induction cs using KeyedRuns.scan_induction (R := bearer) with
  | hnil => exact fun {fuel} _ => redactLoop_nil fuel
  | hkey cs hkey ih =>
    intro fuel hfuel
    have hstart : startsBearer (encode cs) = true := by rw [startsBearer_encode, hkey]
    obtain ⟨hbytes, hlen⟩ := encode_key hkey
    have hrest : (encode (bearer.rest cs)).length ≤ (encode (cs.drop 7)).length := by
      show (encode ((cs.drop 7).dropWhile (!isBoundary ·))).length ≤ (encode (cs.drop 7)).length
      rw [← dropWhile_encode]
      exact (List.dropWhile_suffix _).length_le
    have hsum := congrArg List.length hbytes
    rw [List.length_append, hlen] at hsum
    have hpos : 0 < BEARER_PREFIX.length := by decide
    obtain ⟨fuel, rfl⟩ : ∃ n, fuel = n + 1 := ⟨fuel - 1, by omega⟩
    rw [redactLoop_key hstart, KeyedRuns.replace_key hkey, hbytes, ← hlen, List.take_left,
      List.drop_left, dropWhile_encode, map_byteChar_ascii (ascii_of_key hkey),
      show bearer.len = 7 from rfl, flatMap_mangle_ascii (ascii_of_key hkey)]
    congr 1
    exact ih (by omega)
  | hcons c cs hkey ih =>
    intro fuel hfuel
    have hstart : startsBearer (encode (c :: cs)) = false := by rw [startsBearer_encode, hkey]
    rw [KeyedRuns.replace_cons hkey]
    rw [encode_cons, List.length_append] at hfuel
    by_cases hc : c.toNat < 128
    · rw [encode_cons, utf8EncodeChar_ascii hc] at hstart
      rw [utf8EncodeChar_ascii hc, List.length_singleton] at hfuel
      obtain ⟨fuel, rfl⟩ : ∃ n, fuel = n + 1 := ⟨fuel - 1, by omega⟩
      rw [encode_cons, utf8EncodeChar_ascii hc, List.singleton_append, redactLoop,
        if_neg (by simpa using hstart), ih (by omega), mangle_ascii hc, byteChar_asciiByte hc]
      rfl
    · obtain ⟨fuel, rfl⟩ : ∃ n, fuel = (String.utf8EncodeChar c).length + n :=
        ⟨fuel - (String.utf8EncodeChar c).length, by omega⟩
      rw [encode_cons, redactLoop_high (le_of_mem_utf8EncodeChar hc), ih (by omega)]
      rfl

theorem redactBearerTokens_toList (s : String) :
    (redactBearerTokens s).toList = bearer.replace mangle REDACTED.toList s.toList := by
  rw [redactBearerTokens, String.toList_ofList, asBytes_eq, redactLoop_encode _ le_rfl]

end SkadiCore
