import SkadiCore.Reality.Auth
import SkadiCore.Reality.HelloLayout

/-!
# The associated data of both sides, and completeness

The client seals a handshake message in which the bytes 39..71, the session id, are zero. The
server looks the session id up in the hexadecimal text of the message
(`crates/skadi-transport/src/reality/auth.rs`, lines 39-49) and blanks 32 bytes where it
is first found.

**Defects.** The random comes first: a hello whose random repeats the session id has its
random blanked (`random_blanked`). A client with a short id of less than 8 bytes is not let in
(`auth_incomplete`).
-/

namespace SkadiCore.Reality

/-! ## Searching -/

section Search

variable {hay needle : List Char} {p : ℕ}

/-- `needle` stands at place `p` of `hay`. -/
def OccursAt (hay needle : List Char) (p : ℕ) : Prop := needle <+: hay.drop p

instance : Decidable (OccursAt hay needle p) := inferInstanceAs (Decidable (_ <+: _))

/-- `p` is the first place of `needle`. -/
def FirstAt (hay needle : List Char) (p : ℕ) : Prop :=
  OccursAt hay needle p ∧ ∀ q < p, ¬ OccursAt hay needle q

theorem findSub_of_firstAt (hneedle : needle ≠ []) (h : FirstAt hay needle p) :
    findSub hay needle = some p := by
  obtain ⟨hoccurs, hfirst⟩ := h
  have hlt : p < hay.length := by
    by_contra hge
    have hnil : needle <+: [] := by
      rw [← List.drop_eq_nil_of_le (Nat.le_of_not_lt hge)]
      exact hoccurs
    exact hneedle (List.prefix_nil.mp hnil)
  rw [findSub, List.findIdx?_eq_some_iff_getElem]
  refine ⟨by rw [List.length_tails]; omega, ?_, ?_⟩
  · rw [List.getElem_tails, List.isPrefixOf_iff_prefix]
    exact hoccurs
  · intro q hq
    rw [List.getElem_tails, List.isPrefixOf_iff_prefix]
    exact hfirst q hq

theorem OccursAt.exists_firstAt (h : OccursAt hay needle p) :
    ∃ q ≤ p, FirstAt hay needle q := by
  classical
  have hex : ∃ q, OccursAt hay needle q := ⟨p, h⟩
  exact ⟨Nat.find hex, Nat.find_min' hex h, Nat.find_spec hex, fun q hq => Nat.find_min hex hq⟩

end Search

/-! ## Hexadecimal text -/

variable {l m buf sessionId : Bytes} {info : ClientHelloInfo}

theorem hexEncode_append (l m : Bytes) : hexEncode (l ++ m) = hexEncode l ++ hexEncode m :=
  List.flatMap_append

theorem hexEncode_cons (b : Byte) (l : Bytes) : hexEncode (b :: l) =
    (b.toNat / 16).digitChar :: (b.toNat % 16).digitChar :: hexEncode l := rfl

@[simp] theorem length_hexEncode (l : Bytes) : (hexEncode l).length = 2 * l.length := by
  induction l with
  | nil => rfl
  | cons b l ih =>
    rw [hexEncode_cons, List.length_cons, List.length_cons, List.length_cons, ih]
    omega

theorem drop_hexEncode (l : Bytes) (q : ℕ) :
    (hexEncode l).drop (2 * q) = hexEncode (l.drop q) := by
  by_cases hq : q ≤ l.length
  · conv_lhs => rw [← List.take_append_drop q l, hexEncode_append]
    exact List.drop_left' (by rw [length_hexEncode, List.length_take, Nat.min_eq_left hq])
  · rw [List.drop_eq_nil_of_le (by rw [length_hexEncode]; omega),
      List.drop_eq_nil_of_le (by omega)]
    rfl

theorem digits_inj {a b : Byte} (hhi : (a.toNat / 16).digitChar = (b.toNat / 16).digitChar)
    (hlo : (a.toNat % 16).digitChar = (b.toNat % 16).digitChar) : a = b := by
  have hinj : ∀ i j : Fin 16, Nat.digitChar i = Nat.digitChar j → i = j := by decide
  have ha := a.toNat_lt
  have hb := b.toNat_lt
  have h₁ := hinj ⟨a.toNat / 16, by omega⟩ ⟨b.toNat / 16, by omega⟩ hhi
  have h₂ := hinj ⟨a.toNat % 16, by omega⟩ ⟨b.toNat % 16, by omega⟩ hlo
  simp only [Fin.mk.injEq] at h₁ h₂
  apply UInt8.toNat_inj.mp
  omega

theorem prefix_of_hexEncode (h : hexEncode l <+: hexEncode m) : l <+: m := by
  induction l generalizing m with
  | nil => exact List.nil_prefix
  | cons a l ih =>
    cases m with
    | nil => simp [hexEncode] at h
    | cons b m =>
      rw [hexEncode_cons, hexEncode_cons, List.cons_prefix_cons, List.cons_prefix_cons] at h
      obtain ⟨hhi, hlo, hrest⟩ := h
      rw [digits_inj hhi hlo, List.cons_prefix_cons]
      exact ⟨rfl, ih hrest⟩

theorem hexEncode_zeros (n : ℕ) : hexEncode (List.replicate n 0) = List.replicate (2 * n) '0' := by
  induction n with
  | zero => rfl
  | succ n ih =>
    rw [List.replicate_succ, hexEncode_cons, ih, Nat.mul_succ, List.replicate_succ,
      List.replicate_succ]
    rfl

theorem not_firstAt_odd {n q : ℕ} (hq : q < l.length) (hzero : byteAt l q = 0) :
    ¬ FirstAt (hexEncode l) (List.replicate n '0') (2 * q + 1) := by
  rintro ⟨hoccurs, hfirst⟩
  have hdrop : (hexEncode l).drop (2 * q) = '0' :: (hexEncode l).drop (2 * q + 1) := by
    rw [← List.drop_drop, drop_hexEncode, drop_eq_byteAt_cons hq, hzero, hexEncode_cons]
    rfl
  refine hfirst (2 * q) (by omega) ?_
  rw [OccursAt, hdrop]
  calc List.replicate n '0' <+: List.replicate (n + 1) '0' := by
        rw [List.replicate_succ']
        exact List.prefix_append _ _
    _ <+: '0' :: (hexEncode l).drop (2 * q + 1) := by
        rw [List.replicate_succ, List.cons_prefix_cons]
        exact ⟨rfl, hoccurs⟩

/-! ## Blanking -/

theorem blankAt_of_zero {pos : ℕ} (h : ∀ i, pos ≤ i → i < pos + 32 → byteAt l i = 0) :
    blankAt l pos = l := by
  apply List.ext_getElem (length_blankAt l pos)
  intro i h₁ h₂
  simp only [blankAt, List.getElem_mapIdx]
  split_ifs with hi
  · rw [← h i hi.1 hi.2, byteAt, List.getD_eq_getElem?_getD, List.getElem?_eq_getElem h₂,
      Option.getD_some]
  · rfl

theorem byteAt_blankAt {pos i : ℕ} (h : i < l.length) :
    byteAt (blankAt l pos) i = if pos ≤ i ∧ i < pos + 32 then 0 else byteAt l i := by
  simp [byteAt, blankAt, h]

theorem byteAt_of_prefix {q i : ℕ} (h : l <+: m.drop q) (hi : i < l.length) :
    byteAt m (q + i) = byteAt l i := by
  obtain ⟨rest, hrest⟩ := h
  have hget : (m.drop q)[i]? = l[i]? := by
    rw [← hrest, List.getElem?_append_left hi]
  rw [List.getElem?_drop] at hget
  simp [byteAt, hget]

theorem blankAt_of_zeros {q : ℕ} (h : List.replicate 32 0 <+: m.drop q) : blankAt m q = m := by
  apply blankAt_of_zero
  intro i hle hlt
  have hbyte := byteAt_of_prefix (i := i - q) h (by rw [List.length_replicate]; omega)
  rw [Nat.add_sub_cancel' hle] at hbyte
  rw [hbyte, byteAt, List.getD_eq_getElem?_getD, List.getElem?_replicate]
  split_ifs <;> rfl

structure Slotted (m sessionId : Bytes) : Prop where
  length : 71 ≤ m.length
  idLen : byteAt m 38 = 32
  slot : sessionId <+: m.drop 39
  length_id : sessionId.length = 32

namespace Slotted

theorem occursAt (h : Slotted m sessionId) : OccursAt (hexEncode m) (hexEncode sessionId) 78 := by
  obtain ⟨rest, hrest⟩ := h.slot
  rw [OccursAt, show 78 = 2 * 39 from rfl, drop_hexEncode, ← hrest, hexEncode_append]
  exact List.prefix_append _ _

theorem zero_of_blankAt_eq (h : Slotted m sessionId) {q : ℕ} (hq : q < 39)
    (heq : blankAt m q = blankAt m 39) : sessionId = List.replicate 32 0 ∧ byteAt m q = 0 := by
  have hlen := h.length
  have hbyte (i : ℕ) (hi : i < m.length) : (if q ≤ i ∧ i < q + 32 then 0 else byteAt m i) =
      if 39 ≤ i ∧ i < 39 + 32 then 0 else byteAt m i := by
    rw [← byteAt_blankAt hi, ← byteAt_blankAt hi, heq]
  -- the number 32 is not blanked
  have hsix : q ≤ 6 := by
    by_contra hgt
    have h38 := hbyte 38 (by omega)
    rw [if_pos (by omega), if_neg (by omega), h.idLen] at h38
    exact absurd h38 (by decide)
  constructor
  · rw [List.eq_replicate_iff]
    refine ⟨h.length_id, fun b hb => ?_⟩
    obtain ⟨i, hi, rfl⟩ := List.mem_iff_getElem.mp hb
    have hlenId := h.length_id
    have hslot := hbyte (39 + i) (by omega)
    rw [if_neg (by omega), if_pos (by omega), byteAt_of_prefix h.slot hi] at hslot
    simpa [byteAt, hi] using hslot
  · have hself := hbyte q (by omega)
    rw [if_pos (by omega), if_neg (by omega)] at hself
    exact hself.symm

theorem blankAt_eq_iff (h : Slotted m sessionId) {p : ℕ}
    (hp : FirstAt (hexEncode m) (hexEncode sessionId) p) :
    blankAt m (p / 2) = blankAt m 39 ↔
      p = 78 ∨ (sessionId = List.replicate 32 0 ∧ ∃ q, p = 2 * q) := by
  have hlen := h.length
  have hle : p ≤ 78 := by
    by_contra hgt
    exact hp.2 78 (by omega) h.occursAt
  constructor
  · intro heq
    by_cases hlast : p = 78
    · exact .inl hlast
    obtain ⟨rfl, hzero⟩ := h.zero_of_blankAt_eq (by omega) heq
    refine .inr ⟨rfl, p / 2, ?_⟩
    by_contra hodd
    rw [hexEncode_zeros, show p = 2 * (p / 2) + 1 by omega] at hp
    exact not_firstAt_odd (by omega) hzero hp
  · rintro (rfl | ⟨rfl, q, rfl⟩)
    · rfl
    · have hzeros : List.replicate 32 0 <+: m.drop q := by
        apply prefix_of_hexEncode
        rw [← drop_hexEncode]
        exact hp.1
      rw [Nat.mul_div_cancel_left q (by omega), blankAt_of_zeros hzeros, blankAt_of_zeros h.slot]

theorem helloAad_eq_iff (h : Slotted m sessionId) (hmsg : handshakeMsg buf = m) :
    helloAad buf sessionId = blankAt m 39 ↔
      (∀ p < 78, ¬ OccursAt (hexEncode m) (hexEncode sessionId) p) ∨
      (sessionId = List.replicate 32 0 ∧
        ∃ q, FirstAt (hexEncode m) (hexEncode sessionId) (2 * q)) := by
  obtain ⟨p, hle, hp⟩ := h.occursAt.exists_firstAt
  have hneedle : hexEncode sessionId ≠ [] := by
    intro hnil
    have hlen := congrArg List.length hnil
    rw [length_hexEncode, h.length_id] at hlen
    cases hlen
  have haad : helloAad buf sessionId = blankAt m (p / 2) := by
    rw [helloAad, hmsg, findSub_of_firstAt hneedle hp]
  rw [haad, h.blankAt_eq_iff hp]
  -- there is one first position
  refine or_congr ?_ (and_congr_right fun _ => ?_)
  · constructor
    · rintro rfl
      exact hp.2
    · intro hnone
      by_contra hne
      exact hnone p (by omega) hp.1
  · constructor
    · rintro ⟨q, rfl⟩
      exact ⟨q, hp⟩
    · rintro ⟨q, hq⟩
      refine ⟨q, ?_⟩
      rcases lt_trichotomy p (2 * q) with hlt | heq | hgt
      · exact absurd hp.1 (hq.2 p hlt)
      · exact heq
      · exact absurd hq.1 (hp.2 (2 * q) hgt)

end Slotted

/-! ## The hello that the server reads -/

theorem slotted_of_parse (h : parseClientHello buf = .ok (some info))
    (hid : info.sessionId.length = 32) :
    handshakeMsg buf = buf.drop 5 ∧ byteAt (buf.drop 5) 0 = 0x01 ∧
      Slotted (buf.drop 5) info.sessionId := by
  obtain ⟨hcomplete, L, rfl, extensions, -, rfl⟩ := parseClientHello_eq_some_iff.mp h
  have hid : L.sessionId.length = 32 := hid
  -- the message up to the length of the session id
  obtain ⟨front, hfront, htype, hsplit⟩ : ∃ front : Bytes, front.length = 38 ∧
      front.head? = some 0x01 ∧ L.bytes.drop 5 = front ++ (32 :: (L.sessionId ++
        (counted16 L.suites ++ (counted L.methods ++ L.rest)))) := by
    refine ⟨0x01 :: (L.msgLen.val ++ L.version.val ++ L.random.val), ?_, rfl, ?_⟩
    · simp [L.msgLen.property, L.version.property, L.random.property]
    · rw [Layout.bytes, Layout.front, List.append_assoc, List.drop_left' L.header.property, counted,
        hid]
      rfl
  have hhead : L.bytes.head? = some 0x16 := by
    obtain ⟨hlen, htype, -⟩ := hcomplete
    rw [List.head?_eq_getElem?, List.getElem?_eq_getElem (by omega)]
    simpa [byteAt, show 0 < L.bytes.length by omega] using htype
  refine ⟨if_pos hhead, ?_, ?_, ?_, ?_, hid⟩
  · rw [hsplit, byteAt_append_left (by omega)]
    cases front with
    | nil => cases hfront
    | cons b front => exact Option.some.inj htype
  · rw [hsplit, List.length_append, hfront, List.length_cons, List.length_append]
    omega
  · rw [hsplit, byteAt_append _ _ _ hfront.symm]
  · rw [hsplit, List.drop_append, hfront, List.drop_eq_nil_of_le (by omega)]
    exact List.prefix_append _ _

/-- For every ClientHello with a session id of 32 bytes, the client seals against the message
    with the bytes 39..71 set to zero, and the server opens with the same associated data if
    and only if the text of the session id does not occur before its place, or the session id
    is zero and first occurs at a byte. -/
theorem aad_eq_iff (h : parseClientHello buf = .ok (some info))
    (hid : info.sessionId.length = 32) :
    clientAad (buf.drop 5) = blankAt (buf.drop 5) 39 ∧
      (helloAad buf info.sessionId = blankAt (buf.drop 5) 39 ↔
        (∀ p < 78, ¬ OccursAt (hexEncode (buf.drop 5)) (hexEncode info.sessionId) p) ∨
        (info.sessionId = List.replicate 32 0 ∧
          ∃ q, FirstAt (hexEncode (buf.drop 5)) (hexEncode info.sessionId) (2 * q))) := by
  obtain ⟨hmsg, htype, hslot⟩ := slotted_of_parse h hid
  exact ⟨clientAad_header (show IsHeader [] from .inl rfl) ⟨hslot.length, htype, hslot.idLen⟩,
    hslot.helloAad_eq_iff hmsg⟩

def helloWith (random sessionId : Key) : Bytes :=
  [0x16, 3, 1, 0, 76, 1, 0, 0, 72, 3, 3] ++ random.val ++ [32] ++ sessionId.val ++
    [0, 0, 0, 0, 0]

theorem aad_eq_helloWith :
    helloAad (helloWith (sampleKey 1) (sampleKey 2)) (sampleKey 2).val =
      blankAt ((helloWith (sampleKey 1) (sampleKey 2)).drop 5) 39 := by
  have hparse : parseClientHello (helloWith (sampleKey 1) (sampleKey 2)) =
      .ok (some ⟨(sampleKey 2).val, sampleKey 1, none, none⟩) := by decide +kernel
  exact ((aad_eq_iff hparse (by decide)).2).mpr (.inl (by decide +kernel))

theorem random_blanked :
    parseClientHello (helloWith (sampleKey 2) (sampleKey 2)) =
        .ok (some ⟨(sampleKey 2).val, sampleKey 2, none, none⟩) ∧
      helloAad (helloWith (sampleKey 2) (sampleKey 2)) (sampleKey 2).val =
        blankAt ((helloWith (sampleKey 2) (sampleKey 2)).drop 5) 6 ∧
      helloAad (helloWith (sampleKey 2) (sampleKey 2)) (sampleKey 2).val ≠
        blankAt ((helloWith (sampleKey 2) (sampleKey 2)).drop 5) 39 := by
  decide +kernel

/-! ## Completeness -/

/-- What a hello needs to be accepted: the client sealed it without a record header; the
    text of the session id does not occur before its slot, or the session id is zero and
    first occurs at a byte; and the short id has 8 bytes, or its padded form, or the
    timestamp with its first 4 bytes, is configured. -/
def Acceptable (header m sealed shortId : Bytes) (ts : UInt32) (shortIds : List Bytes) : Prop :=
  let text := hexEncode (putSessionId m sealed)
  header = [] ∧
    ((∀ p < 78, ¬ OccursAt text (hexEncode sealed) p) ∨
      (sealed = List.replicate 32 0 ∧ ∃ q, FirstAt text (hexEncode sealed) (2 * q))) ∧
    (shortId.length = 8 ∨ padShortId shortId ∈ shortIds ∨
      toBe32 ts ++ (padShortId shortId).take 4 ∈ shortIds)

theorem blankAt_putSessionId (hm : HasSlot m) (hs : sessionId.length = 32) :
    blankAt (putSessionId m sessionId) 39 = blankAt m 39 := by
  have hlen := hm.length
  apply List.ext_getElem (by simp [length_putSessionId hm hs])
  intro i _ _
  simp only [blankAt, List.getElem_mapIdx]
  split_ifs with hi
  · rfl
  · simp only [putSessionId, List.getElem_append, List.length_append, List.length_take, hs]
    split_ifs
    · simp
    · omega
    · rw [List.getElem_drop]
      congr 1
      omega

theorem slotted_putSessionId (hm : HasSlot m) (hs : sessionId.length = 32) :
    Slotted (putSessionId m sessionId) sessionId := by
  have hlen := hm.length
  have htake : (m.take 39).length = 39 := by rw [List.length_take]; omega
  refine ⟨by rw [length_putSessionId hm hs]; exact hlen, ?_, ?_, hs⟩
  · rw [putSessionId, List.append_assoc, byteAt_append_left (by omega), ← hm.idLen]
    simp [byteAt, List.getD_eq_getElem?_getD]
  · rw [putSessionId, List.append_assoc, List.drop_left' htake]
    exact List.prefix_append _ _

section

variable {P : Crypto} {header header' m shortId sealed : Bytes} {shortIds : List Bytes}
  {ephSecret serverSecret clientRandom authKey : Key} {ts : UInt32}

theorem encryptSessionId_eq (hP : P.Lawful) (hlen : 1 ≤ shortId.length ∧ shortId.length ≤ 8)
    (authKey clientRandom : Key) (ts : UInt32) (hello : Bytes) :
    encryptSessionId P shortId authKey clientRandom ts hello =
      .ok (P.encrypt authKey (sessionNonce clientRandom) (clientAad hello)
        (sessionIdPlaintext ts shortId)) := by
  unfold encryptSessionId
  rw [if_neg (by
    rw [List.isEmpty_iff, ← List.length_eq_zero_iff]
    omega)]
  simp only
  rw [if_neg (by rw [hP.length_encrypt, length_sessionIdPlaintext ts hlen.2]; simp)]

theorem deriveAuthKey_comm (hP : P.Lawful) :
    deriveAuthKey P serverSecret (P.publicKey ephSecret) clientRandom =
      deriveAuthKey P ephSecret (P.publicKey serverSecret) clientRandom := by
  unfold deriveAuthKey
  rw [hP.diffieHellman_comm]

theorem matches_sessionIdPlaintext (ts : UInt32) (hlen : shortId.length ≤ 8)
    (hmem : shortId ∈ shortIds) :
    Matches shortIds (sessionIdPlaintext ts shortId) ↔
      shortId.length = 8 ∨ padShortId shortId ∈ shortIds ∨
        toBe32 ts ++ (padShortId shortId).take 4 ∈ shortIds := by
  obtain ⟨h4, h8⟩ := slice_sessionIdPlaintext ts shortId hlen
  rw [Matches, h4, h8]
  constructor
  · rintro (h | h)
    · exact .inr (.inr h)
    · exact .inr (.inl h)
  · rintro (h | h | h)
    · exact .inr (by simpa [padShortId, h] using hmem)
    · exact .inr h
    · exact .inl h

theorem opensTo_putSessionId_iff (hP : P.Lawful) (hh' : IsHeader header') (hm : HasSlot m)
    (hs : sealed.length = 32) (serverName : Option String) (k : Key) (buf : Bytes) :
    OpensTo P ⟨sealed, clientRandom, some (P.publicKey ephSecret).val, serverName⟩
        (header' ++ putSessionId m sealed) serverSecret k buf ↔
      k = deriveAuthKey P ephSecret (P.publicKey serverSecret) clientRandom ∧
        P.decrypt k (sessionNonce clientRandom) (helloAad (putSessionId m sealed) sealed)
          sealed = some buf := by
  have hpub : (P.publicKey ephSecret).val.length = 32 := (P.publicKey ephSecret).property
  simp only [OpensTo, hs, Option.some.injEq, exists_eq_left', hpub, toArray_self, true_and,
    helloAad_header hh' (head?_putSessionId hm), deriveAuthKey_comm hP]

/-- Completeness of the authentication. The client seals the hello `header ++ m` and the
    server gets it with the session id in its slot. The hello is accepted, with the
    key of the client, if it is `Acceptable`; and only then, if the cipher rejects the
    session id under other associated data than it was sealed with. -/
theorem auth_complete_iff (hP : P.Lawful) (serverSecret ephSecret clientRandom : Key)
    (ts : UInt32) (serverName : Option String) (hh : IsHeader header) (hh' : IsHeader header')
    (hm : HasSlot m) (hlen : 1 ≤ shortId.length ∧ shortId.length ≤ 8)
    (hmem : shortId ∈ shortIds) :
    let authKey := deriveAuthKey P ephSecret (P.publicKey serverSecret) clientRandom
    ∃ sealed, encryptSessionId P shortId authKey clientRandom ts (header ++ m) = .ok sealed ∧
      let verified := verifyClientReality P
        ⟨sealed, clientRandom, some (P.publicKey ephSecret).val, serverName⟩
        (header' ++ putSessionId m sealed) serverSecret shortIds
      (Acceptable header m sealed shortId ts shortIds → verified = some authKey) ∧
      ((∀ aad, aad ≠ clientAad (header ++ m) →
          P.decrypt authKey (sessionNonce clientRandom) aad sealed = none) →
        verified = some authKey → Acceptable header m sealed shortId ts shortIds) := by
  intro authKey
  refine ⟨_, encryptSessionId_eq hP hlen authKey clientRandom ts (header ++ m), ?_⟩
  set sealed := P.encrypt authKey (sessionNonce clientRandom) (clientAad (header ++ m))
    (sessionIdPlaintext ts shortId) with hsealed
  intro verified
  have hs : sealed.length = 32 := by
    rw [hsealed, hP.length_encrypt, length_sessionIdPlaintext ts hlen.2]
  have hmatch := matches_sessionIdPlaintext ts hlen.2 hmem
  have hslot := (slotted_putSessionId hm hs).helloAad_eq_iff
    (handshakeMsg_of_head? (head?_putSessionId hm))
  rw [blankAt_putSessionId hm hs] at hslot
  refine ⟨fun ⟨hnil, haad, hids⟩ => ?_, fun hauth hv => ?_⟩
  · refine verifyClientReality_eq_some_iff.mpr ⟨sessionIdPlaintext ts shortId,
      (opensTo_putSessionId_iff hP hh' hm hs serverName _ _).mpr ⟨rfl, ?_⟩,
      (length_sessionIdPlaintext ts hlen.2).ge, hmatch.mpr hids⟩
    have hclient : clientAad (header ++ m) = blankAt m 39 := by
      rw [clientAad_header hh hm, hnil, List.nil_append]
    rw [hslot.mpr haad, hsealed, hclient, hP.decrypt_encrypt]
  · obtain ⟨buf, hopens, -, hbuf⟩ := verifyClientReality_eq_some_iff.mp hv
    obtain ⟨-, hd⟩ := (opensTo_putSessionId_iff hP hh' hm hs serverName _ _).mp hopens
    -- the session id opens only under the associated data of the client
    have haad : helloAad (putSessionId m sealed) sealed = header ++ blankAt m 39 := by
      rw [← clientAad_header hh hm]
      by_contra hne
      rw [hauth _ hne] at hd
      cases hd
    have hnil : header = [] := by
      have hl := congrArg List.length haad
      rw [length_helloAad, handshakeMsg_of_head? (head?_putSessionId hm),
        length_putSessionId hm hs, List.length_append, length_blankAt] at hl
      exact List.length_eq_zero_iff.mp (by omega)
    have hbuf' : buf = sessionIdPlaintext ts shortId := by
      rw [haad, ← clientAad_header hh hm, hsealed, hP.decrypt_encrypt] at hd
      exact (Option.some.inj hd).symm
    rw [hbuf', hmatch] at hbuf
    rw [hnil, List.nil_append] at haad
    exact ⟨hnil, hslot.mp haad, hbuf⟩

theorem hasSlot_sampleHello : HasSlot sampleHello := ⟨by decide, by decide, by decide⟩

theorem auth_complete_iff_full :
    ∃ sealed, encryptSessionId samplePrimitives [1, 2, 3, 4, 5, 6, 7, 8]
        (deriveAuthKey samplePrimitives (sampleKey 2) (sampleKey 3) (sampleKey 9)) (sampleKey 9) 77
        sampleHello = .ok sealed ∧
      verifyClientReality samplePrimitives ⟨sealed, sampleKey 9, some (sampleKey 2).val, none⟩
        ([0x16, 3, 1, 0, 71] ++ putSessionId sampleHello sealed) (sampleKey 3)
        [[1, 2, 3, 4, 5, 6, 7, 8]] =
        some (deriveAuthKey samplePrimitives (sampleKey 2) (sampleKey 3) (sampleKey 9)) := by
  obtain ⟨sealed, henc, hok, -⟩ := auth_complete_iff samplePrimitives_lawful (sampleKey 3)
    (sampleKey 2) (sampleKey 9) 77 none (show IsHeader [] from .inl rfl)
    (show IsHeader [0x16, 3, 1, 0, 71] from .inr ⟨rfl, rfl⟩) hasSlot_sampleHello (by decide)
    (show [1, 2, 3, 4, 5, 6, 7, 8] ∈ [[1, 2, 3, 4, 5, 6, 7, 8]] by decide)
  refine ⟨sealed, henc, hok ⟨rfl, .inl ?_, .inl rfl⟩⟩
  rw [encryptSessionId_eq samplePrimitives_lawful (by decide)] at henc
  cases henc
  decide +kernel

theorem verifyClientReality_of_short {info : ClientHelloInfo} {hello : Bytes}
    (h : ∀ sid ∈ shortIds, sid.length ≠ 8) :
    verifyClientReality P info hello serverSecret shortIds = none := by
  cases hv : verifyClientReality P info hello serverSecret shortIds with
  | none => rfl
  | some k =>
    obtain ⟨buf, -, hlen, hbuf⟩ := verifyClientReality_eq_some_iff.mp hv
    rcases hbuf with hbuf | hbuf
    · exact absurd (by simp only [slice, List.length_take, List.length_drop]; omega) (h _ hbuf)
    · exact absurd (by simp only [slice, List.length_take, List.length_drop]; omega) (h _ hbuf)

theorem auth_incomplete :
    ∃ sealed, encryptSessionId samplePrimitives [1]
        (deriveAuthKey samplePrimitives (sampleKey 2) (sampleKey 3) (sampleKey 9)) (sampleKey 9) 77
        sampleHello = .ok sealed ∧ samplePrimitives.Lawful ∧ HasSlot sampleHello ∧
      verifyClientReality samplePrimitives ⟨sealed, sampleKey 9, some (sampleKey 2).val, none⟩
        ([0x16, 3, 1, 0, 71] ++ putSessionId sampleHello sealed) (sampleKey 3) [[1]] = none :=
  ⟨_, encryptSessionId_eq samplePrimitives_lawful (by decide) _ _ _ _, samplePrimitives_lawful,
    hasSlot_sampleHello, verifyClientReality_of_short (by decide)⟩

end

end SkadiCore.Reality
