import SkadiCore.Reality.Hello

/-!
# REALITY authentication

Model of `verify_client_reality` (`crates/skadi-transport/src/reality/auth.rs`) and of
the client side, `RealityClientAuth` (`client_auth.rs`).

The client seals version, timestamp and short id into the session id, with the
ClientHello as associated data and the session id blanked there. The server opens it
and looks for a configured short id in the plaintext.
-/

namespace SkadiCore.Reality

/-! ## Keys, plaintext and associated data -/

def REALITY_INFO : Bytes := asBytes "REALITY"

/-- `RealityClientAuth::derive_auth_key` (`client_auth.rs`, lines 19-31), and the same
    steps in `verify_client_reality` (`auth.rs`, lines 21-29) with the server's secret. -/
def deriveAuthKey (P : Crypto) (secret peerPublic clientRandom : Key) : Key :=
  P.hkdf (slice clientRandom.val 0 20) (P.diffieHellman secret peerPublic) REALITY_INFO

def sessionNonce (clientRandom : Key) : Nonce := toArray 12 (slice clientRandom.val 20 32)

def padShortId (shortId : Bytes) : Bytes := shortId ++ List.replicate (8 - shortId.length) 0

def sessionIdPlaintext (ts : UInt32) (shortId : Bytes) : Bytes :=
  [0x01, 0x08, 0x00, 0] ++ toBe32 ts ++ padShortId shortId

def blankAt (l : Bytes) (pos : ℕ) : Bytes :=
  l.mapIdx fun i b => if pos ≤ i ∧ i < pos + 32 then 0 else b

def handshakeMsg (hello : Bytes) : Bytes :=
  if hello.head? = some 0x16 then hello.drop 5 else hello

def hexEncode (b : Bytes) : List Char :=
  b.flatMap fun x => [(x.toNat / 16).digitChar, (x.toNat % 16).digitChar]

def findSub (hay needle : List Char) : Option ℕ := hay.tails.findIdx? needle.isPrefixOf

/-! ## The server -/

/-- The associated data of the server (`auth.rs`, lines 34-49): the session id is looked
    up in the hexadecimal text of the handshake message. -/
def helloAad (fullHello sessionId : Bytes) : Bytes :=
  match findSub (hexEncode (handshakeMsg fullHello)) (hexEncode sessionId) with
  | some p => blankAt (handshakeMsg fullHello) (p / 2)
  | none => handshakeMsg fullHello

/-- `verify_client_reality` (`auth.rs`, lines 11-65). HKDF does not fail for 32 bytes. -/
def verifyClientReality (P : Crypto) (info : ClientHelloInfo) (fullHello : Bytes)
    (privateKey : Key) (shortIds : List Bytes) : Option Key :=
  if info.sessionId.length ≠ 32 then none
  else
    match info.publicKey with
    | none => none
    | some clientPub =>
      if clientPub.length ≠ 32 then none
      else
        let authKey := deriveAuthKey P privateKey (toArray 32 clientPub) info.clientRandom
        match P.decrypt authKey (sessionNonce info.clientRandom)
            (helloAad fullHello info.sessionId) info.sessionId with
        | none => none
        | some buf =>
          if buf.length < 16 then none
          else if shortIds.any fun sid => sid == slice buf 4 12 || sid == slice buf 8 16 then
            some authKey
          else none

/-- Under the key derived from the hello its session id decrypts to `buf`. -/
def OpensTo (P : Crypto) (info : ClientHelloInfo) (fullHello : Bytes) (privateKey authKey : Key)
    (buf : Bytes) : Prop :=
  info.sessionId.length = 32 ∧ ∃ clientPub, info.publicKey = some clientPub ∧
    clientPub.length = 32 ∧
    authKey = deriveAuthKey P privateKey (toArray 32 clientPub) info.clientRandom ∧
    P.decrypt authKey (sessionNonce info.clientRandom) (helloAad fullHello info.sessionId)
      info.sessionId = some buf

def Matches (shortIds : List Bytes) (buf : Bytes) : Prop :=
  slice buf 4 12 ∈ shortIds ∨ slice buf 8 16 ∈ shortIds

section

variable {P : Crypto} {info : ClientHelloInfo} {hello : Bytes} {privateKey authKey : Key}
  {shortIds : List Bytes} {buf : Bytes}

theorem any_eq_true_iff_matches : (shortIds.any fun sid =>
    sid == slice buf 4 12 || sid == slice buf 8 16) = true ↔ Matches shortIds buf := by
  simp only [List.any_eq_true, Bool.or_eq_true, beq_iff_eq, Matches]
  constructor
  · rintro ⟨sid, h, rfl | rfl⟩
    · exact .inl h
    · exact .inr h
  · rintro (h | h)
    · exact ⟨_, h, .inl rfl⟩
    · exact ⟨_, h, .inr rfl⟩

theorem verifyClientReality_eq_some_iff :
    verifyClientReality P info hello privateKey shortIds = some authKey ↔
      ∃ buf, OpensTo P info hello privateKey authKey buf ∧ 16 ≤ buf.length ∧
        Matches shortIds buf := by
  unfold verifyClientReality OpensTo
  by_cases hlen : info.sessionId.length = 32
  · rw [if_neg (by simpa using hlen)]
    cases hpk : info.publicKey with
    | none => simp
    | some clientPub =>
      simp only [Option.some.injEq, exists_eq_left']
      by_cases hpub : clientPub.length = 32
      · simp only [hlen, hpub, ne_eq, not_true_eq_false, if_false, true_and]
        cases hd : P.decrypt (deriveAuthKey P privateKey (toArray 32 clientPub) info.clientRandom)
            (sessionNonce info.clientRandom) (helloAad hello info.sessionId) info.sessionId with
        | none =>
          simp only [reduceCtorEq, false_iff, not_exists, not_and]
          rintro buf ⟨rfl, h⟩
          rw [hd] at h
          cases h
        | some buf =>
          simp only
          constructor
          · intro h
            split_ifs at h with h16 hm
            cases h
            exact ⟨buf, ⟨rfl, hd⟩, by omega, any_eq_true_iff_matches.mp hm⟩
          · rintro ⟨buf', ⟨rfl, hd'⟩, h16, hm⟩
            rw [hd] at hd'
            cases hd'
            rw [if_neg (by omega), if_pos (any_eq_true_iff_matches.mpr hm)]
      · simp [hpub]
  · simp [hlen]

theorem OpensTo.length_eq (hP : P.Lawful) (h : OpensTo P info hello privateKey authKey buf) :
    buf.length = 16 := by
  obtain ⟨hlen, clientPub, -, -, -, hd⟩ := h
  have := hP.length_decrypt _ _ _ _ _ hd
  omega

end

/-! ## The client -/

inductive RealityClientAuthError
  | invalidShortId
  | cipher
  | encrypt
  deriving DecidableEq

/-- `session_id_offset_in_hello_aad` (`client_auth.rs`, lines 130-140). -/
def sessionIdOffsetInHelloAad (hello : Bytes) : Option ℕ :=
  if (handshakeMsg hello).length < 40 ∨ byteAt (handshakeMsg hello) 0 ≠ 0x01 then none
  else some ((if hello.head? = some 0x16 then 5 else 0) + 4 + 2 + 32 + 1)

/-- The associated data of the client (`client_auth.rs`, lines 60-67). A record header
    stays. -/
def clientAad (hello : Bytes) : Bytes :=
  match sessionIdOffsetInHelloAad hello with
  | some offset => blankAt hello offset
  | none => hello

/-- `RealityClientAuth::encrypt_session_id` (`client_auth.rs`, lines 34-85), at the time
    `ts`. A key of 32 bytes is accepted by the cipher. -/
def encryptSessionId (P : Crypto) (shortId : Bytes) (authKey clientRandom : Key) (ts : UInt32)
    (hello : Bytes) : Except RealityClientAuthError Bytes :=
  if shortId.isEmpty ∨ shortId.length > 8 then .error .invalidShortId
  else
    let sealed := P.encrypt authKey (sessionNonce clientRandom) (clientAad hello)
      (sessionIdPlaintext ts shortId)
    if sealed.length ≠ 32 then .error .encrypt else .ok sealed

/-- The message is a ClientHello with 32 bytes of session id. -/
structure HasSlot (m : Bytes) : Prop where
  length : 71 ≤ m.length
  type : byteAt m 0 = 0x01
  idLen : byteAt m 38 = 32

def putSessionId (m sessionId : Bytes) : Bytes := m.take 39 ++ sessionId ++ m.drop 71

/-- Nothing, or the header of a handshake record. -/
def IsHeader (header : Bytes) : Prop :=
  header = [] ∨ header.length = 5 ∧ header.head? = some 0x16

/-! ## Associated data of both sides -/

@[simp] theorem length_blankAt (l : Bytes) (pos : ℕ) : (blankAt l pos).length = l.length := by
  simp [blankAt]

theorem length_helloAad (hello sessionId : Bytes) :
    (helloAad hello sessionId).length = (handshakeMsg hello).length := by
  unfold helloAad
  split <;> simp

theorem HasSlot.head? {m : Bytes} (hm : HasSlot m) : m.head? = some 0x01 := by
  obtain ⟨hlen, htype, -⟩ := hm
  cases m with
  | nil => simp at hlen
  | cons b m => simpa [byteAt] using htype

theorem handshakeMsg_header {header m : Bytes} (hh : IsHeader header)
    (hm : m.head? = some 0x01) : handshakeMsg (header ++ m) = m := by
  unfold handshakeMsg
  rcases hh with rfl | ⟨hlen, hhead⟩
  · rw [List.nil_append, if_neg (by rw [hm]; decide)]
  · rw [if_pos (by rw [List.head?_append, hhead]; rfl), List.drop_left' hlen]

theorem handshakeMsg_of_head? {m : Bytes} (hm : m.head? = some 0x01) : handshakeMsg m = m :=
  handshakeMsg_header (show IsHeader [] from .inl rfl) hm

theorem helloAad_header {header m sessionId : Bytes} (hh : IsHeader header)
    (hm : m.head? = some 0x01) : helloAad (header ++ m) sessionId = helloAad m sessionId := by
  unfold helloAad
  rw [handshakeMsg_header hh hm, handshakeMsg_of_head? hm]

theorem blankAt_append (header m : Bytes) (pos : ℕ) :
    blankAt (header ++ m) (header.length + pos) = header ++ blankAt m pos := by
  apply List.ext_getElem (by simp)
  intro i h₁ h₂
  simp only [blankAt, List.getElem_mapIdx]
  by_cases hi : i < header.length
  · rw [List.getElem_append_left hi, List.getElem_append_left hi, if_neg (by omega)]
  · rw [List.getElem_append_right (by omega), List.getElem_append_right (by omega)]
    simp only [List.getElem_mapIdx]
    congr 1
    exact propext (by omega)

theorem clientAad_header {header m : Bytes} (hh : IsHeader header) (hm : HasSlot m) :
    clientAad (header ++ m) = header ++ blankAt m 39 := by
  have hoff : sessionIdOffsetInHelloAad (header ++ m) = some (header.length + 39) := by
    unfold sessionIdOffsetInHelloAad
    rw [handshakeMsg_header hh hm.head?, if_neg (by
      have := hm.length
      have := hm.type
      simp only [not_or, not_lt, not_not]
      exact ⟨by omega, this⟩)]
    rcases hh with rfl | ⟨hlen, hhead⟩
    · rw [List.nil_append, hm.head?]
      rfl
    · rw [if_pos (by rw [List.head?_append, hhead]; rfl), hlen]
  unfold clientAad
  rw [hoff]
  exact blankAt_append header m 39

theorem length_putSessionId {m sessionId : Bytes} (hm : HasSlot m) (hs : sessionId.length = 32) :
    (putSessionId m sessionId).length = m.length := by
  have := hm.length
  simp only [putSessionId, List.length_append, List.length_take, List.length_drop]
  omega

theorem head?_putSessionId {m sessionId : Bytes} (hm : HasSlot m) :
    (putSessionId m sessionId).head? = some 0x01 := by
  have h := hm.head?
  cases m with
  | nil => cases h
  | cons b m => simpa [putSessionId] using h

theorem length_padShortId {shortId : Bytes} (h : shortId.length ≤ 8) :
    (padShortId shortId).length = 8 := by
  simp only [padShortId, List.length_append, List.length_replicate]
  omega

theorem length_sessionIdPlaintext (ts : UInt32) {shortId : Bytes} (h : shortId.length ≤ 8) :
    (sessionIdPlaintext ts shortId).length = 16 := by
  simp [sessionIdPlaintext, length_padShortId h]

theorem slice_sessionIdPlaintext (ts : UInt32) (shortId : Bytes) (h : shortId.length ≤ 8) :
    slice (sessionIdPlaintext ts shortId) 4 12 = toBe32 ts ++ (padShortId shortId).take 4 ∧
      slice (sessionIdPlaintext ts shortId) 8 16 = padShortId shortId := by
  have hpad := length_padShortId h
  constructor
  · simp [slice, sessionIdPlaintext, toBe32]
  · simp [slice, sessionIdPlaintext, toBe32, List.take_of_length_le, hpad]

def sampleHello : Bytes :=
  [1, 0, 0, 67, 3, 3] ++ List.replicate 32 9 ++ [32] ++ List.replicate 32 0

def sampleKey (b : Byte) : Key := List.Vector.replicate 32 b

def samplePrimitives : Crypto := .plain fun _ => List.Vector.replicate 16 5

theorem samplePrimitives_lawful : samplePrimitives.Lawful := Crypto.plain_lawful _

/-! ## Soundness -/

/-- Bytes 8 to 15 are a configured short id, padded. -/
def HasShortId (shortIds : List Bytes) (buf : Bytes) : Prop :=
  ∃ sid ∈ shortIds, padShortId sid = slice buf 8 16

/-- An accepted hello opens to 16 bytes with a configured short id. -/
def Sound (P : Crypto) (info : ClientHelloInfo) (hello : Bytes) (privateKey : Key)
    (shortIds : List Bytes) : Prop :=
  ∀ authKey, verifyClientReality P info hello privateKey shortIds = some authKey →
    ∃ buf, OpensTo P info hello privateKey authKey buf ∧ buf.length = 16 ∧ HasShortId shortIds buf

section

variable {P : Crypto} {info : ClientHelloInfo} {hello buf : Bytes} {privateKey authKey : Key}
  {shortIds : List Bytes}

theorem OpensTo.unique {authKey' : Key} {buf' : Bytes}
    (h : OpensTo P info hello privateKey authKey buf)
    (h' : OpensTo P info hello privateKey authKey' buf') : authKey' = authKey ∧ buf' = buf := by
  obtain ⟨-, pk, hpk, -, rfl, hd⟩ := h
  obtain ⟨-, pk', hpk', -, rfl, hd'⟩ := h'
  rw [hpk] at hpk'
  cases hpk'
  rw [hd] at hd'
  exact ⟨rfl, (Option.some.inj hd').symm⟩

theorem padShortId_of_length {sid : Bytes} (h : sid.length = 8) : padShortId sid = sid := by
  simp [padShortId, h]

theorem hasShortId_of_mem (hlen : buf.length = 16) (h : slice buf 8 16 ∈ shortIds) :
    HasShortId shortIds buf :=
  ⟨_, h, padShortId_of_length (by simp only [slice, List.length_take, List.length_drop]; omega)⟩

theorem sound_iff_of_opensTo (hP : P.Lawful)
    (hopens : OpensTo P info hello privateKey authKey buf) :
    Sound P info hello privateKey shortIds ↔
      (slice buf 4 12 ∈ shortIds → HasShortId shortIds buf) := by
  have hlen := hopens.length_eq hP
  constructor
  · intro h hmem
    obtain ⟨buf', hopens', -, hid⟩ := h authKey
      (verifyClientReality_eq_some_iff.mpr ⟨buf, hopens, hlen.ge, .inl hmem⟩)
    rwa [(hopens.unique hopens').2] at hid
  · intro h k hv
    obtain ⟨buf', hopens', -, hm⟩ := verifyClientReality_eq_some_iff.mp hv
    obtain ⟨rfl, rfl⟩ := hopens.unique hopens'
    refine ⟨buf', hopens, hlen, ?_⟩
    rcases hm with hm | hm
    · exact h hm
    · exact hasShortId_of_mem hlen hm

theorem exists_opensTo (hP : P.Lawful) (hlen : buf.length = 16) :
    ∃ info hello privateKey authKey, OpensTo P info hello privateKey authKey buf := by
  let authKey := deriveAuthKey P (sampleKey 0) (sampleKey 0) (sampleKey 0)
  let sealed := P.encrypt authKey (sessionNonce (sampleKey 0)) [] buf
  have hs : sealed.length = 32 := by rw [hP.length_encrypt, hlen]
  refine ⟨⟨sealed, sampleKey 0, some (sampleKey 0).val, none⟩, [], sampleKey 0, authKey, hs,
    (sampleKey 0).val, rfl, (sampleKey 0).property, by rw [toArray_self], ?_⟩
  have haad : helloAad [] sealed = [] := by
    apply List.length_eq_zero_iff.mp
    rw [length_helloAad]
    rfl
  rw [haad]
  exact hP.decrypt_encrypt _ _ _ _

theorem slice_windows (a sid rest : Bytes) (ha : a.length = 4) (hsid : sid.length = 8)
    (hrest : rest.length = 4) : slice (a ++ (sid ++ rest)) 4 12 = sid ∧
      slice (a ++ (sid ++ rest)) 8 16 = sid.drop 4 ++ rest := by
  constructor
  · exact slice_append a sid rest ha.symm (by omega)
  · simp only [slice, List.drop_append, ha]
    rw [List.drop_of_length_le (by omega), List.nil_append, hsid, List.take_of_length_le (by
      simp only [List.length_append, List.length_drop]; omega)]
    rfl

/-- Soundness of the authentication: for a hello that opens to `buf`; and for all hellos
    at once, in terms of the configured short ids. -/
theorem plaintext_sound_iff (hP : P.Lawful) (shortIds : List Bytes) :
    (∀ info hello privateKey authKey buf, OpensTo P info hello privateKey authKey buf →
      (Sound P info hello privateKey shortIds ↔
        (slice buf 4 12 ∈ shortIds → HasShortId shortIds buf))) ∧
    ((∀ info hello privateKey, Sound P info hello privateKey shortIds) ↔
      ∀ sid ∈ shortIds, sid.length = 8 → ∀ rest : Bytes, rest.length = 4 →
        ∃ sid' ∈ shortIds, padShortId sid' = sid.drop 4 ++ rest) := by
  refine ⟨fun _ _ _ _ _ hopens => sound_iff_of_opensTo hP hopens,
    fun h sid hsid hlen rest hrest => ?_, fun h info hello privateKey authKey hv => ?_⟩
  · -- any plaintext can be sealed, so also the one with `sid` in bytes 4..12
    obtain ⟨h4, h8⟩ := slice_windows (List.replicate 4 0) sid rest rfl hlen hrest
    obtain ⟨info, hello, privateKey, authKey, hopens⟩ := exists_opensTo hP
      (show (List.replicate 4 0 ++ (sid ++ rest)).length = 16 by simp [hlen, hrest])
    have hid := (sound_iff_of_opensTo hP hopens).mp (h info hello privateKey) (by rwa [h4])
    rwa [HasShortId, h8] at hid
  · obtain ⟨buf, hopens, -, hm⟩ := verifyClientReality_eq_some_iff.mp hv
    have hlen := hopens.length_eq hP
    refine ⟨buf, hopens, hlen, ?_⟩
    rcases hm with hm | hm
    · obtain ⟨a, b, rfl, ha⟩ := exists_append (l := buf) (n := 4) (by omega)
      obtain ⟨sid, rest, rfl, hsid⟩ := exists_append (l := b) (n := 8) (by
        rw [List.length_append] at hlen; omega)
      have hrest : rest.length = 4 := by simp only [List.length_append] at hlen; omega
      obtain ⟨h4, h8⟩ := slice_windows a sid rest ha hsid hrest
      rw [h4] at hm
      rw [HasShortId, h8]
      exact h sid hm hsid rest hrest
    · exact hasShortId_of_mem hlen hm

theorem plaintext_sound_iff_short : samplePrimitives.Lawful ∧
    (∀ info hello privateKey, Sound samplePrimitives info hello privateKey [[1], [2]]) ∧
    ∃ info hello privateKey authKey,
      verifyClientReality samplePrimitives info hello privateKey [[1, 2, 3, 4, 5, 6, 7, 8]] =
        some authKey ∧
      Sound samplePrimitives info hello privateKey [[1, 2, 3, 4, 5, 6, 7, 8]] := by
  obtain ⟨info, hello, privateKey, authKey, hopens⟩ := exists_opensTo samplePrimitives_lawful
    (show [1, 8, 0, 0, 0, 0, 0, 77, 1, 2, 3, 4, 5, 6, 7, 8].length = 16 from rfl)
  have hsound := (plaintext_sound_iff samplePrimitives_lawful [[1, 2, 3, 4, 5, 6, 7, 8]]).1
    info hello privateKey authKey _ hopens
  exact ⟨samplePrimitives_lawful,
    (plaintext_sound_iff samplePrimitives_lawful [[1], [2]]).2.mpr (by simp), info, hello,
    privateKey, authKey,
    verifyClientReality_eq_some_iff.mpr ⟨_, hopens, by decide, .inr (by decide)⟩,
    hsound.mpr fun h => absurd h (by decide)⟩

theorem timestamp_accepted :
    ∃ info hello privateKey authKey,
      verifyClientReality samplePrimitives info hello privateKey [[1, 2, 3, 4, 5, 6, 7, 8]] =
        some authKey ∧
      OpensTo samplePrimitives info hello privateKey authKey
        [1, 8, 0, 0, 1, 2, 3, 4, 5, 6, 7, 8, 0, 0, 0, 0] ∧
      ¬ HasShortId [[1, 2, 3, 4, 5, 6, 7, 8]] [1, 8, 0, 0, 1, 2, 3, 4, 5, 6, 7, 8, 0, 0, 0, 0] := by
  obtain ⟨info, hello, privateKey, authKey, hopens⟩ := exists_opensTo samplePrimitives_lawful
    (show [1, 8, 0, 0, 1, 2, 3, 4, 5, 6, 7, 8, 0, 0, 0, 0].length = 16 from rfl)
  refine ⟨info, hello, privateKey, authKey,
    verifyClientReality_eq_some_iff.mpr ⟨_, hopens, by decide, .inl (by decide)⟩, hopens, ?_⟩
  simp [HasShortId, padShortId, slice]

end

end SkadiCore.Reality
