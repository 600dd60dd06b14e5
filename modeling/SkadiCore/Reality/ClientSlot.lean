import SkadiCore.Common.Run
import SkadiCore.Reality.Auth

/-!
# The auth key slot of the REALITY client

One `RealityTlsOutboundTransport` (`crates/skadi-transport/src/reality_tls_client.rs`)
has one TLS configuration, hence one `RealityAuthKeySlot`
(`third_party/rustls-reality/rustls/src/reality/client.rs`), for all connections it
opens. A connection puts its auth key there when it seals its ClientHello, and takes
the key from there when it checks the certificate of the server.

A step is one access to the slot, or what a connection does for itself between two
accesses. Connections run on different threads, and their steps interleave in any
way.
-/

namespace SkadiCore.Reality

/-! ## Sealing the hello -/

structure RealityClientSettings where
  serverPublicKey : Key
  shortId : Bytes
  ephSecret : Key

inductive TlsError
  | general (msg : String)
  | badEncoding
  | badSignature
  deriving DecidableEq

/-- `session_id_offset_in_handshake` (lines 199-206). -/
def sessionIdOffsetInHandshake (hello : Bytes) : Except TlsError ℕ :=
  if hello.length < 40 ∨ byteAt hello 0 ≠ 0x01 then
    .error (.general "invalid ClientHello encoding for REALITY")
  else .ok (4 + 2 + 32 + 1)

/-- `seal_session_id` (lines 218-256), at the time `ts`. -/
def sealSessionId (P : Crypto) (authKey clientRandom : Key) (helloAad shortId : Bytes)
    (ts : UInt32) : Except TlsError Bytes :=
  let sealed := P.encrypt authKey (sessionNonce clientRandom) helloAad
    (sessionIdPlaintext ts shortId)
  if sealed.length ≠ 32 then .error (.general "REALITY session_id length mismatch") else .ok sealed

/-- `apply_client_hello` (lines 156-182) up to the slot: the auth key to be stored there
    and the session id of the hello. -/
def applyClientHello (P : Crypto) (settings : RealityClientSettings) (clientRandom : Key)
    (hello : Bytes) (ts : UInt32) : Except TlsError (Key × Bytes) :=
  if settings.shortId.isEmpty ∨ settings.shortId.length > 8 then
    .error (.general "REALITY short_id must be 1..8 bytes")
  else
    let authKey := deriveAuthKey P settings.ephSecret settings.serverPublicKey clientRandom
    match sessionIdOffsetInHandshake hello with
    | .error e => .error e
    | .ok offset =>
      (sealSessionId P authKey clientRandom (blankAt hello offset) settings.shortId ts).map
        fun sessionId => (authKey, sessionId)

/-! ## Checking the certificate -/

def AUTH_HMAC_TAIL_LEN : ℕ := 64

def ED25519_OID : Bytes := [0x06, 0x03, 0x2b, 0x65, 0x70]

/-- `ed25519_public_key_raw` (`verifier.rs`, lines 51-72). `spki` is what webpki parses
    of a certificate: the bytes of its subject public key info. -/
def ed25519PublicKeyRaw (spki : Bytes → Option Bytes) (certDer : Bytes) : Except TlsError Key :=
  match spki certDer with
  | none => .error .badEncoding
  | some bytes =>
    if ¬ bytes.tails.any ED25519_OID.isPrefixOf then
      .error (.general "REALITY leaf certificate must use Ed25519")
    else if bytes.length < 32 then .error .badEncoding
    else .ok (toArray 32 (bytes.drop (bytes.length - 32)))

/-- `verify_server_cert_hmac` (`verifier.rs`, lines 28-49). -/
def verifyServerCertHmac (P : Crypto) (spki : Bytes → Option Bytes) (authKey : Key)
    (certDer : Bytes) : Except TlsError Unit :=
  if certDer.length < AUTH_HMAC_TAIL_LEN + 1 then .error .badEncoding
  else
    let expected := certDer.drop (certDer.length - AUTH_HMAC_TAIL_LEN)
    match ed25519PublicKeyRaw spki certDer with
    | .error e => .error e
    | .ok pubKey =>
      if expected = (P.hmac authKey pubKey.val).val then .ok () else .error .badSignature

/-- `patch_reality_signature` (`crates/skadi-transport/src/reality/cert.rs`, lines 46-59):
    the server puts the tag into the certificate it generated. -/
def patchRealitySignature (P : Crypto) (certDer : Bytes) (authKey : Key) (pubKeyRaw : Bytes) :
    Except String Bytes :=
  if certDer.length < 64 then .error "generated certificate DER is too short"
  else .ok (certDer.take (certDer.length - 64) ++ (P.hmac authKey pubKeyRaw).val)

/-- The certificate of a server that derived `authKey`: generated for the key pair with
    the public key `pubKey`, which webpki finds in it, and patched. -/
def IssuedUnder (P : Crypto) (spki : Bytes → Option Bytes) (authKey : Key) (cert : Bytes) : Prop :=
  ∃ certDer pubKey, 64 < certDer.length ∧
    patchRealitySignature P certDer authKey pubKey.val = .ok cert ∧
    ed25519PublicKeyRaw spki cert = .ok pubKey

theorem verifyServerCertHmac_of_issued {P : Crypto} {spki : Bytes → Option Bytes} {authKey : Key}
    {cert : Bytes} (h : IssuedUnder P spki authKey cert) :
    verifyServerCertHmac P spki authKey cert = .ok () := by
  obtain ⟨certDer, pubKey, hlen, hpatch, hpub⟩ := h
  have htag : (P.hmac authKey pubKey.val).val.length = 64 := (P.hmac authKey pubKey.val).property
  unfold patchRealitySignature at hpatch
  rw [if_neg (by omega)] at hpatch
  cases hpatch
  have hcert : (certDer.take (certDer.length - 64) ++ (P.hmac authKey pubKey.val).val).length =
      certDer.length := by
    rw [List.length_append, List.length_take, htag]
    omega
  unfold verifyServerCertHmac
  rw [if_neg (by rw [hcert, AUTH_HMAC_TAIL_LEN]; omega)]
  simp only [hpub, hcert, AUTH_HMAC_TAIL_LEN]
  rw [if_pos (List.drop_left' (by rw [List.length_take]; omega))]

/-! ## Connections of one transport -/

structure RealityAuthKeySlot where
  ready : Bool
  key : Option Key

inductive ConnStage
  | idle
  /-- The hello is sealed, the key about to be stored (line 51). -/
  | storing (clientRandom authKey : Key)
  /-- The key is stored, the flag about to be set (line 52). -/
  | publishing (clientRandom : Key)
  /-- The hello is sent. -/
  | waiting (clientRandom : Key)
  /-- The flag was set, the key about to be read (lines 62-67). -/
  | reading (clientRandom : Key) (cert : Bytes)
  /-- `verify_server_cert` returned; `used` is the key it read. -/
  | checked (clientRandom : Key) (cert : Bytes) (intermediates : List Bytes) (used : Option Key)
    (result : Except TlsError Unit)
  | closed

def ConnStage.pending : ConnStage → Bool
  | .publishing _ | .waiting _ | .reading _ _ => true
  | _ => false

structure RealityClient where
  slot : RealityAuthKeySlot
  conn : ℕ → ConnStage

inductive ClientAct
  /-- `connect`: the hello `hello` is sealed (`hs.rs`, line 469). -/
  | hello (c : ℕ) (clientRandom : Key) (hello : Bytes) (ts : UInt32)
  | storeKey (c : ℕ)
  | storeReady (c : ℕ)
  /-- A HelloRetryRequest: the second hello is sealed with the same random. -/
  | retry (c : ℕ) (hello : Bytes) (ts : UInt32)
  /-- `verify_server_cert` is called (line 115), and reads the flag. -/
  | certificate (c : ℕ) (cert : Bytes) (intermediates : List Bytes)
  | readKey (c : ℕ)
  /-- The handshake fails or is given up. -/
  | close (c : ℕ)

namespace RealityClient

section

variable (P : Crypto) (spki : Bytes → Option Bytes) (settings : RealityClientSettings)

def init : RealityClient := ⟨⟨false, none⟩, fun _ => .idle⟩

def setConn (s : RealityClient) (c : ℕ) (stage : ConnStage) : RealityClient :=
  { s with conn := Function.update s.conn c stage }

/-- A hello is sealed; a failure is a panic of the connection (`hs.rs`, line 470). -/
def sealHello (s : RealityClient) (c : ℕ) (clientRandom : Key) (hello : Bytes) (ts : UInt32) :
    RealityClient :=
  match applyClientHello P settings clientRandom hello ts with
  | .ok (authKey, _) => s.setConn c (.storing clientRandom authKey)
  | .error _ => s.setConn c .closed

def step (s : RealityClient) (a : ClientAct) : Option RealityClient :=
  match a with
  | .hello c clientRandom hello ts =>
    match s.conn c with
    | .idle => some (s.sealHello P settings c clientRandom hello ts)
    | _ => none
  | .storeKey c =>
    match s.conn c with
    | .storing clientRandom authKey =>
      some { s.setConn c (.publishing clientRandom) with
        slot := { s.slot with key := some authKey } }
    | _ => none
  | .storeReady c =>
    match s.conn c with
    | .publishing clientRandom =>
      some { s.setConn c (.waiting clientRandom) with slot := { s.slot with ready := true } }
    | _ => none
  | .retry c hello ts =>
    match s.conn c with
    | .waiting clientRandom => some (s.sealHello P settings c clientRandom hello ts)
    | _ => none
  | .certificate c cert intermediates =>
    match s.conn c with
    | .waiting clientRandom =>
      if intermediates ≠ [] then
        some (s.setConn c (.checked clientRandom cert intermediates none
          (.error (.general "REALITY rejects TLS certificate chains with intermediates"))))
      else if ¬ s.slot.ready then
        some (s.setConn c (.checked clientRandom cert intermediates none
          (.error (.general "REALITY auth_key not ready before certificate verify"))))
      else some (s.setConn c (.reading clientRandom cert))
    | _ => none
  | .readKey c =>
    match s.conn c, s.slot.key with
    | .reading clientRandom cert, some key =>
      some (s.setConn c (.checked clientRandom cert [] (some key)
        (verifyServerCertHmac P spki key cert)))
    | _, _ => none
  | .close c =>
    match s.conn c with
    | .idle | .checked .. | .closed => none
    | _ => some (s.setConn c .closed)

end

/-- A connection stores its key only while no other waits for a check. -/
def exclusive (s : RealityClient) : ClientAct → Prop
  | .storeKey c => ∀ c', c' ≠ c → (s.conn c').pending = false
  | _ => True

/-! ## Every connection finds its own key -/

section

variable {P : Crypto} {spki : Bytes → Option Bytes} {settings : RealityClientSettings}
  {s t : RealityClient} {a : ClientAct} {as : List ClientAct}

def ownKey (P : Crypto) (settings : RealityClientSettings) (clientRandom : Key) : Key :=
  deriveAuthKey P settings.ephSecret settings.serverPublicKey clientRandom

def Good (P : Crypto) (spki : Bytes → Option Bytes) (settings : RealityClientSettings)
    (slot : RealityAuthKeySlot) : ConnStage → Prop
  | .idle | .closed => True
  | .storing r key => key = ownKey P settings r
  | .publishing r => slot.key = some (ownKey P settings r)
  | .waiting r | .reading r _ => slot.key = some (ownKey P settings r) ∧ slot.ready = true
  | .checked r cert intermediates used result =>
    (∀ key ∈ used, key = ownKey P settings r) ∧
      (intermediates = [] → IssuedUnder P spki (ownKey P settings r) cert → result = .ok ())

variable {stage : ConnStage}

theorem good_of_not_pending {slot slot' : RealityAuthKeySlot} (hstage : stage.pending = false)
    (h : Good P spki settings slot stage) : Good P spki settings slot' stage := by
  cases stage with
  | publishing r | waiting r | reading r cert => cases hstage
  | idle | storing | checked | closed => exact h

variable {slot : RealityAuthKeySlot}

theorem good_ready (h : Good P spki settings slot stage) :
    Good P spki settings { slot with ready := true } stage := by
  cases stage with
  | waiting r | reading r cert => exact ⟨h.1, rfl⟩
  | idle | storing | publishing | checked | closed => exact h

theorem authKey_of_applyClientHello {r hello : Key} {m sessionId : Bytes} {ts : UInt32}
    (h : applyClientHello P settings r m ts = .ok (hello, sessionId)) :
    hello = ownKey P settings r := by
  unfold applyClientHello at h
  split_ifs at h
  cases hoff : sessionIdOffsetInHandshake m with
  | error e => simp [hoff] at h
  | ok offset =>
    simp only [hoff] at h
    cases hseal : sealSessionId P (deriveAuthKey P settings.ephSecret settings.serverPublicKey r) r
        (blankAt m offset) settings.shortId ts with
    | error e => simp [hseal, Except.map] at h
    | ok sid =>
      simp only [hseal, Except.map, Except.ok.injEq, Prod.mk.injEq] at h
      exact h.1.symm

theorem good_conn_setConn {c : ℕ} (hstage : Good P spki settings slot stage)
    (hothers : ∀ c', c' ≠ c → Good P spki settings slot (s.conn c')) (c' : ℕ) :
    Good P spki settings slot ((s.setConn c stage).conn c') := by
  by_cases hc : c' = c
  · subst hc
    simpa [setConn] using hstage
  · simpa [setConn, hc] using hothers c' hc

theorem good_setConn (c : ℕ) (stage : ConnStage)
    (hs : ∀ c, Good P spki settings s.slot (s.conn c))
    (hstage : Good P spki settings s.slot stage) :
    ∀ c', Good P spki settings (s.setConn c stage).slot ((s.setConn c stage).conn c') :=
  good_conn_setConn hstage fun c' _ => hs c'

theorem good_sealHello {c : ℕ} {r : Key} {hello : Bytes} {ts : UInt32}
    (hs : ∀ c, Good P spki settings s.slot (s.conn c)) (c' : ℕ) :
    Good P spki settings (s.sealHello P settings c r hello ts).slot
      ((s.sealHello P settings c r hello ts).conn c') := by
  unfold sealHello
  cases h : applyClientHello P settings r hello ts with
  | error e => exact good_setConn c .closed hs trivial c'
  | ok x => exact good_setConn c (.storing r x.1) hs (authKey_of_applyClientHello h) c'

theorem good_step (hs : ∀ c, Good P spki settings s.slot (s.conn c)) (ha : s.exclusive a)
    (hst : s.step P spki settings a = some t) :
    ∀ c, Good P spki settings t.slot (t.conn c) := by
  cases a with
  | hello c r hello ts =>
    cases hc : s.conn c <;> simp only [step, hc, reduceCtorEq, Option.some.injEq] at hst
    subst hst
    exact good_sealHello hs
  | storeKey c =>
    cases hc : s.conn c <;> simp only [step, hc, reduceCtorEq, Option.some.injEq] at hst
    subst hst
    have hself := hs c
    rw [hc] at hself
    exact good_conn_setConn (congrArg some hself)
      fun c' hc' => good_of_not_pending (ha c' hc') (hs c')
  | storeReady c =>
    cases hc : s.conn c <;> simp only [step, hc, reduceCtorEq, Option.some.injEq] at hst
    subst hst
    have hself := hs c
    rw [hc] at hself
    exact good_conn_setConn ⟨hself, rfl⟩ fun c' _ => good_ready (hs c')
  | retry c hello ts =>
    cases hc : s.conn c <;> simp only [step, hc, reduceCtorEq, Option.some.injEq] at hst
    subst hst
    exact good_sealHello hs
  | certificate c cert intermediates =>
    cases hc : s.conn c <;> simp only [step, hc, reduceCtorEq] at hst
    have hself := hs c
    rw [hc] at hself
    by_cases hi : intermediates ≠ []
    · rw [if_pos hi] at hst
      cases hst
      exact good_setConn c _ hs ⟨by simp, fun h => absurd h hi⟩
    · rw [if_neg hi, if_neg (not_not.mpr hself.2)] at hst
      cases hst
      exact good_setConn c _ hs hself
  | readKey c =>
    cases hc : s.conn c <;> simp only [step, hc, reduceCtorEq] at hst
    have hself := hs c
    rw [hc] at hself
    rw [hself.1] at hst
    cases hst
    exact good_setConn c _ hs ⟨by simp, fun _ hcert => verifyServerCertHmac_of_issued hcert⟩
  | close c =>
    cases hc : s.conn c <;> simp only [step, hc, reduceCtorEq, Option.some.injEq] at hst <;>
      (subst hst; exact good_setConn c .closed hs trivial)

/-- In runs that store a key only while no other connection is waiting for its own,
    every connection checks its certificate with its own auth key, and the
    certificate of a server that derived that key passes. -/
theorem own_key_checked (h : Run (step P spki settings) exclusive init as s) :
    ∀ c r cert intermediates used result,
      s.conn c = .checked r cert intermediates used result →
      (∀ key ∈ used, key = deriveAuthKey P settings.ephSecret settings.serverPublicKey r) ∧
      (intermediates = [] →
        IssuedUnder P spki (deriveAuthKey P settings.ephSecret settings.serverPublicKey r) cert →
        result = .ok ()) := by
  have hgood := h.invariant (I := fun s => ∀ c, Good P spki settings s.slot (s.conn c))
    (fun _ _ _ hs ha hst => good_step hs ha hst) (by intro c; trivial)
  intro c r cert intermediates used result hc
  have := hgood c
  rw [hc] at this
  exact this

end

/-! ## Two connections -/

def sampleSettings : RealityClientSettings := ⟨sampleKey 3, [1, 2, 3, 4, 5, 6, 7, 8], sampleKey 2⟩

def sampleSpki (_ : Bytes) : Option Bytes := some (ED25519_OID ++ (sampleKey 7).val)

def sampleCert (r : Byte) : Bytes :=
  [0] ++ (samplePrimitives.hmac
    (deriveAuthKey samplePrimitives (sampleKey 2) (sampleKey 3) (sampleKey r))
    (sampleKey 7).val).val

theorem issuedUnder_sampleCert (r : Byte) : IssuedUnder samplePrimitives sampleSpki
    (deriveAuthKey samplePrimitives (sampleKey 2) (sampleKey 3) (sampleKey r)) (sampleCert r) :=
  ⟨List.replicate 65 0, sampleKey 7, by decide, rfl, rfl⟩

def sendHello (c : ℕ) (r : Byte) : List ClientAct :=
  [.hello c (sampleKey r) sampleHello 77, .storeKey c, .storeReady c]

def getCertificate (c : ℕ) (r : Byte) : List ClientAct :=
  [.certificate c (sampleCert r) [], .readKey c]

/-- The steps of one connection from storing its key to reading it back. -/
def storeAndCheck (c : ℕ) (r : Byte) : List ClientAct :=
  [.storeKey c, .storeReady c] ++ getCertificate c r

theorem exec_exclusive {s t : RealityClient} {c : ℕ} {r : Byte}
    (hothers : ∀ c', c' ≠ c → (s.conn c').pending = false)
    (h : exec (step samplePrimitives sampleSpki sampleSettings) (fun _ _ => true) s
      (storeAndCheck c r) = some t) :
    Run (step samplePrimitives sampleSpki sampleSettings) exclusive s (storeAndCheck c r) t := by
  simp only [storeAndCheck, getCertificate, List.cons_append, List.nil_append, exec, if_true,
    Option.bind_eq_some_iff, Option.some.injEq] at h ⊢
  obtain ⟨s₁, h₁, s₂, h₂, s₃, h₃, s₄, h₄, rfl⟩ := h
  exact (((Run.single hothers h₁).snoc (by trivial) h₂).snoc (by trivial) h₃).snoc (by trivial) h₄

theorem own_key_checked_both :
    ∃ s used₀ used₁ result₀ result₁,
      Run (step samplePrimitives sampleSpki sampleSettings) exclusive init
        ([.hello 0 (sampleKey 8) sampleHello 77, .hello 1 (sampleKey 9) sampleHello 77] ++
          storeAndCheck 0 8 ++ storeAndCheck 1 9) s ∧
      s.conn 0 = .checked (sampleKey 8) (sampleCert 8) [] used₀ result₀ ∧ result₀ = .ok () ∧
      s.conn 1 = .checked (sampleKey 9) (sampleCert 9) [] used₁ result₁ ∧ result₁ = .ok () := by
  obtain ⟨s₀, s₁, s₂, s₃, used₀, used₁, result₀, result₁, h₀, h₁, hidle₁, h₂, hidle₂, h₃, hc₀,
      hc₁⟩ : ∃ s₀ s₁ s₂ s₃ used₀ used₁ result₀ result₁,
        init.step samplePrimitives sampleSpki sampleSettings
          (.hello 0 (sampleKey 8) sampleHello 77) = some s₀ ∧
        s₀.step samplePrimitives sampleSpki sampleSettings
          (.hello 1 (sampleKey 9) sampleHello 77) = some s₁ ∧
        (∀ c, c ≠ 0 → (s₁.conn c).pending = false) ∧
        exec (step samplePrimitives sampleSpki sampleSettings) (fun _ _ => true) s₁
          (storeAndCheck 0 8) = some s₂ ∧
        (∀ c, c ≠ 1 → (s₂.conn c).pending = false) ∧
        exec (step samplePrimitives sampleSpki sampleSettings) (fun _ _ => true) s₂
          (storeAndCheck 1 9) = some s₃ ∧
        s₃.conn 0 = .checked (sampleKey 8) (sampleCert 8) [] used₀ result₀ ∧
        s₃.conn 1 = .checked (sampleKey 9) (sampleCert 9) [] used₁ result₁ := by
    refine ⟨_, _, _, _, _, _, _, _, rfl, rfl, ?_, rfl, ?_, rfl, rfl, rfl⟩
    · intro c hc
      rcases c with _ | _ | c
      · exact absurd rfl hc
      · rfl
      · rfl
    · intro c hc
      rcases c with _ | _ | c
      · rfl
      · exact absurd rfl hc
      · rfl
  have hrun := (((Run.single (C := exclusive) (by trivial) h₀).snoc (by trivial) h₁).append
    (exec_exclusive hidle₁ h₂)).append (exec_exclusive hidle₂ h₃)
  exact ⟨s₃, used₀, used₁, result₀, result₁, hrun, hc₀,
    (own_key_checked hrun 0 _ _ _ _ _ hc₀).2 rfl (issuedUnder_sampleCert 8), hc₁,
    (own_key_checked hrun 1 _ _ _ _ _ hc₁).2 rfl (issuedUnder_sampleCert 9)⟩

theorem foreign_key_checked :
    ∃ s used result, Run (step samplePrimitives sampleSpki sampleSettings) Any init
        (sendHello 0 8 ++ sendHello 1 9 ++ getCertificate 0 8) s ∧
      s.conn 0 = .checked (sampleKey 8) (sampleCert 8) [] (some used) result ∧
      used = deriveAuthKey samplePrimitives (sampleKey 2) (sampleKey 3) (sampleKey 9) ∧
      used ≠ deriveAuthKey samplePrimitives (sampleKey 2) (sampleKey 3) (sampleKey 8) ∧
      result = .error .badSignature := by
  exact ⟨_, _, _, exec_any rfl, rfl, rfl, by decide +kernel, rfl⟩

end RealityClient

end SkadiCore.Reality
