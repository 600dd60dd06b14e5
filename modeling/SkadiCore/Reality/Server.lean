import SkadiCore.Common.Chunks
import SkadiCore.Core.Io
import SkadiCore.Reality.Auth
import SkadiCore.Reality.HelloLayout
import SkadiCore.Relay.Limits

/-!
# The REALITY server

Model of `RealityTransport` (`crates/skadi-transport/src/reality/server.rs`) up to the
decision between TLS and fallback. The server reads until it has the first record, or
16384 bytes, and decides on all it has read.

* `sniffed_of_boundary`: if a read ends where the record ends, that is the record.
* `decide_eq`: the decision is a function of what the buffer presents: session id,
  client random, key share and associated data.
-/

namespace SkadiCore.Reality

/-! ## Configuration -/

/-- `RealityServerConfig` (lines 40-59), without the certificate, the timeout of the
    connection to `dest` and the mode of the key exchange. -/
structure RealityServerConfig where
  privateKey : Key
  dest : String
  serverNames : List String
  shortIds : List Bytes
  idleTimeout : Option ℕ
  maxSessionLifetime : Option ℕ

structure RealityTransport where
  serverNames : List String
  privateKey : Key
  shortIds : List Bytes
  dest : String
  relayLimits : Relay.RelayLimits

def normalName (s : String) : String := toAsciiLowercase (trim s)

/-- `RealityTransport::new` (lines 75-114). The private key has 32 bytes, so that
    `validate` accepts it. -/
def RealityTransport.new (config : RealityServerConfig) : Except String RealityTransport :=
  if config.shortIds.any fun id => id.isEmpty || id.length > 8 then
    .error "REALITY short_id must be 1..8 bytes"
  else if config.shortIds.isEmpty then .error "REALITY requires at least one short_id"
  else
    .ok
      { serverNames := config.serverNames.map normalName
        privateKey := config.privateKey
        shortIds := config.shortIds
        dest := config.dest
        relayLimits := ⟨config.idleTimeout, config.maxSessionLifetime⟩ }

/-! ## Reading the first record -/

inductive RealityError
  | handshake (msg : String)
  | handshakeTimeout
  | earlyClose
  | fallbackHandled
  deriving DecidableEq

inductive AcceptError
  | reality (e : RealityError)
  | io (e : IoError)
  | msg (text : String)
  deriving DecidableEq

inductive Ending
  | eof
  | silent
  | failed (e : IoError)
  deriving DecidableEq

structure ClientStream where
  chunks : List Bytes
  ending : Ending
  reads : ∀ c ∈ chunks, c ≠ [] ∧ c.length ≤ 1024

def ClientStream.bytes (s : ClientStream) : Bytes := s.chunks.flatten

def Ending.read {α : Type} (eof : Except AcceptError α) : Ending → Except AcceptError α
  | .eof => eof
  | silent => .error (.reality .handshakeTimeout)
  | failed e => .error (.io e)

def needed (buffer : Bytes) : ℕ :=
  if byteAt buffer 0 = 0x16 then 5 + (fromBe16 (byteAt buffer 3) (byteAt buffer 4)).toNat
  else buffer.length

def wantsMore (n : ℕ) (buffer : Bytes) : Bool := buffer.length < n && buffer.length < 16384

/-- `read_client_hello_prefix` (lines 225-264): the buffer, and what was not read. -/
def readClientHelloPrefix (s : ClientStream) : Except AcceptError (Bytes × List Bytes) :=
  let first := readWhile (·.length < 5) [] s.chunks
  if first.1.length < 5 then s.ending.read (.error (.reality .earlyClose))
  else
    let second := readWhile (wantsMore (needed first.1)) first.1 first.2
    if wantsMore (needed first.1) second.1 then s.ending.read (.ok second) else .ok second

/-! ## The decision -/

/-- `RealityTransport::sni_allowed` (lines 158-170). -/
def sniAllowed (serverNames : List String) (info : ClientHelloInfo) : Bool :=
  if serverNames.isEmpty then true
  else (info.serverName.map fun s => serverNames.any (· == toAsciiLowercase s)).getD false

/-- The decision of `accept` on what was read (lines 123-140): the key of a client that
    authenticates, or none for the fallback. -/
def RealityTransport.decide (P : Crypto) (t : RealityTransport) (buffer : Bytes) : Option Key :=
  match parseClientHello buffer with
  | .ok (some info) =>
    if sniAllowed t.serverNames info then
      verifyClientReality P info buffer t.privateKey t.shortIds
    else none
  | _ => none

inductive Branch
  | reality (authKey : Key)
  | fallback
  deriving DecidableEq

/-- `RealityTransport::accept` (lines 117-156) up to its branches: the branch, and what was
    read and what was not. -/
def RealityTransport.accept (P : Crypto) (t : RealityTransport) (s : ClientStream) :
    Except AcceptError (Branch × Bytes × List Bytes) :=
  (readClientHelloPrefix s).map fun (buffer, rest) =>
    match t.decide P buffer with
    | some authKey => (.reality authKey, buffer, rest)
    | none => (.fallback, buffer, rest)

/-! ## What was read -/

def sniffed (n : ℕ) (s : ClientStream) : Bytes × List Bytes :=
  readWhile (wantsMore n) [] s.chunks

theorem byteAt_eq_of_isPrefix {l l' m : Bytes} (h : l <+: m) (h' : l' <+: m) {i : ℕ}
    (hi : i < l.length) (hi' : i < l'.length) : byteAt l i = byteAt l' i := by
  obtain ⟨t, rfl⟩ := h
  obtain ⟨t', heq⟩ := h'
  rw [← byteAt_append_left hi t, ← heq, byteAt_append_left hi']

variable {s : ClientStream}

theorem needed_eq_length {r buffer : Bytes} (hr : IsRecord r) (hs : r <+: s.bytes)
    (hb : buffer <+: s.bytes) (h5 : 5 ≤ buffer.length) : needed buffer = r.length := by
  have hlen : 5 ≤ r.length := by rw [hr.length]; omega
  have hbyte : ∀ i < 5, byteAt buffer i = byteAt r i := fun i hi =>
    byteAt_eq_of_isPrefix hb hs (by omega) (by omega)
  rw [needed, hbyte 0 (by omega), hbyte 3 (by omega), hbyte 4 (by omega), if_pos hr.type,
    ← hr.length]

theorem readWhile_isPrefix (more : Bytes → Bool) (s : ClientStream) :
    (readWhile more [] s.chunks).1 <+: s.bytes :=
  ⟨_, readWhile_flatten more [] s.chunks⟩

theorem five_le_length_first (h5 : 5 ≤ s.bytes.length) :
    5 ≤ (readWhile (·.length < 5) [] s.chunks).1.length := by
  by_contra h
  rw [readWhile_of_more (by simpa using h)] at h
  exact h h5

variable {r : Bytes}

theorem readClientHelloPrefix_of_record (hr : IsRecord r) (hs : r <+: s.bytes) :
    readClientHelloPrefix s = .ok (sniffed r.length s) := by
  have hlen : 5 ≤ r.length := by rw [hr.length]; omega
  have hle := hs.length_le
  have h5 := five_le_length_first (hlen.trans hle)
  have hneeded : needed (readWhile (·.length < 5) [] s.chunks).1 = r.length :=
    needed_eq_length hr hs (readWhile_isPrefix _ s) h5
  have hsecond : readWhile (wantsMore r.length) (readWhile (·.length < 5) [] s.chunks).1
      (readWhile (·.length < 5) [] s.chunks).2 = sniffed r.length s := by
    refine readWhile_readWhile (fun l hl => ?_) [] s.chunks
    simp only [decide_eq_true_eq] at hl
    simp only [wantsMore, Bool.and_eq_true, decide_eq_true_eq]
    omega
  have hstop : wantsMore r.length (sniffed r.length s).1 = false := by
    by_contra h
    rw [sniffed, readWhile_of_more (by simpa using h)] at h
    simp only [wantsMore, Bool.and_eq_false_iff, decide_eq_false_iff_not, not_or, not_not] at h
    have : s.bytes.length < r.length := h.1
    omega
  simp only [readClientHelloPrefix, if_neg (Nat.not_lt.mpr h5), hneeded, hsecond, hstop,
    Bool.false_eq_true, if_false]

theorem readWhile_of_boundary (hlen : r.length ≤ 16384) {cs : List Bytes} (hne : ∀ c ∈ cs, c ≠ [])
    (ds : List Bytes) {buf : Bytes} (hr : buf ++ cs.flatten = r) :
    readWhile (wantsMore r.length) buf (cs ++ ds) = (r, ds) := by
  induction cs generalizing buf with
  | nil =>
    rw [List.flatten_nil, List.append_nil] at hr
    cases ds with
    | nil => rw [hr]; rfl
    | cons d ds => simp [readWhile, wantsMore, hr]
  | cons c cs ih =>
    have hc : 0 < c.length := List.length_pos_iff.mpr (hne c (by simp))
    have hbuf : r.length = buf.length + (c.length + cs.flatten.length) := by
      rw [← hr, List.length_append, List.flatten_cons, List.length_append]
    rw [List.cons_append, readWhile, if_pos (by
      simp only [wantsMore, Bool.and_eq_true, decide_eq_true_eq]; omega)]
    exact ih (fun c hc => hne c (by simp [hc])) (by simpa using hr)

theorem sniffed_of_boundary (hlen : r.length ≤ 16384) {cs ds : List Bytes}
    (hs : s.chunks = cs ++ ds) (hr : cs.flatten = r) : sniffed r.length s = (r, ds) := by
  rw [sniffed, hs]
  exact readWhile_of_boundary hlen (fun c hc => (s.reads c (by simp [hs, hc])).1) ds hr

/-! ## What the decision depends on -/

structure Presented where
  sessionId : Key
  clientRandom : Key
  publicKey : Key
  aad : Bytes
  deriving DecidableEq

/-- What the buffer presents: a hello with an allowed name, a session id of 32 bytes and a
    key share; with it the rest of the buffer, as associated data. -/
def presented (serverNames : List String) (buffer : Bytes) : Option Presented :=
  match parseClientHello buffer with
  | .ok (some info) =>
    if sniAllowed serverNames info ∧ info.sessionId.length = 32 then
      (info.publicKey.filter (·.length = 32)).map fun publicKey =>
        { sessionId := toArray 32 info.sessionId
          clientRandom := info.clientRandom
          publicKey := toArray 32 publicKey
          aad := helloAad buffer info.sessionId }
    else none
  | _ => none

def Presented.check (P : Crypto) (privateKey : Key) (shortIds : List Bytes) (p : Presented) :
    Option Key :=
  let authKey := deriveAuthKey P privateKey p.publicKey p.clientRandom
  match P.decrypt authKey (sessionNonce p.clientRandom) p.aad p.sessionId.val with
  | none => none
  | some buf =>
    if buf.length < 16 then none
    else if shortIds.any fun sid => sid == slice buf 4 12 || sid == slice buf 8 16 then
      some authKey
    else none

theorem verifyClientReality_eq_check {info : ClientHelloInfo} {pk : Bytes}
    (hid : info.sessionId.length = 32) (hpk : info.publicKey = some pk) (hlen : pk.length = 32)
    (P : Crypto) (hello : Bytes) (privateKey : Key) (shortIds : List Bytes) :
    verifyClientReality P info hello privateKey shortIds =
      Presented.check P privateKey shortIds
        ⟨toArray 32 info.sessionId, info.clientRandom, toArray 32 pk,
          helloAad hello info.sessionId⟩ := by
  cases hopen : P.decrypt (deriveAuthKey P privateKey (toArray 32 pk) info.clientRandom)
      (sessionNonce info.clientRandom) (helloAad hello info.sessionId) info.sessionId <;>
    simp [verifyClientReality, Presented.check, hid, hpk, hlen, hopen, toArray_val hid]

theorem decide_eq (P : Crypto) (t : RealityTransport) (buffer : Bytes) :
    t.decide P buffer =
      (presented t.serverNames buffer).bind (Presented.check P t.privateKey t.shortIds) := by
  unfold RealityTransport.decide presented
  split
  · next info hinfo =>
    by_cases hsni : sniAllowed t.serverNames info = true
    · by_cases hid : info.sessionId.length = 32
      · rw [if_pos hsni, if_pos ⟨hsni, hid⟩]
        cases hpk : info.publicKey with
        | none => simp [verifyClientReality, hpk]
        | some pk =>
          by_cases hlen : pk.length = 32
          · rw [verifyClientReality_eq_check hid hpk hlen]
            simp [Option.filter, hlen]
          · simp [verifyClientReality, hpk, hlen, Option.filter]
      · rw [if_pos hsni, if_neg (fun h => hid h.2), verifyClientReality, if_pos hid]
        rfl
    · rw [if_neg hsni, if_neg (fun h => hsni h.1)]
      rfl
  · rfl

/-! ### Primitives that tell what is presented apart -/

theorem zero_add_key (k : Key) : List.Vector.map₂ (· + ·) (sampleKey 0) k = k := by
  apply List.Vector.ext
  intro i
  rw [List.Vector.get_map₂, sampleKey, List.Vector.get_replicate, UInt8.zero_add]

theorem clientRandom_eq {k k' : Key} (hsalt : slice k.val 0 20 = slice k'.val 0 20)
    (hnonce : sessionNonce k = sessionNonce k') : k = k' := by
  have hval : ∀ k : Key, k.val = slice k.val 0 20 ++ (sessionNonce k).val := by
    intro k
    have hlen : (slice k.val 20 32).length = 12 := by
      simp [slice, k.property]
    rw [sessionNonce, toArray_val hlen]
    simp only [slice, Nat.sub_zero, List.drop_zero]
    rw [List.take_of_length_le (l := k.val.drop 20) (by simp [k.property]),
      List.take_append_drop]
  exact Subtype.ext (by rw [hval k, hval k', hsalt, hnonce])

def Presented.primitives (p : Presented) (tag : List.Vector Byte 16) : Crypto :=
  .lone (slice p.clientRandom.val 0 20) p.publicKey (sessionNonce p.clientRandom) p.aad
    p.sessionId tag

theorem deriveAuthKey_primitives (p p' : Presented) (tag : List.Vector Byte 16) :
    deriveAuthKey (p.primitives tag) (sampleKey 0) p'.publicKey p'.clientRandom =
      (p.primitives tag).hkdf (slice p'.clientRandom.val 0 20) p'.publicKey REALITY_INFO := by
  rw [deriveAuthKey]
  congr 1
  exact zero_add_key p'.publicKey

theorem check_primitives_self (p : Presented) (tag : List.Vector Byte 16) :
    p.check (p.primitives tag) (sampleKey 0) [List.replicate 8 0] = some Crypto.loneKey := by
  have hkey : (p.primitives tag).hkdf (slice p.clientRandom.val 0 20) p.publicKey REALITY_INFO =
      Crypto.loneKey := if_pos ⟨rfl, rfl⟩
  have hopens : (p.primitives tag).decrypt Crypto.loneKey (sessionNonce p.clientRandom) p.aad
      p.sessionId.val = some (List.replicate 16 0) := Crypto.lone_decrypt_self
  simp only [Presented.check, deriveAuthKey_primitives, hkey, hopens]
  rfl

theorem eq_of_check_primitives {p p' : Presented} {tag : List.Vector Byte 16} {k : Key}
    {shortIds : List Bytes} (htag : p'.sessionId.val.drop 16 ≠ tag.val)
    (h : p'.check (p.primitives tag) (sampleKey 0) shortIds = some k) : p' = p := by
  simp only [Presented.check, deriveAuthKey_primitives] at h
  split at h
  · cases h
  · next buf hopens =>
    obtain ⟨hkey, hnonce, haad, hid⟩ := Crypto.lone_decrypt_eq_some htag hopens
    obtain ⟨hsalt, hpk⟩ := Crypto.lone_hkdf_eq_loneKey hkey
    obtain ⟨sessionId, clientRandom, publicKey, aad⟩ := p'
    obtain rfl := clientRandom_eq hsalt hnonce
    cases hpk
    cases haad
    cases hid
    rfl

theorem exists_tag_ne (l : Bytes) : ∃ tag : List.Vector Byte 16, l ≠ tag.val := by
  by_cases h : l = List.replicate 16 0
  · exact ⟨List.Vector.replicate 16 1, by rw [h]; decide⟩
  · exact ⟨List.Vector.replicate 16 0, h⟩

theorem exists_check_ne {p : Presented} {q : Option Presented} (hne : some p ≠ q) :
    ∃ P : Crypto, P.Lawful ∧ p.check P (sampleKey 0) [List.replicate 8 0] ≠
      q.bind (Presented.check P (sampleKey 0) [List.replicate 8 0]) := by
  obtain ⟨tag, htag⟩ := exists_tag_ne ((q.map fun p' => p'.sessionId.val.drop 16).getD [])
  refine ⟨p.primitives tag, Crypto.lone_lawful, ?_⟩
  rw [check_primitives_self]
  intro h
  obtain ⟨p', rfl, hp'⟩ := Option.bind_eq_some_iff.mp h.symm
  exact hne (congrArg some (eq_of_check_primitives htag hp').symm)

theorem eq_of_forall_check {o o' : Option Presented}
    (h : ∀ P : Crypto, P.Lawful →
      o.bind (Presented.check P (sampleKey 0) [List.replicate 8 0]) =
        o'.bind (Presented.check P (sampleKey 0) [List.replicate 8 0])) : o = o' := by
  by_contra hne
  cases o with
  | some p =>
    obtain ⟨P, hP, hcheck⟩ := exists_check_ne hne
    exact hcheck (h P hP)
  | none =>
    obtain ⟨p, rfl⟩ := Option.ne_none_iff_exists'.mp (Ne.symm hne)
    obtain ⟨P, hP, hcheck⟩ := exists_check_ne (Ne.symm hne)
    exact hcheck (h P hP).symm

/-! ## Streams with the same first record -/

theorem accept_of_record (P : Crypto) (t : RealityTransport) (hr : IsRecord r)
    (hs : r <+: s.bytes) :
    (t.accept P s).map Prod.fst =
      .ok (((presented t.serverNames (sniffed r.length s).1).bind
        (Presented.check P t.privateKey t.shortIds)).elim .fallback .reality) := by
  rw [RealityTransport.accept, readClientHelloPrefix_of_record hr hs, ← decide_eq]
  cases hd : t.decide P (sniffed r.length s).1 <;> simp [Except.map, hd]

def sampleConfig (names : List String) (shortId : Bytes) : RealityServerConfig :=
  { privateKey := sampleKey 0
    dest := "www.microsoft.com:443"
    serverNames := names
    shortIds := [shortId]
    idleTimeout := none
    maxSessionLifetime := none }

def sampleTransport (names : List String) (shortId : Bytes) : RealityTransport :=
  { serverNames := names.map normalName
    privateKey := sampleKey 0
    shortIds := [shortId]
    dest := "www.microsoft.com:443"
    relayLimits := ⟨none, none⟩ }

theorem new_sampleConfig {names : List String} {shortId : Bytes}
    (h : 1 ≤ shortId.length ∧ shortId.length ≤ 8) :
    RealityTransport.new (sampleConfig names shortId) = .ok (sampleTransport names shortId) := by
  have hids : ((sampleConfig names shortId).shortIds.any
      fun id => id.isEmpty || decide (id.length > 8)) = false := by
    have hne : shortId ≠ [] := by
      rintro rfl
      simp at h
    simp [sampleConfig, hne, h.2]
  rw [RealityTransport.new, if_neg (by simp [hids])]
  rfl

theorem elim_branch_injective :
    Function.Injective fun o : Option Key => o.elim Branch.fallback Branch.reality := by
  rintro (- | k) (- | k') h
  · rfl
  · cases h
  · cases h
  · cases h; rfl

/-- The decision on streams that begin with the same record `r`. Whatever the primitives,
    the key and the short ids are, both are decided alike exactly if the reads up to
    the one that completes the record present the same. -/
theorem accept_insensitive_iff {r : Bytes} (hr : IsRecord r) (names : List String)
    {s₁ s₂ : ClientStream} (h₁ : r <+: s₁.bytes) (h₂ : r <+: s₂.bytes) :
    (∀ P : Crypto, P.Lawful → ∀ config t, config.serverNames = names →
        RealityTransport.new config = .ok t →
        (t.accept P s₁).map Prod.fst = (t.accept P s₂).map Prod.fst) ↔
      presented (names.map normalName) (sniffed r.length s₁).1 =
        presented (names.map normalName) (sniffed r.length s₂).1 := by
  constructor
  · intro h
    refine eq_of_forall_check fun P hP => elim_branch_injective ?_
    have heq := h P hP (sampleConfig names (List.replicate 8 0)) _ rfl
      (new_sampleConfig (by decide))
    rw [accept_of_record P _ hr h₁, accept_of_record P _ hr h₂] at heq
    exact Except.ok.inj heq
  · rintro h P - config t rfl hnew
    have hnames : t.serverNames = config.serverNames.map normalName := by
      unfold RealityTransport.new at hnew
      split_ifs at hnew
      cases hnew
      rfl
    rw [accept_of_record P t hr h₁, accept_of_record P t hr h₂, hnames, h]

/-- A record with a hello: a session id sealed under `samplePrimitives`, one cipher suite,
    one compression method, the server name `a` and an X25519 key share. -/
def sampleRecord : Bytes :=
  [0x16, 3, 1, 0, 131, 1, 0, 0, 127, 3, 3] ++ List.replicate 32 9 ++
    32 :: (sessionIdPlaintext 77 [1, 2, 3, 4, 5, 6, 7, 8] ++ List.replicate 16 5) ++
    [0, 2, 0x13, 1, 1, 0, 0, 52, 0, 0, 0, 6, 0, 4, 0, 0, 1, 97] ++
    [0, 0x33, 0, 38, 0, 36, 0, 0x1d, 0, 32] ++ List.replicate 32 2

theorem isRecord_sampleRecord : IsRecord sampleRecord := ⟨by decide +kernel, by decide +kernel⟩

theorem length_sampleRecord : sampleRecord.length = 136 := by decide +kernel

theorem reads_record : ∀ c ∈ [sampleRecord], c ≠ [] ∧ c.length ≤ 1024 := by
  simp [← List.length_pos_iff, length_sampleRecord]

theorem reads_split :
    ∀ c ∈ [sampleRecord.take 7, sampleRecord.drop 7], c ≠ [] ∧ c.length ≤ 1024 := by
  simp [← List.length_pos_iff, length_sampleRecord]

theorem reads_trailing : ∀ c ∈ [sampleRecord ++ [0]], c ≠ [] ∧ c.length ≤ 1024 := by
  simp [length_sampleRecord]

theorem accept_insensitive_iff_split :
    IsRecord sampleRecord ∧ ∀ P : Crypto, P.Lawful → ∀ config t, config.serverNames = ["a"] →
      RealityTransport.new config = .ok t →
      (t.accept P ⟨_, .eof, reads_record⟩).map Prod.fst =
        (t.accept P ⟨_, .eof, reads_split⟩).map Prod.fst := by
  refine ⟨isRecord_sampleRecord, (accept_insensitive_iff isRecord_sampleRecord ["a"]
    (by decide +kernel) (by decide +kernel)).mpr ?_⟩
  have hlen : sampleRecord.length ≤ 16384 := by decide +kernel
  rw [sniffed_of_boundary hlen (List.append_nil _).symm (by simp),
    sniffed_of_boundary hlen (List.append_nil _).symm (by simp)]

def lengthPrimitives : Crypto :=
  .plain fun aad => List.Vector.replicate 16 (if aad.length = 131 then 5 else 6)

theorem trailing_byte_decides :
    lengthPrimitives.Lawful ∧ IsRecord sampleRecord ∧
      RealityTransport.new (sampleConfig ["a"] [1, 2, 3, 4, 5, 6, 7, 8]) =
        .ok (sampleTransport ["a"] [1, 2, 3, 4, 5, 6, 7, 8]) ∧
      (∃ authKey, ((sampleTransport ["a"] [1, 2, 3, 4, 5, 6, 7, 8]).accept lengthPrimitives
        ⟨_, .eof, reads_record⟩).map Prod.fst = .ok (.reality authKey)) ∧
      ((sampleTransport ["a"] [1, 2, 3, 4, 5, 6, 7, 8]).accept lengthPrimitives
        ⟨_, .eof, reads_trailing⟩).map Prod.fst = .ok .fallback := by
  refine ⟨Crypto.plain_lawful _, isRecord_sampleRecord, new_sampleConfig (by decide),
    ⟨deriveAuthKey lengthPrimitives (sampleKey 0) (sampleKey 2) (sampleKey 9), ?_⟩, ?_⟩
  · rw [accept_of_record _ _ isRecord_sampleRecord (by decide +kernel)]
    decide +kernel
  · rw [accept_of_record _ _ isRecord_sampleRecord (by decide +kernel)]
    decide +kernel

end SkadiCore.Reality
