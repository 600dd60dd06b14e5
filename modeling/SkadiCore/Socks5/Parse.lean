import SkadiCore.Core.Endpoint

/-!
# SOCKS5 messages

Model of the pure parsers of `crates/skadi-protocol/src/socks5/parse.rs`. Each
returns the parsed value and the number of bytes it consumed.

The `encode` functions state the formats of RFC 1928 and RFC 1929 on their own, and
`parseGreeting_ok_iff`, `parseAuth_ok_iff`, `parseRequest_ok_iff` say that a parser
accepts exactly the strings that begin with an encoding, and returns what is encoded
there.
-/

namespace SkadiCore.Socks5

def SOCKS5_VERSION : Byte := 0x05
def AUTH_VERSION : Byte := 0x01
def CMD_CONNECT : Byte := 0x01
def CMD_BIND : Byte := 0x02
def CMD_UDP_ASSOCIATE : Byte := 0x03
def ATYP_IPV4 : Byte := 0x01
def ATYP_DOMAIN : Byte := 0x03
def ATYP_IPV6 : Byte := 0x04
def MAX_METHODS : ℕ := 16

structure Socks5Request where
  command : Byte
  target : Endpoint
  deriving DecidableEq

inductive ParseError
  | incomplete (need have_ : ℕ)
  | badVersion (version : Byte)
  | zeroMethods
  | tooManyMethods (n : ℕ)
  | badAuthVersion (version : Byte)
  | emptyUsername
  | emptyPassword
  | nonZeroRsv (rsv : Byte)
  | unsupportedCommand (command : Byte)
  | unsupportedAddressType (atyp : Byte)
  | emptyDomain
  | invalidUtf8 (field : String)
  deriving DecidableEq

def ParseError.display : ParseError → String
  | incomplete need have_ => s!"not enough data: need {need}, have {have_}"
  | badVersion version => s!"invalid SOCKS version: 0x{hex02 version}"
  | zeroMethods => "zero auth methods offered"
  | tooManyMethods n => s!"too many auth methods: {n}"
  | badAuthVersion version => s!"unsupported auth version: 0x{hex02 version}"
  | emptyUsername => "empty username"
  | emptyPassword => "empty password"
  | nonZeroRsv rsv => s!"non-zero RSV byte: 0x{hex02 rsv}"
  | unsupportedCommand command => s!"unsupported command: 0x{hex02 command}"
  | unsupportedAddressType atyp => s!"unsupported address type: 0x{hex02 atyp}"
  | emptyDomain => "empty domain name"
  | invalidUtf8 field => s!"invalid UTF-8 in {field}"

/-! ## The parsers -/

/-- `parse_greeting` (lines 59-90): `[ver, nmethods, methods...]`. -/
def parseGreeting (input : Bytes) : Except ParseError (Bytes × ℕ) :=
  if input.length < 2 then .error (.incomplete 2 input.length)
  else
    let version := byteAt input 0
    let nmethods := (byteAt input 1).toNat
    if version ≠ SOCKS5_VERSION then .error (.badVersion version)
    else if nmethods = 0 then .error .zeroMethods
    else if nmethods > MAX_METHODS then .error (.tooManyMethods nmethods)
    else
      let total := 2 + nmethods
      if input.length < total then .error (.incomplete total input.length)
      else .ok (slice input 2 total, total)

/-- `parse_auth` (lines 95-143): `[ver, ulen, uname, plen, passwd]`. -/
def parseAuth (input : Bytes) : Except ParseError ((String × String) × ℕ) :=
  if input.length < 2 then .error (.incomplete 2 input.length)
  else
    let version := byteAt input 0
    let ulen := (byteAt input 1).toNat
    if version ≠ AUTH_VERSION then .error (.badAuthVersion version)
    else if ulen = 0 then .error .emptyUsername
    else
      let afterUname := 2 + ulen
      if input.length < afterUname + 1 then .error (.incomplete (afterUname + 1) input.length)
      else
        let plen := (byteAt input afterUname).toNat
        if plen = 0 then .error .emptyPassword
        else
          let total := afterUname + 1 + plen
          if input.length < total then .error (.incomplete total input.length)
          else
            match fromUtf8 (slice input 2 afterUname) with
            | none => .error (.invalidUtf8 "username")
            | some uname =>
              match fromUtf8 (slice input (afterUname + 1) total) with
              | none => .error (.invalidUtf8 "password")
              | some passwd => .ok ((uname, passwd), total)

/-- `parse_target` (lines 181-247). -/
def parseTarget (input : Bytes) (atyp : Byte) (offset : ℕ) : Except ParseError (Endpoint × ℕ) :=
  if atyp = ATYP_IPV4 then
    let total := offset + 4 + 2
    if input.length < total then .error (.incomplete total input.length)
    else
      let ip := toArray 4 (slice input offset (offset + 4))
      let port := fromBe16 (byteAt input (offset + 4)) (byteAt input (offset + 5))
      .ok (.ip (.new (.v4 ip) port), total)
  else if atyp = ATYP_IPV6 then
    let total := offset + 16 + 2
    if input.length < total then .error (.incomplete total input.length)
    else
      let octets := toArray 16 (slice input offset (offset + 16))
      let port := fromBe16 (byteAt input (offset + 16)) (byteAt input (offset + 17))
      .ok (.ip (.new (.v6 octets) port), total)
  else if atyp = ATYP_DOMAIN then
    if input.length < offset + 1 then .error (.incomplete (offset + 1) input.length)
    else
      let dlen := (byteAt input offset).toNat
      if dlen = 0 then .error .emptyDomain
      else
        let afterDomain := offset + 1 + dlen
        let total := afterDomain + 2
        if input.length < total then .error (.incomplete total input.length)
        else
          match fromUtf8 (slice input (offset + 1) afterDomain) with
          | none => .error (.invalidUtf8 "domain")
          | some domain =>
            let port := fromBe16 (byteAt input afterDomain) (byteAt input (afterDomain + 1))
            .ok (.domain domain port, total)
  else .error (.unsupportedAddressType atyp)

/-- `parse_request` (lines 148-179): `[ver, cmd, rsv, atyp, addr..., port]`. -/
def parseRequest (input : Bytes) : Except ParseError (Socks5Request × ℕ) :=
  if input.length < 4 then .error (.incomplete 4 input.length)
  else
    let version := byteAt input 0
    let cmd := byteAt input 1
    let rsv := byteAt input 2
    let atyp := byteAt input 3
    if version ≠ SOCKS5_VERSION then .error (.badVersion version)
    else if rsv ≠ 0 then .error (.nonZeroRsv rsv)
    else if cmd ≠ CMD_CONNECT ∧ cmd ≠ CMD_BIND ∧ cmd ≠ CMD_UDP_ASSOCIATE then
      .error (.unsupportedCommand cmd)
    else
      match parseTarget input atyp 4 with
      | .error e => .error e
      | .ok (target, consumed) => .ok (⟨cmd, target⟩, consumed)

/-- `parse_udp_datagram` (lines 250-265): the target, and where the payload begins. -/
def parseUdpDatagram (input : Bytes) : Except ParseError (Endpoint × ℕ) :=
  if input.length < 4 then .error (.incomplete 4 input.length)
  else if byteAt input 0 ≠ 0 ∨ byteAt input 1 ≠ 0 then .error (.nonZeroRsv (byteAt input 0))
  else if byteAt input 2 ≠ 0 then .error (.unsupportedCommand (byteAt input 2))
  else parseTarget input (byteAt input 3) 4

/-- `encode_udp_datagram` (lines 268-295). A domain name is cut to 255 bytes. -/
def encodeUdpDatagram (target : Endpoint) (payload : Bytes) : Bytes :=
  [0, 0, 0] ++
    (match target with
    | .ip (.v4 octets port) => ATYP_IPV4 :: octets.val ++ toBe16 port
    | .ip (.v6 octets port _ _) => ATYP_IPV6 :: octets.val ++ toBe16 port
    | .domain host port => ATYP_DOMAIN :: counted ((asBytes host).take 255) ++ toBe16 port) ++
    payload

/-! ## The formats -/

def encodeGreeting (methods : Bytes) : Bytes := SOCKS5_VERSION :: counted methods

def encodeAuth (uname passwd : String) : Bytes :=
  AUTH_VERSION :: counted (asBytes uname) ++ counted (asBytes passwd)

def encodeTarget : Endpoint → Bytes
  | .ip (.v4 octets port) => ATYP_IPV4 :: octets.val ++ toBe16 port
  | .ip (.v6 octets port _ _) => ATYP_IPV6 :: octets.val ++ toBe16 port
  | .domain host port => ATYP_DOMAIN :: counted (asBytes host) ++ toBe16 port

def encodeRequest (r : Socks5Request) : Bytes :=
  SOCKS5_VERSION :: r.command :: 0 :: encodeTarget r.target

/-- A number of methods that a greeting may offer. -/
def GreetingOk (methods : Bytes) : Prop := 0 < methods.length ∧ methods.length ≤ MAX_METHODS

/-- A string whose length fits a length byte and is not 0. -/
def FieldOk (s : String) : Prop := 0 < (asBytes s).length ∧ (asBytes s).length < 256

/-- A target that a request can carry. -/
def TargetOk : Endpoint → Prop
  | .ip (.v4 _ _) => True
  | .ip (.v6 _ _ flowinfo scopeId) => flowinfo = 0 ∧ scopeId = 0
  | .domain host _ => FieldOk host

/-- One of the three commands of RFC 1928. -/
def CommandOk (command : Byte) : Prop :=
  command = CMD_CONNECT ∨ command = CMD_BIND ∨ command = CMD_UDP_ASSOCIATE

instance (methods : Bytes) : Decidable (GreetingOk methods) := inferInstanceAs (Decidable (_ ∧ _))

instance (s : String) : Decidable (FieldOk s) := inferInstanceAs (Decidable (_ ∧ _))

instance (command : Byte) : Decidable (CommandOk command) := inferInstanceAs (Decidable (_ ∨ _))

/-! ## What the parsers accept -/

variable {input : Bytes} {n : ℕ}

theorem parseGreeting_eq (v b : Byte) {methods : Bytes} (h : methods.length = b.toNat)
    (rest : Bytes) :
    parseGreeting (v :: b :: (methods ++ rest)) =
      if v ≠ SOCKS5_VERSION then .error (.badVersion v)
      else if b.toNat = 0 then .error .zeroMethods
      else if b.toNat > MAX_METHODS then .error (.tooManyMethods b.toNat)
      else .ok (methods, 2 + b.toNat) := by
  have hslice : slice (v :: b :: (methods ++ rest)) 2 (2 + b.toNat) = methods :=
    slice_append [v, b] methods rest rfl (by simp [h])
  have hlen : ¬ (v :: b :: (methods ++ rest)).length < 2 + b.toNat := by simp [h]; omega
  have hlen' : ¬ (v :: b :: (methods ++ rest)).length < 2 := by simp
  simp only [parseGreeting, byteAt_cons_zero, byteAt_cons_one, if_neg hlen, if_neg hlen', hslice]

theorem parseGreeting_ok_iff {methods : Bytes} :
    parseGreeting input = .ok (methods, n) ↔
      ∃ rest, input = encodeGreeting methods ++ rest ∧ GreetingOk methods ∧
        n = (encodeGreeting methods).length := by
  constructor
  · intro h
    rcases input with - | ⟨v, - | ⟨b, l⟩⟩
    · simp [parseGreeting] at h
    · simp [parseGreeting] at h
    · have hlen : b.toNat ≤ l.length := by
        unfold parseGreeting at h
        dsimp only [byteAt_cons_zero, byteAt_cons_one, List.length_cons] at h
        split_ifs at h
        omega
      obtain ⟨ms, rest, rfl, hms⟩ := exists_append hlen
      rw [parseGreeting_eq v b hms] at h
      split_ifs at h with h1 h2 h3
      cases h
      obtain rfl : v = SOCKS5_VERSION := not_not.mp h1
      refine ⟨rest, ?_, ⟨by omega, by omega⟩, by simp [encodeGreeting, hms]; omega⟩
      simp [encodeGreeting, ← cons_eq_counted hms]
  · rintro ⟨rest, rfl, ⟨hpos, hmax⟩, rfl⟩
    have hlen := toNat_ofNat_of_lt (show methods.length < 256 from hmax.trans_lt (by decide))
    have := parseGreeting_eq SOCKS5_VERSION _ hlen.symm rest
    simpa [encodeGreeting, counted, hlen, hpos.ne', hmax.not_gt, Nat.add_comm 2] using this

theorem parseAuth_eq (v b q : Byte) {us ps : Bytes} (hu : us.length = b.toNat)
    (hp : ps.length = q.toNat) (rest : Bytes) :
    parseAuth (v :: b :: (us ++ q :: (ps ++ rest))) =
      if v ≠ AUTH_VERSION then .error (.badAuthVersion v)
      else if b.toNat = 0 then .error .emptyUsername
      else if q.toNat = 0 then .error .emptyPassword
      else
        match fromUtf8 us with
        | none => .error (.invalidUtf8 "username")
        | some uname =>
          match fromUtf8 ps with
          | none => .error (.invalidUtf8 "password")
          | some passwd => .ok ((uname, passwd), 2 + b.toNat + 1 + q.toNat) := by
  have hus : slice (v :: b :: (us ++ q :: (ps ++ rest))) 2 (2 + b.toNat) = us :=
    slice_append [v, b] us _ rfl (by simp [hu])
  have hq : byteAt (v :: b :: (us ++ q :: (ps ++ rest))) (2 + b.toNat) = q :=
    byteAt_append (v :: b :: us) _ q (by simp [hu]; omega)
  have hps : slice (v :: b :: (us ++ q :: (ps ++ rest))) (2 + b.toNat + 1)
      (2 + b.toNat + 1 + q.toNat) = ps := by
    have := slice_append (v :: b :: (us ++ [q])) ps rest (a := 2 + b.toNat + 1)
      (b := 2 + b.toNat + 1 + q.toNat) (by simp [hu]; omega) (by rw [hp])
    simpa using this
  have h1 : ¬ (v :: b :: (us ++ q :: (ps ++ rest))).length < 2 := by simp
  have h2 : ¬ (v :: b :: (us ++ q :: (ps ++ rest))).length < 2 + b.toNat + 1 := by simp; omega
  have h3 : ¬ (v :: b :: (us ++ q :: (ps ++ rest))).length < 2 + b.toNat + 1 + q.toNat := by
    simp; omega
  simp only [parseAuth, byteAt_cons_zero, byteAt_cons_one, if_neg h1, if_neg h2, hq, if_neg h3,
    hus, hps]

theorem parseAuth_fields {v b : Byte} {l : Bytes} {r : (String × String) × ℕ}
    (h : parseAuth (v :: b :: l) = .ok r) :
    ∃ us q ps rest, l = us ++ q :: (ps ++ rest) ∧ us.length = b.toNat ∧ ps.length = q.toNat := by
  unfold parseAuth at h
  dsimp only [byteAt_cons_zero, byteAt_cons_one, List.length_cons] at h
  split_ifs at h with h1 h2 h3 h4 h5 h6
  obtain ⟨us, l, rfl, hu⟩ := exists_append (show b.toNat ≤ l.length by omega)
  rcases l with - | ⟨q, l⟩
  · simp only [List.length_append, List.length_nil] at h4; omega
  have hq : byteAt (v :: b :: (us ++ q :: l)) (2 + b.toNat) = q :=
    byteAt_append (v :: b :: us) l q (by simp [hu]; omega)
  rw [hq] at h6
  obtain ⟨ps, rest, rfl, hp⟩ := exists_append (show q.toNat ≤ l.length by
    simp only [List.length_append, List.length_cons] at h6; omega)
  exact ⟨us, q, ps, rest, rfl, hu, hp⟩

theorem parseAuth_ok_iff {uname passwd : String} :
    parseAuth input = .ok ((uname, passwd), n) ↔
      ∃ rest, input = encodeAuth uname passwd ++ rest ∧ FieldOk uname ∧ FieldOk passwd ∧
        n = (encodeAuth uname passwd).length := by
  constructor
  · intro h
    rcases input with - | ⟨v, - | ⟨b, l⟩⟩
    · simp [parseAuth] at h
    · simp [parseAuth] at h
    · obtain ⟨us, q, ps, rest, rfl, hu, hp⟩ := parseAuth_fields h
      rw [parseAuth_eq v b q hu hp] at h
      split_ifs at h with h1 h2 h3
      cases hfu : fromUtf8 us with
      | none => simp [hfu] at h
      | some uname' =>
        cases hfp : fromUtf8 ps with
        | none => simp [hfu, hfp] at h
        | some passwd' =>
          simp only [hfu, hfp] at h
          cases h
          obtain rfl := fromUtf8_eq_some_iff.mp hfu
          obtain rfl := fromUtf8_eq_some_iff.mp hfp
          obtain rfl : v = AUTH_VERSION := not_not.mp h1
          refine ⟨rest, ?_, ⟨by omega, hu ▸ b.toNat_lt⟩, ⟨by omega, hp ▸ q.toNat_lt⟩, ?_⟩
          · simp [encodeAuth, ← cons_eq_counted hu, ← cons_eq_counted hp]
          · simp [encodeAuth, hu, hp]; omega
  · rintro ⟨rest, rfl, hu, hp, rfl⟩
    have hul := toNat_ofNat_of_lt hu.2
    have hpl := toNat_ofNat_of_lt hp.2
    have := parseAuth_eq AUTH_VERSION _ _ hul.symm hpl.symm rest
    rw [hul, hpl] at this
    simp [hu.1.ne', hp.1.ne'] at this
    simp [encodeAuth, counted, this]
    omega

variable {os : Bytes}

theorem address_bytes (pre : Bytes) (hi lo : Byte) (rest : Bytes) {k : ℕ} (h : os.length = k) :
    slice (pre ++ (os ++ hi :: lo :: rest)) pre.length (pre.length + k) = os ∧
      byteAt (pre ++ (os ++ hi :: lo :: rest)) (pre.length + k) = hi ∧
      byteAt (pre ++ (os ++ hi :: lo :: rest)) (pre.length + k + 1) = lo := by
  refine ⟨slice_append pre os _ rfl (by rw [h]), ?_, ?_⟩
  · have := byteAt_append (pre ++ os) (lo :: rest) hi (i := pre.length + k) (by simp [h])
    simpa using this
  · have := byteAt_append (pre ++ os ++ [hi]) rest lo (i := pre.length + k + 1)
      (by simp [h, Nat.add_assoc])
    simpa using this

theorem exists_address {l : Bytes} {k : ℕ} (h : k + 2 ≤ l.length) :
    ∃ os hi lo rest, l = os ++ hi :: lo :: rest ∧ os.length = k := by
  obtain ⟨os, l, rfl, hos⟩ := exists_append (show k ≤ l.length by omega)
  rcases l with - | ⟨hi, - | ⟨lo, rest⟩⟩
  · simp at h; omega
  · simp at h; omega
  · exact ⟨os, hi, lo, rest, rfl, hos⟩

theorem parseTarget_v4 (pre : Bytes) (hi lo : Byte) (rest : Bytes) (h : os.length = 4) :
    parseTarget (pre ++ (os ++ hi :: lo :: rest)) ATYP_IPV4 pre.length =
      .ok (.ip (.v4 (toArray 4 os) (fromBe16 hi lo)), pre.length + 6) := by
  obtain ⟨h1, h2, h3⟩ := address_bytes pre hi lo rest h
  have hlen : ¬ (pre ++ (os ++ hi :: lo :: rest)).length < pre.length + 4 + 2 := by simp [h]; omega
  simp only [parseTarget, if_true, if_neg hlen, h1, h2, h3, SocketAddr.new]

theorem parseTarget_v6 (pre : Bytes) (hi lo : Byte) (rest : Bytes) (h : os.length = 16) :
    parseTarget (pre ++ (os ++ hi :: lo :: rest)) ATYP_IPV6 pre.length =
      .ok (.ip (.v6 (toArray 16 os) (fromBe16 hi lo) 0 0), pre.length + 18) := by
  obtain ⟨h1, h2, h3⟩ := address_bytes pre hi lo rest h
  have hlen : ¬ (pre ++ (os ++ hi :: lo :: rest)).length < pre.length + 16 + 2 := by simp [h]; omega
  have hatyp : ATYP_IPV6 ≠ ATYP_IPV4 := by decide
  simp only [parseTarget, if_neg hatyp, if_true, if_neg hlen, h1, h2, h3, SocketAddr.new]

theorem parseTarget_domain (pre : Bytes) {b : Byte} {ds : Bytes} (hi lo : Byte) (rest : Bytes)
    (hb : b.toNat ≠ 0) (h : ds.length = b.toNat) :
    parseTarget (pre ++ b :: (ds ++ hi :: lo :: rest)) ATYP_DOMAIN pre.length =
      match fromUtf8 ds with
      | none => .error (.invalidUtf8 "domain")
      | some domain => .ok (.domain domain (fromBe16 hi lo), pre.length + 1 + b.toNat + 2) := by
  have hlen : ¬ (pre ++ b :: (ds ++ hi :: lo :: rest)).length < pre.length + 1 + b.toNat + 2 := by
    simp [h]; omega
  have hlen' : ¬ (pre ++ b :: (ds ++ hi :: lo :: rest)).length < pre.length + 1 := by simp
  have hb' : byteAt (pre ++ b :: (ds ++ hi :: lo :: rest)) pre.length = b :=
    byteAt_append pre _ b rfl
  obtain ⟨h1, h2, h3⟩ := address_bytes (pre ++ [b]) hi lo rest h
  simp only [List.append_assoc, List.cons_append, List.nil_append, List.length_append,
    List.length_cons, List.length_nil] at h1 h2 h3
  have h4 : ATYP_DOMAIN ≠ ATYP_IPV4 := by decide
  have h6 : ATYP_DOMAIN ≠ ATYP_IPV6 := by decide
  simp only [parseTarget, if_neg h4, if_neg h6, if_true, if_neg hlen', hb', if_neg hb, if_neg hlen,
    h1, h2, h3]

variable {target : Endpoint}

theorem parseTarget_encode (pre : Bytes) {l rest : Bytes} {atyp : Byte}
    (heq : atyp :: l = encodeTarget target ++ rest) (hok : TargetOk target)
    (hn : n + 1 = pre.length + (encodeTarget target).length) :
    parseTarget (pre ++ l) atyp pre.length = .ok (target, n) := by
  match target with
  | .ip (.v4 octets port) =>
    obtain ⟨hi, lo, hport, rfl⟩ := exists_toBe16 port
    simp only [encodeTarget, hport, List.cons_append, List.append_assoc, List.nil_append,
      List.cons.injEq] at heq
    obtain ⟨rfl, rfl⟩ := heq
    have := parseTarget_v4 pre hi lo rest octets.property
    simp [encodeTarget] at hn
    rw [this, hn]
    simp
  | .ip (.v6 octets port flowinfo scopeId) =>
    obtain ⟨rfl, rfl⟩ := hok
    obtain ⟨hi, lo, hport, rfl⟩ := exists_toBe16 port
    simp only [encodeTarget, hport, List.cons_append, List.append_assoc, List.nil_append,
      List.cons.injEq] at heq
    obtain ⟨rfl, rfl⟩ := heq
    have := parseTarget_v6 pre hi lo rest octets.property
    simp [encodeTarget] at hn
    rw [this, hn]
    simp
  | .domain host port =>
    obtain ⟨hi, lo, hport, rfl⟩ := exists_toBe16 port
    simp only [encodeTarget, counted, hport, List.cons_append, List.append_assoc,
      List.nil_append, List.cons.injEq] at heq
    obtain ⟨rfl, rfl⟩ := heq
    have hlen := toNat_ofNat_of_lt hok.2
    have := parseTarget_domain pre hi lo rest (by rw [hlen]; exact hok.1.ne') hlen.symm
    simp [encodeTarget] at hn
    rw [this, fromUtf8_asBytes, hlen]
    simp
    omega

theorem encode_of_parseTarget {pre l : Bytes} {atyp : Byte}
    (h : parseTarget (pre ++ l) atyp pre.length = .ok (target, n)) :
    ∃ rest, atyp :: l = encodeTarget target ++ rest ∧ TargetOk target ∧
      n + 1 = pre.length + (encodeTarget target).length := by
  have hunf := h
  unfold parseTarget at hunf
  dsimp only at hunf
  split_ifs at hunf with h4 hlen h6 hlen hd hpos hb hlen
  · subst h4
    obtain ⟨os, hi, lo, rest, rfl, hos⟩ : ∃ os hi lo rest, l = os ++ hi :: lo :: rest ∧ _ :=
      exists_address (k := 4) (by simp at hlen; omega)
    rw [parseTarget_v4 pre hi lo rest hos] at h
    cases h
    exact ⟨rest, by simp [encodeTarget, toArray_val hos, toBe16_fromBe16], trivial,
      by simp [encodeTarget]⟩
  · subst h6
    obtain ⟨os, hi, lo, rest, rfl, hos⟩ : ∃ os hi lo rest, l = os ++ hi :: lo :: rest ∧ _ :=
      exists_address (k := 16) (by simp at hlen; omega)
    rw [parseTarget_v6 pre hi lo rest hos] at h
    cases h
    exact ⟨rest, by simp [encodeTarget, toArray_val hos, toBe16_fromBe16], ⟨rfl, rfl⟩,
      by simp [encodeTarget]⟩
  · subst hd
    rcases l with - | ⟨b, l⟩
    · simp at hpos
    rw [byteAt_append pre l b rfl] at hb hlen
    obtain ⟨ds, hi, lo, rest, rfl, hds⟩ : ∃ os hi lo rest, l = os ++ hi :: lo :: rest ∧ _ :=
      exists_address (k := b.toNat) (by simp at hlen; omega)
    rw [parseTarget_domain pre hi lo rest hb hds] at h
    cases hf : fromUtf8 ds with
    | none => simp [hf] at h
    | some host =>
      simp only [hf] at h
      cases h
      obtain rfl := fromUtf8_eq_some_iff.mp hf
      refine ⟨rest, ?_, ⟨by omega, hds ▸ b.toNat_lt⟩, by simp [encodeTarget, hds]; omega⟩
      simp [encodeTarget, ← cons_eq_counted hds, toBe16_fromBe16]

theorem parseTarget_ok_iff (pre l : Bytes) (atyp : Byte) :
    parseTarget (pre ++ l) atyp pre.length = .ok (target, n) ↔
      ∃ rest, atyp :: l = encodeTarget target ++ rest ∧ TargetOk target ∧
        n + 1 = pre.length + (encodeTarget target).length := by
  constructor
  · exact encode_of_parseTarget
  · rintro ⟨rest, heq, hok, hn⟩
    exact parseTarget_encode pre heq hok hn

theorem encodeTarget_ne_nil (target : Endpoint) : encodeTarget target ≠ [] := by
  match target with
  | .ip (.v4 _ _) | .ip (.v6 _ _ _ _) | .domain _ _ => simp [encodeTarget]

theorem parseRequest_ok_iff {r : Socks5Request} :
    parseRequest input = .ok (r, n) ↔
      ∃ rest, input = encodeRequest r ++ rest ∧ CommandOk r.command ∧ TargetOk r.target ∧
        n = (encodeRequest r).length := by
  rcases input with - | ⟨v, - | ⟨cmd, - | ⟨rsv, - | ⟨atyp, l⟩⟩⟩⟩
  case cons.cons.cons.cons =>
    have htarget : ∀ {target consumed},
        parseTarget (v :: cmd :: rsv :: atyp :: l) atyp 4 = .ok (target, consumed) ↔ _ :=
      parseTarget_ok_iff [v, cmd, rsv, atyp] l atyp
    constructor
    · intro h
      unfold parseRequest at h
      dsimp only [byteAt_cons_zero, byteAt_cons_one, byteAt_cons_two, byteAt_cons_three] at h
      split_ifs at h with h1 h2 h3 h4
      cases ht : parseTarget (v :: cmd :: rsv :: atyp :: l) atyp 4 with
      | error e => simp [ht] at h
      | ok tc =>
        obtain ⟨target, consumed⟩ := tc
        rw [ht] at h
        cases h
        obtain ⟨rest, heq, hok, hn⟩ := htarget.mp ht
        refine ⟨rest, ?_, ?_, hok, ?_⟩
        · simp only [not_not] at h2 h3
          simp [encodeRequest, ← heq, h2, h3]
        · unfold CommandOk; tauto
        · simp [encodeRequest] at hn ⊢; omega
    · rintro ⟨rest, heq, hcmd, hok, rfl⟩
      simp only [encodeRequest, List.cons_append, List.cons.injEq] at heq
      obtain ⟨rfl, rfl, rfl, heq⟩ := heq
      have ht := (@htarget r.target (encodeRequest r).length).mpr ⟨rest, heq, hok, by
        simp [encodeRequest]; omega⟩
      have hcmd' : ¬ (r.command ≠ CMD_CONNECT ∧ r.command ≠ CMD_BIND ∧
          r.command ≠ CMD_UDP_ASSOCIATE) := by unfold CommandOk at hcmd; tauto
      simp [parseRequest, ht, hcmd']
  all_goals
    simp [parseRequest, encodeRequest, encodeTarget_ne_nil]

end SkadiCore.Socks5
