import SkadiCore.Common.Conn
import SkadiCore.Socks5.Parse

/-!
# SOCKS5 negotiation

Model of `Socks5Handler::negotiate` (`crates/skadi-protocol/src/socks5.rs`): greeting,
method selection, authentication, request. An error is its text.

* `negotiate_ok_iff`: with user/pass the handler returns a request exactly for the
  streams that begin with a greeting which offers that method, then a message of
  RFC 1929 whose password is the expected one, then a request the configuration admits.
-/

namespace SkadiCore.Socks5

open Conn

def METHOD_NO_AUTH : Byte := 0x00
def METHOD_USER_PASS : Byte := 0x02
def METHOD_NO_ACCEPTABLE : Byte := 0xFF
def REP_GENERAL_FAILURE : Byte := 0x01
def REP_COMMAND_NOT_SUPPORTED : Byte := 0x07
def REP_ADDRESS_NOT_SUPPORTED : Byte := 0x08

inductive AuthMethod
  | noAuth
  | userPass
  deriving DecidableEq

structure UserCredential where
  username : String
  password : String
  deriving DecidableEq

structure Socks5Config where
  auth : AuthMethod
  users : List UserCredential
  bind : Bool
  udpAssociate : Bool

/-- `Socks5Config::lookup` (lines 104-109). -/
def Socks5Config.lookup (config : Socks5Config) (username : String) : Option String :=
  (config.users.find? fun u => u.username == username).map UserCredential.password

abbrev Client := Conn Byte String

abbrev ClientM := ConnM Byte String

def EARLY_EOF : String := "early eof"

/-! ## Replies -/

/-- `send_reply` (lines 154-177). -/
def sendReply (code : Byte) (bound : SocketAddr) : ClientM Unit :=
  writeAll ([SOCKS5_VERSION, code, 0x00] ++
    match bound with
    | .v4 octets port => ATYP_IPV4 :: octets.val ++ toBe16 port
    | .v6 octets port _ _ => ATYP_IPV6 :: octets.val ++ toBe16 port)

/-- `send_error` (lines 180-186). -/
def sendError (code : Byte) : ClientM Unit := sendReply code (.v4 (ipv4Addr 0 0 0 0) 0)

/-! ## The handler -/

/-- `read_greeting` (lines 190-212). -/
def readGreeting : ClientM Bytes := do
  let header ← readExact 2 EARLY_EOF
  let nmethods := (byteAt header 1).toNat
  if nmethods > MAX_METHODS then fail s!"too many auth methods: {nmethods}"
  else
    let methods ← readExact nmethods EARLY_EOF
    let parsed ← orFail (parseGreeting (header ++ methods)) fun e => s!"greeting parse: {e.display}"
    pure parsed.1

/-- `select_method` (lines 214-224). -/
def selectMethod (methods : Bytes) (config : Socks5Config) : Byte :=
  let wanted := match config.auth with
    | .noAuth => METHOD_NO_AUTH
    | .userPass => METHOD_USER_PASS
  if methods.contains wanted then wanted else METHOD_NO_ACCEPTABLE

def ctEq (a b : Bytes) : Bool := (a.zip b).foldl (fun eq p => eq && p.1 == p.2) true

/-- `constant_time_eq` (lines 357-362). -/
def constantTimeEq (a b : String) : Bool :=
  if (asBytes a).length ≠ (asBytes b).length then false else ctEq (asBytes a) (asBytes b)

def NO_SUCH_USER : String := "__no_such_user__"

variable (config : Socks5Config)

/-- `perform_auth` (lines 226-275). -/
def performAuth : ClientM Unit := do
  let header ← readExact 2 EARLY_EOF
  let ulen := (byteAt header 1).toNat
  if ulen = 0 then fail "empty username"
  else
    let uname ← readExact ulen EARLY_EOF
    let plenBuf ← readExact 1 EARLY_EOF
    let plen := (byteAt plenBuf 0).toNat
    if plen = 0 then fail "empty password"
    else
      let passwd ← readExact plen EARLY_EOF
      let parsed ← orFail (parseAuth (header ++ (uname ++ (plenBuf ++ passwd)))) fun e =>
        s!"auth parse: {e.display}"
      let expected := (config.lookup parsed.1.1).getD NO_SUCH_USER
      let ok := constantTimeEq expected parsed.1.2
      writeAll [AUTH_VERSION, if ok then 0x00 else 0x01]
      if !ok then fail "authentication failed" else pure ()

/-- The reply code in the error of a request that does not parse (lines 320-324). -/
def replyCode : ParseError → Byte
  | .unsupportedCommand _ => REP_COMMAND_NOT_SUPPORTED
  | .unsupportedAddressType _ => REP_ADDRESS_NOT_SUPPORTED
  | _ => REP_GENERAL_FAILURE

def readAddress (atyp : Byte) : ClientM Bytes :=
  if atyp = ATYP_IPV4 then readExact 6 EARLY_EOF
  else if atyp = ATYP_IPV6 then readExact 18 EARLY_EOF
  else if atyp = ATYP_DOMAIN then do
    let lenBuf ← readExact 1 EARLY_EOF
    let dlen := (byteAt lenBuf 0).toNat
    if dlen = 0 then do
      ignore (sendError REP_ADDRESS_NOT_SUPPORTED)
      fail "empty domain"
    else
      let rest ← readExact (dlen + 2) EARLY_EOF
      pure (lenBuf ++ rest)
  else do
    ignore (sendError REP_ADDRESS_NOT_SUPPORTED)
    fail s!"unsupported address type: 0x{hex02 atyp}"

/-- `read_request` (lines 277-343). -/
def readRequest : ClientM Socks5Request := do
  let header ← readExact 4 EARLY_EOF
  let rest ← readAddress (byteAt header 3)
  let parsed ← orFail (parseRequest (header ++ rest)) fun e =>
    s!"request parse (reply 0x{hex02 (replyCode e)}): {e.display}"
  let request := parsed.1
  if request.command = CMD_BIND ∧ config.bind = false then do
    ignore (sendError REP_COMMAND_NOT_SUPPORTED)
    fail "SOCKS5 BIND disabled in config"
  else if request.command = CMD_UDP_ASSOCIATE ∧ config.udpAssociate = false then do
    ignore (sendError REP_COMMAND_NOT_SUPPORTED)
    fail "SOCKS5 UDP ASSOCIATE disabled in config"
  else pure request

/-- `negotiate_inner` (lines 131-150). -/
def negotiateInner : ClientM Socks5Request := do
  let methods ← readGreeting
  let selected := selectMethod methods config
  writeAll [SOCKS5_VERSION, selected]
  if selected = METHOD_NO_ACCEPTABLE then fail "no acceptable auth method"
  else if selected = METHOD_USER_PASS then do
    performAuth config
    readRequest config
  else readRequest config

/-- `Socks5Handler::negotiate` (lines 120-129). -/
def negotiate : ClientM Socks5Request :=
  timeout (negotiateInner config) "SOCKS5 negotiation timeout"

/-! ## What each part reads -/

variable {config} {c c' : Client}

theorem readGreeting_ok_iff {methods : Bytes} :
    Ok readGreeting c methods c' ↔
      GreetingOk methods ∧ Takes c c' 2 (encodeGreeting methods) [] := by
  simp only [readGreeting, ok_bind, ok_ite, ok_fail, ok_orFail, ok_pure, and_false, false_or]
  constructor
  · rintro ⟨header, c₁, hheader, hmax, ms, c₂, hms, ⟨parsed, n⟩, _, ⟨hparse, rfl⟩, rfl, rfl⟩
    obtain ⟨hlen, htake⟩ := (ok_readExact (by simp)).mp hheader
    obtain ⟨v, b, rfl⟩ := List.length_eq_two.mp hlen
    obtain ⟨rest, heq, hok, -⟩ := parseGreeting_ok_iff.mp hparse
    simp only [encodeGreeting, counted, List.cons_append, List.nil_append, List.cons.injEq] at heq
    obtain ⟨rfl, rfl, rfl⟩ := heq
    have hb := toNat_ofNat_of_lt (show methods.length < 256 from hok.2.trans_lt (by decide))
    simp only [byteAt_cons_one, hb] at hms
    obtain ⟨hlen', htake'⟩ := (ok_readExact hok.1.ne').mp hms
    obtain rfl : rest = [] := by simpa using hlen'
    exact ⟨hok, by simpa [encodeGreeting, counted] using htake.trans htake'⟩
  · rintro ⟨hok, htake⟩
    obtain ⟨c₁, h₁, h₂⟩ := (show Takes c c' (1 + 1)
      ([SOCKS5_VERSION, UInt8.ofNat methods.length] ++ methods) ([] ++ []) from htake).split
    have hb := toNat_ofNat_of_lt (show methods.length < 256 from hok.2.trans_lt (by decide))
    refine ⟨_, c₁, (ok_readExact (by simp)).mpr ⟨rfl, h₁⟩, ?_, methods, c',
      (ok_readExact ?_).mpr ⟨?_, h₂⟩, (methods, _), c',
      ⟨parseGreeting_ok_iff.mpr ⟨[], ?_, hok, rfl⟩, rfl⟩, rfl, rfl⟩
    · simp [hb, hok.2]
    · simp [hb, hok.1.ne']
    · simp [hb]
    · simp [encodeGreeting, counted]

theorem ctEq_iff {a b : Bytes} (h : a.length = b.length) : ctEq a b = true ↔ a = b := by
  have hfold : ∀ (a b : Bytes) (eq : Bool), a.length = b.length →
      ((a.zip b).foldl (fun eq p => eq && p.1 == p.2) eq = true ↔ eq = true ∧ a = b) := by
    intro a
    induction a with
    | nil => intro b eq hb; simp [List.eq_nil_of_length_eq_zero hb.symm]
    | cons x a ih =>
      intro b eq hb
      cases b with
      | nil => cases hb
      | cons y b => simp [ih b _ (Nat.succ.inj hb), and_assoc]
  simpa [ctEq] using hfold a b true h

theorem constantTimeEq_iff {a b : String} : constantTimeEq a b = true ↔ a = b := by
  unfold constantTimeEq
  split_ifs with h
  · have hne : a ≠ b := by
      rintro rfl
      exact h rfl
    simp [hne]
  · rw [ctEq_iff (not_not.mp h)]
    exact asBytes_injective.eq_iff

/-- The password that `perform_auth` compares with. -/
def Expects (config : Socks5Config) (uname passwd : String) : Prop :=
  (config.lookup uname).getD NO_SUCH_USER = passwd

theorem performAuth_ok_iff {x : Unit} :
    Ok (performAuth config) c x c' ↔
      ∃ uname passwd, FieldOk uname ∧ FieldOk passwd ∧ Expects config uname passwd ∧
        Takes c c' 5 (encodeAuth uname passwd) [AUTH_VERSION, 0x00] := by
  simp only [performAuth, ok_bind, ok_ite, ok_fail, ok_orFail, ok_pure, and_false, false_or]
  constructor
  · rintro ⟨header, c₁, hheader, hulen, us, c₂, hus, plenBuf, c₃, hplen, hplen', ps, c₄, hps,
      ⟨⟨uname, passwd⟩, n⟩, _, ⟨hparse, rfl⟩, _, c₅, hwrite, hok, -, rfl⟩
    obtain ⟨hlen, htake₁⟩ := (ok_readExact (by simp)).mp hheader
    obtain ⟨v, b, rfl⟩ := List.length_eq_two.mp hlen
    obtain ⟨hus, htake₂⟩ := (ok_readExact hulen).mp hus
    obtain ⟨hlen, htake₃⟩ := (ok_readExact (by simp)).mp hplen
    obtain ⟨q, rfl⟩ := List.length_eq_one_iff.mp hlen
    obtain ⟨hps, htake₄⟩ := (ok_readExact hplen').mp hps
    have hexp : Expects config uname passwd := constantTimeEq_iff.mp (by simpa using hok)
    have htake₅ := ok_writeAll.mp hwrite
    rw [constantTimeEq_iff.mpr hexp, if_pos rfl] at htake₅
    obtain ⟨rest, heq, hu, hp, -⟩ := parseAuth_ok_iff.mp hparse
    have hall := htake₁.trans (htake₂.trans (htake₃.trans (htake₄.trans htake₅)))
    -- both lengths agree with what is parsed, so nothing is left over
    have hsplit : counted us ++ counted ps =
        counted (asBytes uname) ++ (counted (asBytes passwd) ++ rest) := by
      rw [← cons_eq_counted hus, ← cons_eq_counted hps]
      simpa [encodeAuth] using (List.cons.inj heq).2
    obtain ⟨rfl, hrest⟩ := counted_append_inj (hus ▸ b.toNat_lt) hu.2 hsplit
    obtain ⟨rfl, -⟩ := counted_append_inj (r := []) (hps ▸ q.toNat_lt) hp.2 (by simpa using hrest)
    refine ⟨uname, passwd, hu, hp, hexp, ?_⟩
    obtain rfl : v = AUTH_VERSION := (List.cons.inj heq).1
    simpa [encodeAuth, ← cons_eq_counted hus, ← cons_eq_counted hps] using hall
  · rintro ⟨uname, passwd, hu, hp, hexp, htake⟩
    obtain ⟨c₁, h₁, htake⟩ := (show Takes c c' (1 + 4) ([AUTH_VERSION, UInt8.ofNat _] ++
      (asBytes uname ++ counted (asBytes passwd))) ([] ++ _) from htake).split
    obtain ⟨c₂, h₂, htake⟩ := Takes.split_reads 1 3 htake
    obtain ⟨c₃, h₃, htake⟩ := (show Takes c₂ c' (1 + 2) ([UInt8.ofNat _] ++ asBytes passwd)
      ([] ++ _) from htake).split
    obtain ⟨c₄, h₄, h₅⟩ := (show Takes c₃ c' (1 + 1) (asBytes passwd ++ []) ([] ++ _) by
      simpa using htake).split
    have hul := toNat_ofNat_of_lt hu.2
    have hpl := toNat_ofNat_of_lt hp.2
    have hct := constantTimeEq_iff.mpr hexp
    refine ⟨_, c₁, (ok_readExact (by simp)).mpr ⟨rfl, h₁⟩, ?_,
      _, c₂, (ok_readExact ?_).mpr ⟨?_, h₂⟩, _, c₃, (ok_readExact (by simp)).mpr ⟨rfl, h₃⟩, ?_,
      _, c₄, (ok_readExact ?_).mpr ⟨?_, h₄⟩,
      ((uname, passwd), _), c₄, ⟨parseAuth_ok_iff.mpr ⟨[], ?_, hu, hp, rfl⟩, rfl⟩, ⟨⟩, c', ?_, ?_⟩
    · simp [hul, hu.1.ne']
    · simp [hul, hu.1.ne']
    · simp [hul]
    · simp [hpl, hp.1.ne']
    · simp [hpl, hp.1.ne']
    · simp [hpl]
    · simp [encodeAuth, counted]
    · rw [ok_writeAll, hct]
      exact h₅
    · simp [hct]

def addressReads : Endpoint → ℕ
  | .ip _ => 1
  | .domain _ _ => 2

theorem readAddress_ok_iff {atyp : Byte} {bs rest : Bytes} {target : Endpoint}
    (hok : TargetOk target) (h : atyp :: bs = encodeTarget target ++ rest) :
    Ok (readAddress atyp) c bs c' ↔ rest = [] ∧ Takes c c' (addressReads target) bs [] := by
  match target with
  | .ip (.v4 octets port) =>
    simp only [encodeTarget, List.cons_append, List.append_assoc, List.cons.injEq] at h
    obtain ⟨rfl, rfl⟩ := h
    have hlen : (octets.val ++ (toBe16 port ++ rest)).length = 6 ↔ rest = [] := by
      rw [← List.append_assoc]
      exact length_append_iff (by rw [List.length_append, octets.property, length_toBe16])
    rw [readAddress, if_pos rfl, ok_readExact (by simp), hlen]
    rfl
  | .ip (.v6 octets port _ _) =>
    simp only [encodeTarget, List.cons_append, List.append_assoc, List.cons.injEq] at h
    obtain ⟨rfl, rfl⟩ := h
    have hlen : (octets.val ++ (toBe16 port ++ rest)).length = 18 ↔ rest = [] := by
      rw [← List.append_assoc]
      exact length_append_iff (by rw [List.length_append, octets.property, length_toBe16])
    rw [readAddress, if_neg (by decide), if_pos rfl, ok_readExact (by simp), hlen]
    rfl
  | .domain host port =>
    obtain ⟨rfl, rfl⟩ := List.cons.inj h
    have hlen := toNat_ofNat_of_lt hok.2
    rw [readAddress, if_neg (by decide), if_neg (by decide), if_pos rfl]
    simp only [ok_bind, ok_ite, ok_fail, ok_pure, and_false, exists_false, false_or]
    constructor
    · rintro ⟨lenBuf, c₁, hlenBuf, hdlen, bs, c₂, hbs, heq, rfl⟩
      obtain ⟨hq, htake₁⟩ := (ok_readExact (by simp)).mp hlenBuf
      obtain ⟨q, rfl⟩ := List.length_eq_one_iff.mp hq
      obtain ⟨hbs, htake₂⟩ := (ok_readExact (by omega)).mp hbs
      obtain ⟨rfl, rfl⟩ := List.cons.inj heq
      obtain rfl : rest = [] := by simpa [hlen] using hbs
      exact ⟨rfl, htake₁.trans htake₂⟩
    · rintro ⟨rfl, htake⟩
      obtain ⟨c₁, h₁, h₂⟩ := (show Takes c c' (1 + 1) ([UInt8.ofNat (asBytes host).length] ++
        (asBytes host ++ toBe16 port)) ([] ++ []) by
          simpa [addressReads, counted] using htake).split
      refine ⟨_, c₁, (ok_readExact (by simp)).mpr ⟨rfl, h₁⟩, ?_, _, c', (ok_readExact (by simp)).mpr
        ⟨?_, h₂⟩, ?_, rfl⟩
      · simp [hlen, hok.1.ne']
      · simp [hlen]
      · simp [counted]

/-- The command is one the configuration serves. -/
def Admits (config : Socks5Config) (command : Byte) : Prop :=
  CommandOk command ∧ (command = CMD_BIND → config.bind = true) ∧
    (command = CMD_UDP_ASSOCIATE → config.udpAssociate = true)

instance (config : Socks5Config) (command : Byte) : Decidable (Admits config command) :=
  inferInstanceAs (Decidable (_ ∧ _))

theorem readRequest_ok_iff {r : Socks5Request} :
    Ok (readRequest config) c r c' ↔
      Admits config r.command ∧ TargetOk r.target ∧
        Takes c c' (1 + addressReads r.target) (encodeRequest r) [] := by
  simp only [readRequest, ok_bind, ok_ite, ok_fail, ok_orFail, ok_pure, and_false, exists_false,
    false_or]
  constructor
  · rintro ⟨header, c₁, hheader, bs, c₂, hbs, ⟨r, n⟩, _, ⟨hparse, rfl⟩, hbind, hudp, rfl, rfl⟩
    obtain ⟨hlen, htake₁⟩ := (ok_readExact (by simp)).mp hheader
    obtain ⟨rest, heq, hcmd, hok, -⟩ := parseRequest_ok_iff.mp hparse
    obtain ⟨v, cmd, rsv, atyp, rfl⟩ := List.length_eq_four.mp hlen
    simp only [encodeRequest, List.cons_append, List.nil_append, List.cons.injEq] at heq
    obtain ⟨rfl, rfl, rfl, heq⟩ := heq
    obtain ⟨rfl, htake₂⟩ := (readAddress_ok_iff hok heq).mp hbs
    refine ⟨⟨hcmd, by simpa using hbind, by simpa using hudp⟩, hok, ?_⟩
    rw [List.append_nil] at heq
    simpa [encodeRequest, ← heq] using htake₁.trans htake₂
  · rintro ⟨⟨hcmd, hbind, hudp⟩, hok, htake⟩
    obtain ⟨atyp, bs, heq⟩ := List.exists_cons_of_ne_nil (encodeTarget_ne_nil r.target)
    obtain ⟨c₁, h₁, h₂⟩ := (show Takes c c' (1 + addressReads r.target)
      ([SOCKS5_VERSION, r.command, 0, atyp] ++ bs) ([] ++ []) by
        simpa [encodeRequest, heq] using htake).split
    refine ⟨_, c₁, (ok_readExact (by simp)).mpr ⟨rfl, h₁⟩, bs, c',
      (readAddress_ok_iff hok (by simpa using heq.symm)).mpr ⟨rfl, h₂⟩, (r, _), c',
      ⟨parseRequest_ok_iff.mpr ⟨[], ?_, hcmd, hok, rfl⟩, rfl⟩, ?_, ?_, rfl, rfl⟩
    · simp [encodeRequest, heq]
    · simpa using hbind
    · simpa using hudp

/-! ## The handler as a whole -/

theorem selectMethod_userPass (hauth : config.auth = .userPass) (methods : Bytes) :
    selectMethod methods config =
      if METHOD_USER_PASS ∈ methods then METHOD_USER_PASS else METHOD_NO_ACCEPTABLE := by
  simp [selectMethod, hauth]

/-- The operations of a negotiation with user/pass: two reads for the greeting, the
    selected method, four reads and the status for the credentials, the request. -/
def operations (target : Endpoint) : ℕ := 2 + (1 + (5 + (1 + addressReads target)))

def transcript (methods : Bytes) (uname passwd : String) (r : Socks5Request) : Bytes :=
  encodeGreeting methods ++ (encodeAuth uname passwd ++ encodeRequest r)

theorem negotiate_ok_iff {r : Socks5Request} (hauth : config.auth = .userPass) :
    Ok (negotiate config) c r c' ↔
      ∃ methods uname passwd, GreetingOk methods ∧ METHOD_USER_PASS ∈ methods ∧
        FieldOk uname ∧ FieldOk passwd ∧ Expects config uname passwd ∧
        Admits config r.command ∧ TargetOk r.target ∧
        Takes c c' (operations r.target) (transcript methods uname passwd r)
          [SOCKS5_VERSION, METHOD_USER_PASS, AUTH_VERSION, 0x00] := by
  simp only [negotiate, ok_timeout, negotiateInner, ok_bind, ok_ite, ok_fail, and_false, false_or,
    readGreeting_ok_iff, ok_writeAll, performAuth_ok_iff, readRequest_ok_iff,
    selectMethod_userPass hauth]
  constructor
  · rintro ⟨methods, c₁, ⟨hgreet, h₁⟩, -, c₂, h₂, hsel, hrest⟩
    by_cases hmem : METHOD_USER_PASS ∈ methods
    · rw [if_pos hmem] at h₂ hrest
      rcases hrest with ⟨-, -, c₃, ⟨uname, passwd, hu, hp, hexp, h₃⟩, hadm, hok, h₄⟩ | ⟨hne, -⟩
      · exact ⟨methods, uname, passwd, hgreet, hmem, hu, hp, hexp, hadm, hok,
          h₁.trans (h₂.trans (h₃.trans h₄))⟩
      · exact absurd rfl hne
    · rw [if_neg hmem] at hsel
      exact absurd rfl hsel
  · rintro ⟨methods, uname, passwd, hgreet, hmem, hu, hp, hexp, hadm, hok, htake⟩
    obtain ⟨c₁, h₁, htake⟩ := Takes.split_reads 2 _ htake
    obtain ⟨c₂, h₂, htake⟩ := (show Takes c₁ c' (1 + _) ([] ++ _)
      ([SOCKS5_VERSION, METHOD_USER_PASS] ++ _) from htake).split
    obtain ⟨c₃, h₃, h₄⟩ := (show Takes c₂ c' (5 + _) (encodeAuth uname passwd ++ encodeRequest r)
      ([AUTH_VERSION, 0x00] ++ []) from htake).split
    refine ⟨methods, c₁, ⟨hgreet, h₁⟩, ⟨⟩, c₂, by rw [if_pos hmem]; exact h₂, ?_, ?_⟩
    · rw [if_pos hmem]; decide
    · rw [if_pos hmem]
      exact .inl ⟨rfl, ⟨⟩, c₃, ⟨uname, passwd, hu, hp, hexp, h₃⟩, hadm, hok, h₄⟩

/-! ## Credentials -/

/-- The input is a greeting, then a login with this name and password. -/
def Carries (input : Bytes) (uname passwd : String) : Prop :=
  ∃ methods rest, GreetingOk methods ∧ FieldOk uname ∧ FieldOk passwd ∧
    input = encodeGreeting methods ++ (encodeAuth uname passwd ++ rest)

/-- The pair is that of a configured user. -/
def Configured (config : Socks5Config) (uname passwd : String) : Prop :=
  ∃ u ∈ config.users, u.username = uname ∧ u.password = passwd

/-- A negotiation that succeeds has read a configured name with its password. -/
def AuthSound (config : Socks5Config) (c : Client) : Prop :=
  ∀ r c', Ok (negotiate config) c r c' →
    ∃ uname passwd, Carries c.input uname passwd ∧ Configured config uname passwd

/-- A login with an unknown name and the stand-in password, sent whole. -/
def StandInLogin (config : Socks5Config) (c : Client) : Prop :=
  ∃ methods uname r rest, GreetingOk methods ∧ METHOD_USER_PASS ∈ methods ∧ FieldOk uname ∧
    (∀ u ∈ config.users, u.username ≠ uname) ∧ Admits config r.command ∧ TargetOk r.target ∧
    c.input = transcript methods uname NO_SUCH_USER r ++ rest ∧
    ∀ f ∈ c.faults.take (operations r.target), f = none

theorem Carries.unique {input : Bytes} {u u' p p' : String} (h : Carries input u p)
    (h' : Carries input u' p') : u = u' ∧ p = p' := by
  obtain ⟨methods, rest, hgreet, hu, hp, rfl⟩ := h
  obtain ⟨methods', rest', hgreet', hu', hp', heq⟩ := h'
  have hlt : ∀ {m}, GreetingOk m → m.length < 256 := fun h => h.2.trans_lt (by decide)
  obtain ⟨rfl, hauth⟩ := counted_append_inj (hlt hgreet) (hlt hgreet') (List.cons.inj heq).2
  simp only [encodeAuth, List.cons_append, List.append_assoc, List.cons.injEq, true_and] at hauth
  obtain ⟨hu, hpass⟩ := counted_append_inj hu.2 hu'.2 hauth
  obtain ⟨hp, -⟩ := counted_append_inj hp.2 hp'.2 hpass
  exact ⟨asBytes_injective hu, asBytes_injective hp⟩

theorem lookup_eq_none_iff {uname : String} :
    config.lookup uname = none ↔ ∀ u ∈ config.users, u.username ≠ uname := by
  simp [Socks5Config.lookup]

theorem configured_of_lookup {uname passwd : String} (h : config.lookup uname = some passwd) :
    Configured config uname passwd := by
  obtain ⟨u, hu, rfl⟩ := Option.map_eq_some_iff.mp h
  exact ⟨u, List.mem_of_find?_eq_some hu, by simpa using List.find?_some hu, rfl⟩

theorem StandInLogin.not_sound (hauth : config.auth = .userPass) (h : StandInLogin config c) :
    ¬ AuthSound config c := by
  obtain ⟨methods, uname, r, rest, hgreet, hmem, hu, hnone, hadm, hok, hin, hclear⟩ := h
  have hp : FieldOk NO_SUCH_USER := by decide
  have hexp : Expects config uname NO_SUCH_USER := by
    simp [Expects, lookup_eq_none_iff.mpr hnone]
  have hcarries : Carries c.input uname NO_SUCH_USER :=
    ⟨methods, encodeRequest r ++ rest, hgreet, hu, hp, by simp [hin, transcript]⟩
  intro hsound
  obtain ⟨uname', passwd', hcarries', u, hmem', rfl, -⟩ :=
    hsound r ⟨rest, c.eof, _, c.faults.drop _⟩ ((negotiate_ok_iff hauth).mpr
      ⟨methods, uname, NO_SUCH_USER, hgreet, hmem, hu, hp, hexp, hadm, hok, hclear, hin, rfl, rfl,
        rfl⟩)
  exact hnone u hmem' (hcarries'.unique hcarries).1

/-- For every configuration with user/pass and every client, its stream and its I/O
    faults included: the authentication is sound unless the client logs in with the
    stand-in password. -/
theorem auth_sound_iff (hauth : config.auth = .userPass) :
    AuthSound config c ↔ ¬ StandInLogin config c := by
  constructor
  · exact fun hsound hlogin => hlogin.not_sound hauth hsound
  · intro hlogin r c' hok
    obtain ⟨methods, uname, passwd, hgreet, hmem, hu, hp, hexp, hadm, htarget, htake⟩ :=
      (negotiate_ok_iff hauth).mp hok
    refine ⟨uname, passwd, ⟨methods, encodeRequest r ++ c'.input, hgreet, hu, hp, ?_⟩, ?_⟩
    · simp [htake.input, transcript]
    · cases hl : config.lookup uname with
      | some passwd' =>
        obtain rfl : passwd' = passwd := by simpa [Expects, hl] using hexp
        exact configured_of_lookup hl
      | none =>
        obtain rfl : NO_SUCH_USER = passwd := by simpa [Expects, hl] using hexp
        exact absurd ⟨methods, uname, r, c'.input, hgreet, hmem, hu, lookup_eq_none_iff.mp hl, hadm,
          htarget, htake.input, htake.clear⟩ hlogin

def oneUser : Socks5Config := ⟨.userPass, [⟨"alice", "secret"⟩], false, false⟩

def connectRequest : Socks5Request := ⟨CMD_CONNECT, .ip (.v4 (ipv4Addr 1 1 1 1) 80)⟩

def login (uname passwd : String) : Client :=
  ⟨transcript [METHOD_USER_PASS] uname passwd connectRequest, true, [], []⟩

theorem auth_sound_alice :
    (∃ c', Ok (negotiate oneUser) (login "alice" "secret") connectRequest c') ∧
      AuthSound oneUser (login "alice" "secret") := by
  have hlogin : Carries (login "alice" "secret").input "alice" "secret" :=
    ⟨[METHOD_USER_PASS], _, by decide, by decide, by decide, rfl⟩
  refine ⟨⟨⟨[], true, [SOCKS5_VERSION, METHOD_USER_PASS, AUTH_VERSION, 0x00], []⟩,
    (negotiate_ok_iff rfl).mpr ⟨[METHOD_USER_PASS], "alice", "secret", by decide, by decide,
      by decide, by decide, rfl, by decide, trivial, by simp [login], by simp [login], rfl, rfl,
      by simp [login]⟩⟩, (auth_sound_iff rfl).mpr ?_⟩
  rintro ⟨methods, uname, r, rest, hgreet, -, hu, -, -, -, hin, -⟩
  have hcarries : Carries (login "alice" "secret").input uname NO_SUCH_USER :=
    ⟨methods, encodeRequest r ++ rest, hgreet, hu, by decide, by simp [hin, transcript]⟩
  exact absurd (hcarries.unique hlogin).2 (by decide)

theorem auth_unsound : ∃ config c, config.auth = .userPass ∧ StandInLogin config c ∧
    ¬ AuthSound config c := by
  have hlogin : StandInLogin oneUser (login "bob" NO_SUCH_USER) :=
    ⟨[METHOD_USER_PASS], "bob", connectRequest, [], by decide, by decide, by decide, by decide,
      by decide, trivial, by simp [login], by simp [login]⟩
  exact ⟨_, _, rfl, hlogin, hlogin.not_sound rfl⟩

end SkadiCore.Socks5
