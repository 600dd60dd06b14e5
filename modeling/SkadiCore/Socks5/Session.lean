import SkadiCore.Socks5.Negotiate

/-!
# What a SOCKS5 client sends and is answered

`Socks5Handler::negotiate` as a whole, and its caller in the client,
`handle_session` (`crates/skadi-client/src/socks5.rs`, lines 73-109), which answers a
negotiation that failed on its own.
-/

namespace SkadiCore.Socks5

open Conn

/-! ## The bytes of a negotiation -/

/-- The stream `s` begins with a greeting, with a message of RFC 1929 if user/pass is
    selected, and with the request `r`; behind them is `left`. -/
def Consumes (config : Socks5Config) (s : Bytes) (r : Socks5Request) (left : Bytes) : Prop :=
  ∃ methods n₁ n₂ n₃, parseGreeting s = .ok (methods, n₁) ∧
    (if selectMethod methods config = METHOD_USER_PASS then
      ∃ credentials, parseAuth (s.drop n₁) = .ok (credentials, n₂)
    else n₂ = 0) ∧
    parseRequest (s.drop (n₁ + n₂)) = .ok (r, n₃) ∧ n₁ + n₂ + n₃ ≤ s.length ∧
    left = s.drop (n₁ + n₂ + n₃)

/-- For every configuration, every stream in any segments, and any I/O faults: a
    negotiation that returns has read exactly what the parsers consume. -/
theorem negotiate_consumes {config : Socks5Config} (segs : List Bytes) (eof : Bool)
    (output : Bytes) (faults : List (Option (Fault String))) {r : Socks5Request} {c' : Client}
    (h : Ok (negotiate config) ⟨segs.flatten, eof, output, faults⟩ r c') :
    Consumes config segs.flatten r c'.input := by
  simp only [negotiate, ok_timeout, negotiateInner, ok_bind, ok_ite, ok_fail, and_false, false_or,
    readGreeting_ok_iff, ok_writeAll, performAuth_ok_iff, readRequest_ok_iff] at h
  obtain ⟨methods, c₁, ⟨hgreet, h₁⟩, _, c₂, h₂, -, h⟩ := h
  have hin₁ : segs.flatten = encodeGreeting methods ++ c₂.input :=
    h₁.input.trans (by rw [h₂.input]; rfl)
  have hparse := parseGreeting_ok_iff.mpr ⟨c₂.input, hin₁, hgreet, rfl⟩
  rcases h with ⟨hsel, _, c₃, ⟨uname, passwd, hu, hp, -, h₃⟩, hadm, hok, h₄⟩ |
    ⟨hsel, hadm, hok, h₄⟩
  · have hin₂ := h₃.input
    have hin₃ := h₄.input
    refine ⟨methods, _, (encodeAuth uname passwd).length, (encodeRequest r).length, hparse,
      ?_, ?_, ?_, ?_⟩
    · rw [if_pos hsel]
      refine ⟨(uname, passwd), parseAuth_ok_iff.mpr ⟨c₃.input, ?_, hu, hp, rfl⟩⟩
      rw [hin₁, List.drop_left, hin₂]
    · refine parseRequest_ok_iff.mpr ⟨c'.input, ?_, hadm.1, hok, rfl⟩
      rw [hin₁, ← List.drop_drop, List.drop_left, hin₂, List.drop_left, hin₃]
    · rw [hin₁, hin₂, hin₃]
      simp; omega
    · rw [hin₁, ← List.drop_drop, ← List.drop_drop, List.drop_left, hin₂, List.drop_left, hin₃,
        List.drop_left]
  · have hin₂ := h₄.input
    refine ⟨methods, _, 0, (encodeRequest r).length, hparse, if_neg hsel ▸ rfl, ?_, ?_, ?_⟩
    · refine parseRequest_ok_iff.mpr ⟨c'.input, ?_, hadm.1, hok, rfl⟩
      rw [hin₁, Nat.add_zero, List.drop_left, hin₂]
    · rw [hin₁, hin₂]
      simp
    · rw [hin₁, Nat.add_zero, ← List.drop_drop, List.drop_left, hin₂, List.drop_left]

def earlyPayload : List Bytes :=
  [[SOCKS5_VERSION], (login "alice" "secret").input.tail ++ [0x42]]

theorem negotiate_consumes_login :
    Ok (negotiate oneUser) ⟨earlyPayload.flatten, true, [], []⟩ connectRequest
        ⟨[0x42], true, [SOCKS5_VERSION, METHOD_USER_PASS, AUTH_VERSION, 0x00], []⟩ ∧
      Consumes oneUser earlyPayload.flatten connectRequest [0x42] := by
  have hok : Ok (negotiate oneUser) ⟨earlyPayload.flatten, true, [], []⟩ connectRequest
      ⟨[0x42], true, [SOCKS5_VERSION, METHOD_USER_PASS, AUTH_VERSION, 0x00], []⟩ :=
    (negotiate_ok_iff rfl).mpr ⟨[METHOD_USER_PASS], "alice", "secret", by decide, by decide,
      by decide, by decide, rfl, by decide, trivial, by simp, by simp [earlyPayload, login,
        transcript, encodeGreeting], rfl, rfl, by simp⟩
  exact ⟨hok, negotiate_consumes _ _ _ _ hok⟩

/-! ## The client's session -/

def REP_SUCCEEDED : Byte := 0x00
def REP_CONNECTION_REFUSED : Byte := 0x05

/-- `handle_session` (`skadi-client`, lines 73-109). The outbound decides whether the
    tunnel to the target opens; `relay` is what runs over it. -/
def handleSession (config : Socks5Config) (openTcp : Endpoint → Except String Unit)
    (relay : ClientM Unit) : ClientM Unit := do
  let request ← tryCatch (negotiate config) fun _ => do
    ignore (sendError REP_GENERAL_FAILURE)
    fail "SOCKS5 negotiation failed"
  match openTcp request.target with
  | .error e => do
    ignore (sendError REP_CONNECTION_REFUSED)
    fail e
  | .ok _ => do
    context (sendReply REP_SUCCEEDED (.v4 (ipv4Addr 0 0 0 0) 0))
      "failed to send SOCKS5 success reply"
    context relay "client relay failed"

/-! ## Requests that are refused -/

structure RawRequest where
  version : Byte
  command : Byte
  rsv : Byte
  atyp : Byte
  body : Bytes

namespace RawRequest

variable (q : RawRequest)

def bytes : Bytes := q.version :: q.command :: q.rsv :: q.atyp :: q.body

def host : Bytes := slice q.body 1 (1 + (byteAt q.body 0).toNat)

/-- The address has the length its type and length byte say. -/
def Complete : Prop :=
  (q.atyp = ATYP_IPV4 → q.body.length = 6) ∧ (q.atyp = ATYP_IPV6 → q.body.length = 18) ∧
    (q.atyp = ATYP_DOMAIN → q.body.length = 1 + (byteAt q.body 0).toNat + 2)

/-- The address is of an unknown type or an empty name. -/
def BadAddress : Prop :=
  (q.atyp ≠ ATYP_IPV4 ∧ q.atyp ≠ ATYP_IPV6 ∧ q.atyp ≠ ATYP_DOMAIN) ∨
    (q.atyp = ATYP_DOMAIN ∧ (byteAt q.body 0).toNat = 0)

/-- A wrong version or reserved byte, or a name that is not UTF-8. -/
def Malformed : Prop :=
  q.version ≠ SOCKS5_VERSION ∨ q.rsv ≠ 0 ∨ (q.atyp = ATYP_DOMAIN ∧ fromUtf8 q.host = none)

/-- `parse_request` accepts the request. -/
def Parses : Prop := ∃ r n, parseRequest q.bytes = .ok (r, n)

/-- The request does not parse, or its command is not served. -/
def Refused (config : Socks5Config) (q : RawRequest) : Prop :=
  ∀ r n, parseRequest q.bytes = .ok (r, n) → ¬ Admits config r.command

/-- The code is that of a reason for which the request is refused
    (`docs/PROTOCOLS.md`, lines 142-183). -/
def Documented (config : Socks5Config) (q : RawRequest) (code : Byte) : Prop :=
  (code = REP_COMMAND_NOT_SUPPORTED ∧ ¬ Admits config q.command) ∨
    (code = REP_ADDRESS_NOT_SUPPORTED ∧ q.BadAddress) ∨
    (code = REP_GENERAL_FAILURE ∧ q.Malformed)

end RawRequest

/-- What a client sends up to its request, and what it is answered: the method the
    configuration wants is offered, and the credentials are right. -/
inductive Selects (config : Socks5Config) : Bytes → Bytes → Prop
  | noAuth {methods : Bytes} : config.auth = .noAuth → GreetingOk methods →
      METHOD_NO_AUTH ∈ methods →
      Selects config (encodeGreeting methods) [SOCKS5_VERSION, METHOD_NO_AUTH]
  | userPass {methods : Bytes} {uname passwd : String} : config.auth = .userPass →
      GreetingOk methods → METHOD_USER_PASS ∈ methods → FieldOk uname → FieldOk passwd →
      Expects config uname passwd →
      Selects config (encodeGreeting methods ++ encodeAuth uname passwd)
        [SOCKS5_VERSION, METHOD_USER_PASS, AUTH_VERSION, 0x00]

def errorReply (code : Byte) : Bytes := [SOCKS5_VERSION, code, 0, ATYP_IPV4, 0, 0, 0, 0, 0, 0]

/-- Behind `outs` the client was sent one reply, with a documented code. -/
def AnswersOnce {α : Type} (config : Socks5Config) (q : RawRequest) (outs : Bytes)
    (m : ClientM α) (c : Client) : Prop :=
  ∃ code, q.Documented config code ∧ (Conn.exec m c).2.output = outs ++ errorReply code

variable {config : Socks5Config} {q : RawRequest} {pre outs : Bytes}

theorem exec_sendError (code : Byte) (input output : Bytes) (eof : Bool) :
    Conn.exec (ignore (sendError code)) ⟨input, eof, output, []⟩ =
      (.ok ⟨⟩, ⟨input, eof, output ++ errorReply code, []⟩) := by
  simp [ignore, sendError, sendReply, exec_writeAll, errorReply, ipv4Addr, toBe16]

theorem exec_negotiateInner (h : Selects config pre outs) (input : Bytes) (eof : Bool) :
    Conn.exec (negotiateInner config) ⟨pre ++ input, eof, [], []⟩ =
      Conn.exec (readRequest config) ⟨input, eof, outs, []⟩ := by
  have hgreeting : ∀ {methods} (input : Bytes), GreetingOk methods →
      Conn.exec readGreeting ⟨encodeGreeting methods ++ input, eof, [], []⟩ =
        (.ok methods, ⟨input, eof, [], []⟩) :=
    fun input hgreet => readGreeting_ok_iff.mpr ⟨hgreet, by simp, rfl, rfl, rfl, rfl⟩
  cases h with
  | @noAuth methods hauth hgreet hmem =>
    have hsel : selectMethod methods config = METHOD_NO_AUTH := by simp [selectMethod, hauth, hmem]
    have h₁ : METHOD_NO_AUTH ≠ METHOD_NO_ACCEPTABLE := by decide
    have h₂ : METHOD_NO_AUTH ≠ METHOD_USER_PASS := by decide
    simp [negotiateInner, hgreeting input hgreet, hsel, exec_writeAll, h₁, h₂]
  | @userPass methods uname passwd hauth hgreet hmem hu hp hexp =>
    have hsel : selectMethod methods config = METHOD_USER_PASS := by
      rw [selectMethod_userPass hauth, if_pos hmem]
    have h₁ : METHOD_USER_PASS ≠ METHOD_NO_ACCEPTABLE := by decide
    have hperform : Conn.exec (performAuth config) ⟨encodeAuth uname passwd ++ input, eof,
        [SOCKS5_VERSION, METHOD_USER_PASS], []⟩ =
        (.ok ⟨⟩, ⟨input, eof, [SOCKS5_VERSION, METHOD_USER_PASS, AUTH_VERSION, 0x00], []⟩) :=
      performAuth_ok_iff.mpr ⟨uname, passwd, hu, hp, hexp, by simp, rfl, rfl, rfl, rfl⟩
    simp [negotiateInner, List.append_assoc, hgreeting _ hgreet, hsel, exec_writeAll, h₁, hperform]

namespace RawRequest

instance (q : RawRequest) : Decidable q.BadAddress := inferInstanceAs (Decidable (_ ∨ _))

theorem isSome_iff_parses (q : RawRequest) :
    (parseRequest q.bytes).toOption.isSome = true ↔ q.Parses := by
  unfold Parses
  rcases parseRequest q.bytes with e | ⟨r, n⟩ <;> simp [Except.toOption]

instance (q : RawRequest) : Decidable q.Parses := decidable_of_iff _ q.isSome_iff_parses

def answer (q : RawRequest) : Bytes :=
  if q.BadAddress then errorReply REP_ADDRESS_NOT_SUPPORTED
  else if q.Parses then errorReply REP_COMMAND_NOT_SUPPORTED else []

theorem command_of_parses {r : Socks5Request} {n : ℕ} (h : parseRequest q.bytes = .ok (r, n)) :
    r.command = q.command ∧ CommandOk r.command := by
  obtain ⟨rest, heq, hcmd, -⟩ := parseRequest_ok_iff.mp h
  exact ⟨(List.cons.inj (List.cons.inj heq).2).1.symm, hcmd⟩

theorem Parses.not_malformed (h : q.Parses) : ¬ q.Malformed := by
  obtain ⟨r, n, h⟩ := h
  obtain ⟨rest, heq, -, hok, -⟩ := parseRequest_ok_iff.mp h
  simp only [bytes, encodeRequest, List.cons_append, List.cons.injEq] at heq
  obtain ⟨hversion, -, hrsv, heq⟩ := heq
  rintro (hv | hr | ⟨hatyp, hhost⟩)
  · exact hv hversion
  · exact hr hrsv
  · obtain ⟨target, ht⟩ : ∃ target, r.target = target := ⟨_, rfl⟩
    rw [ht] at hok heq
    rcases target with ⟨_ | _⟩ | ⟨name, port⟩
    · exact absurd (hatyp.symm.trans (List.cons.inj heq).1) (by decide)
    · exact absurd (hatyp.symm.trans (List.cons.inj heq).1) (by decide)
    · obtain ⟨-, hbody⟩ := List.cons.inj heq
      have hcount := toNat_ofNat_of_lt hok.2
      have hname : q.host = asBytes name := by
        rw [host, hbody]
        have := slice_append [UInt8.ofNat (asBytes name).length] (asBytes name)
          (toBe16 port ++ rest) (a := 1) (b := 1 + (asBytes name).length) rfl rfl
        simpa [counted, hcount] using this
      simp [hname] at hhost

variable (rest : Bytes) (eof : Bool) (out : Bytes)

theorem exec_readAddress (hq : q.Complete) (hb : ¬ q.BadAddress) :
    Conn.exec (readAddress q.atyp) ⟨q.body ++ rest, eof, out, []⟩ =
      (.ok q.body, ⟨rest, eof, out, []⟩) := by
  obtain ⟨h4, h6, hd⟩ := hq
  simp only [BadAddress, not_or, not_and, not_not] at hb
  obtain ⟨hknown, hlen⟩ := hb
  unfold readAddress
  split_ifs with h4' h6' hd'
  · exact exec_readExact_append (h4 h4') _ _ _ _
  · exact exec_readExact_append (h6 h6') _ _ _ _
  · replace hd := hd hd'
    replace hlen := hlen hd'
    rcases hbody : q.body with - | ⟨b, body⟩
    · simp [hbody] at hd
    rw [hbody, byteAt_cons_zero] at hd
    have hlen' : (byteAt [b] 0).toNat ≠ 0 := by simpa [hbody] using hlen
    have hread : Conn.exec (readExact 1 EARLY_EOF) ⟨b :: body ++ rest, eof, out, []⟩ =
        (.ok [b], ⟨body ++ rest, eof, out, []⟩) :=
      exec_readExact_append (by rfl : [b].length = 1) _ _ _ _
    have hread' : Conn.exec (readExact ((byteAt [b] 0).toNat + 2) EARLY_EOF)
        ⟨body ++ rest, eof, out, []⟩ = (.ok body, ⟨rest, eof, out, []⟩) :=
      exec_readExact_append (by rw [List.length_cons] at hd; simp; omega) _ _ _ _
    simp only [exec_bind, hread, if_neg hlen', hread', exec_pure]
    rfl
  · exact absurd (hknown h4' h6') hd'

theorem exec_readAddress_bad (hq : q.Complete) (hb : q.BadAddress) :
    ∃ e left, Conn.exec (readAddress q.atyp) ⟨q.body ++ rest, eof, out, []⟩ =
      (.error (.error e), ⟨left, eof, out ++ errorReply REP_ADDRESS_NOT_SUPPORTED, []⟩) := by
  rcases hb with ⟨h4, h6, hd⟩ | ⟨hatyp, hzero⟩
  · refine ⟨s!"unsupported address type: 0x{hex02 q.atyp}", q.body ++ rest, ?_⟩
    simp only [readAddress, if_neg h4, if_neg h6, if_neg hd, exec_bind, exec_sendError, fail,
      exec_throw]
  · have hlen := hq.2.2 hatyp
    rcases hbody : q.body with - | ⟨b, body⟩
    · simp [hbody] at hlen
    rw [hbody, byteAt_cons_zero] at hzero
    have hread : Conn.exec (readExact 1 EARLY_EOF) ⟨b :: body ++ rest, eof, out, []⟩ =
        (.ok [b], ⟨body ++ rest, eof, out, []⟩) :=
      exec_readExact_append (by rfl : [b].length = 1) _ _ _ _
    have h4 : ATYP_DOMAIN ≠ ATYP_IPV4 := by decide
    have h6 : ATYP_DOMAIN ≠ ATYP_IPV6 := by decide
    refine ⟨"empty domain", body ++ rest, ?_⟩
    simp only [readAddress, hatyp, if_neg h4, if_neg h6, if_true, exec_bind, hread,
      byteAt_cons_zero, hzero, exec_sendError, fail, exec_throw]

theorem exec_readRequest (hq : q.Complete) (href : q.Refused config) :
    ∃ e left, Conn.exec (readRequest config) ⟨q.bytes ++ rest, eof, out, []⟩ =
      (.error (.error e), ⟨left, eof, out ++ q.answer, []⟩) := by
  have hheader : Conn.exec (readExact 4 EARLY_EOF) ⟨q.bytes ++ rest, eof, out, []⟩ =
      (.ok [q.version, q.command, q.rsv, q.atyp], ⟨q.body ++ rest, eof, out, []⟩) :=
    exec_readExact_append (by rfl : [q.version, q.command, q.rsv, q.atyp].length = 4) _ _ _ _
  by_cases hb : q.BadAddress
  · obtain ⟨e, left, he⟩ := exec_readAddress_bad rest eof out hq hb
    refine ⟨e, left, ?_⟩
    simp [readRequest, hheader, he, answer, hb]
  have haddr := exec_readAddress rest eof out hq hb
  have hbytes : [q.version, q.command, q.rsv, q.atyp] ++ q.body = q.bytes := rfl
  cases hparse : parseRequest q.bytes with
  | error e =>
    have hp : ¬ q.Parses := by simp [Parses, hparse]
    refine ⟨s!"request parse (reply 0x{hex02 (replyCode e)}): {e.display}", rest, ?_⟩
    simp only [readRequest, exec_bind, hheader, byteAt_cons_three, haddr, hbytes, hparse, orFail,
      fail, exec_throw, answer, if_neg hb, if_neg hp, List.append_nil]
  | ok p =>
    obtain ⟨r, n⟩ := p
    have hp : q.Parses := ⟨r, n, hparse⟩
    have hadm := href r n hparse
    have hcmd := (command_of_parses hparse).2
    simp only [readRequest, exec_bind, hheader, byteAt_cons_three, haddr, hbytes, hparse, orFail,
      exec_pure, answer, if_neg hb, if_pos hp]
    by_cases hbind : r.command = CMD_BIND ∧ config.bind = false
    · refine ⟨"SOCKS5 BIND disabled in config", rest, ?_⟩
      simp only [if_pos hbind, exec_bind, exec_sendError, fail, exec_throw]
    by_cases hudp : r.command = CMD_UDP_ASSOCIATE ∧ config.udpAssociate = false
    · refine ⟨"SOCKS5 UDP ASSOCIATE disabled in config", rest, ?_⟩
      simp only [if_neg hbind, if_pos hudp, exec_bind, exec_sendError, fail, exec_throw]
    · exact absurd ⟨hcmd, by simpa using hbind, by simpa using hudp⟩ hadm

end RawRequest

theorem errorReply_injective : Function.Injective errorReply := by
  intro a b h
  simpa [errorReply] using h

theorem output_negotiate (rest : Bytes) (eof : Bool) (hpre : Selects config pre outs)
    (hq : q.Complete) (href : q.Refused config) :
    ∃ e left, Conn.exec (negotiate config) ⟨pre ++ (q.bytes ++ rest), eof, [], []⟩ =
      (.error (.error e), ⟨left, eof, outs ++ q.answer, []⟩) := by
  obtain ⟨e, left, he⟩ := RawRequest.exec_readRequest rest eof outs hq href
  exact ⟨e, left, by simp [negotiate, timeout, exec_negotiateInner hpre, he, fail]⟩

theorem answer_documented_iff (href : q.Refused config) :
    (∃ code, q.Documented config code ∧ q.answer = errorReply code) ↔
      q.BadAddress ∨ q.Parses := by
  unfold RawRequest.answer
  by_cases hb : q.BadAddress
  · simp only [hb, if_true, true_or, iff_true]
    exact ⟨_, .inr (.inl ⟨rfl, hb⟩), rfl⟩
  by_cases hp : q.Parses
  · simp only [hb, hp, if_true, if_false, or_true, iff_true]
    obtain ⟨r, n, hparse⟩ := hp
    refine ⟨_, .inl ⟨rfl, ?_⟩, rfl⟩
    rw [← (RawRequest.command_of_parses hparse).1]
    exact href r n hparse
  · simp [hb, hp, errorReply]

theorem answer_append_documented_iff :
    (∃ code, q.Documented config code ∧
      q.answer ++ errorReply REP_GENERAL_FAILURE = errorReply code) ↔
      ¬ q.BadAddress ∧ q.Malformed := by
  -- two replies are longer than one
  have htwo : ∀ a b c, errorReply a ++ errorReply b ≠ errorReply c := by simp [errorReply]
  unfold RawRequest.answer
  by_cases hb : q.BadAddress
  · simp [hb, htwo]
  by_cases hp : q.Parses
  · simp [hb, hp, htwo, hp.not_malformed]
  · have h7 : REP_GENERAL_FAILURE ≠ REP_COMMAND_NOT_SUPPORTED := by decide
    have h8 : REP_GENERAL_FAILURE ≠ REP_ADDRESS_NOT_SUPPORTED := by decide
    rw [if_neg hb, if_neg hp, List.nil_append]
    constructor
    · rintro ⟨code, hdoc, heq⟩
      obtain rfl := errorReply_injective heq
      simpa [RawRequest.Documented, h7, h8, hb] using hdoc
    · exact fun h => ⟨_, .inr (.inr ⟨rfl, h.2⟩), rfl⟩

theorem answersOnce_negotiate_iff (rest : Bytes) (eof : Bool) (hpre : Selects config pre outs)
    (hq : q.Complete) (href : q.Refused config) :
    AnswersOnce config q outs (negotiate config) ⟨pre ++ (q.bytes ++ rest), eof, [], []⟩ ↔
      q.BadAddress ∨ q.Parses := by
  obtain ⟨e, left, he⟩ := output_negotiate rest eof hpre hq href
  simp only [AnswersOnce, he, List.append_cancel_left_eq]
  exact answer_documented_iff href

theorem answersOnce_handleSession_iff (rest : Bytes) (eof : Bool)
    (openTcp : Endpoint → Except String Unit) (relay : ClientM Unit)
    (hpre : Selects config pre outs) (hq : q.Complete) (href : q.Refused config) :
    AnswersOnce config q outs (handleSession config openTcp relay)
        ⟨pre ++ (q.bytes ++ rest), eof, [], []⟩ ↔
      ¬ q.BadAddress ∧ q.Malformed := by
  obtain ⟨e, left, he⟩ := output_negotiate rest eof hpre hq href
  have hout : (Conn.exec (handleSession config openTcp relay)
      ⟨pre ++ (q.bytes ++ rest), eof, [], []⟩).2.output =
        outs ++ (q.answer ++ errorReply REP_GENERAL_FAILURE) := by
    simp [handleSession, he, exec_sendError, fail]
  simp only [AnswersOnce, hout, List.append_cancel_left_eq]
  exact answer_append_documented_iff

/-- For every configuration, every client that gets through method selection and
    authentication, and every complete request that is refused: `negotiate` answers once
    and with a documented code exactly if the address is bad or the request parses, and
    `handle_session` exactly if the address is good and the request malformed. -/
theorem refused_answered_iff (rest : Bytes) (eof : Bool) (openTcp : Endpoint → Except String Unit)
    (relay : ClientM Unit) (hpre : Selects config pre outs) (hq : q.Complete)
    (href : q.Refused config) :
    (AnswersOnce config q outs (negotiate config) ⟨pre ++ (q.bytes ++ rest), eof, [], []⟩ ↔
        q.BadAddress ∨ q.Parses) ∧
      (AnswersOnce config q outs (handleSession config openTcp relay)
          ⟨pre ++ (q.bytes ++ rest), eof, [], []⟩ ↔ ¬ q.BadAddress ∧ q.Malformed) :=
  ⟨answersOnce_negotiate_iff rest eof hpre hq href,
    answersOnce_handleSession_iff rest eof openTcp relay hpre hq href⟩

def ipv4Request (command : Byte) : RawRequest :=
  ⟨SOCKS5_VERSION, command, 0, ATYP_IPV4, [1, 1, 1, 1, 0, 80]⟩

def unknownAtyp : RawRequest := ⟨SOCKS5_VERSION, CMD_CONNECT, 0, 0x09, []⟩

def openConfig : Socks5Config := ⟨.noAuth, [], false, false⟩

theorem selects_open : Selects openConfig (encodeGreeting [METHOD_NO_AUTH])
    [SOCKS5_VERSION, METHOD_NO_AUTH] :=
  .noAuth rfl (by decide) (by decide)

theorem refused_unknownAtyp : unknownAtyp.Refused openConfig := by
  intro r n h
  have : ¬ unknownAtyp.Parses := by decide
  exact absurd ⟨r, n, h⟩ this

theorem answered_unknownAtyp :
    unknownAtyp.Complete ∧ unknownAtyp.Refused openConfig ∧
      AnswersOnce openConfig unknownAtyp [SOCKS5_VERSION, METHOD_NO_AUTH] (negotiate openConfig)
        ⟨encodeGreeting [METHOD_NO_AUTH] ++ (unknownAtyp.bytes ++ []), true, [], []⟩ := by
  have hq : unknownAtyp.Complete := ⟨by decide, by decide, by decide⟩
  exact ⟨hq, refused_unknownAtyp,
    (refused_answered_iff [] true (fun _ => .ok ()) (pure ()) selects_open hq
      refused_unknownAtyp).1.mpr (.inl (by decide))⟩

theorem refused_unanswered :
    ((ipv4Request 0x09).Complete ∧ (ipv4Request 0x09).Refused openConfig ∧
      ¬ AnswersOnce openConfig (ipv4Request 0x09) [SOCKS5_VERSION, METHOD_NO_AUTH]
        (negotiate openConfig)
        ⟨encodeGreeting [METHOD_NO_AUTH] ++ ((ipv4Request 0x09).bytes ++ []), true, [], []⟩ ∧
      ¬ AnswersOnce openConfig (ipv4Request 0x09) [SOCKS5_VERSION, METHOD_NO_AUTH]
        (handleSession openConfig (fun _ => .ok ()) (pure ()))
        ⟨encodeGreeting [METHOD_NO_AUTH] ++ ((ipv4Request 0x09).bytes ++ []), true, [], []⟩) ∧
    unknownAtyp.Complete ∧ unknownAtyp.Refused openConfig ∧
      ¬ AnswersOnce openConfig unknownAtyp [SOCKS5_VERSION, METHOD_NO_AUTH]
        (handleSession openConfig (fun _ => .ok ()) (pure ()))
        ⟨encodeGreeting [METHOD_NO_AUTH] ++ (unknownAtyp.bytes ++ []), true, [], []⟩ := by
  have hq : (ipv4Request 0x09).Complete := ⟨by decide, by decide, by decide⟩
  have hq' : unknownAtyp.Complete := ⟨by decide, by decide, by decide⟩
  have href : (ipv4Request 0x09).Refused openConfig := by
    intro r n h
    have : ¬ (ipv4Request 0x09).Parses := by decide
    exact absurd ⟨r, n, h⟩ this
  refine ⟨⟨hq, href, ?_, ?_⟩, hq', refused_unknownAtyp, ?_⟩
  · rw [answersOnce_negotiate_iff [] true selects_open hq href]
    decide
  · rw [answersOnce_handleSession_iff [] true _ _ selects_open hq href]
    rintro ⟨-, hv | hr | ⟨hatyp, -⟩⟩
    · exact hv rfl
    · exact hr rfl
    · exact absurd hatyp (by decide)
  · rw [answersOnce_handleSession_iff [] true _ _ selects_open hq' refused_unknownAtyp]
    exact fun h => h.1 (by decide)

end SkadiCore.Socks5
