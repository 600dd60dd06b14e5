import SkadiCore.Common.Conn
import SkadiCore.Vless.Addons
import SkadiCore.Vless.Parse

/-!
# The VLESS handshake

Model of `VlessHandler::handshake_inner` (`crates/skadi-protocol/src/vless/handler.rs`,
lines 41-151). The handler reads the header piece by piece, each piece as long as the
ones before it say, and then parses what it has collected. It answers with two bytes
once everything is accepted, and is silent otherwise.
-/

namespace SkadiCore.Vless

open Conn

abbrev ClientM := ConnM Byte String

def EARLY_EOF : String := "early eof"

structure VlessHandshake where
  command : Byte
  target : Endpoint
  deriving DecidableEq

/-! ## The handler -/

def readAddr (addrLen : ℕ) : ClientM Bytes :=
  if addrLen > MAX_DOMAIN then fail s!"address too long: {addrLen}"
  else context (readExact addrLen EARLY_EOF) "failed to read VLESS address"

def readAddress (atyp : Byte) : ClientM Bytes :=
  if atyp = ATYP_IPV4 then readAddr 4
  else if atyp = ATYP_IPV6 then readAddr 16
  else if atyp = ATYP_DOMAIN then do
    let dlen ← readExact 1 EARLY_EOF
    let addr ← readAddr (byteAt dlen 0).toNat
    pure (dlen ++ addr)
  else fail s!"unsupported address type: 0x{hex02 atyp}"

def readTail (command : Byte) : ClientM Bytes :=
  if command ≠ CMD_MUX then do
    let portAtyp ← context (readExact 3 EARLY_EOF) "failed to read VLESS port and ATYP"
    let addr ← readAddress (byteAt portAtyp 2)
    pure (portAtyp ++ addr)
  else pure []

def readAddons (addonsLen : ℕ) : ClientM Bytes :=
  if addonsLen > 0 then context (readExact addonsLen EARLY_EOF) "failed to read VLESS addons"
  else pure []

/-- The reads of `handshake_inner` (lines 45-112): the UUID, and the header as a
    whole. -/
def readHeader : ClientM (Uuid × Bytes) := do
  let head ← context (readExact 18 EARLY_EOF) "failed to read VLESS header prefix"
  let version := byteAt head 0
  if version ≠ VLESS_VERSION then fail s!"unsupported VLESS version: 0x{hex02 version}"
  else
    let uuid := toArray 16 (slice head 1 17)
    let addonsLen := (byteAt head 17).toNat
    if addonsLen > MAX_ADDONS then fail s!"VLESS addons too large: {addonsLen}"
    else
      let addons ← readAddons addonsLen
      let commandBuf ← context (readExact 1 EARLY_EOF) "failed to read VLESS command"
      let tail ← readTail (byteAt commandBuf 0)
      pure (uuid, head ++ (addons ++ (commandBuf ++ tail)))

def authorize (config : VlessConfig) (uuid : Uuid) (full : Bytes) : Except String VlessHandshake :=
  match config.authenticate uuid with
  | none => .error "authentication failed"
  | some user =>
    match parseRequest full with
    | .error e => .error s!"VLESS parse: {e.display}"
    | .ok (request, _) =>
      match parseAddons request.addons with
      | .error e => .error s!"VLESS addons: {e.display}"
      | .ok addons =>
        match validateFlow addons.flow user.flow with
        | .error _ => .error "unsupported flow"
        | .ok _ => .ok ⟨request.command, request.target⟩

/-- `handshake_inner` (lines 41-151). -/
def handshakeInner (config : VlessConfig) : ClientM VlessHandshake := do
  let (uuid, full) ← readHeader
  let handshake ← orFail (authorize config uuid full) id
  writeAll (buildResponseHeader VLESS_VERSION)
  pure handshake

/-- `VlessHandler::handshake` (lines 31-39). -/
def handshake (config : VlessConfig) : ClientM VlessHandshake :=
  timeout (handshakeInner config) "VLESS handshake timeout"

/-! ## What the handler reads -/

variable {config : VlessConfig} {c c' : Conn Byte String} {command : Byte} {target : Endpoint}

theorem readAddress_ok_iff (hc : c.faults = []) {hi lo atyp : Byte} {bs rest : Bytes}
    (hok : target.Canonical) (h : hi :: lo :: atyp :: bs = encodePortAddress target ++ rest) :
    Ok (readAddress atyp) c bs c' ↔ rest = [] ∧ Takes c c' 0 bs [] := by
  match target with
  | .ip (.v4 octets port) =>
    obtain ⟨hi, lo, hport, -⟩ := exists_toBe16 port
    simp only [encodePortAddress, SocketAddr.port, SocketAddr.ip, hport, List.cons_append,
      List.nil_append, List.cons.injEq] at h
    obtain ⟨-, -, rfl, rfl⟩ := h
    have hlen : (octets.val ++ rest).length = 4 ↔ rest = [] := length_append_iff octets.property
    rw [readAddress, if_pos rfl, readAddr, if_neg (by decide), ok_context,
      ok_readExact_of_faults_nil hc, hlen]
  | .ip (.v6 octets port _ _) =>
    obtain ⟨hi, lo, hport, -⟩ := exists_toBe16 port
    simp only [encodePortAddress, SocketAddr.port, SocketAddr.ip, hport, List.cons_append,
      List.nil_append, List.cons.injEq] at h
    obtain ⟨-, -, rfl, rfl⟩ := h
    have hlen : (octets.val ++ rest).length = 16 ↔ rest = [] := length_append_iff octets.property
    rw [readAddress, if_neg (by decide), if_pos rfl, readAddr, if_neg (by decide), ok_context,
      ok_readExact_of_faults_nil hc, hlen]
  | .domain host port =>
    obtain ⟨hi, lo, hport, -⟩ := exists_toBe16 port
    simp only [encodePortAddress, hport, List.cons_append, List.nil_append, List.cons.injEq] at h
    obtain ⟨-, -, rfl, rfl⟩ := h
    have hcount := toNat_ofNat_of_lt hok.2
    have hmax : ¬ (asBytes host).length > MAX_DOMAIN := by
      have := hok.2
      simp [MAX_DOMAIN]
      omega
    rw [readAddress, if_neg (by decide), if_neg (by decide), if_pos rfl]
    simp only [ok_bind, ok_pure, ok_readExact_of_faults_nil hc]
    constructor
    · rintro ⟨dlen, c₁, ⟨hq, h₁⟩, addr, c₂, haddr, heq, rfl⟩
      obtain ⟨q, rfl⟩ := List.length_eq_one_iff.mp hq
      obtain ⟨rfl, rfl⟩ := List.cons.inj heq
      rw [readAddr, byteAt_cons_zero, hcount, if_neg hmax, ok_context,
        ok_readExact_of_faults_nil (h₁.faults_nil hc)] at haddr
      obtain ⟨hlen, h₂⟩ := haddr
      exact ⟨by simpa using hlen, h₁.trans h₂⟩
    · rintro ⟨rfl, htake⟩
      obtain ⟨c₁, h₁, h₂⟩ := Takes.split_reads 0 0 (show Takes c c' 0
        ([UInt8.ofNat (asBytes host).length] ++ (asBytes host ++ [])) [] from htake)
      refine ⟨_, c₁, ⟨rfl, h₁⟩, _, c', ?_, rfl, rfl⟩
      rw [readAddr, byteAt_cons_zero, hcount, if_neg hmax, ok_context,
        ok_readExact_of_faults_nil (h₁.faults_nil hc)]
      exact ⟨by simp, h₂⟩

theorem readTail_ok_iff (hc : c.faults = []) {tail rest : Bytes} (hok : TargetOk command target)
    (h : tail = encodeTail command target ++ rest) :
    Ok (readTail command) c tail c' ↔ rest = [] ∧ Takes c c' 0 tail [] := by
  obtain ⟨rfl, rfl⟩ | ⟨hcmd, hok⟩ := hok
  · obtain rfl : tail = rest := by simpa [encodeTail] using h
    rw [readTail, if_neg (by simp), ok_pure]
    refine and_congr_right fun hnil => ?_
    rw [hnil, takes_nil]
  · have hne : command ≠ CMD_MUX := by rintro rfl; revert hcmd; decide
    rw [encodeTail, if_neg hne] at h
    rw [readTail, if_pos hne]
    simp only [ok_bind, ok_pure, ok_context, ok_readExact_of_faults_nil hc]
    constructor
    · rintro ⟨portAtyp, c₁, ⟨hlen, h₁⟩, addr, c₂, haddr, rfl, rfl⟩
      obtain ⟨hi, lo, atyp, rfl⟩ := List.length_eq_three.mp hlen
      obtain ⟨hrest, h₂⟩ := (readAddress_ok_iff (h₁.faults_nil hc) hok h).mp haddr
      exact ⟨hrest, h₁.trans h₂⟩
    · rintro ⟨rfl, htake⟩
      obtain ⟨hi, lo, atyp, bs, htail⟩ := exists_encodePortAddress target
      obtain rfl : tail = hi :: lo :: atyp :: bs := by rw [h, htail, List.append_nil]
      obtain ⟨c₁, h₁, h₂⟩ := Takes.split_reads 0 0 (show Takes c c' 0 ([hi, lo, atyp] ++ bs) []
        from htake)
      exact ⟨_, c₁, ⟨rfl, h₁⟩, bs, c', (readAddress_ok_iff (h₁.faults_nil hc) hok h).mpr ⟨rfl, h₂⟩,
        rfl, rfl⟩

theorem readAddons_ok_iff (hc : c.faults = []) {n : ℕ} {addons : Bytes} :
    Ok (readAddons n) c addons c' ↔ addons.length = n ∧ Takes c c' 0 addons [] := by
  unfold readAddons
  split_ifs with h
  · rw [ok_context, ok_readExact_of_faults_nil hc]
  · obtain rfl : n = 0 := by omega
    rw [ok_pure, List.length_eq_zero_iff]
    refine and_congr_right fun hnil => ?_
    rw [hnil, takes_nil]

def encodePrefix (r : VlessRequest) : Bytes :=
  VLESS_VERSION :: (r.uuid.val ++ [UInt8.ofNat r.addons.length])

theorem encodeRequest_eq (r : VlessRequest) : encodeRequest r =
    encodePrefix r ++ (r.addons ++ ([r.command] ++ encodeTail r.command r.target)) := by
  simp [encodeRequest, encodeHead, encodePrefix, counted]

theorem length_encodePrefix (r : VlessRequest) : (encodePrefix r).length = 18 := by
  simp [encodePrefix]

theorem encodePrefix_fields {r : VlessRequest} (h : r.addons.length < 256) :
    byteAt (encodePrefix r) 0 = VLESS_VERSION ∧
      toArray 16 (slice (encodePrefix r) 1 17) = r.uuid ∧
      (byteAt (encodePrefix r) 17).toNat = r.addons.length := by
  have hu := r.uuid.property
  have huuid : slice (encodePrefix r) 1 17 = r.uuid.val :=
    slice_append [VLESS_VERSION] r.uuid.val _ rfl (by rw [hu])
  have hcount : byteAt (encodePrefix r) 17 = UInt8.ofNat r.addons.length :=
    byteAt_append (VLESS_VERSION :: r.uuid.val) [] _ (by simp)
  exact ⟨rfl, by rw [huuid, toArray_self], by rw [hcount, toNat_ofNat_of_lt h]⟩

theorem readHeader_ok_iff (hc : c.faults = []) {r : VlessRequest} {uuid : Uuid}
    {full rest : Bytes} (hok : RequestOk r) (h : full = encodeRequest r ++ rest) :
    Ok readHeader c (uuid, full) c' ↔ rest = [] ∧ uuid = r.uuid ∧ Takes c c' 0 full [] := by
  obtain ⟨hversion, huuid, hcount⟩ := encodePrefix_fields hok.1
  have hmax : ¬ r.addons.length > MAX_ADDONS := by
    have := hok.1
    simp [MAX_ADDONS]
    omega
  simp only [readHeader, ok_bind, ok_ite, ok_fail, ok_pure, ok_context, and_false, false_or,
    ok_readExact_of_faults_nil hc, Prod.mk.injEq]
  constructor
  · rintro ⟨head, c₁, ⟨hlen, h₁⟩, -, -, addons, c₂, h₂, commandBuf, c₃, h₃, tail, c₄, h₄,
      ⟨rfl, rfl⟩, rfl⟩
    have hc₁ := h₁.faults_nil hc
    rw [encodeRequest_eq, List.append_assoc] at h
    obtain ⟨rfl, haddons⟩ := List.append_inj h (by rw [hlen, length_encodePrefix])
    rw [hcount, readAddons_ok_iff hc₁] at h₂
    obtain ⟨hlen₂, h₂⟩ := h₂
    have hc₂ := h₂.faults_nil hc₁
    rw [List.append_assoc] at haddons
    obtain ⟨rfl, hcommand⟩ := List.append_inj haddons hlen₂
    rw [ok_readExact_of_faults_nil hc₂] at h₃
    obtain ⟨hlen₃, h₃⟩ := h₃
    rw [List.append_assoc] at hcommand
    obtain ⟨rfl, htail⟩ := List.append_inj hcommand hlen₃
    obtain ⟨hrest, h₄⟩ := (readTail_ok_iff (h₃.faults_nil hc₂) hok.2 htail).mp h₄
    exact ⟨hrest, huuid, h₁.trans (h₂.trans (h₃.trans h₄))⟩
  · rintro ⟨rfl, rfl, htake⟩
    rw [List.append_nil, encodeRequest_eq] at h
    subst h
    obtain ⟨c₁, h₁, htake⟩ := Takes.split_reads 0 0 htake
    obtain ⟨c₂, h₂, htake⟩ := Takes.split_reads 0 0 htake
    obtain ⟨c₃, h₃, h₄⟩ := Takes.split_reads 0 0 htake
    have hc₁ := h₁.faults_nil hc
    have hc₂ := h₂.faults_nil hc₁
    refine ⟨_, c₁, ⟨length_encodePrefix r, h₁⟩, not_not.mpr hversion, by rwa [hcount], r.addons, c₂,
      ?_, [r.command], c₃, ?_, _, c', ?_, ⟨huuid.symm, rfl⟩, rfl⟩
    · rw [hcount]
      exact (readAddons_ok_iff hc₁).mpr ⟨rfl, h₂⟩
    · exact (ok_readExact_of_faults_nil hc₂).mpr ⟨rfl, h₃⟩
    · exact (readTail_ok_iff (h₃.faults_nil hc₂) hok.2 (List.append_nil _).symm).mpr ⟨rfl, h₄⟩

/-! ## The handshake -/

/-- The stream begins with a request of `n` bytes that the configuration accepts: its
    UUID is that of a user, its addons parse, and the flow in them suits the user. -/
def Accepts (config : VlessConfig) (s : Bytes) (h : VlessHandshake) (n : ℕ) : Prop :=
  ∃ req user addons, parseRequest s = .ok (req, n) ∧ h = ⟨req.command, req.target⟩ ∧
    config.authenticate req.uuid = some user ∧ parseAddons req.addons = .ok addons ∧
    validateFlow addons.flow user.flow = .ok ()

theorem authorize_ok_iff {uuid : Uuid} {full : Bytes} {h : VlessHandshake} :
    authorize config uuid full = .ok h ↔
      ∃ req n user addons, parseRequest full = .ok (req, n) ∧ h = ⟨req.command, req.target⟩ ∧
        config.authenticate uuid = some user ∧ parseAddons req.addons = .ok addons ∧
        validateFlow addons.flow user.flow = .ok () := by
  unfold authorize
  cases hauth : config.authenticate uuid with
  | none => simp
  | some user =>
    cases hparse : parseRequest full with
    | error e => simp
    | ok p =>
      obtain ⟨req, n⟩ := p
      cases haddons : parseAddons req.addons with
      | error e => simp [haddons]
      | ok addons =>
        cases hflow : validateFlow addons.flow user.flow with
        | error e => simp [haddons, hflow]
        | ok _ => simp [haddons, hflow, eq_comm]

theorem quiet_readHeader : Quiet readHeader := by
  have hread : ∀ n e, Quiet (context (readExact n EARLY_EOF) e : ClientM Bytes) :=
    fun n e => (quiet_readExact n _).context e
  have haddr : ∀ n, Quiet (readAddr n) := by
    intro n
    unfold readAddr
    split_ifs
    · exact quiet_fail _
    · exact hread _ _
  have haddress : ∀ atyp, Quiet (readAddress atyp) := by
    intro atyp
    unfold readAddress
    split_ifs
    · exact haddr 4
    · exact haddr 16
    · exact (quiet_readExact 1 _).bind fun _ => (haddr _).bind fun _ => quiet_pure _
    · exact quiet_fail _
  have htail : ∀ command, Quiet (readTail command) := by
    intro command
    unfold readTail
    split_ifs
    · exact (hread 3 _).bind fun _ => (haddress _).bind fun _ => quiet_pure _
    · exact quiet_pure _
  have haddons : ∀ n, Quiet (readAddons n) := by
    intro n
    unfold readAddons
    split_ifs
    · exact hread _ _
    · exact quiet_pure _
  refine (hread 18 _).bind fun head => ?_
  dsimp only
  split_ifs
  · exact quiet_fail _
  · exact quiet_fail _
  · exact (haddons _).bind fun _ => (hread 1 _).bind fun _ => (htail _).bind fun _ => quiet_pure _

theorem handshakeInner_ok_iff (hc : c.faults = []) {h : VlessHandshake} :
    Ok (handshakeInner config) c h c' ↔ ∃ n, Accepts config c.input h n ∧
      c' = ⟨c.input.drop n, c.eof, c.output ++ buildResponseHeader VLESS_VERSION, []⟩ := by
  simp only [handshakeInner, ok_bind, ok_orFail, ok_pure]
  constructor
  · rintro ⟨⟨uuid, full⟩, c₁, hread, hs, c₂, ⟨hauthorize, hc₂⟩, _, c₃, hwrite, rfl, rfl⟩
    subst hc₂
    obtain ⟨req, n, user, addons, hparse, hh, hauth, hrest⟩ := authorize_ok_iff.mp hauthorize
    obtain ⟨rest, hfull, hok, hn⟩ := parseRequest_ok_iff.mp hparse
    obtain ⟨rfl, rfl, htake⟩ := (readHeader_ok_iff hc hok hfull).mp hread
    rw [ok_writeAll_of_faults_nil (htake.faults_nil hc)] at hwrite
    rw [List.append_nil] at hfull
    subst hfull
    have hinput := htake.input
    refine ⟨n, ⟨req, user, addons, ?_, hh, hauth, hrest⟩, ?_⟩
    · exact parseRequest_ok_iff.mpr ⟨c₂.input, hinput, hok, hn⟩
    · rw [(htake.trans hwrite).eq, hinput, hn, List.drop_left,
        show c'.input = c₂.input from hwrite.input.symm]
      simp [hc]
  · rintro ⟨n, ⟨req, user, addons, hparse, hh, hauth, hrest⟩, rfl⟩
    obtain ⟨rest, hinput, hok, rfl⟩ := parseRequest_ok_iff.mp hparse
    rw [hinput, List.drop_left]
    have hfull : parseRequest (encodeRequest req) = .ok (req, (encodeRequest req).length) :=
      parseRequest_ok_iff.mpr ⟨[], by simp, hok, rfl⟩
    have htake : Takes c ⟨rest, c.eof, c.output, []⟩ 0 (encodeRequest req) [] :=
      ⟨by simp, hinput, rfl, by simp, by simp [hc]⟩
    refine ⟨(req.uuid, encodeRequest req), _,
      (readHeader_ok_iff hc hok (List.append_nil _).symm).mpr ⟨rfl, rfl, htake⟩, h, _,
      ⟨authorize_ok_iff.mpr ⟨req, _, user, addons, hfull, hh, hauth, hrest⟩, rfl⟩, ⟨⟩, _,
      ok_writeAll_self rfl _, rfl, rfl⟩

theorem handshakeInner_silent (hc : c.faults = [])
    (h : ∀ h c', ¬ Ok (handshakeInner config) c h c') :
    (Conn.exec (handshakeInner config) c).2.output = c.output := by
  obtain ⟨hout, hfaults⟩ := quiet_readHeader c
  rcases hread : Conn.exec readHeader c with ⟨(e | ⟨uuid, full⟩), c₁⟩
  · simpa [handshakeInner, hread] using hout
  · rw [hread] at hout hfaults
    cases hauthorize : authorize config uuid full with
    | error e => simpa [handshakeInner, hread, hauthorize, orFail, fail] using hout
    | ok handshake =>
      -- the answer would have been written
      refine absurd ?_ (h handshake { c₁ with
        output := c₁.output ++ buildResponseHeader VLESS_VERSION })
      simp only [handshakeInner, ok_bind, ok_orFail, ok_pure]
      exact ⟨(uuid, full), c₁, hread, handshake, c₁, ⟨hauthorize, rfl⟩, ⟨⟩, _,
        ok_writeAll_self (hfaults hc) _, rfl, rfl⟩

/-- For every configuration and every stream that arrives in any segments: the handler
    returns exactly if the request is accepted, behind exactly its bytes and with the
    two bytes of the answer written, and otherwise it has written nothing. -/
theorem handshakeInner_refines (config : VlessConfig) (segs : List Bytes) (eof : Bool) :
    (∀ h c', Ok (handshakeInner config) (arriving segs eof []) h c' ↔
      ∃ n, Accepts config segs.flatten h n ∧
        c' = ⟨segs.flatten.drop n, eof, buildResponseHeader VLESS_VERSION, []⟩) ∧
    ((∀ h n, ¬ Accepts config segs.flatten h n) →
      (Conn.exec (handshakeInner config) (arriving segs eof [])).2.output = []) := by
  have hok : ∀ h c', Ok (handshakeInner config) (arriving segs eof []) h c' ↔ _ :=
    fun h c' => handshakeInner_ok_iff rfl
  refine ⟨hok, fun hnone => handshakeInner_silent rfl fun h c' hh => ?_⟩
  obtain ⟨n, hacc, -⟩ := (hok h c').mp hh
  exact hnone h n hacc

def oneUser : VlessConfig :=
  ⟨true, [⟨"00000000-0000-0000-0000-000000000007", none, none⟩]⟩

def connectRequest : VlessRequest :=
  ⟨toArray 16 (List.replicate 15 0 ++ [7]), CMD_TCP, [], .ip (.v4 (ipv4Addr 1 1 1 1) 80)⟩

theorem handshakeInner_connect :
    Ok (handshakeInner oneUser)
        (arriving [(encodeRequest connectRequest).take 20,
          (encodeRequest connectRequest).drop 20 ++ [0x42]] true [])
        ⟨CMD_TCP, connectRequest.target⟩ ⟨[0x42], true, [0x00, 0x00], []⟩ ∧
      (Conn.exec (handshakeInner ⟨true, []⟩)
        (arriving [encodeRequest connectRequest] true [])).2.output = [] := by
  constructor
  · refine ((handshakeInner_refines oneUser _ true).1 _ _).mpr
      ⟨26, ⟨connectRequest, ⟨"00000000-0000-0000-0000-000000000007", none, none⟩, ⟨none, none⟩,
        by decide +kernel, rfl, by decide +kernel, by decide +kernel, by decide +kernel⟩, rfl⟩
  · refine (handshakeInner_refines ⟨true, []⟩ _ true).2 ?_
    rintro h n ⟨req, user, addons, -, -, hauth, -⟩
    simp [VlessConfig.authenticate] at hauth

end SkadiCore.Vless
