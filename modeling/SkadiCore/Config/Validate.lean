import SkadiCore.Config.File
import SkadiCore.Config.Transports

/-!
# Validation of the configuration

Model of `impl Config` (`crates/skadi-config/src/lib.rs`, lines 698-1466, 1590-1621):
`validate`, and the functions that make the runtime configurations of the transports, which
`validate` calls and the server calls again when it starts.
-/

namespace SkadiCore.Config

open SkadiCore.Server (ProtocolConfig)
open SkadiCore.Xhttp (XhttpMode XhttpConfig PaddingRange)

variable (env : Env)

/-! ## Fields -/

def ensureReadableFile (path field : String) : Except String Unit := do
  bailIf (!env.isFile path) s!"{field}: file not found: {path}"
  bailIf (!env.opens path) s!"{field}: cannot read {path}"

def parseTlsKexMode (value field : String) : Except String TlsKexMode :=
  withContext s!"invalid {field}" (TlsKexMode.parse value)

def decodeBase64Key (value field : String) : Except String Key := do
  let bytes ← okOr s!"{field}: invalid base64" (env.base64Decode (trim value))
  bailIf (decide (bytes.length ≠ 32)) s!"{field}: must decode to 32 bytes, got {bytes.length}"
  return toArray 32 bytes

def isLoopback (addr : SocketAddr) : Bool :=
  match addr.ip with
  | .v4 octets => byteAt octets.val 0 == 127
  | .v6 octets => octets.val == List.replicate 15 0 ++ [1]

def parseListen (field value : String) : Except String SocketAddr :=
  okOr s!"invalid {field}: {value}" (SocketAddr.parse value)

def requireText (message : String) (value : Option String) : Except String String :=
  okOr message (value.filter fun v => !(trim v).isEmpty)

def awgKeyIsPlaceholder (key : String) : Bool :=
  let t := (trim key).toList
  t.head? == some '<' && t.getLast? == some '>'

def awgUsesPlaceholderKeys (runtime : AwgServerConfig) : Bool :=
  awgKeyIsPlaceholder runtime.privateKey ||
    runtime.peers.any fun peer => awgKeyIsPlaceholder peer.publicKey

/-! ## Timeouts and limits -/

variable (config : Config)

def connectTimeout : Duration := .fromSecs config.server.timeouts.connectTimeoutSecs

def idleTimeout : Option Duration :=
  (config.server.timeouts.idleTimeoutSecs.filter (0 < ·)).map .fromSecs

def maxSessionLifetime : Option Duration :=
  (config.server.timeouts.maxSessionLifetimeSecs.filter (0 < ·)).map .fromSecs

/-! ## Runtime configurations -/

def xhttpPadding : Option (UInt32 × UInt32) → Except String PaddingRange
  | some (min, max) =>
    if min ≤ max then .ok ⟨min, max⟩
    else .error s!"transport.xhttp.x_padding_bytes: min ({min}) must be <= max ({max})"
  | none => .ok .default

def xhttpConfig : Except String XhttpConfig := do
  let xhttp := config.transport.xhttp
  let mode ← okOr s!"transport.xhttp.mode invalid: {xhttp.mode}" (XhttpMode.parse xhttp.mode)
  let padding ← xhttpPadding xhttp.xPaddingBytes
  return ⟨xhttp.path, xhttp.host, mode, padding, xhttp.noSseHeader⟩

def awgPeerConfig (peer : AwgPeerFileConfig) : Except String AwgPeerConfig := do
  bailIf (trim peer.publicKey).isEmpty "transport.awg.peers[].public_key must not be empty"
  bailIf peer.allowedIps.isEmpty "transport.awg.peers[].allowed_ips must not be empty"
  return ⟨peer.publicKey, peer.allowedIps, peer.presharedKey, peer.endpoint,
    peer.persistentKeepalive⟩

def awgServerConfig : Except String AwgServerConfig := do
  let awg := config.transport.awg
  let listen ← parseListen "transport.awg.listen" awg.listen
  let privateKey ← requireText "transport.awg.private_key is required when awg is enabled"
    awg.privateKey
  bailIf (trim awg.interface).isEmpty "transport.awg.interface must not be empty"
  bailIf awg.peers.isEmpty
    "transport.awg.peers must contain at least one peer when awg is enabled"
  let peers ← awg.peers.mapM awgPeerConfig
  return { listen, interfaceName := awg.interface, privateKey, address := awg.address
           mtu := awg.mtu, peers
           obfuscation := ⟨awg.jc, awg.jmin, awg.jmax, awg.s1, awg.s2, awg.s3, awg.s4, awg.h1,
             awg.h2, awg.h3, awg.h4⟩ }

def awgNatConfig : AwgNatConfig :=
  let nat := config.transport.awg.nat
  ⟨nat.enabled, nat.egressInterface, nat.subnet⟩

/-- `hysteria2_server_config` (lines 1242-1279): `:443` stands for all addresses. -/
def hysteria2ServerConfig : Except String Hysteria2ServerConfig := do
  let hy2 := config.transport.hysteria2
  let listen ← okOr s!"invalid transport.hysteria2.listen: {hy2.listen}"
    (SocketAddr.parse hy2.listen <|> SocketAddr.parse s!"0.0.0.0{hy2.listen}")
  let password ← requireText
    "transport.hysteria2.password is required when hysteria2 is enabled" hy2.password
  let cert ← requireText "transport.hysteria2.cert is required when hysteria2 is enabled" hy2.cert
  let key ← requireText "transport.hysteria2.key is required when hysteria2 is enabled" hy2.key
  return ⟨listen, password, cert, key, hy2.masqueradeUrl⟩

def tuicServerConfig : Except String TuicServerConfig := do
  let tuic := config.transport.tuic
  let listen ← parseListen "transport.tuic.listen" tuic.listen
  let uuid ← requireText "transport.tuic.uuid is required when tuic is enabled" tuic.uuid
  let _ ← withContext s!"invalid transport.tuic.uuid: {uuid}" (Vless.Uuid.parse uuid)
  let password ← requireText "transport.tuic.password is required when tuic is enabled"
    tuic.password
  let cert ← requireText "transport.tuic.certificate is required when tuic is enabled"
    tuic.certificate
  let key ← requireText "transport.tuic.private_key is required when tuic is enabled"
    tuic.privateKey
  return ⟨listen, uuid, password, cert, key, tuic.congestionControl, tuic.alpn⟩

def certPaths : Option String → Option String → Except String (Option TlsCertPaths)
  | some cert, some key => .ok (some ⟨cert, key⟩)
  | none, none => .ok none
  | _, _ => .error "transport.tls.cert and transport.tls.key must both be set"

def sniCert (entry : TlsSniCertConfig) : TlsSniCert := ⟨entry.serverNames, entry.cert, entry.key⟩

def tlsServerConfig : Except String TlsServerConfig := do
  let tls := config.transport.tls
  let default ← certPaths tls.cert tls.key
  bailIf (default.isNone && tls.certificates.isEmpty) "no TLS certificates configured"
  let kexMode ← parseTlsKexMode tls.kexMode "transport.tls.kex_mode"
  return ⟨default, tls.certificates.map sniCert, tls.alpn, kexMode⟩

def unwrap {α : Type} (x : Option α) : Except String α :=
  okOr "called `Option::unwrap()` on a `None` value" x

def realityServerConfig : Except String RealityRuntime := do
  let reality := config.transport.reality
  let keyText ← unwrap reality.privateKey
  let privateKey ← decodeBase64Key env keyText "transport.reality.private_key"
  let shortIds ← reality.shortIds.mapM fun sid =>
    okOr s!"invalid short_id hex: {sid}" (env.hexDecode sid)
  let impersonateCert ← withContext "transport.reality.impersonate_cert"
    (reality.impersonateCert.mapM (loadImpersonateCertFile env))
  let dest ← unwrap reality.dest
  let kexMode ← parseTlsKexMode reality.kexMode "transport.reality.kex_mode"
  return { impersonateCert, kexMode, connectTimeout := connectTimeout config
           server :=
             { privateKey, dest, serverNames := reality.serverNames, shortIds
               idleTimeout := (idleTimeout config).map Duration.nanos
               maxSessionLifetime := (maxSessionLifetime config).map Duration.nanos } }

def outboundTlsClientConfig : Except String TlsClientConfig := do
  let tls := config.outbound.tls
  let kexMode ← withContext "outbound TLS KEX mode validated in validate()"
    (parseTlsKexMode tls.kexMode "outbound.tls.kex_mode")
  return ⟨tls.caFile, tls.cert, tls.key, kexMode⟩

/-! ## Checks -/

def ListenAddrs.check (seen : List SocketAddr) : List String → Except String Unit
  | [] => .ok ()
  | text :: texts => do
    let addr ← parseListen "server.listen" text
    bailIf (decide (addr ∈ seen)) s!"duplicate server.listen address: {addr.display}"
    check (addr :: seen) texts

def ListenAddrs.validate (listen : ListenAddrs) : Except String Unit := do
  bailIf listen.addrs.isEmpty "server.listen must specify at least one address"
  check [] listen.addrs

def validateLimits (server : ServerConfig) : Except String Unit := do
  let limit := server.authRateLimit
  bailIf (server.timeouts.connectTimeoutSecs == 0)
    "server.timeouts.connect_timeout_secs must be greater than 0"
  bailIf (server.timeouts.idleTimeoutSecs.any (· == 0))
    "server.timeouts.idle_timeout_secs must be greater than 0 when set"
  bailIf (server.maxConnections.any (· == 0))
    "server.max_connections must be greater than 0 when set"
  checkIf limit.enabled do
    bailIf (limit.maxFailures.any (· == 0))
      "server.auth_rate_limit.max_failures must be greater than 0 when enabled"
    bailIf (limit.windowSecs == 0) "server.auth_rate_limit.window_secs must be greater than 0"
    bailIf (limit.banBaseSecs == 0) "server.auth_rate_limit.ban_base_secs must be greater than 0"
    bailIf (limit.banMaxSecs == 0) "server.auth_rate_limit.ban_max_secs must be greater than 0"
  bailIf (server.timeouts.maxSessionLifetimeSecs.any (· == 0))
    "server.timeouts.max_session_lifetime_secs must be greater than 0 when set"

def validateEnabled : Except String Unit := do
  let t := config.transport
  bailIf (!config.protocol.socks5Enabled && !config.protocol.vless.enabled && !t.awg.enabled &&
      !t.hysteria2.enabled && !t.tuic.enabled)
    ("at least one of protocol (socks5/vless) or transport (awg/hysteria2/tuic) " ++
      "must be enabled")
  bailIf (config.protocol.socks5Enabled && config.protocol.socks5.auth == .userPass &&
      config.protocol.socks5.users.isEmpty)
    "protocol.socks5.auth is user-pass but no users configured"

def validateXhttp : Except String Unit :=
  let xhttp := config.transport.xhttp
  checkIf xhttp.enabled do
    bailIf (trim xhttp.path).isEmpty
      "transport.xhttp.path must not be empty when xhttp is enabled"
    bailIf (XhttpMode.parse xhttp.mode).isNone
      "transport.xhttp.mode must be auto, packet-up, stream-up, or stream-one"
    bailIf (xhttp.xPaddingBytes.any fun p => decide (p.2 < p.1))
      "transport.xhttp.x_padding_bytes: min must be <= max"

def validateAwg : Except String Unit :=
  checkIf config.transport.awg.enabled do
    let runtime ← awgServerConfig config
    checkIf (!awgUsesPlaceholderKeys runtime) do
      let _ ← (renderServerConf env runtime).mapError fun e => s!"transport.awg: {e}"
      return ()

def validateHysteria2 : Except String Unit :=
  checkIf config.transport.hysteria2.enabled do
    let runtime ← hysteria2ServerConfig config
    let _ ← (renderHysteria2Yaml runtime).mapError fun e => s!"transport.hysteria2: {e}"
    return ()

def validateTuic : Except String Unit :=
  checkIf config.transport.tuic.enabled do
    let runtime ← tuicServerConfig config
    let _ ← (renderTuicToml runtime).mapError fun e => s!"transport.tuic: {e}"
    return ()

def ensureReadableOpt (path : Option String) (field : String) : Except String Unit :=
  path.elim (.ok ()) fun path => ensureReadableFile env path field

def validateOutboundTls : Except String Unit :=
  let tls := config.outbound.tls
  checkIf tls.enabled do
    bailIf (tls.cert.isSome != tls.key.isSome)
      "outbound.tls.cert and outbound.tls.key must both be set"
    ensureReadableOpt env tls.cert "outbound.tls.cert"
    ensureReadableOpt env tls.key "outbound.tls.key"
    ensureReadableOpt env tls.caFile "outbound.tls.ca_file"
    let _ ← parseTlsKexMode tls.kexMode "outbound.tls.kex_mode"
    return ()

/-- The names of an entry of `validate_tls` (lines 933-944): the names seen behind them. -/
def checkNames (idx : ℕ) (seen : List String) : List String → Except String (List String)
  | [] => .ok seen
  | name :: names => do
    let normalized := toAsciiLowercase (trim name)
    bailIf normalized.isEmpty s!"transport.tls.certificates[{idx}]: empty server name"
    bailIf (decide (normalized ∈ seen))
      s!"transport.tls.certificates: duplicate server name: {name}"
    checkNames idx (normalized :: seen) names

def checkCertificates (idx : ℕ) (seen : List String) :
    List TlsSniCertConfig → Except String Unit
  | [] => .ok ()
  | entry :: entries => do
    bailIf entry.serverNames.isEmpty
      s!"transport.tls.certificates[{idx}]: server_names must not be empty"
    ensureReadableFile env entry.cert s!"transport.tls.certificates[{idx}].cert"
    ensureReadableFile env entry.key s!"transport.tls.certificates[{idx}].key"
    let seen ← checkNames idx seen entry.serverNames
    checkCertificates (idx + 1) seen entries

def validateTls : Except String Unit := do
  let tls := config.transport.tls
  bailIf ((tls.cert.isSome || tls.key.isSome) && (tls.cert.isNone || tls.key.isNone))
    "transport.tls.cert and transport.tls.key must both be set"
  bailIf (tls.cert.isNone && tls.certificates.isEmpty)
    ("transport.tls.enabled but no certificates configured: " ++
      "set cert/key or [[transport.tls.certificates]]")
  ensureReadableOpt env tls.cert "transport.tls.cert"
  ensureReadableOpt env tls.key "transport.tls.key"
  let _ ← parseTlsKexMode tls.kexMode "transport.tls.kex_mode"
  checkCertificates env 0 [] tls.certificates

def checkShortIds (idx : ℕ) : List String → Except String Unit
  | [] => .ok ()
  | sid :: sids => do
    let bytes ← okOr s!"transport.reality.short_ids[{idx}]: invalid hex" (env.hexDecode sid)
    bailIf (bytes.isEmpty || decide (8 < bytes.length))
      s!"transport.reality.short_ids[{idx}]: must be 1..8 bytes, got {bytes.length}"
    checkShortIds (idx + 1) sids

def validateReality : Except String Unit := do
  let reality := config.transport.reality
  let dest ← okOr "transport.reality.dest is required" reality.dest
  bailIf (trim dest).isEmpty "transport.reality.dest must not be empty"
  bailIf (decide (':' ∉ dest.toList)) "transport.reality.dest must be host:port"
  bailIf reality.serverNames.isEmpty "transport.reality.server_names must not be empty"
  let keyText ← okOr "transport.reality.private_key is required" reality.privateKey
  let _ ← decodeBase64Key env keyText "transport.reality.private_key"
  bailIf reality.shortIds.isEmpty "transport.reality.short_ids must not be empty"
  checkShortIds env 0 reality.shortIds
  let _ ← parseTlsKexMode reality.kexMode "transport.reality.kex_mode"
  return ()

def validateApi : Except String Unit := do
  let api := config.api
  let addr ← parseListen "api.listen" api.listen
  bailIf (!isLoopback addr)
    s!"api.listen must bind to loopback (127.0.0.1 or ::1), got {api.listen}"
  let token ← okOr "api.token is required when api.enabled = true" api.token
  bailIf (trim token).isEmpty "api.token must not be empty"
  checkIf api.tls.enabled do
    let cert ← okOr "api.tls.cert is required when api.tls.enabled" api.tls.cert
    let key ← okOr "api.tls.key is required when api.tls.enabled" api.tls.key
    ensureReadableFile env cert "api.tls.cert"
    ensureReadableFile env key "api.tls.key"
  bailIf (!api.tls.enabled && (api.tls.cert.isSome || api.tls.key.isSome))
    "api.tls.cert/key set but api.tls.enabled = false"
  bailIf (api.rateLimitPerSec.any (· == 0)) "api.rate_limit_per_sec must be > 0 when set"

def validateMetrics : Except String Unit := do
  let addr ← parseListen "metrics.listen" config.metrics.listen
  bailIf (!isLoopback addr)
    s!"metrics.listen must bind to loopback (127.0.0.1 or ::1), got {config.metrics.listen}"

def validate : Except String Unit := do
  config.server.listen.validate
  validateLimits config.server
  validateEnabled config
  config.protocol.validateVless
  bailIf (config.transport.tls.enabled && config.transport.reality.enabled)
    "transport.tls and transport.reality cannot both be enabled"
  validateXhttp config
  validateAwg env config
  validateHysteria2 config
  validateTuic config
  validateOutboundTls env config
  checkIf config.transport.tls.enabled do
    validateTls env config
    let _ ← tlsServerConfig config
    return ()
  checkIf config.transport.reality.enabled do
    validateReality env config
    let _ ← realityServerConfig env config
    return ()
  checkIf config.api.enabled (validateApi env config)
  checkIf config.metrics.enabled (validateMetrics config)

/-! ## What the loops establish -/

section

variable {env : Env}

theorem ListenAddrs.check_ok {texts : List String} :
    ∀ {seen : List SocketAddr}, ListenAddrs.check seen texts = .ok () →
      ∀ text ∈ texts, (SocketAddr.parse text).isSome := by
  induction texts with
  | nil => simp
  | cons text texts ih =>
    intro seen h
    simp only [ListenAddrs.check, bind_eq_ok, exists_unit, parseListen, okOr_eq_ok] at h
    obtain ⟨addr, haddr, -, hrest⟩ := h
    exact List.forall_mem_cons.mpr ⟨by simp [haddr], ih hrest⟩

theorem checkNames_ok {idx : ℕ} {names : List String} :
    ∀ {seen seen' : List String}, checkNames idx seen names = .ok seen' →
      Fresh seen names ∧ seen' = seenAfter seen names := by
  induction names with
  | nil =>
    intro seen seen' h
    cases h
    exact ⟨trivial, rfl⟩
  | cons name names ih =>
    intro seen seen' h
    simp only [checkNames, bind_eq_ok, exists_unit, bailIf_eq_ok, decide_eq_false_iff_not] at h
    obtain ⟨hne, hnew, hrest⟩ := h
    have hblank : (trim name).isEmpty = false := by
      simpa [toAsciiLowercase, String.isEmpty_iff] using hne
    obtain ⟨hfresh, hseen⟩ := ih hrest
    exact ⟨⟨hblank, hnew, hfresh⟩, by rw [seenAfter_cons]; exact hseen⟩

theorem checkCertificates_ok {entries : List TlsSniCertConfig} :
    ∀ {idx : ℕ} {seen : List String}, checkCertificates env idx seen entries = .ok () →
      FreshEntries seen (entries.map sniCert) := by
  induction entries with
  | nil =>
    intro idx seen _
    trivial
  | cons entry entries ih =>
    intro idx seen h
    simp only [checkCertificates, bind_eq_ok, exists_unit, bailIf_eq_ok] at h
    obtain ⟨hnames, -, -, seen', hseen, hrest⟩ := h
    obtain ⟨hfresh, rfl⟩ := checkNames_ok hseen
    exact ⟨hnames, hfresh, ih hrest⟩

theorem checkShortIds_ok {sids : List String} :
    ∀ {idx : ℕ}, checkShortIds env idx sids = .ok () →
      ∀ sid ∈ sids, ∃ bytes, env.hexDecode sid = some bytes ∧ bytes ≠ [] ∧ bytes.length ≤ 8 := by
  induction sids with
  | nil => simp
  | cons sid sids ih =>
    intro idx h
    simp only [checkShortIds, bind_eq_ok, exists_unit, okOr_eq_ok, bailIf_eq_ok,
      Bool.or_eq_false_iff, List.isEmpty_eq_false_iff, decide_eq_false_iff_not, not_lt] at h
    obtain ⟨bytes, hdecode, ⟨hne, hlen⟩, hrest⟩ := h
    exact List.forall_mem_cons.mpr ⟨⟨bytes, hdecode, hne, hlen⟩, ih hrest⟩

end

theorem validate_default (env : Env) :
    ({ protocol := { defaultProtocol with socks5Enabled := true } } : Config).validate env =
      .ok () := by
  rfl

end SkadiCore.Config
