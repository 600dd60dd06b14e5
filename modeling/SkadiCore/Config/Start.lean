import SkadiCore.Config.Validate

/-!
# Starting the server

Model of `run_server_with_store` (`crates/skadi-server/src/lib.rs`, lines 76-225) up to the
accept loops: what it builds from a configuration, in the order of the source. Some of it is
built in tasks beside the accept loops, whose errors are only logged. That sockets are bound,
files written and processes started is not part of it.

**Defects.** `validate_tls` normalises the server names as `build_resolver` does, but only
the latter refuses IP addresses. `validate_awg` accepts placeholder keys without rendering
the configuration, and does not look at the NAT.
-/

namespace SkadiCore.Config

open SkadiCore.Server (UserStore)
open SkadiCore.Reality (RealityTransport)
open SkadiCore.Xhttp (XhttpConfig)

/-! ## Constructors -/

def bindListeners (listen : ListenAddrs) : Except String (List SocketAddr) :=
  listen.addrs.mapM fun text => okOr s!"invalid listen address: {text}" (SocketAddr.parse text)

inductive OutboundTransport
  | plain (connectTimeout : Duration) (allowPrivate : Bool)
  | tls (t : TlsOutboundTransport)

inductive InboundTransport
  | plain
  | tls (t : TlsTransport)
  | reality (t : RealityTransport) (impersonateCert : Option Bytes)

variable (env : Env) (config : Config)

def outboundTcpTransport : Except String OutboundTransport :=
  if config.outbound.tls.enabled then do
    let client ← outboundTlsClientConfig config
    let t ← TlsOutboundTransport.withPolicy env (connectTimeout config) client
      config.outbound.allowPrivate
    return .tls t
  else .ok (.plain (connectTimeout config) config.outbound.allowPrivate)

/-- The inbound transport (lines 110-138). A certificate that cannot be fetched from `dest`
    is only logged. -/
def inboundTransport : Except String InboundTransport :=
  if config.transport.reality.enabled then do
    let runtime ← realityServerConfig env config
    let fetched :=
      if config.transport.reality.fetchImpersonateCert then env.fetchCert runtime.server.dest
      else none
    let t ← RealityTransport.new runtime.server
    return .reality t (runtime.impersonateCert <|> fetched)
  else if config.transport.tls.enabled then do
    let runtime ← tlsServerConfig config
    let t ← TlsTransport.new env runtime
    return .tls t
  else .ok .plain

/-- `build_server_tls_config` (`api/mod.rs`, lines 90-105) and `tls_config`; a missing path
    is a panic. -/
def buildServerTlsConfig (tls : ApiTlsConfig) : Except String Unit := do
  let certPath ← okOr "api.tls.cert validated at config load" tls.cert
  let keyPath ← okOr "api.tls.key validated at config load" tls.key
  let cert ← withContext s!"cannot read api.tls.cert: {certPath}" (env.read certPath)
  let key ← withContext s!"cannot read api.tls.key: {keyPath}" (env.read keyPath)
  bailIf (!env.serverIdentity cert key) "invalid identity"

/-- `run_api_server` (`api/mod.rs`, lines 20-69) up to the server; a missing token is a
    panic. -/
def runApiServer : Except String Unit := do
  let _ ← parseListen "api.listen" config.api.listen
  let _ ← okOr "api.token validated at config load" config.api.token
  checkIf config.api.tls.enabled (buildServerTlsConfig env config.api.tls)

/-- `run_metrics_server` (`observability/http.rs`, lines 12-24) up to the listener. -/
def runMetricsServer : Except String Unit := do
  let _ ← parseListen "metrics.listen" config.metrics.listen
  return ()

def applyNat (nat : AwgNatConfig) : Except String Unit :=
  bailIf (nat.enabled && (trim nat.subnet).isEmpty)
    "awg setconf failed: NAT subnet must not be empty"

def AwgManager.start (runtime : AwgServerConfig) (nat : AwgNatConfig) : Except String Unit := do
  let _ ← (renderServerConf env runtime).mapError fun e => s!"awg setconf failed: {e}"
  applyNat nat

def Hysteria2Manager.start (runtime : Hysteria2ServerConfig) : Except String Unit := do
  let _ ← (renderHysteria2Yaml runtime).mapError fun e => s!"config error: {e}"
  return ()

def TuicManager.start (runtime : TuicServerConfig) : Except String Unit := do
  let _ ← (renderTuicToml runtime).mapError fun e => s!"config error: {e}"
  return ()

def whenEnabled {α : Type} (enabled : Bool) (x : Except String α) : Except String (Option α) :=
  if enabled then x.map some else .ok none

structure Started where
  listeners : List SocketAddr
  outbound : OutboundTransport
  inbound : InboundTransport
  xhttp : Option XhttpConfig
  users : UserStore
  /-- How the tasks beside the accept loops start. -/
  tasks : List (Except String Unit)

/-- The tasks beside the accept loops (lines 147-225), as far as they are enabled. -/
def startTasks (awg : Option AwgServerConfig) (hysteria2 : Option Hysteria2ServerConfig)
    (tuic : Option TuicServerConfig) : List (Except String Unit) :=
  [checkIf config.api.enabled (runApiServer env config),
    checkIf config.metrics.enabled (runMetricsServer config),
    awg.elim (.ok ()) fun runtime => AwgManager.start env runtime (awgNatConfig config),
    hysteria2.elim (.ok ()) Hysteria2Manager.start,
    tuic.elim (.ok ()) TuicManager.start]

/-- `run_server_with_store` (lines 76-225), with the store of `run_server` (lines 70-73). -/
def runServer : Except String Started := do
  let listeners ← bindListeners config.server.listen
  let outbound ← outboundTcpTransport env config
  let inbound ← inboundTransport env config
  let t := config.transport
  let xhttp ← whenEnabled t.xhttp.enabled (xhttpConfig config)
  let awg ← whenEnabled t.awg.enabled (awgServerConfig config)
  let hysteria2 ← whenEnabled t.hysteria2.enabled (hysteria2ServerConfig config)
  let tuic ← whenEnabled t.tuic.enabled (tuicServerConfig config)
  return { listeners, outbound, inbound, xhttp, users := .fromProtocol config.protocol
           tasks := startTasks env config awg hysteria2 tuic }

/-- The server starts, and none of its tasks fails. -/
def Starts : Prop := ∃ s, runServer env config = .ok s ∧ ∀ t ∈ s.tasks, t = .ok ()

/-! ## Files and crates -/

/-- A file with at least one certificate. -/
def Env.CertFile (path : String) : Prop :=
  ∃ data certs, env.read path = .ok data ∧ env.pemCerts data = .ok certs ∧ certs ≠ []

/-- A private key that can sign. -/
def Env.KeyFile (path : String) : Prop :=
  ∃ data key, env.read path = .ok data ∧ env.pemKey data = .ok key ∧ env.signingKey key = true

/-- The trust anchors: the system's, or those of a file. -/
def Env.RootsFile : Option String → Prop
  | none => ∃ cert ∈ env.nativeCerts, env.trustAnchor cert = true
  | some path => ∃ data certs, env.read path = .ok data ∧ env.pemCerts data = .ok certs ∧
      certs ≠ [] ∧ ∀ cert ∈ certs, env.trustAnchor cert = true

/-- A certificate and key that a client can use. -/
def Env.ClientFiles (cert key : String) : Prop :=
  ∃ data certs keyData keyBytes, env.read cert = .ok data ∧ env.pemCerts data = .ok certs ∧
    certs ≠ [] ∧ env.read key = .ok keyData ∧ env.pemKey keyData = .ok keyBytes ∧
    env.clientAuthCert certs keyBytes = true

/-- A certificate and key that a server can use. -/
def Env.ServerFiles (cert key : String) : Prop :=
  ∃ data keyData, env.read cert = .ok data ∧ env.read key = .ok keyData ∧
    env.serverIdentity data keyData = true

/-- The files the configuration names hold what they should. -/
structure Env.WellFormed : Prop where
  tls : config.transport.tls.enabled = true →
    (∀ path ∈ config.transport.tls.cert, env.CertFile path) ∧
    (∀ path ∈ config.transport.tls.key, env.KeyFile path) ∧
    ∀ entry ∈ config.transport.tls.certificates, env.CertFile entry.cert ∧ env.KeyFile entry.key
  roots : config.outbound.tls.enabled = true → env.RootsFile config.outbound.tls.caFile
  client : config.outbound.tls.enabled = true →
    ∀ cert ∈ config.outbound.tls.cert, ∀ key ∈ config.outbound.tls.key,
      env.ClientFiles cert key
  api : config.api.enabled = true → config.api.tls.enabled = true →
    ∀ cert ∈ config.api.tls.cert, ∀ key ∈ config.api.tls.key, env.ServerFiles cert key

/-- A placeholder does not decode as a WireGuard key. -/
structure Env.Base64Keys : Prop where
  privateKey : ∀ key, awgKeyIsPlaceholder key = true → ¬ IsOk (env.wgPrivateKey key)
  publicKey : ∀ key, awgKeyIsPlaceholder key = true → ¬ IsOk (env.wgPublicKey key)

/-! ## When a configuration starts -/

/-- No server name of a certificate is an IP address. -/
def NoIpNames : Prop := ∀ entry ∈ config.transport.tls.certificates,
  ∀ name ∈ entry.serverNames, IpAddr.parse (trim name) = none

def AwgFileConfig.keys (awg : AwgFileConfig) : List String :=
  awg.privateKey.toList ++ awg.peers.map AwgPeerFileConfig.publicKey

/-- The keys are real ones, and a NAT has its subnet. -/
structure AwgReady : Prop where
  keys : ∀ key ∈ config.transport.awg.keys, awgKeyIsPlaceholder key = false
  subnet : config.transport.awg.nat.enabled = true →
    (trim config.transport.awg.nat.subnet).isEmpty = false

/-! ## What validation accepts -/

structure Accepted : Prop where
  listen : ∀ text ∈ config.server.listen.addrs, (SocketAddr.parse text).isSome
  xhttp : config.transport.xhttp.enabled = true → IsOk (xhttpConfig config)
  awg : config.transport.awg.enabled = true → ∃ runtime, awgServerConfig config = .ok runtime ∧
    (awgUsesPlaceholderKeys runtime = false → IsOk (renderServerConf env runtime))
  hysteria2 : config.transport.hysteria2.enabled = true → IsOk (hysteria2ServerConfig config)
  tuic : config.transport.tuic.enabled = true → IsOk (tuicServerConfig config)
  outbound : config.outbound.tls.enabled = true →
    config.outbound.tls.cert.isSome = config.outbound.tls.key.isSome ∧
      IsOk (outboundTlsClientConfig config)
  exclusive : config.transport.reality.enabled = true → config.transport.tls.enabled = false
  tls : config.transport.tls.enabled = true → IsOk (tlsServerConfig config) ∧
    FreshEntries [] (config.transport.tls.certificates.map sniCert)
  reality : config.transport.reality.enabled = true →
    ∃ runtime, realityServerConfig env config = .ok runtime ∧
      IsOk (RealityTransport.new runtime.server)
  api : config.api.enabled = true → IsOk (parseListen "api.listen" config.api.listen) ∧
    config.api.token.isSome ∧
      (config.api.tls.enabled = true → config.api.tls.cert.isSome ∧ config.api.tls.key.isSome)
  metrics : config.metrics.enabled = true →
    IsOk (parseListen "metrics.listen" config.metrics.listen)

section

variable {env config}

theorem xhttpConfig_isOk (h : validateXhttp config = .ok ())
    (hon : config.transport.xhttp.enabled = true) : IsOk (xhttpConfig config) := by
  simp only [validateXhttp, checkIf_eq_ok, bind_eq_ok, exists_unit, bailIf_eq_ok] at h
  obtain ⟨-, hmode, hpadding⟩ := h hon
  obtain ⟨mode, hmode⟩ := Option.isSome_iff_exists.mp (Option.isNone_eq_false_iff.mp hmode)
  unfold xhttpConfig
  simp only [hmode, isOk_bind]
  refine ⟨mode, rfl, ?_⟩
  cases hx : config.transport.xhttp.xPaddingBytes with
  | none => exact ⟨_, rfl, isOk_ok _⟩
  | some p =>
    have hle : p.1 ≤ p.2 := by simpa [hx] using hpadding
    exact ⟨_, if_pos hle, isOk_ok _⟩

theorem realityTransport_isOk {runtime : Reality.RealityServerConfig} (hne : runtime.shortIds ≠ [])
    (hlen : ∀ id ∈ runtime.shortIds, id ≠ [] ∧ id.length ≤ 8) :
    IsOk (RealityTransport.new runtime) := by
  have hany : (runtime.shortIds.any fun id => id.isEmpty || decide (id.length > 8)) = false := by
    simpa using hlen
  have hempty : runtime.shortIds.isEmpty = false := by simpa using hne
  simp only [RealityTransport.new, hany, hempty, Bool.false_eq_true, if_false]
  exact isOk_ok _

theorem reality_of_validate (h : validateReality env config = .ok ()) {runtime : RealityRuntime}
    (hruntime : realityServerConfig env config = .ok runtime) :
    IsOk (RealityTransport.new runtime.server) := by
  simp only [validateReality, bind_eq_ok, exists_unit, bailIf_eq_ok] at h
  obtain ⟨_, _, _, _, _, _, _, _, _, hne, hsids, -⟩ := h
  simp only [realityServerConfig, bind_eq_ok] at hruntime
  obtain ⟨_, _, _, _, shortIds, hdecoded, _, _, _, _, _, _, hruntime⟩ := hruntime
  cases hruntime
  refine realityTransport_isOk ?_ ?_
  · have hlen := (mapM_eq_ok.mp hdecoded).length_eq
    exact List.ne_nil_of_length_pos (hlen ▸ List.length_pos_iff.mpr (by simpa using hne))
  · intro id hid
    obtain ⟨sid, hsid, hdecode⟩ := exists_of_mem_mapM hdecoded hid
    obtain ⟨bytes, hbytes, hvalid⟩ := checkShortIds_ok hsids sid hsid
    rw [okOr_eq_ok, hbytes] at hdecode
    cases hdecode
    exact hvalid

theorem outbound_of_validate (h : validateOutboundTls env config = .ok ())
    (hon : config.outbound.tls.enabled = true) :
    config.outbound.tls.cert.isSome = config.outbound.tls.key.isSome ∧
      IsOk (outboundTlsClientConfig config) := by
  simp only [validateOutboundTls, checkIf_eq_ok, bind_eq_ok, exists_unit, bailIf_eq_ok] at h
  obtain ⟨hpair, -, -, -, mode, hmode, -⟩ := h hon
  refine ⟨by simpa using hpair, ?_⟩
  simp only [outboundTlsClientConfig, isOk_bind, withContext_eq_ok]
  exact ⟨mode, hmode, isOk_ok _⟩

theorem api_of_validate (h : validateApi env config = .ok ()) :
    IsOk (parseListen "api.listen" config.api.listen) ∧ config.api.token.isSome ∧
      (config.api.tls.enabled = true → config.api.tls.cert.isSome ∧ config.api.tls.key.isSome) := by
  simp only [validateApi, bind_eq_ok, exists_unit, checkIf_eq_ok, okOr_eq_ok] at h
  obtain ⟨addr, haddr, -, token, htoken, -, htls, -⟩ := h
  refine ⟨⟨addr, haddr⟩, by simp [htoken], ?_⟩
  intro hon
  obtain ⟨cert, hcert, key, hkey, -⟩ := htls hon
  simp [hcert, hkey]

theorem accepted_of_validate (h : config.validate env = .ok ()) : Accepted env config := by
  simp only [validate, ListenAddrs.validate, validateAwg, validateHysteria2, validateTuic,
    validateMetrics, validateTls, bind_eq_ok, exists_unit, checkIf_eq_ok, mapError_eq_ok] at h
  obtain ⟨⟨-, hlisten⟩, -, -, -, hboth, hxhttp, hawg, hhysteria2, htuic, houtbound, htls,
    hreality, hapi, hmetrics⟩ := h
  refine ⟨ListenAddrs.check_ok hlisten, xhttpConfig_isOk hxhttp, ?_, ?_, ?_,
    outbound_of_validate houtbound, ?_, ?_, ?_, fun hon => api_of_validate (hapi hon), ?_⟩
  · intro hon
    obtain ⟨runtime, hruntime, hrender⟩ := hawg hon
    refine ⟨runtime, hruntime, fun hkeys => ?_⟩
    obtain ⟨iface, hiface, -⟩ := hrender (by simp [hkeys])
    exact ⟨iface, hiface⟩
  · intro hon
    obtain ⟨runtime, hruntime, -⟩ := hhysteria2 hon
    exact ⟨runtime, hruntime⟩
  · intro hon
    obtain ⟨runtime, hruntime, -⟩ := htuic hon
    exact ⟨runtime, hruntime⟩
  · intro hon
    simpa [hon] using hboth
  · intro hon
    obtain ⟨⟨-, -, -, -, _, -, hcerts⟩, runtime, hruntime, -⟩ := htls hon
    exact ⟨⟨runtime, hruntime⟩, checkCertificates_ok hcerts⟩
  · intro hon
    obtain ⟨hchecks, runtime, hruntime, -⟩ := hreality hon
    exact ⟨runtime, hruntime, reality_of_validate hchecks hruntime⟩
  · intro hon
    obtain ⟨addr, haddr, -⟩ := hmetrics hon
    exact ⟨addr, haddr⟩

/-! ## Loading files -/

theorem Env.CertFile.load {path : String} (h : env.CertFile path) : IsOk (loadCerts env path) := by
  obtain ⟨data, certs, hread, hcerts, hne⟩ := h
  simp only [loadCerts, isOk_bind, mapError_eq_ok, withContext_eq_ok]
  exact ⟨data, hread, certs, hcerts, (), by simpa using hne, isOk_ok _⟩

theorem loadCertifiedKey_isOk {paths : TlsCertPaths} (hcert : env.CertFile paths.certPath)
    (hkey : env.KeyFile paths.keyPath) : IsOk (loadCertifiedKey env paths) := by
  obtain ⟨chain, hchain⟩ := hcert.load
  obtain ⟨data, key, hread, hpem, hsign⟩ := hkey
  simp only [loadCertifiedKey, isOk_bind, hchain, loadPrivateKey, mapError_eq_ok, bind_eq_ok]
  exact ⟨chain, rfl, key, ⟨data, hread, hpem⟩, (), by simp [hsign], isOk_ok _⟩

theorem buildRootStore_isOk {caFile : Option String} (h : env.RootsFile caFile) :
    IsOk (buildRootStore env caFile) := by
  simp only [buildRootStore, isOk_bind]
  cases caFile with
  | none =>
    obtain ⟨cert, hmem, hanchor⟩ := h
    refine ⟨_, rfl, (), ?_, isOk_ok _⟩
    simp only [bailIf_eq_ok, List.isEmpty_eq_false_iff]
    exact List.ne_nil_of_mem (List.mem_filter.mpr ⟨hmem, hanchor⟩)
  | some path =>
    obtain ⟨data, certs, hread, hcerts, hne, hanchors⟩ := h
    have hload : rootCerts env (some path) = .ok certs := by
      simp only [rootCerts, loadCerts, bind_eq_ok, exists_unit, mapError_eq_ok,
        withContext_eq_ok, bailIf_eq_ok]
      refine ⟨certs, ⟨data, hread, certs, hcerts, by simpa using hne, rfl⟩, ?_, rfl⟩
      simpa using hanchors
    exact ⟨certs, hload, (), by simpa using hne, isOk_ok _⟩

variable {cert key : Option String}

theorem loadClientAuth_isOk (hpair : cert.isSome = key.isSome)
    (hfiles : ∀ c ∈ cert, ∀ k ∈ key, env.ClientFiles c k) : IsOk (loadClientAuth env cert key) := by
  cases cert with
  | none =>
    cases key with
    | none => exact isOk_ok _
    | some key => simp at hpair
  | some cert =>
    cases key with
    | none => simp at hpair
    | some key =>
      obtain ⟨data, certs, keyData, keyBytes, hread, hcerts, hne, hreadKey, hpem, hauth⟩ :=
        hfiles cert rfl key rfl
      simp only [loadClientAuth, loadCerts, loadPrivateKey, isOk_bind, bind_eq_ok, exists_unit,
        mapError_eq_ok, withContext_eq_ok, bailIf_eq_ok]
      exact ⟨certs, ⟨data, hread, certs, hcerts, by simpa using hne, rfl⟩, keyBytes,
        ⟨keyData, hreadKey, hpem⟩, by simp [hauth], isOk_ok _⟩

theorem certPaths_some {paths : TlsCertPaths} (h : certPaths cert key = .ok (some paths)) :
    cert = some paths.certPath ∧ key = some paths.keyPath := by
  cases cert with
  | none => cases key <;> cases h
  | some cert =>
    cases key with
    | none => cases h
    | some key =>
      cases h
      exact ⟨rfl, rfl⟩

/-! ## The constructors of an accepted configuration -/

section

variable (h : Accepted env config)
include h

theorem bindListeners_isOk : IsOk (bindListeners config.server.listen) := by
  apply mapM_isOk
  intro text htext
  obtain ⟨addr, haddr⟩ := Option.isSome_iff_exists.mp (h.listen text htext)
  exact ⟨addr, okOr_eq_ok.mpr haddr⟩

variable (hfiles : env.WellFormed config)
include hfiles

theorem outboundTcpTransport_isOk : IsOk (outboundTcpTransport env config) := by
  unfold outboundTcpTransport
  split_ifs with hon
  · obtain ⟨hpair, client, hclient⟩ := h.outbound hon
    have hfields := hclient
    simp only [outboundTlsClientConfig, bind_eq_ok] at hfields
    obtain ⟨mode, -, hfields⟩ := hfields
    cases hfields
    obtain ⟨roots, hroots⟩ := buildRootStore_isOk (hfiles.roots hon)
    obtain ⟨auth, hauth⟩ := loadClientAuth_isOk hpair (hfiles.client hon)
    simp only [isOk_bind, TlsOutboundTransport.withPolicy, bind_eq_ok]
    exact ⟨_, hclient, _, ⟨roots, hroots, auth, hauth, rfl⟩, isOk_ok _⟩
  · exact isOk_ok _

theorem tlsTransport_isOk_iff (hon : config.transport.tls.enabled = true)
    {runtime : TlsServerConfig} (hruntime : tlsServerConfig config = .ok runtime) :
    IsOk (TlsTransport.new env runtime) ↔ NoIpNames config := by
  obtain ⟨hcert, hkey, hentries⟩ := hfiles.tls hon
  simp only [tlsServerConfig, bind_eq_ok, exists_unit, bailIf_eq_ok] at hruntime
  obtain ⟨default, hdefault, hsome, mode, -, hruntime⟩ := hruntime
  cases hruntime
  have hload : IsOk (default.mapM (loadCertifiedKey env)) := by
    apply option_mapM_isOk.mpr
    rintro paths rfl
    obtain ⟨hc, hk⟩ := certPaths_some hdefault
    exact loadCertifiedKey_isOk (hcert _ hc) (hkey _ hk)
  have hsni : ∀ entry ∈ config.transport.tls.certificates.map sniCert,
      IsOk (loadCertifiedKey env ⟨entry.certPath, entry.keyPath⟩) := by
    intro entry hentry
    obtain ⟨file, hfile, rfl⟩ := List.mem_map.mp hentry
    exact loadCertifiedKey_isOk (hentries file hfile).1 (hentries file hfile).2
  obtain ⟨ck, hck⟩ := hload
  have hnames := insertEntries_isOk_iff hsni [] (h.tls hon).2
  simp only [List.forall_mem_map] at hnames
  rw [NoIpNames]
  refine Iff.trans ?_ hnames
  simp only [TlsTransport.new, isOk_bind, hck]
  constructor
  · rintro ⟨_, -, _, -, byName, hins, -⟩
    exact ⟨byName, hins⟩
  · rintro ⟨byName, hins⟩
    exact ⟨(), by simpa using hsome, ck, rfl, byName, hins, isOk_ok _⟩

theorem inboundTransport_isOk_iff :
    IsOk (inboundTransport env config) ↔
      (config.transport.tls.enabled = true → NoIpNames config) := by
  unfold inboundTransport
  by_cases hreality : config.transport.reality.enabled = true
  · obtain ⟨runtime, hruntime, t, ht⟩ := h.reality hreality
    have hoff := h.exclusive hreality
    simp only [hreality, if_true, isOk_bind, hoff]
    exact iff_of_true ⟨runtime, hruntime, t, ht, isOk_ok _⟩ (by simp)
  · rw [if_neg hreality]
    by_cases hon : config.transport.tls.enabled = true
    · obtain ⟨⟨runtime, hruntime⟩, -⟩ := h.tls hon
      rw [if_pos hon, ← tlsTransport_isOk_iff h hfiles hon hruntime]
      simp only [isOk_bind, hruntime, hon, forall_const]
      constructor
      · rintro ⟨_, hsame, t, ht, -⟩
        cases hsame
        exact ⟨t, ht⟩
      · rintro ⟨t, ht⟩
        exact ⟨runtime, rfl, t, ht, isOk_ok _⟩
    · rw [if_neg hon]
      exact iff_of_true (isOk_ok _) fun h => absurd h hon

end

/-! ## AmneziaWG -/

theorem map_publicKey_of_mapM {files : List AwgPeerFileConfig} {peers : List AwgPeerConfig}
    (h : files.mapM awgPeerConfig = .ok peers) :
    peers.map AwgPeerConfig.publicKey = files.map AwgPeerFileConfig.publicKey := by
  induction mapM_eq_ok.mp h with
  | nil => rfl
  | cons hpeer hrest ih =>
    simp only [awgPeerConfig, bind_eq_ok, exists_unit] at hpeer
    obtain ⟨-, -, hpeer⟩ := hpeer
    cases hpeer
    rw [List.map_cons, List.map_cons, ih (mapM_eq_ok.mpr hrest)]

variable {runtime : AwgServerConfig}

theorem awgUsesPlaceholderKeys_iff (h : awgServerConfig config = .ok runtime) :
    awgUsesPlaceholderKeys runtime = false ↔
      ∀ key ∈ config.transport.awg.keys, awgKeyIsPlaceholder key = false := by
  simp only [awgServerConfig, bind_eq_ok, exists_unit, requireText, okOr_eq_ok] at h
  obtain ⟨_, -, privateKey, hkey, -, -, peers, hpeers, h⟩ := h
  cases h
  have hkey := (Option.filter_eq_some_iff.mp hkey).1
  have hpeers := map_publicKey_of_mapM hpeers
  simp only [awgUsesPlaceholderKeys, Bool.or_eq_false_iff, AwgFileConfig.keys, hkey,
    Option.toList_some, List.forall_mem_append, List.forall_mem_singleton, ← hpeers,
    List.forall_mem_map, List.any_eq_false, Bool.not_eq_true]

theorem renderServerConf_of_placeholder (hbase64 : env.Base64Keys)
    (h : awgUsesPlaceholderKeys runtime = true) : ¬ IsOk (renderServerConf env runtime) := by
  rintro ⟨iface, hrender⟩
  simp only [renderServerConf, bind_eq_ok, mapError_eq_ok] at hrender
  obtain ⟨key, hkey, _, -, _, -, peers, hpeers, -⟩ := hrender
  simp only [awgUsesPlaceholderKeys, Bool.or_eq_true, List.any_eq_true] at h
  rcases h with h | ⟨peer, hmem, h⟩
  · exact hbase64.privateKey _ h ⟨key, hkey⟩
  · obtain ⟨built, hbuilt⟩ := isOk_of_mem_mapM hpeers hmem
    simp only [buildPeer, bind_eq_ok, mapError_eq_ok] at hbuilt
    obtain ⟨publicKey, hpublic, -⟩ := hbuilt
    exact hbase64.publicKey _ h ⟨publicKey, hpublic⟩

theorem awgManager_start_iff (h : Accepted env config) (hbase64 : env.Base64Keys)
    (hon : config.transport.awg.enabled = true) (hruntime : awgServerConfig config = .ok runtime) :
    AwgManager.start env runtime (awgNatConfig config) = .ok () ↔ AwgReady config := by
  obtain ⟨_, hsame, hrender⟩ := h.awg hon
  rw [hruntime] at hsame
  cases hsame
  have hkeys := awgUsesPlaceholderKeys_iff hruntime
  simp only [AwgManager.start, bind_eq_ok, mapError_eq_ok, applyNat, bailIf_eq_ok, awgNatConfig,
    Bool.and_eq_false_imp]
  constructor
  · rintro ⟨iface, hiface, hnat⟩
    refine ⟨hkeys.mp ?_, hnat⟩
    by_contra hplaceholder
    exact renderServerConf_of_placeholder hbase64 (by simpa using hplaceholder) ⟨iface, hiface⟩
  · rintro ⟨hready, hnat⟩
    obtain ⟨iface, hiface⟩ := hrender (hkeys.mpr hready)
    exact ⟨iface, hiface, hnat⟩

/-! ## The server -/

theorem whenEnabled_eq_ok {α : Type} {enabled : Bool} {x : Except String α} {y : Option α} :
    whenEnabled enabled x = .ok y ↔
      if enabled then ∃ a, x = .ok a ∧ y = some a else y = none := by
  cases enabled with
  | false => simp [whenEnabled, eq_comm]
  | true => cases x <;> simp [whenEnabled, Except.map, eq_comm]

theorem whenEnabled_isOk {α : Type} {enabled : Bool} {x : Except String α}
    (h : enabled = true → IsOk x) : IsOk (whenEnabled enabled x) := by
  cases enabled with
  | false => exact ⟨none, rfl⟩
  | true =>
    obtain ⟨a, rfl⟩ := h rfl
    exact ⟨some a, rfl⟩

theorem runApiServer_eq_ok (h : Accepted env config) (hfiles : env.WellFormed config)
    (hon : config.api.enabled = true) : runApiServer env config = .ok () := by
  obtain ⟨⟨addr, haddr⟩, htoken, htls⟩ := h.api hon
  obtain ⟨token, htoken⟩ := Option.isSome_iff_exists.mp htoken
  simp only [runApiServer, bind_eq_ok, checkIf_eq_ok, okOr_eq_ok]
  refine ⟨addr, haddr, token, htoken, fun htlsOn => ?_⟩
  obtain ⟨hcert, hkey⟩ := htls htlsOn
  obtain ⟨cert, hcert⟩ := Option.isSome_iff_exists.mp hcert
  obtain ⟨key, hkey⟩ := Option.isSome_iff_exists.mp hkey
  obtain ⟨data, keyData, hread, hreadKey, hidentity⟩ := hfiles.api hon htlsOn cert hcert key hkey
  simp only [buildServerTlsConfig, bind_eq_ok, okOr_eq_ok, withContext_eq_ok, bailIf_eq_ok]
  exact ⟨cert, hcert, key, hkey, data, hread, keyData, hreadKey, by simp [hidentity]⟩

theorem runMetricsServer_eq_ok (h : Accepted env config) (hon : config.metrics.enabled = true) :
    runMetricsServer config = .ok () := by
  obtain ⟨addr, haddr⟩ := h.metrics hon
  simp only [runMetricsServer, bind_eq_ok]
  exact ⟨addr, haddr, rfl⟩

theorem hysteria2Manager_start (runtime : Hysteria2ServerConfig) :
    Hysteria2Manager.start runtime = .ok () := by
  have hrender : IsOk (renderHysteria2Yaml runtime) := by
    unfold renderHysteria2Yaml
    cases runtime.masqueradeUrl with
    | none => exact isOk_ok _
    | some url =>
      simp only
      split_ifs <;> exact isOk_ok _
  obtain ⟨yaml, hyaml⟩ := hrender
  simp only [Hysteria2Manager.start, bind_eq_ok, mapError_eq_ok]
  exact ⟨yaml, hyaml, rfl⟩

theorem tuicManager_start (runtime : TuicServerConfig) : TuicManager.start runtime = .ok () := rfl

theorem awgTask_eq_ok (h : Accepted env config) (hbase64 : env.Base64Keys)
    (hready : config.transport.awg.enabled = true → AwgReady config)
    {awg : Option AwgServerConfig}
    (hawg : whenEnabled config.transport.awg.enabled (awgServerConfig config) = .ok awg) :
    (awg.elim (.ok ()) fun runtime => AwgManager.start env runtime (awgNatConfig config)) =
      .ok () := by
  rw [whenEnabled_eq_ok] at hawg
  split_ifs at hawg with hon
  · obtain ⟨runtime, hruntime, rfl⟩ := hawg
    exact (awgManager_start_iff h hbase64 hon hruntime).mpr (hready hon)
  · subst hawg
    rfl

/-- A validated configuration whose files are well formed starts if and only if no server name
    of TLS is the text of an IP address, and AmneziaWG has neither a placeholder for a key nor
    a NAT without a subnet. -/
theorem starts_iff (hvalid : config.validate env = .ok ()) (hfiles : env.WellFormed config)
    (hbase64 : env.Base64Keys) :
    Starts env config ↔
      (config.transport.tls.enabled = true → NoIpNames config) ∧
      (config.transport.awg.enabled = true → AwgReady config) := by
  have h := accepted_of_validate hvalid
  rw [← inboundTransport_isOk_iff h hfiles]
  constructor
  · rintro ⟨s, hs, htasks⟩
    simp only [runServer, bind_eq_ok] at hs
    obtain ⟨_, -, _, -, inbound, hinbound, _, -, awg, hawg, _, -, _, -, hs⟩ := hs
    cases hs
    refine ⟨⟨inbound, hinbound⟩, fun hon => ?_⟩
    rw [whenEnabled_eq_ok, if_pos hon] at hawg
    obtain ⟨runtime, hruntime, rfl⟩ := hawg
    exact (awgManager_start_iff h hbase64 hon hruntime).mp (htasks _ (by simp [startTasks]))
  · rintro ⟨⟨inbound, hinbound⟩, hready⟩
    obtain ⟨listeners, hlisteners⟩ := bindListeners_isOk h
    obtain ⟨outbound, houtbound⟩ := outboundTcpTransport_isOk h hfiles
    obtain ⟨xhttp, hxhttp⟩ := whenEnabled_isOk h.xhttp
    obtain ⟨awg, hawg⟩ := whenEnabled_isOk fun hon => (h.awg hon).imp fun _ => And.left
    obtain ⟨hysteria2, hhysteria2⟩ := whenEnabled_isOk h.hysteria2
    obtain ⟨tuic, htuic⟩ := whenEnabled_isOk h.tuic
    have htask := awgTask_eq_ok h hbase64 hready hawg
    refine ⟨⟨listeners, outbound, inbound, xhttp, .fromProtocol config.protocol,
      startTasks env config awg hysteria2 tuic⟩, ?_, ?_⟩
    · simp only [runServer, bind_eq_ok]
      exact ⟨listeners, hlisteners, outbound, houtbound, inbound, hinbound, xhttp, hxhttp, awg,
        hawg, hysteria2, hhysteria2, tuic, htuic, rfl⟩
    · simp only [startTasks, List.forall_mem_cons, List.not_mem_nil, false_implies, implies_true,
        and_true, checkIf_eq_ok]
      refine ⟨runApiServer_eq_ok h hfiles, runMetricsServer_eq_ok h, htask, ?_, ?_⟩
      · cases hysteria2 with
        | none => rfl
        | some runtime => exact hysteria2Manager_start runtime
      · cases tuic with
        | none => rfl
        | some runtime => exact tuicManager_start runtime

end

/-! ## Sample configurations -/

def isWgKey (key : String) : Bool :=
  key.toList.length == 44 &&
    key.toList.all fun c => c.isAlphanum || c == '+' || c == '/' || c == '='

def readWgKey (key : String) : Except String Bytes :=
  if isWgKey key then .ok (asBytes key) else .error "invalid key"

/-- A system with two files, the certificate `cert.pem` and its key `key.pem`. -/
def sampleEnv : Env where
  isFile path := path == "cert.pem" || path == "key.pem"
  opens path := path == "cert.pem" || path == "key.pem"
  read path :=
    if path == "cert.pem" then .ok [1] else if path == "key.pem" then .ok [2]
    else .error "No such file or directory"
  pemCerts data := .ok (if data = [1] then [[1]] else [])
  pemKey data := if data = [2] then .ok [2] else .error "no private key"
  signingKey key := key == [2]
  trustAnchor cert := cert == [1]
  nativeCerts := [[1]]
  clientAuthCert certs key := certs == [[1]] && key == [2]
  serverIdentity cert key := cert == [1] && key == [2]
  fetchCert _ := none
  base64Decode _ := none
  hexDecode _ := none
  wgPrivateKey := readWgKey
  wgPublicKey := readWgKey
  wgPresharedKey := readWgKey
  ipNet text := match text.toList.splitOn '/' with
    | [ip, bits] => (IpAddr.parse (.ofList ip)).isSome && !bits.isEmpty && bits.all Char.isDigit
    | _ => false
  amnezia _ := .ok ()

theorem mem_of_mem_trim {s : String} {c : Char} (h : c ∈ (trim s).toList) : c ∈ s.toList := by
  rw [trim, String.toList_ofList, List.mem_reverse] at h
  exact (List.dropWhile_suffix _).mem (List.mem_reverse.mp ((List.dropWhile_suffix _).mem h))

theorem not_isOk_readWgKey {key : String} (h : awgKeyIsPlaceholder key = true) :
    ¬ IsOk (readWgKey key) := by
  rintro ⟨data, hdata⟩
  unfold readWgKey isWgKey at hdata
  split_ifs at hdata with hkey
  simp only [Bool.and_eq_true, List.all_eq_true] at hkey
  simp only [awgKeyIsPlaceholder, Bool.and_eq_true, beq_iff_eq] at h
  have hmem : '<' ∈ key.toList := mem_of_mem_trim (List.mem_of_head? h.1)
  exact absurd (hkey.2 '<' hmem) (by decide)

theorem sampleEnv_base64Keys : sampleEnv.Base64Keys where
  privateKey _ := not_isOk_readWgKey
  publicKey _ := not_isOk_readWgKey

def sampleConfig (name : String) (awg : AwgFileConfig) : Config where
  protocol := { defaultProtocol with socks5Enabled := true }
  transport :=
    { tls := { enabled := true, certificates := [⟨[name], "cert.pem", "key.pem"⟩] }, awg := awg }

theorem sampleEnv_wellFormed (name : String) (awg : AwgFileConfig) :
    sampleEnv.WellFormed (sampleConfig name awg) where
  tls _ := by
    refine ⟨nofun, nofun, fun entry hentry => ?_⟩
    cases List.mem_singleton.mp hentry
    exact ⟨⟨[1], [[1]], rfl, rfl, by simp⟩, [2], [2], rfl, rfl, rfl⟩
  roots h := by cases h
  client h := by cases h
  api h := by cases h

def serverKey : String := "kHhQmV7uZ3xTq9LwYb2R0sNcE5dF8gJ1oPiA6tXvU4I="

def peerKey : String := "Gm3yWd8KfZ1sQx5LbN7vRtC2hJ0pEoUaT9iXq6HkB4A="

def sampleAwg (key subnet : String) : AwgFileConfig :=
  { enabled := true, privateKey := some key, nat := ⟨true, none, subnet⟩
    peers := [⟨peerKey, ["10.8.0.2/32"], none, none, none⟩] }

theorem starts_sample :
    (sampleConfig "example.com" (sampleAwg serverKey "10.8.0.0/24")).validate sampleEnv = .ok () ∧
      Starts sampleEnv (sampleConfig "example.com" (sampleAwg serverKey "10.8.0.0/24")) := by
  have hvalid : (sampleConfig "example.com" (sampleAwg serverKey "10.8.0.0/24")).validate
      sampleEnv = .ok () := rfl
  refine ⟨hvalid, (starts_iff hvalid (sampleEnv_wellFormed _ _) sampleEnv_base64Keys).mpr ⟨?_, ?_⟩⟩
  · intro _ entry hentry name hname
    cases List.mem_singleton.mp hentry
    cases List.mem_singleton.mp hname
    decide +kernel
  · intro _
    refine ⟨?_, fun _ => by decide +kernel⟩
    intro key hkey
    have hkeys : key = serverKey ∨ key = peerKey := by
      simpa [sampleConfig, sampleAwg, AwgFileConfig.keys] using hkey
    rcases hkeys with rfl | rfl <;> decide +kernel

theorem validated_refused :
    ((sampleConfig "127.0.0.1" {}).validate sampleEnv = .ok () ∧
      sampleEnv.WellFormed (sampleConfig "127.0.0.1" {}) ∧
      runServer sampleEnv (sampleConfig "127.0.0.1" {}) =
        .error "IP addresses are not supported in server_names: 127.0.0.1") ∧
    ((sampleConfig "example.com" (sampleAwg "<key>" "10.8.0.0/24")).validate sampleEnv = .ok () ∧
      ∃ s, runServer sampleEnv (sampleConfig "example.com" (sampleAwg "<key>" "10.8.0.0/24")) =
          .ok s ∧
        .error "awg setconf failed: invalid AWG private_key: invalid key" ∈ s.tasks) ∧
    ((sampleConfig "example.com" (sampleAwg serverKey "")).validate sampleEnv = .ok () ∧
      ∃ s, runServer sampleEnv (sampleConfig "example.com" (sampleAwg serverKey "")) = .ok s ∧
        .error "awg setconf failed: NAT subnet must not be empty" ∈ s.tasks) := by
  refine ⟨⟨rfl, sampleEnv_wellFormed _ _, rfl⟩, ⟨rfl, _, rfl, ?_⟩, ⟨rfl, _, rfl, ?_⟩⟩
  · exact .tail _ (.tail _ (.head _))
  · exact .tail _ (.tail _ (.head _))

end SkadiCore.Config
