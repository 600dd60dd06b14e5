import SkadiCore.Common.Result
import SkadiCore.Common.Time
import SkadiCore.Core.AddrParse
import SkadiCore.Reality.Server
import SkadiCore.Xhttp.Request

/-!
# Runtime configurations and the constructors of transports

Model of what the server builds from its configuration: the TLS acceptor with its
certificates (`crates/skadi-transport/src/tls.rs`), outbound TLS (`tls_client.rs`), and the
files for the AmneziaWG, Hysteria2 and TUIC processes (`awg/render.rs`,
`hysteria2/render.rs`, `tuic/render.rs`). Each of them has checks of its own.

Files, and what the crates for PEM, base64, hexadecimal, trust anchors and WireGuard make of
their texts, are an environment: any functions.
-/

namespace SkadiCore.Config

/-! ## The environment -/

structure AmneziaSettings where
  jc : UInt8
  jmin : UInt16
  jmax : UInt16
  s1 : UInt8
  s2 : UInt8
  s3 : UInt8
  s4 : UInt8
  h1 : ℕ × ℕ
  h2 : ℕ × ℕ
  h3 : ℕ × ℕ
  h4 : ℕ × ℕ

structure Env where
  /-- `Path::is_file`. -/
  isFile : String → Bool
  /-- `File::open` succeeds. -/
  opens : String → Bool
  /-- `std::fs::read`. -/
  read : String → Except String Bytes
  /-- The certificates of a PEM text. -/
  pemCerts : Bytes → Except String (List Bytes)
  /-- The first private key of a PEM text. -/
  pemKey : Bytes → Except String Bytes
  /-- `any_supported_type` makes a signing key of it. -/
  signingKey : Bytes → Bool
  /-- `RootCertStore::add` accepts the certificate. -/
  trustAnchor : Bytes → Bool
  /-- The certificates of the system. -/
  nativeCerts : List Bytes
  /-- `with_client_auth_cert` accepts the chain and the key. -/
  clientAuthCert : List Bytes → Bytes → Bool
  /-- The gRPC server accepts the identity of the two PEM texts. -/
  serverIdentity : Bytes → Bytes → Bool
  /-- What `fetch_impersonate_cert_from_dest` gets. -/
  fetchCert : String → Option Bytes
  /-- `STANDARD.decode` of base64. -/
  base64Decode : String → Option Bytes
  /-- `hex::decode`. -/
  hexDecode : String → Option Bytes
  /-- `PrivateKey::try_from` of WireGuard. -/
  wgPrivateKey : String → Except String Bytes
  /-- `PublicKey::try_from`. -/
  wgPublicKey : String → Except String Bytes
  /-- `PresharedKey::try_from`. -/
  wgPresharedKey : String → Except String Bytes
  /-- The text is an `IpNet`. -/
  ipNet : String → Bool
  /-- `build` and `validate` of the settings of AmneziaWG. -/
  amnezia : AmneziaSettings → Except String Unit

/-! ## TLS -/

inductive TlsKexMode
  | classic
  | hybridPq
  deriving DecidableEq

def TlsKexMode.parse (value : String) : Except String TlsKexMode :=
  if value = "classic" ∨ value = "x25519" then .ok classic
  else if value = "hybrid" ∨ value = "hybrid_pq" ∨ value = "x25519mlkem768" then .ok hybridPq
  else .error s!"invalid TLS KEX mode \"{value}\": expected classic or hybrid_pq"

structure TlsCertPaths where
  certPath : String
  keyPath : String

structure TlsSniCert where
  serverNames : List String
  certPath : String
  keyPath : String

structure TlsServerConfig where
  default : Option TlsCertPaths
  sniCerts : List TlsSniCert
  alpn : List String
  kexMode : TlsKexMode

structure CertifiedKey where
  chain : List Bytes
  key : Bytes

/-- `SniCertResolver` (`tls.rs`, lines 134-137), and what else `TlsTransport` is built of. -/
structure TlsTransport where
  byName : List (String × CertifiedKey)
  default : Option CertifiedKey
  alpn : List Bytes
  kexMode : TlsKexMode

variable (env : Env)

def loadCerts (path : String) : Except String (List Bytes) := do
  let data ← (env.read path).mapError fun e => s!"cannot open certificate file {path}: {e}"
  let certs ← withContext s!"failed to parse certificates from {path}" (env.pemCerts data)
  bailIf certs.isEmpty "no certificate found in PEM file"
  return certs

def loadPrivateKey (path : String) : Except String Bytes :=
  (env.read path >>= env.pemKey).mapError fun e =>
    s!"failed to parse private key from {path}: {e}"

def loadCertifiedKey (paths : TlsCertPaths) : Except String CertifiedKey := do
  let chain ← loadCerts env paths.certPath
  let key ← loadPrivateKey env paths.keyPath
  bailIf (!env.signingKey key) s!"invalid private key: {paths.keyPath}"
  return ⟨chain, key⟩

def normalizeServerName (name : String) : Except String String :=
  let trimmed := trim name
  if trimmed.isEmpty then .error "empty SNI server name"
  else if (IpAddr.parse trimmed).isSome then
    .error s!"IP addresses are not supported in server_names: {trimmed}"
  else .ok (toAsciiLowercase trimmed)

def insertNames (ck : CertifiedKey) (byName : List (String × CertifiedKey)) :
    List String → Except String (List (String × CertifiedKey))
  | [] => .ok byName
  | name :: names => do
    let normalized ← normalizeServerName name
    bailIf (decide (normalized ∈ byName.map Prod.fst)) s!"duplicate SNI server name: {normalized}"
    insertNames ck ((normalized, ck) :: byName) names

def insertEntries (env : Env) (byName : List (String × CertifiedKey)) :
    List TlsSniCert → Except String (List (String × CertifiedKey))
  | [] => .ok byName
  | entry :: entries => do
    bailIf entry.serverNames.isEmpty "SNI entry has no server_names"
    let ck ← loadCertifiedKey env ⟨entry.certPath, entry.keyPath⟩
    let byName ← insertNames ck byName entry.serverNames
    insertEntries env byName entries

/-- `TlsTransport::new` (`tls.rs`, lines 92-114) with `build_resolver` (lines 151-189). -/
def TlsTransport.new (config : TlsServerConfig) : Except String TlsTransport := do
  bailIf (config.default.isNone && config.sniCerts.isEmpty) "no TLS certificates configured"
  let default ← config.default.mapM (loadCertifiedKey env)
  let byName ← insertEntries env [] config.sniCerts
  return ⟨byName, default, config.alpn.map asBytes, config.kexMode⟩

/-! ## Outbound TLS -/

/-- `TlsClientConfig` (`tls_client.rs`, lines 21-31), without `alpn_http1_only`. -/
structure TlsClientConfig where
  caFile : Option String
  clientCert : Option String
  clientKey : Option String
  kexMode : TlsKexMode

structure TlsOutboundTransport where
  roots : List Bytes
  client : Option CertifiedKey
  kexMode : TlsKexMode
  connectTimeout : Duration
  allowPrivate : Bool

/-- The certificates of `build_root_store` (`tls_client.rs`, lines 107-126): those of the
    system that are valid, or all those of the file. -/
def rootCerts : Option String → Except String (List Bytes)
  | none => .ok (env.nativeCerts.filter env.trustAnchor)
  | some path => do
    let certs ← loadCerts env path
    bailIf (certs.any fun cert => !env.trustAnchor cert) s!"invalid CA certificate in {path}"
    return certs

def buildRootStore (caFile : Option String) : Except String (List Bytes) := do
  let roots ← rootCerts env caFile
  bailIf roots.isEmpty
    "no trust anchors for outbound TLS (set outbound.tls.ca_file or use system roots)"
  return roots

/-- The client certificate of `TlsOutboundTransport::with_policy` (`tls_client.rs`,
    lines 60-69). -/
def loadClientAuth :
    Option String → Option String → Except String (Option CertifiedKey)
  | some cert, some key => do
    let chain ← loadCerts env cert
    let key ← loadPrivateKey env key
    bailIf (!env.clientAuthCert chain key) "invalid outbound TLS client certificate"
    return some ⟨chain, key⟩
  | none, none => .ok none
  | _, _ => .error "outbound.tls.cert and outbound.tls.key must both be set"

def TlsOutboundTransport.withPolicy (connectTimeout : Duration)
    (config : TlsClientConfig) (allowPrivate : Bool) : Except String TlsOutboundTransport := do
  let roots ← buildRootStore env config.caFile
  let client ← loadClientAuth env config.clientCert config.clientKey
  return ⟨roots, client, config.kexMode, connectTimeout, allowPrivate⟩

/-! ## REALITY -/

/-- `RealityServerConfig` (`reality/server.rs`, lines 40-59): what `RealityTransport::new`
    checks, and the rest of it. -/
structure RealityRuntime where
  server : Reality.RealityServerConfig
  impersonateCert : Option Bytes
  connectTimeout : Duration
  kexMode : TlsKexMode

def extension (path : String) : Option String :=
  let components := (path.toList.splitOn '/').filter fun c => c ≠ [] ∧ c ≠ ['.']
  components.getLast?.bind fun name =>
    if name = ['.', '.'] ∨ '.' ∉ name.tail then none
    else some (.ofList (name.reverse.takeWhile (· ≠ '.')).reverse)

def loadImpersonateCertFile (path : String) : Except String Bytes := do
  let data ← withContext s!"cannot read impersonate cert file {path}" (env.read path)
  if extension path = some "pem" || (asBytes "-----BEGIN").isPrefixOf data then do
    let certs ← withContext "invalid PEM in impersonate cert file" (env.pemCerts data)
    okOr "impersonate cert PEM file contains no certificates" certs.head?
  else do
    bailIf data.isEmpty "impersonate cert file is empty"
    return data

/-! ## AmneziaWG -/

structure AwgObfuscationConfig where
  jc : UInt8
  jmin : UInt16
  jmax : UInt16
  s1 : UInt8
  s2 : UInt8
  s3 : UInt8
  s4 : UInt8
  h1 : String
  h2 : String
  h3 : String
  h4 : String

structure AwgPeerConfig where
  publicKey : String
  allowedIps : List String
  presharedKey : Option String
  endpoint : Option String
  persistentKeepalive : Option UInt16

structure AwgServerConfig where
  listen : SocketAddr
  interfaceName : String
  privateKey : String
  address : String
  mtu : Option UInt16
  obfuscation : AwgObfuscationConfig
  peers : List AwgPeerConfig

structure AwgNatConfig where
  enabled : Bool
  egressInterface : Option String
  subnet : String

structure AwgPeer where
  publicKey : Bytes
  allowedIps : List String
  presharedKey : Option Bytes
  endpoint : Option String
  persistentKeepalive : Option UInt16

structure AwgInterface where
  privateKey : Bytes
  address : String
  listenPort : UInt16
  settings : AmneziaSettings
  mtu : Option UInt16
  peers : List AwgPeer

def parseIpnet (field value : String) : Except String String :=
  if env.ipNet value then .ok value else .error s!"invalid AWG {field}: {value}"

def parseU32 (s : String) : Option ℕ := (Xhttp.parseU64 s).filter (· < 2 ^ 32)

def splitOnce (c : Char) (s : String) : Option (String × String) :=
  if c ∈ s.toList then
    some (.ofList (s.toList.takeWhile (· ≠ c)), .ofList (s.toList.dropWhile (· ≠ c)).tail)
  else none

def parseHRange (field value : String) : Except String (ℕ × ℕ) := do
  let trimmed := trim value
  bailIf trimmed.isEmpty s!"AWG {field} must not be empty"
  match splitOnce '-' trimmed with
  | some (lo, hi) => do
    let min ← okOr s!"invalid {field}" (parseU32 (trim lo))
    let max ← okOr s!"invalid {field}" (parseU32 (trim hi))
    bailIf (decide (max < min)) s!"AWG {field}: min ({min}) must be <= max ({max})"
    return (min, max)
  | none => do
    let single ← okOr s!"invalid {field}" (parseU32 trimmed)
    return (single, single)

def buildAmneziaSettings (obf : AwgObfuscationConfig) :
    Except String AmneziaSettings := do
  let h1 ← parseHRange "h1" obf.h1
  let h2 ← parseHRange "h2" obf.h2
  let h3 ← parseHRange "h3" obf.h3
  let h4 ← parseHRange "h4" obf.h4
  let settings : AmneziaSettings :=
    ⟨obf.jc, obf.jmin, obf.jmax, obf.s1, obf.s2, obf.s3, obf.s4, h1, h2, h3, h4⟩
  env.amnezia settings
  return settings

def buildPeer (peer : AwgPeerConfig) : Except String AwgPeer := do
  let publicKey ← (env.wgPublicKey peer.publicKey).mapError fun e =>
    s!"invalid AWG peer public_key: {e}"
  let allowedIps ← peer.allowedIps.mapM (parseIpnet env "allowed_ips")
  let presharedKey ← peer.presharedKey.mapM fun psk =>
    (env.wgPresharedKey psk).mapError fun e => s!"invalid AWG preshared_key: {e}"
  let endpoint ← peer.endpoint.mapM fun endpoint =>
    okOr s!"invalid peer endpoint: {endpoint}" (SocketAddr.parse endpoint)
  return ⟨publicKey, allowedIps, presharedKey, endpoint.map SocketAddr.display,
    peer.persistentKeepalive⟩

/-- `render_server_conf` (`awg/render.rs`, lines 88-114), up to the text that WireGuard makes
    of the interface. -/
def renderServerConf (config : AwgServerConfig) : Except String AwgInterface := do
  let privateKey ← (env.wgPrivateKey config.privateKey).mapError fun e =>
    s!"invalid AWG private_key: {e}"
  let address ← parseIpnet env "address" config.address
  let settings ← buildAmneziaSettings env config.obfuscation
  let peers ← config.peers.mapM (buildPeer env)
  return ⟨privateKey, address, config.listen.port, settings, config.mtu, peers⟩

/-! ## Hysteria2 and TUIC -/

structure Hysteria2ServerConfig where
  listen : SocketAddr
  password : String
  certPath : String
  keyPath : String
  masqueradeUrl : Option String

structure TuicServerConfig where
  listen : SocketAddr
  uuid : String
  password : String
  certPath : String
  keyPath : String
  congestionControl : String
  alpn : List String

def isUnspecified : IpAddr → Bool
  | .v4 octets => octets.val.all (· == 0)
  | .v6 octets => octets.val.all (· == 0)

def listenText (listen : SocketAddr) : String :=
  if isUnspecified listen.ip then s!":{listen.port}"
  else
    match listen with
    | .v6 octets port _ _ => s!"[{displayIpv6 octets}]:{port}"
    | .v4 octets port => s!"{displayIpv4 octets}:{port}"

def renderHysteria2Yaml (config : Hysteria2ServerConfig) : Except String String :=
  let yaml :=
    s!"listen: {listenText config.listen}\n\n" ++
      s!"tls:\n  cert: {config.certPath}\n  key: {config.keyPath}\n\n" ++
      s!"auth:\n  type: password\n  password: {config.password}\n"
  match config.masqueradeUrl with
  | some url =>
    if (trim url).isEmpty then .ok yaml
    else
      .ok (yaml ++ "\nmasquerade:\n  type: proxy\n  proxy:\n" ++ s!"    url: {trim url}\n" ++
        "    rewriteHost: true\n")
  | none => .ok yaml

def escapeTomlString (s : String) : String :=
  .ofList (s.toList.flatMap fun c => if c = '\\' ∨ c = '"' then ['\\', c] else [c])

def renderTuicToml (config : TuicServerConfig) : Except String String :=
  let alpn := ", ".intercalate (config.alpn.map fun proto => s!"\"{proto}\"")
  .ok ("log_level = \"warn\"\n" ++ s!"server = \"{config.listen.display}\"\n" ++
    "udp_relay_ipv6 = false\ndual_stack = false\n\n[users]\n" ++
    s!"\"{config.uuid}\" = \"{escapeTomlString config.password}\"\n\n[tls]\n" ++
    s!"certificate = \"{config.certPath}\"\nprivate_key = \"{config.keyPath}\"\n" ++
    s!"alpn = [{alpn}]\n\n[quic.congestion_control]\n" ++
    s!"controller = \"{config.congestionControl}\"\n\n[experimental]\n" ++
    "drop_loopback = false\ndrop_private = false\n")

/-! ## Server names -/

open Reality (normalName)

def Fresh : List String → List String → Prop
  | _, [] => True
  | seen, name :: names =>
    (trim name).isEmpty = false ∧ normalName name ∉ seen ∧ Fresh (normalName name :: seen) names

def seenAfter (seen names : List String) : List String :=
  (names.map normalName).reverse ++ seen

@[simp] theorem seenAfter_nil (seen : List String) : seenAfter seen [] = seen := rfl

@[simp]
theorem seenAfter_cons (seen names : List String) (name : String) :
    seenAfter seen (name :: names) = seenAfter (normalName name :: seen) names := by
  simp [seenAfter]

theorem normalizeServerName_eq_ok {name : String} (hne : (trim name).isEmpty = false)
    {normalized : String} : normalizeServerName name = .ok normalized ↔
      IpAddr.parse (trim name) = none ∧ normalName name = normalized := by
  cases h : IpAddr.parse (trim name) with
  | none => simp [normalizeServerName, hne, h, normalName]
  | some ip => simp [normalizeServerName, hne, h]

theorem insertNames_isOk_iff (ck : CertifiedKey) {names : List String} :
    ∀ byName : List (String × CertifiedKey), Fresh (byName.map Prod.fst) names →
      (IsOk (insertNames ck byName names) ↔
        ∀ name ∈ names, IpAddr.parse (trim name) = none) := by
  induction names with
  | nil => simp [insertNames]
  | cons name names ih =>
    intro byName hfresh
    obtain ⟨hne, hnew, hfresh⟩ := hfresh
    simp only [insertNames, isOk_bind, normalizeServerName_eq_ok hne, List.forall_mem_cons]
    constructor
    · rintro ⟨_, ⟨hip, rfl⟩, _, -, hrest⟩
      exact ⟨hip, (ih ((normalName name, ck) :: byName) hfresh).mp hrest⟩
    · rintro ⟨hip, hips⟩
      have hrest := (ih ((normalName name, ck) :: byName) hfresh).mpr hips
      exact ⟨normalName name, ⟨hip, rfl⟩, (), by simpa using hnew, hrest⟩

theorem map_fst_insertNames (ck : CertifiedKey) {names : List String} :
    ∀ byName {byName' : List (String × CertifiedKey)}, Fresh (byName.map Prod.fst) names →
      insertNames ck byName names = .ok byName' →
        byName'.map Prod.fst = seenAfter (byName.map Prod.fst) names := by
  induction names with
  | nil =>
    intro byName byName' _ h
    cases h
    rfl
  | cons name names ih =>
    intro byName byName' hfresh h
    obtain ⟨hne, -, hfresh⟩ := hfresh
    simp only [insertNames, bind_eq_ok, normalizeServerName_eq_ok hne] at h
    obtain ⟨_, ⟨-, rfl⟩, _, -, h⟩ := h
    rw [seenAfter_cons]
    exact ih ((normalName name, ck) :: byName) hfresh h

def FreshEntries : List String → List TlsSniCert → Prop
  | _, [] => True
  | seen, entry :: entries => entry.serverNames.isEmpty = false ∧ Fresh seen entry.serverNames ∧
      FreshEntries (seenAfter seen entry.serverNames) entries

theorem insertEntries_isOk_iff {env : Env} {entries : List TlsSniCert}
    (hload : ∀ entry ∈ entries, IsOk (loadCertifiedKey env ⟨entry.certPath, entry.keyPath⟩)) :
    ∀ byName, FreshEntries (byName.map Prod.fst) entries →
      (IsOk (insertEntries env byName entries) ↔
        ∀ entry ∈ entries, ∀ name ∈ entry.serverNames, IpAddr.parse (trim name) = none) := by
  induction entries with
  | nil => simp [insertEntries]
  | cons entry entries ih =>
    intro byName hfresh
    obtain ⟨hnames, hnew, hfresh⟩ := hfresh
    obtain ⟨⟨ck, hck⟩, hload⟩ := List.forall_mem_cons.mp hload
    simp only [insertEntries, isOk_bind, hck, List.forall_mem_cons]
    rw [← insertNames_isOk_iff ck byName hnew]
    constructor
    · rintro ⟨_, -, _, hck', byName', hins, hrest⟩
      cases hck'
      rw [← map_fst_insertNames ck byName hnew hins] at hfresh
      exact ⟨⟨byName', hins⟩, (ih hload byName' hfresh).mp hrest⟩
    · rintro ⟨⟨byName', hins⟩, hips⟩
      rw [← map_fst_insertNames ck byName hnew hins] at hfresh
      have hrest := (ih hload byName' hfresh).mpr hips
      exact ⟨(), bailIf_eq_ok.mpr hnames, ck, rfl, byName', hins, hrest⟩

end SkadiCore.Config
