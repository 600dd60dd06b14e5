import SkadiCore.Common.Result
import SkadiCore.Xhttp.Client

/-!
# The XHTTP section of the client configuration

Model of `parse_remote_xhttp`, `xhttp_client_config` and `split_host_port`
(`crates/skadi-client/src/config.rs`, lines 779-828 and 895-929), with the sections of the
configuration that they read.
-/

namespace SkadiCore.Client

open SkadiCore.Xhttp

structure RemoteXhttpConfig where
  enabled : Bool
  path : String
  mode : String
  host : Option String
  xPaddingBytes : Option (UInt32 × UInt32)

/-- `RemoteConfig` (lines 398-408), as far as it is read here; `realityServerName` and
    `tlsServerName` are the `server_name` of `reality` and of `tls`. -/
structure RemoteConfig where
  server : String
  tlsServerName : Option String
  realityServerName : Option String
  xhttp : RemoteXhttpConfig

def parseU16 (s : List Char) : Option UInt16 :=
  ((parseU64 (.ofList s)).filter (· < 2 ^ 16)).map UInt16.ofNat

def hostAndPort (value : String) (host port : List Char) : Except String (String × UInt16) := do
  let port ← okOr s!"invalid server port in {value}" (parseU16 port)
  return (.ofList host, port)

/-- `split_host_port` (lines 895-929). -/
def splitHostPort (value : String) : Except String (String × UInt16) :=
  match value.toList with
  | '[' :: rest =>
    match Reality.findSub rest [']', ':'] with
    | none => .error s!"invalid IPv6 server address (expected [host]:port): {value}"
    | some i =>
      if i = 0 then .error s!"empty server host in {value}"
      else hostAndPort value (rest.take i) (rest.drop (i + 2))
  | chars =>
    -- `rsplit_once(':')`
    let port := (chars.reverse.takeWhile (· ≠ ':')).reverse
    if ':' ∉ chars then .error s!"invalid server address (expected host:port): {value}"
    else
      let host := chars.take (chars.length - port.length - 1)
      if host = [] then .error s!"empty server host in {value}"
      else if ':' ∈ host then
        .error s!"ambiguous IPv6 address without brackets (use [host]:port): {value}"
      else hostAndPort value host port

/-- `parse_remote_xhttp` (lines 815-828). -/
def parseRemoteXhttp (cfg : RemoteXhttpConfig) : Except String Unit := do
  bailIf (trim cfg.path).isEmpty "remote.xhttp.path must not be empty when xhttp is enabled"
  bailIf (XhttpMode.parse cfg.mode).isNone
    "remote.xhttp.mode must be auto, packet-up, stream-up, or stream-one"
  bailIf (cfg.xPaddingBytes.any fun (min, max) => max < min)
    "remote.xhttp.x_padding_bytes: min must be <= max"

def remotePadding : Option (UInt32 × UInt32) → Except String PaddingRange
  | some (min, max) =>
    if max < min then
      .error s!"remote.xhttp.x_padding_bytes: min ({min}) must be <= max ({max})"
    else .ok ⟨min, max⟩
  | none => .ok .default

def remoteHost (remote : RemoteConfig) : String :=
  let named := remote.xhttp.host <|> remote.realityServerName <|> remote.tlsServerName
  match named, splitHostPort remote.server with
  | some host, _ => host
  | none, .ok (host, _) => host
  | none, .error _ => "localhost"

/-- `xhttp_client_config` (lines 779-812). -/
def xhttpClientConfig : Option RemoteConfig → Except String (Option XhttpClientConfig)
  | none => .ok none
  | some remote =>
    if remote.xhttp.enabled then do
      let xhttp := remote.xhttp
      let mode ← okOr s!"remote.xhttp.mode invalid: {xhttp.mode}" (XhttpMode.parse xhttp.mode)
      let padding ← remotePadding xhttp.xPaddingBytes
      return some ⟨xhttp.path, remoteHost remote, mode, padding⟩
    else .ok none

def RemoteXhttpConfig.range (cfg : RemoteXhttpConfig) : PaddingRange :=
  match cfg.xPaddingBytes with
  | some (min, max) => ⟨min, max⟩
  | none => .default

variable {remote : RemoteConfig}

theorem remotePadding_eq {cfg : RemoteXhttpConfig}
    (h : (cfg.xPaddingBytes.any fun (min, max) => max < min) = false) :
    cfg.range.min ≤ cfg.range.max ∧ remotePadding cfg.xPaddingBytes = .ok cfg.range := by
  rcases hpad : cfg.xPaddingBytes with - | ⟨min, max⟩
  · simp [RemoteXhttpConfig.range, remotePadding, hpad, PaddingRange.default]
  · have hle : ¬ max < min := by simpa [hpad] using h
    simp only [RemoteXhttpConfig.range, remotePadding, hpad, if_neg hle, and_true]
    exact UInt32.not_lt.mp hle

theorem exists_xhttpClientConfig (henabled : remote.xhttp.enabled = true)
    (haccepted : parseRemoteXhttp remote.xhttp = .ok ()) :
    remote.xhttp.range.min ≤ remote.xhttp.range.max ∧
      ∃ cfg, xhttpClientConfig (some remote) = .ok (some cfg) ∧
        cfg.padding = remote.xhttp.range := by
  simp only [parseRemoteXhttp, bind_eq_ok, exists_unit, bailIf_eq_ok] at haccepted
  obtain ⟨-, hsome, hrange⟩ := haccepted
  obtain ⟨mode, hmode⟩ := Option.isSome_iff_exists.mp (by simpa using hsome)
  obtain ⟨hle, hpadding⟩ := remotePadding_eq hrange
  refine ⟨hle, ⟨remote.xhttp.path, remoteHost remote, mode, remote.xhttp.range⟩, ?_, rfl⟩
  simp only [xhttpClientConfig, henabled, if_true, bind_eq_ok, okOr_eq_ok]
  exact ⟨mode, hmode, _, hpadding, rfl⟩

/-! ## The padding -/

theorem sampleLen_iff {range : PaddingRange} (h : range.min ≤ range.max) {len : ℕ} :
    (∃ random, range.sampleLen random = len) ↔ range.min.toNat ≤ len ∧ len ≤ range.max.toNat := by
  have hle : range.min.toNat ≤ range.max.toNat := UInt32.le_iff_toNat_le.mp h
  have hmax := range.max.toNat_lt
  have hspan : (range.max - range.min).toNat = range.max.toNat - range.min.toNat :=
    UInt32.toNat_sub_of_le _ _ h
  by_cases heq : range.max ≤ range.min
  · have hge := UInt32.le_iff_toNat_le.mp heq
    simp only [PaddingRange.sampleLen, if_pos heq, exists_const]
    omega
  · simp only [PaddingRange.sampleLen, if_neg heq, hspan]
    constructor
    · rintro ⟨random, rfl⟩
      have hpos : 0 < range.max.toNat - range.min.toNat + 1 := by omega
      have := Nat.mod_lt random.toNat hpos
      omega
    · rintro ⟨hmin, hlen⟩
      refine ⟨UInt32.ofNat (len - range.min.toNat), ?_⟩
      have hrandom : (UInt32.ofNat (len - range.min.toNat)).toNat = len - range.min.toNat := by
        rw [UInt32.toNat_ofNat']
        exact Nat.mod_eq_of_lt (by omega)
      rw [hrandom, Nat.mod_eq_of_lt (by omega)]
      omega

variable {cfg : XhttpClientConfig}

theorem paddingValid_request_iff {session : String} {random : UInt32} {call : ClientCall} :
    paddingValid (cfg.request session random call) = true ↔
      cfg.padding.sampleLen random = 0 ∨
        100 ≤ cfg.padding.sampleLen random ∧ cfg.padding.sampleLen random ≤ 1000 := by
  by_cases h : cfg.padding.sampleLen random = 0
  · simp [paddingValid, XhttpClientConfig.request, paddingHeader, h]
  · simp [paddingValid, XhttpClientConfig.request, paddingHeader, h, paddingLenValid]

/-- The server accepts the padding of every request the client sends. -/
def PaddingAgrees (cfg : XhttpClientConfig) : Prop :=
  ∀ (session : String) (random : UInt32) (call : ClientCall),
    call.sentIn cfg.resolvedMode = true → paddingValid (cfg.request session random call) = true

/-- A range of the client inside the server's, or padding switched off. -/
def RangeOk : Option (UInt32 × UInt32) → Prop
  | none => True
  | some (min, max) => (min = 0 ∧ max = 0) ∨ (100 ≤ min ∧ max ≤ 1000)

theorem paddingAgrees_iff (h : cfg.padding.min ≤ cfg.padding.max) :
    PaddingAgrees cfg ↔ ∀ len, cfg.padding.min.toNat ≤ len → len ≤ cfg.padding.max.toNat →
      len = 0 ∨ 100 ≤ len ∧ len ≤ 1000 := by
  constructor
  · intro hagrees len hmin hmax
    obtain ⟨random, rfl⟩ := (sampleLen_iff h).mpr ⟨hmin, hmax⟩
    obtain ⟨call, hcall⟩ := cfg.exists_sentIn
    exact paddingValid_request_iff.mp (hagrees "" random call hcall)
  · intro hall session random call _
    obtain ⟨hmin, hmax⟩ := (sampleLen_iff h).mp ⟨random, rfl⟩
    exact paddingValid_request_iff.mpr (hall _ hmin hmax)

/-- For every configuration that validation accepts: the server accepts the padding of all
    requests exactly if all lengths of the range pass its test. -/
theorem padding_agrees_iff (henabled : remote.xhttp.enabled = true)
    (haccepted : parseRemoteXhttp remote.xhttp = .ok ()) :
    ∃ cfg, xhttpClientConfig (some remote) = .ok (some cfg) ∧
      (PaddingAgrees cfg ↔ RangeOk remote.xhttp.xPaddingBytes) := by
  obtain ⟨hle, cfg, hcfg, hpadding⟩ := exists_xhttpClientConfig henabled haccepted
  refine ⟨cfg, hcfg, ?_⟩
  rw [paddingAgrees_iff (hpadding ▸ hle), hpadding]
  have hle' := UInt32.le_iff_toNat_le.mp hle
  rcases hpad : remote.xhttp.xPaddingBytes with - | ⟨min, max⟩
  · simp only [RangeOk, iff_true]
    intro len hmin hmax
    simp only [RemoteXhttpConfig.range, hpad, PaddingRange.default] at hmin hmax
    exact .inr ⟨hmin, hmax⟩
  · simp only [RemoteXhttpConfig.range, hpad] at hle' ⊢
    simp only [RangeOk, ← UInt32.toNat_inj, UInt32.le_iff_toNat_le]
    show (∀ len, min.toNat ≤ len → len ≤ max.toNat → len = 0 ∨ 100 ≤ len ∧ len ≤ 1000) ↔
      min.toNat = 0 ∧ max.toNat = 0 ∨ 100 ≤ min.toNat ∧ max.toNat ≤ 1000
    constructor
    · intro hall
      have hfirst := hall min.toNat le_rfl hle'
      have hlast := hall max.toNat hle' le_rfl
      have hone := hall 1
      omega
    · intro hrange len hmin hmax
      omega

def sampleRemote (xPaddingBytes : Option (UInt32 × UInt32)) : RemoteConfig where
  server := "proxy.example:443"
  tlsServerName := none
  realityServerName := none
  xhttp := ⟨true, "/xhttp", "stream-one", none, xPaddingBytes⟩

theorem padding_agrees_sample :
    ∃ cfg, xhttpClientConfig (some (sampleRemote (some (200, 800)))) = .ok (some cfg) ∧
      PaddingAgrees cfg := by
  obtain ⟨cfg, hcfg, hagrees⟩ :=
    @padding_agrees_iff (sampleRemote (some (200, 800))) rfl (by decide +kernel)
  exact ⟨cfg, hcfg, hagrees.mpr (.inr (by decide))⟩

theorem short_padding_refused :
    parseRemoteXhttp (sampleRemote (some (1, 1))).xhttp = .ok () ∧
    ∃ cfg, xhttpClientConfig (some (sampleRemote (some (1, 1)))) = .ok (some cfg) ∧
      ClientCall.streamOne.sentIn cfg.resolvedMode = true ∧
      paddingValid (cfg.request "" 0 .streamOne) = false ∧
      route .auto (cfg.request "" 0 .streamOne) = .answer (errorResponse BAD_REQUEST) := by
  refine ⟨by decide +kernel, _, rfl, by decide +kernel, by decide +kernel, by decide +kernel⟩

end SkadiCore.Client
