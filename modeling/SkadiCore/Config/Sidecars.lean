import SkadiCore.Common.YamlLines
import SkadiCore.Config.Transports

/-!
# The configurations of Hysteria2 and TUIC

Model of the documents for the programs beside the server and the client
(`crates/skadi-transport/src/hysteria2/render.rs` and `tuic/render.rs`), and what the formats
make of them: YAML 1.2, TOML 1.0 and JSON. A document means its configuration if its values
are the configured strings and all else is that of the template.

**Only some values are escaped, and some that are need more.** `render_server_yaml` writes every
value as it is, and so does `render_server_toml` except for the password; neither of the clients
escapes control characters. `yaml_quote` leaves `true`, `null` or a text with a line break without
quotes, and an IPv6 address in brackets at the start of a value is a sequence.
-/

namespace SkadiCore.Config

open Yaml (PlainSafe Text Line)

/-! ## The documents -/

structure Hysteria2ClientConfig where
  server : String
  password : String
  socks5Listen : String
  httpListen : Option String
  sni : Option String
  caFile : Option String
  insecure : Bool
  pinSha256 : Option String
  bandwidthUp : Option String
  bandwidthDown : Option String

structure TuicClientConfig where
  server : String
  uuid : String
  password : String
  socks5Listen : String
  ip : Option String
  congestionControl : String
  alpn : List String
  udpRelayMode : String
  allowInsecure : Bool

def present (value : Option String) : List String :=
  value.toList.filter fun v => !(trim v).isEmpty

theorem length_trim_le (s : String) : (trim s).toList.length ≤ s.toList.length := by
  rw [trim, String.toList_ofList, List.length_reverse]
  refine (List.dropWhile_suffix _).length_le.trans ?_
  rw [List.length_reverse]
  exact (List.dropWhile_suffix _).length_le

theorem length_self_le (s : String) : s.toList.length ≤ s.toList.length := le_rfl

def needsQuotes (value : String) : Bool :=
  value.isEmpty || value.toList.any (":# \"'".toList.contains ·) ||
    value.toList.head?.any Char.isDigit

def yamlQuote (value text : String) (h : text.toList.length ≤ value.toList.length) : Text :=
  if needsQuotes text then .quoted value.toList text.toList
  else .plain value.toList text.toList h

def yamlLine (indent : ℕ) (key : String) (text : Text)
    (h : key.toList ≠ [] ∧ key.toList.all Char.isAlphanum = true := by decide) : Line :=
  .entry indent ⟨key.toList, h⟩ text

def plainText (value : String) : Text := .plain value.toList value.toList (length_self_le value)

def quotedText (value : String) : Text := yamlQuote value value (length_self_le value)

def trimmedText (value : String) : Text := yamlQuote value (trim value) (length_trim_le value)

def serverLines (config : Hysteria2ServerConfig) : List Line :=
  [yamlLine 0 "listen" (plainText (listenText config.listen)), .blank, yamlLine 0 "tls" .null,
    yamlLine 2 "cert" (plainText config.certPath), yamlLine 2 "key" (plainText config.keyPath),
    .blank, yamlLine 0 "auth" .null, yamlLine 2 "type" (plainText "password"),
    yamlLine 2 "password" (plainText config.password)] ++
    (present config.masqueradeUrl).flatMap fun url =>
      [.blank, yamlLine 0 "masquerade" .null, yamlLine 2 "type" (plainText "proxy"),
        yamlLine 2 "proxy" .null,
        yamlLine 4 "url" (.plain url.toList (trim url).toList (length_trim_le url)),
        yamlLine 4 "rewriteHost" .yes]

def tlsLines (config : Hysteria2ClientConfig) : List Line :=
  if config.insecure || config.caFile.isSome || config.sni.isSome || config.pinSha256.isSome then
    [.blank, yamlLine 0 "tls" .null] ++
      (present config.sni).map (fun sni => yamlLine 2 "sni" (trimmedText sni)) ++
      (present config.caFile).map (fun ca => yamlLine 2 "ca" (trimmedText ca)) ++
      (if config.insecure then [yamlLine 2 "insecure" .yes] else []) ++
      (present config.pinSha256).map (fun pin => yamlLine 2 "pinSHA256" (trimmedText pin))
  else []

def clientLines (config : Hysteria2ClientConfig) : List Line :=
  [yamlLine 0 "server" (quotedText config.server), yamlLine 0 "auth" (quotedText config.password),
    .blank, yamlLine 0 "socks5" .null, yamlLine 2 "listen" (quotedText config.socks5Listen)] ++
    (present config.httpListen).flatMap (fun http =>
      [.blank, yamlLine 0 "http" .null, yamlLine 2 "listen" (trimmedText http)]) ++
    tlsLines config ++
    if config.bandwidthUp.isSome || config.bandwidthDown.isSome then
      [.blank, yamlLine 0 "bandwidth" .null] ++
        config.bandwidthUp.toList.map (fun up => yamlLine 2 "up" (quotedText up)) ++
        config.bandwidthDown.toList.map (fun down => yamlLine 2 "down" (quotedText down))
    else []

def renderClientYaml (config : Hysteria2ClientConfig) : Except String String :=
  .ok (.ofList ((clientLines config).flatMap Line.chars))

def docText (s : String) : DocPart := .text s.toList

def rawPart (s : String) : DocPart := .raw s.toList

def alpnParts (alpn : List String) : List DocPart := (alpn.map rawPart).intersperse (docText ", ")

def serverParts (config : TuicServerConfig) : List DocPart :=
  [docText "log_level = ", rawPart "warn", docText "\nserver = ", rawPart config.listen.display,
    docText "\nudp_relay_ipv6 = false\ndual_stack = false\n\n[users]\n", rawPart config.uuid,
    docText " = ", .escaped config.password.toList config.password.toList,
    docText "\n\n[tls]\ncertificate = ", rawPart config.certPath,
    docText "\nprivate_key = ", rawPart config.keyPath, docText "\nalpn = ["] ++
    alpnParts config.alpn ++
    [docText "]\n\n[quic.congestion_control]\ncontroller = ", rawPart config.congestionControl,
      docText "\n\n[experimental]\ndrop_loopback = false\ndrop_private = false\n"]

/-- The member `key`, whose value is written as `json_escape` (lines 102-104) of `text`, behind
    what stands in front of it. -/
def jsonMember (before key value text : String) : List DocPart :=
  [docText before, rawPart key, docText ": ", .escaped value.toList text.toList]

def clientParts (config : TuicClientConfig) : List DocPart :=
  [docText "\x7b\n  ", rawPart "relay"] ++
    jsonMember ": \x7b\n    " "server" config.server config.server ++
    jsonMember ",\n    " "uuid" config.uuid config.uuid ++
    jsonMember ",\n    " "password" config.password config.password ++
    jsonMember ",\n    " "udp_relay_mode" config.udpRelayMode config.udpRelayMode ++
    jsonMember ",\n    " "congestion_control" config.congestionControl
      config.congestionControl ++
    [docText ",\n    ", rawPart "alpn", docText ": ["] ++ alpnParts config.alpn ++ [docText "]"] ++
    (present config.ip).flatMap (fun ip => jsonMember ",\n    " "ip" ip (trim ip)) ++
    (if config.allowInsecure then
      [docText ",\n    ", rawPart "skip_cert_verify", docText ": true"] else []) ++
    [docText "\n  \x7d,\n  ", rawPart "local"] ++
    jsonMember ": \x7b\n    " "server" config.socks5Listen config.socks5Listen ++
    [docText "\n  \x7d,\n  ", rawPart "log_level", docText ": ", rawPart "warn",
      docText "\n\x7d\n"]

def renderClientJson (config : TuicClientConfig) : Except String String :=
  .ok (.ofList ((clientParts config).flatMap DocPart.chars))

theorem renderHysteria2Yaml_eq (config : Hysteria2ServerConfig) : renderHysteria2Yaml config =
    .ok (.ofList ((serverLines config).flatMap Line.chars)) := by
  rw [renderHysteria2Yaml, serverLines, present]
  cases config.masqueradeUrl with
  | none =>
    refine congrArg _ (String.toList_inj.mp ?_)
    simp [plainText, yamlLine, Line.chars, Text.chars, toString]
  | some url =>
    simp only [Option.toList_some, List.filter_cons, Bool.not_eq_true', List.filter_nil]
    cases (trim url).isEmpty
    · simp only [Bool.false_eq_true, if_false, if_true]
      refine congrArg _ (String.toList_inj.mp ?_)
      simp [plainText, yamlLine, Line.chars, Text.chars, toString]
    · simp only [Bool.true_eq_false, if_false, if_true]
      refine congrArg _ (String.toList_inj.mp ?_)
      simp [plainText, yamlLine, Line.chars, Text.chars, toString]

theorem toList_escapeTomlString (s : String) :
    (escapeTomlString s).toList = escapeQuotes s.toList := by
  simp [escapeTomlString, escapeQuotes]

theorem chars_alpnParts (alpn : List String) : (alpnParts alpn).flatMap DocPart.chars =
    (", ".intercalate (alpn.map fun s => s!"\"{s}\"")).toList := by
  rw [String.toList_intercalate]
  induction alpn with
  | nil => rfl
  | cons a alpn ih =>
    cases alpn with
    | nil => simp [alpnParts, rawPart, DocPart.chars, List.intercalate, toString]
    | cons b alpn =>
      simp only [List.map_cons, List.intercalate_cons_cons] at ih ⊢
      rw [← ih]
      simp [alpnParts, rawPart, docText, DocPart.chars, toString]

set_option maxRecDepth 4000 in
theorem renderTuicToml_eq (config : TuicServerConfig) : renderTuicToml config =
    .ok (.ofList ((serverParts config).flatMap DocPart.chars)) := by
  rw [renderTuicToml]
  refine congrArg _ (String.toList_inj.mp ?_)
  simp only [String.toList_append, String.toList_ofList, toString, serverParts,
    List.flatMap_append, chars_alpnParts, toList_escapeTomlString]
  simp [docText, rawPart, DocPart.chars]

/-! ## What they mean -/

def tomlRules : QuoteRules where
  raw c := (c == '\t' || 0x20 ≤ c.toNat && c.toNat != 0x7f) && c != '"' && c != '\\'
  escape := escapeTable
    [('b', 8), ('t', 9), ('n', 10), ('f', 12), ('r', 13), ('"', 34), ('\\', 92)]
    [('u', 4), ('U', 8)]

def jsonRules : QuoteRules where
  raw c := 0x20 ≤ c.toNat && c != '"' && c != '\\'
  escape := escapeTable
    [('"', 34), ('\\', 92), ('/', 47), ('b', 8), ('f', 12), ('n', 10), ('r', 13), ('t', 9)]
    [('u', 4)]

/-- The rendered YAML is read as the configured values. -/
def Hysteria2ServerConfig.Means (config : Hysteria2ServerConfig) : Prop :=
  ∃ doc, renderHysteria2Yaml config = .ok doc ∧
    Yaml.read doc.toList = some ((serverLines config).flatMap Line.entries)

/-- The rendered YAML is read as the configured values. -/
def Hysteria2ClientConfig.Means (config : Hysteria2ClientConfig) : Prop :=
  ∃ doc, renderClientYaml config = .ok doc ∧
    Yaml.read doc.toList = some ((clientLines config).flatMap Line.entries)

/-- The rendered TOML is read as the configured values. -/
def TuicServerConfig.Means (config : TuicServerConfig) : Prop :=
  ∃ doc, renderTuicToml config = .ok doc ∧
    ReadsAs tomlRules doc.toList ((serverParts config).flatMap DocPart.tokens)

/-- The rendered JSON is read as the configured values. -/
def TuicClientConfig.Means (config : TuicClientConfig) : Prop :=
  ∃ doc, renderClientJson config = .ok doc ∧
    ReadsAs jsonRules doc.toList ((clientParts config).flatMap DocPart.tokens)

/-- The value, quoted where the renderer quotes it, is read as itself. -/
def QuoteSafe (value : String) : Prop :=
  if needsQuotes value then ∀ c ∈ value.toList, c = '\t' ∨ 0x20 ≤ c.toNat
  else PlainSafe value.toList

@[simp]
theorem yamlQuote_safe_iff {value text : String}
    (h : text.toList.length ≤ value.toList.length) :
    (yamlQuote value text h).Safe ↔ text = value ∧ QuoteSafe value := by
  by_cases heq : text = value
  · subst heq
    rw [yamlQuote, QuoteSafe]
    split_ifs <;> simp [Text.Safe]
  · have hne : text.toList ≠ value.toList := fun h => heq (String.toList_inj.mp h)
    rw [yamlQuote]
    split_ifs <;> simp [Text.Safe, hne, heq]

@[simp]
theorem yamlLine_safe_iff {n : ℕ} {key : String} {text : Text} {h} :
    (yamlLine n key text h).Safe ↔ text.Safe := Iff.rfl

theorem tlsLines_safe_iff (config : Hysteria2ClientConfig) : (∀ l ∈ tlsLines config, l.Safe) ↔
    ∀ v ∈ present config.sni ++ present config.caFile ++ present config.pinSha256,
      trim v = v ∧ QuoteSafe v := by
  rw [tlsLines]
  split_ifs with hneed hinsecure
  · simp only [List.forall_mem_append]
    simp [trimmedText]
  · simp only [List.forall_mem_append]
    simp [trimmedText]
  · simp only [Bool.or_eq_true, Option.isSome_iff_ne_none, not_or, not_not] at hneed
    simp [hneed, present]

/-- Every value is written as YAML reads it. -/
def Hysteria2ClientConfig.Safe (config : Hysteria2ClientConfig) : Prop :=
  (∀ v ∈ [config.server, config.password, config.socks5Listen] ++ config.bandwidthUp.toList ++
    config.bandwidthDown.toList, QuoteSafe v) ∧
  ∀ v ∈ present config.httpListen ++ present config.sni ++ present config.caFile ++
    present config.pinSha256, trim v = v ∧ QuoteSafe v

theorem Hysteria2ClientConfig.means_iff (config : Hysteria2ClientConfig) :
    config.Means ↔ config.Safe := by
  have hbandwidth : (∀ l ∈ if config.bandwidthUp.isSome || config.bandwidthDown.isSome then
      [.blank, yamlLine 0 "bandwidth" .null] ++
        config.bandwidthUp.toList.map (fun up => yamlLine 2 "up" (quotedText up)) ++
        config.bandwidthDown.toList.map (fun down => yamlLine 2 "down" (quotedText down))
      else [], l.Safe) ↔
      ∀ v ∈ config.bandwidthUp.toList ++ config.bandwidthDown.toList, QuoteSafe v := by
    split_ifs with h
    · simp only [List.forall_mem_append]
      simp [quotedText]
    · simp only [Bool.or_eq_true, Option.isSome_iff_ne_none, not_or, not_not] at h
      simp [h]
  rw [Means, Safe, renderClientYaml]
  simp only [Except.ok.injEq, exists_eq_left', String.toList_ofList, Yaml.yaml_template_iff,
    clientLines, List.forall_mem_append, hbandwidth, tlsLines_safe_iff]
  simp only [List.forall_mem_flatMap, List.forall_mem_cons, yamlLine_safe_iff, quotedText,
    trimmedText, yamlQuote_safe_iff, Line.safe_blank, Text.safe_null, true_and]
  simp only [List.not_mem_nil, false_imp_iff, implies_true, and_true]
  tauto

theorem plainText_safe_iff (value : String) : (plainText value).Safe ↔ PlainSafe value.toList := by
  simp [plainText, Text.Safe]

/-- Every value can stand unquoted. -/
def Hysteria2ServerConfig.Safe (config : Hysteria2ServerConfig) : Prop :=
  (∀ v ∈ [listenText config.listen, config.certPath, config.keyPath, config.password],
    PlainSafe v.toList) ∧
  ∀ url ∈ present config.masqueradeUrl, trim url = url ∧ PlainSafe url.toList

theorem Hysteria2ServerConfig.means_iff (config : Hysteria2ServerConfig) :
    config.Means ↔ config.Safe := by
  have hpassword : PlainSafe "password".toList := by decide
  have hproxy : PlainSafe "proxy".toList := by decide
  have hurl : ∀ url, (Text.plain url.toList (trim url).toList (length_trim_le url)).Safe ↔
      trim url = url ∧ PlainSafe url.toList := fun url => by rw [Text.Safe, String.toList_inj]
  rw [Means, Safe, renderHysteria2Yaml_eq]
  simp only [Except.ok.injEq, exists_eq_left', String.toList_ofList, Yaml.yaml_template_iff]
  simp only [serverLines, List.forall_mem_append, List.forall_mem_flatMap, List.forall_mem_cons,
    yamlLine_safe_iff, plainText_safe_iff, hurl, hpassword, hproxy, Line.safe_blank,
    Text.safe_null, Text.safe_yes, List.not_mem_nil, false_imp_iff, implies_true, true_and,
    and_true]

variable {R : QuoteRules} {s : String}

theorem docText_safe (h : s.toList.contains '"' = false) : (docText s).Safe R := by
  simpa [docText, DocPart.Safe] using h

theorem rawPart_safe (h : s.toList.all R.raw = true) :
    (rawPart s).Safe R := List.all_eq_true.mp h

theorem rawPart_safe_iff :
    (rawPart s).Safe R ↔ ∀ c ∈ s.toList, R.raw c = true := Iff.rfl

theorem escaped_safe_iff {value text : String} :
    (DocPart.escaped value.toList text.toList).Safe R ↔
      text = value ∧ ∀ c ∈ value.toList, R.raw c = true ∨ c = '"' ∨ c = '\\' := by
  rw [DocPart.Safe, String.toList_inj]

theorem alpnParts_safe_iff (alpn : List String) :
    (∀ p ∈ alpnParts alpn, p.Safe R) ↔ ∀ v ∈ alpn, ∀ c ∈ v.toList, R.raw c = true := by
  induction alpn with
  | nil => simp [alpnParts]
  | cons a alpn ih =>
    cases alpn with
    | nil => simp [alpnParts, rawPart_safe_iff]
    | cons b alpn =>
      have hcons : alpnParts (a :: b :: alpn) =
          rawPart a :: docText ", " :: alpnParts (b :: alpn) := rfl
      rw [hcons, List.forall_mem_cons, List.forall_mem_cons, ih, List.forall_mem_cons (a := a),
        rawPart_safe_iff]
      exact and_congr_right fun _ => and_iff_right (docText_safe (by decide))

/-- The values have only characters that are written as TOML reads them. -/
def TuicServerConfig.Safe (config : TuicServerConfig) : Prop :=
  (∀ v ∈ [config.listen.display, config.uuid, config.certPath, config.keyPath,
    config.congestionControl] ++ config.alpn, ∀ c ∈ v.toList, tomlRules.raw c = true) ∧
  ∀ c ∈ config.password.toList, tomlRules.raw c = true ∨ c = '"' ∨ c = '\\'

theorem TuicServerConfig.means_iff (config : TuicServerConfig) : config.Means ↔ config.Safe := by
  rw [Means, Safe, renderTuicToml_eq]
  simp only [Except.ok.injEq, exists_eq_left', String.toList_ofList, reads_template_iff]
  simp (disch := decide) only [serverParts, List.forall_mem_append, List.forall_mem_cons,
    alpnParts_safe_iff, docText_safe, rawPart_safe (s := "warn"), true_and]
  simp only [rawPart_safe_iff, escaped_safe_iff, true_and, List.not_mem_nil, false_imp_iff,
    implies_true, and_true]
  tauto

theorem jsonMember_safe_iff {before key value text : String}
    (hbefore : before.toList.contains '"' = false) (hkey : key.toList.all jsonRules.raw = true) :
    (∀ p ∈ jsonMember before key value text, p.Safe jsonRules) ↔
      text = value ∧ ∀ c ∈ value.toList, 0x20 ≤ c.toNat := by
  have hraw : ∀ c : Char, (jsonRules.raw c = true ∨ c = '"' ∨ c = '\\') ↔ 0x20 ≤ c.toNat := by
    intro c
    by_cases hquote : c = '"'
    · simp [hquote]
    · by_cases hback : c = '\\'
      · simp [hback]
      · simp [jsonRules, hquote, hback]
  simp [jsonMember, docText_safe hbefore, rawPart_safe hkey,
    docText_safe (s := ": ") (by decide), escaped_safe_iff, hraw]

/-- The values have only characters that are written as JSON reads them. -/
def TuicClientConfig.Safe (config : TuicClientConfig) : Prop :=
  (∀ v ∈ [config.server, config.uuid, config.password, config.udpRelayMode,
    config.congestionControl, config.socks5Listen] ++ present config.ip,
    ∀ c ∈ v.toList, 0x20 ≤ c.toNat) ∧ (∀ ip ∈ present config.ip, trim ip = ip) ∧
  ∀ v ∈ config.alpn, ∀ c ∈ v.toList, jsonRules.raw c = true

theorem TuicClientConfig.means_iff (config : TuicClientConfig) : config.Means ↔ config.Safe := by
  rw [Means, Safe, renderClientJson]
  have hinsecure : ∀ p ∈ if config.allowInsecure then
      [docText ",\n    ", rawPart "skip_cert_verify", docText ": true"] else [],
      p.Safe jsonRules := by
    split_ifs
    · simp (disch := decide) [docText_safe, rawPart_safe]
    · simp
  simp only [Except.ok.injEq, exists_eq_left', String.toList_ofList, reads_template_iff]
  simp (disch := decide) only [clientParts, List.forall_mem_append, List.forall_mem_cons,
    jsonMember_safe_iff, List.forall_mem_flatMap, alpnParts_safe_iff, docText_safe,
    rawPart_safe, true_and, List.not_mem_nil, false_imp_iff, implies_true, and_true]
  simp only [forall_and, iff_true_intro hinsecure, and_true]
  tauto

/-- For every configuration, each of the four documents means what it says exactly if its values
    are safe there, and those that are trimmed have no white space around them. -/
theorem sidecars_mean_iff (hysteria2 : Hysteria2ServerConfig)
    (hysteria2Client : Hysteria2ClientConfig) (tuic : TuicServerConfig)
    (tuicClient : TuicClientConfig) :
    (hysteria2.Means ↔ hysteria2.Safe) ∧ (hysteria2Client.Means ↔ hysteria2Client.Safe) ∧
      (tuic.Means ↔ tuic.Safe) ∧ (tuicClient.Means ↔ tuicClient.Safe) :=
  ⟨hysteria2.means_iff, hysteria2Client.means_iff, tuic.means_iff, tuicClient.means_iff⟩

def sampleHysteria2 : Hysteria2ServerConfig :=
  ⟨.v4 (ipv4Addr 0 0 0 0) 443, "p\nextra: q", "/cert.pem", "/key.pem", none⟩

theorem password_adds_key : ¬ sampleHysteria2.Means ∧ ∃ doc entries,
    renderHysteria2Yaml sampleHysteria2 = .ok doc ∧ Yaml.read doc.toList = some entries ∧
      entries.getLast? = some ⟨0, "extra".toList, some (.string "q".toList)⟩ := by
  refine ⟨fun h => ?_, _, _, renderHysteria2Yaml_eq _, by rw [String.toList_ofList]; rfl, rfl⟩
  have hpassword := (sampleHysteria2.means_iff.mp h).1 sampleHysteria2.password (by simp)
  exact absurd hpassword (by decide)

end SkadiCore.Config
