import Mathlib.Data.List.TakeWhile
import SkadiCore.Client.XhttpConfig
import SkadiCore.Common.Split
import SkadiCore.Core.AddrParse
import SkadiCore.Xhttp.Routing

/-!
# The addresses of DNS servers

Model of `parse_doh_url` (`crates/skadi-client/src/doh.rs`, lines 75-114) and
`parse_dot_upstream` (`crates/skadi-client/src/dot.rs`, lines 71-104). Texts are their
characters.

* `doh_as_written_iff`, `dot_as_written_iff`: host, port and path are read as they are written
  exactly if the host is not an IPv6 literal and the path is not just `/`.
* `doh_clean_iff`, `dot_clean_iff`: which of the accepted texts give a host without `/`, `[`
  and `]`, and a port that does not stand inside an IPv6 literal.

**Brackets are part of the host.** Both functions cut at the last `:`, so the brackets of
`[::1]:443` stay, and `[::1]` is refused. An IPv6 literal without brackets loses its last
group to the port.

**A path that is just `/` becomes part of the host.** The match of lines 91-94 falls through
to `rest`, which still has the slash (`doh_upstream_misread`).
-/

namespace SkadiCore.Client

/-! ## The parsers -/

/-- The end of both functions: the last `:` separates host and port (`doh.rs`, lines 96-106;
    `dot.rs`, lines 87-97). -/
def hostPort (what : String) (value : List Char) (default : UInt16) (authority : List Char) :
    Except String (List Char × UInt16) :=
  match rsplitOnce ':' authority with
  | some (host, port) => do
    bailIf host.isEmpty s!"invalid {what} host in {String.ofList value}"
    let port ← okOr s!"invalid {what} port in {String.ofList value}" (parseU16 port)
    return (host, port)
  | none => .ok (authority, default)

def HTTPS_SCHEME : List Char := "https://".toList

def DNS_QUERY : List Char := "/dns-query".toList

def TLS_SCHEME : List Char := "tls://".toList

structure ParsedDohUrl where
  host : List Char
  port : UInt16
  path : List Char
  tlsServerName : List Char
  deriving DecidableEq

def dohAuthority (rest : List Char) : List Char × List Char :=
  match splitOnce '/' rest with
  | some (auth, path) => if path ≠ [] then (auth, '/' :: path) else (rest, DNS_QUERY)
  | none => (rest, DNS_QUERY)

/-- `parse_doh_url` (lines 83-114). -/
def parseDohUrl (url : List Char) : Except String ParsedDohUrl := do
  let rest ← okOr s!"DoH server must be an https URL, got {String.ofList url}"
    (stripPrefix HTTPS_SCHEME url)
  bailIf rest.isEmpty "empty DoH URL"
  let (host, port) ← hostPort "DoH URL" url 443 (dohAuthority rest).1
  return ⟨host, port, (dohAuthority rest).2, host⟩

structure ParsedDotUpstream where
  host : List Char
  port : UInt16
  tlsServerName : List Char
  deriving DecidableEq

def withoutTls (value : List Char) : List Char := (stripPrefix TLS_SCHEME value).getD value

/-- `parse_dot_upstream` (lines 78-104). -/
def parseDotUpstream (value : List Char) : Except String ParsedDotUpstream := do
  bailIf (withoutTls value).isEmpty "empty DoT upstream"
  let (host, port) ← hostPort "DoT upstream" (withoutTls value) 853 (withoutTls value)
  return ⟨host, port, host⟩

/-! ## The addresses that are written -/

/-- The text of an IPv6 address. -/
def IsIpv6 (text : List Char) : Prop := ∃ octets, IpAddr.parse (.ofList text) = some (.v6 octets)

def nameChar (c : Char) : Bool := c.isAlphanum || c == '-' || c == '_' || c == '.'

inductive UpstreamHost
  | name (text : List Char) (nonempty : text ≠ []) (chars : text.all nameChar = true)
  | ipv4 (octets : List.Vector Byte 4)
  | ipv6 (text : List Char) (literal : IsIpv6 text)

namespace UpstreamHost

def isIpv6 : UpstreamHost → Bool
  | ipv6 _ _ => true
  | name _ _ _ | ipv4 _ => false

def text : UpstreamHost → List Char
  | name text _ _ | ipv6 text _ => text
  | ipv4 octets => (displayIpv4 octets).toList

def written : UpstreamHost → List Char
  | ipv6 text _ => '[' :: (text ++ [']'])
  | name text _ _ => text
  | ipv4 octets => (displayIpv4 octets).toList

end UpstreamHost

def portText : Option UInt16 → List Char
  | some port => ':' :: Nat.toDigits 10 port.toNat
  | none => []

def pathText : Option (List Char) → List Char
  | some path => '/' :: path
  | none => []

def dohUrl (host : UpstreamHost) (port : Option UInt16) (path : Option (List Char)) : List Char :=
  HTTPS_SCHEME ++ (host.written ++ (portText port ++ pathText path))

def dotUpstream (tls : Bool) (host : UpstreamHost) (port : Option UInt16) : List Char :=
  (if tls then TLS_SCHEME else []) ++ (host.written ++ portText port)

def dohPath : Option (List Char) → List Char
  | none | some [] => DNS_QUERY
  | some path => '/' :: path

/-- A DoH URL is parsed into what it was written from. -/
def DohAsWritten (host : UpstreamHost) (port : Option UInt16) (path : Option (List Char)) : Prop :=
  parseDohUrl (dohUrl host port path) =
    .ok ⟨host.text, port.getD 443, dohPath path, host.text⟩

/-- A DoT upstream is parsed into what it was written from. -/
def DotAsWritten (tls : Bool) (host : UpstreamHost) (port : Option UInt16) : Prop :=
  parseDotUpstream (dotUpstream tls host port) = .ok ⟨host.text, port.getD 853, host.text⟩

/-! ## Host and port -/

section

variable {what : String} {value authority host port : List Char} {default p : UInt16} {c : Char}

theorem hostPort_eq_ok : hostPort what value default authority = .ok (host, p) ↔
    (':' ∉ authority ∧ host = authority ∧ p = default) ∨
      ∃ port, authority = host ++ ':' :: port ∧ ':' ∉ port ∧ host ≠ [] ∧
        parseU16 port = some p := by
  have hcut : (∃ port, authority = host ++ ':' :: port ∧ ':' ∉ port ∧ host ≠ [] ∧
        parseU16 port = some p) ↔
      ∃ port, rsplitOnce ':' authority = some (host, port) ∧ host ≠ [] ∧
        parseU16 port = some p := by
    simp only [rsplitOnce_eq_some_iff, and_assoc]
  rw [hcut, ← rsplitOnce_eq_none_iff, hostPort]
  cases rsplitOnce ':' authority with
  | none => simp [eq_comm]
  | some cut =>
    obtain ⟨host', port⟩ := cut
    simp only [bind_eq_ok, exists_unit, bailIf_eq_ok, List.isEmpty_eq_false_iff, okOr_eq_ok,
      pure, Except.pure, Except.ok.injEq, Prod.mk.injEq, reduceCtorEq, false_and, false_or,
      Option.some.injEq]
    constructor
    · rintro ⟨hne, port', hport, rfl, rfl⟩
      exact ⟨port, ⟨rfl, rfl⟩, hne, hport⟩
    · rintro ⟨_, ⟨rfl, rfl⟩, hne, hport⟩
      exact ⟨hne, p, hport, rfl, rfl⟩

theorem isDigit_of_parseU16 (h : parseU16 port = some p) (hc : c ∈ port) :
    c.isDigit = true ∨ c = '+' := by
  obtain ⟨n, hn, -⟩ := Option.map_eq_some_iff.mp h
  obtain ⟨hn, -⟩ := Option.filter_eq_some_iff.mp hn
  simp only [Xhttp.parseU64, String.toList_ofList, Option.ite_none_right_eq_some] at hn
  obtain ⟨⟨-, hdigits⟩, -⟩ := hn
  rw [List.all_eq_true] at hdigits
  by_cases hplus : port.head? = some '+'
  · obtain ⟨rest, rfl⟩ := List.head?_eq_some_iff.mp hplus
    rcases List.mem_cons.mp hc with rfl | hc
    · exact .inr rfl
    · exact .inl (hdigits c (by simpa using hc))
  · rw [if_neg hplus] at hdigits
    exact .inl (hdigits c hc)

theorem parseU16_toDigits (p : UInt16) : parseU16 (Nat.toDigits 10 p.toNat) = some p := by
  have hp := p.toNat_lt
  rw [parseU16, Xhttp.parseU64_toDigits (by omega), Option.filter_some, if_pos (by simpa using hp)]
  simp

theorem mem_host_iff (h : hostPort what value default authority = .ok (host, p))
    (hdigit : c.isDigit = false) (hplus : c ≠ '+') (hcolon : c ≠ ':') :
    c ∈ host ↔ c ∈ authority := by
  rcases hostPort_eq_ok.mp h with ⟨-, rfl, -⟩ | ⟨port, rfl, -, -, hport⟩
  · rfl
  · have hnot : c ∉ port := fun hc => (isDigit_of_parseU16 hport hc).elim (by simp [hdigit]) hplus
    simp [hcolon, hnot]

end

theorem not_isIpv6_bracket (text : List Char) : ¬ IsIpv6 ('[' :: text) := by
  rintro ⟨octets, h⟩
  rw [IpAddr.parse, AddrParse.parseWith, String.toList_ofList] at h
  have hnone : AddrParse.readIpAddr.run ('[' :: text) = none := rfl
  rw [hnone] at h
  cases h

theorem hostPort_bracket {what : String} {value l host : List Char} {default p : UInt16}
    (h : hostPort what value default ('[' :: l) = .ok (host, p)) : ¬ IsIpv6 host := by
  rcases hostPort_eq_ok.mp h with ⟨-, rfl, -⟩ | ⟨port, hcut, -, hne, -⟩
  · exact not_isIpv6_bracket l
  · cases host with
    | nil => exact absurd rfl hne
    | cons c host =>
      cases hcut
      exact not_isIpv6_bracket host

/-! ## Hosts that are not IPv6 literals -/

namespace UpstreamHost

variable {host : UpstreamHost}

theorem mem_displayIpv4 (octets : List.Vector Byte 4) {c : Char} :
    c ∈ (displayIpv4 octets).toList ↔ (∃ b ∈ octets.val, c ∈ decimal b) ∨ c = '.' := by
  obtain ⟨l, hl⟩ := octets
  obtain ⟨a, b, d, e, rfl⟩ := List.length_eq_four.mp hl
  simp only [displayIpv4, String.toList_ofList, List.map_cons, List.map_nil, List.intercalate,
    List.intersperse, List.flatten_cons, List.flatten_nil, List.mem_append, List.mem_cons,
    List.not_mem_nil, or_false, exists_eq_or_imp, exists_eq_left]
  tauto

theorem text_spec (h : host.isIpv6 = false) : host.written = host.text ∧ host.text ≠ [] ∧
    ∀ c ∈ host.text, nameChar c = true := by
  cases host with
  | name text nonempty chars => exact ⟨rfl, nonempty, List.all_eq_true.mp chars⟩
  | ipv4 octets =>
    refine ⟨rfl, ?_, fun c hc => ?_⟩
    · exact List.ne_nil_of_mem ((mem_displayIpv4 octets).mpr (.inr rfl))
    · rcases (mem_displayIpv4 octets).mp hc with ⟨b, -, hdigit⟩ | rfl
      · have := Nat.isDigit_of_mem_toDigits (by norm_num) le_rfl hdigit
        simp [nameChar, Char.isAlphanum, this]
      · rfl
  | ipv6 text literal => cases h

theorem not_mem_text (h : host.isIpv6 = false) {c : Char} (hc : nameChar c = false) :
    c ∉ host.text := by
  intro hmem
  rw [(text_spec h).2.2 c hmem] at hc
  cases hc

end UpstreamHost

theorem slash_not_mem_portText (port : Option UInt16) : '/' ∉ portText port := by
  cases port with
  | none => simp [portText]
  | some p => simp [portText, Xhttp.slash_not_mem_toDigits]

theorem hostPort_written {host : UpstreamHost} (h : host.isIpv6 = false) (what : String)
    (value : List Char) (default : UInt16) (port : Option UInt16) :
    hostPort what value default (host.text ++ portText port) =
      .ok (host.text, port.getD default) := by
  have hcolon : ':' ∉ host.text := UpstreamHost.not_mem_text h rfl
  rw [hostPort_eq_ok]
  cases port with
  | none => simp [portText, hcolon]
  | some p =>
    refine .inr ⟨_, rfl, fun hc => ?_, (UpstreamHost.text_spec h).2.1, parseU16_toDigits p⟩
    have := Nat.isDigit_of_mem_toDigits (by norm_num) le_rfl hc
    revert this
    decide

/-! ## DNS over HTTPS -/

section

variable {rest a path : List Char} {r : ParsedDohUrl}

theorem dohAuthority_of_not_mem (h : '/' ∉ rest) :
    dohAuthority rest = (rest, DNS_QUERY) := by
  rw [dohAuthority, splitOnce_eq_none_iff.mpr h]

theorem dohAuthority_append (ha : '/' ∉ a) (hpath : path ≠ []) :
    dohAuthority (a ++ '/' :: path) = (a, '/' :: path) := by
  rw [dohAuthority, splitOnce_eq_some_iff.mpr ⟨rfl, ha⟩]
  exact if_pos hpath

theorem dohAuthority_slash (ha : '/' ∉ a) :
    dohAuthority (a ++ ['/']) = (a ++ ['/'], DNS_QUERY) := by
  rw [dohAuthority, splitOnce_eq_some_iff.mpr ⟨rfl, ha⟩]
  exact if_neg (by simp)

theorem parseDohUrl_eq_ok : parseDohUrl (HTTPS_SCHEME ++ rest) = .ok r ↔
    rest ≠ [] ∧ r.path = (dohAuthority rest).2 ∧ r.tlsServerName = r.host ∧
      hostPort "DoH URL" (HTTPS_SCHEME ++ rest) 443 (dohAuthority rest).1 =
        .ok (r.host, r.port) := by
  have hstrip : stripPrefix HTTPS_SCHEME (HTTPS_SCHEME ++ rest) = some rest :=
    stripPrefix_eq_some_iff.mpr rfl
  obtain ⟨host, port, path, tls⟩ := r
  simp only [parseDohUrl, hstrip, bind_eq_ok, okOr_eq_ok, Option.some.injEq, exists_eq_left',
    exists_unit, bailIf_eq_ok, List.isEmpty_eq_false_iff, Prod.exists, pure, Except.pure,
    Except.ok.injEq, ParsedDohUrl.mk.injEq]
  constructor
  · rintro ⟨hne, host', port', hhost, rfl, rfl, rfl, rfl⟩
    exact ⟨hne, rfl, rfl, hhost⟩
  · rintro ⟨hne, rfl, rfl, hhost⟩
    exact ⟨hne, _, _, hhost, rfl, rfl, rfl, rfl⟩

theorem dohAuthority_bracket (l : List Char) : ∃ l', (dohAuthority ('[' :: l)).1 = '[' :: l' := by
  rw [dohAuthority]
  cases hcut : splitOnce '/' ('[' :: l) with
  | none => exact ⟨l, rfl⟩
  | some cut =>
    obtain ⟨auth, path⟩ := cut
    obtain ⟨hl, -⟩ := splitOnce_eq_some_iff.mp hcut
    dsimp only
    split_ifs
    · cases auth with
      | nil => cases hl
      | cons c auth =>
        cases hl
        exact ⟨auth, rfl⟩
    · exact ⟨l, rfl⟩

theorem doh_as_written_iff (host : UpstreamHost) (port : Option UInt16)
    (path : Option (List Char)) :
    DohAsWritten host port path ↔ host.isIpv6 = false ∧ path ≠ some [] := by
  rw [DohAsWritten, dohUrl, parseDohUrl_eq_ok]
  constructor
  · rintro ⟨-, -, -, hhost⟩
    have hv6 : host.isIpv6 = false := by
      cases host with
      | ipv6 text literal =>
        obtain ⟨l, hl⟩ := dohAuthority_bracket (text ++ [']'] ++ (portText port ++ pathText path))
        rw [UpstreamHost.written, List.cons_append, hl] at hhost
        exact absurd literal (hostPort_bracket hhost)
      | name text nonempty chars => rfl
      | ipv4 octets => rfl
    refine ⟨hv6, ?_⟩
    rintro rfl
    have hslash : '/' ∉ host.text := UpstreamHost.not_mem_text hv6 rfl
    have hauthority : '/' ∉ host.text ++ portText port := by
      simp [hslash, slash_not_mem_portText]
    rw [(UpstreamHost.text_spec hv6).1, pathText, ← List.append_assoc host.text,
      dohAuthority_slash hauthority] at hhost
    exact hslash ((mem_host_iff hhost rfl (by decide) (by decide)).mpr (by simp))
  · rintro ⟨hv6, hpath⟩
    obtain ⟨hwritten, hne, -⟩ := UpstreamHost.text_spec hv6
    have hslash : '/' ∉ host.text := UpstreamHost.not_mem_text hv6 rfl
    have hauthority : '/' ∉ host.text ++ portText port := by
      simp [hslash, slash_not_mem_portText]
    have hcut : dohAuthority (host.written ++ (portText port ++ pathText path)) =
        (host.text ++ portText port, dohPath path) := by
      rw [hwritten, ← List.append_assoc]
      rcases path with - | (- | ⟨c, path⟩)
      · simpa [pathText, dohPath] using dohAuthority_of_not_mem hauthority
      · exact absurd rfl hpath
      · exact dohAuthority_append hauthority (by simp)
    rw [hcut]
    exact ⟨by simp [hwritten, hne], rfl, rfl, hostPort_written hv6 _ _ _ _⟩

end

/-! ## DNS over TLS -/

theorem parseDotUpstream_eq_ok {value : List Char} {r : ParsedDotUpstream} :
    parseDotUpstream value = .ok r ↔ withoutTls value ≠ [] ∧ r.tlsServerName = r.host ∧
      hostPort "DoT upstream" (withoutTls value) 853 (withoutTls value) =
        .ok (r.host, r.port) := by
  obtain ⟨host, port, tls⟩ := r
  simp only [parseDotUpstream, bind_eq_ok, exists_unit, bailIf_eq_ok, List.isEmpty_eq_false_iff,
    Prod.exists, pure, Except.pure, Except.ok.injEq, ParsedDotUpstream.mk.injEq]
  constructor
  · rintro ⟨hne, host', port', hhost, rfl, rfl, rfl⟩
    exact ⟨hne, rfl, hhost⟩
  · rintro ⟨hne, rfl, hhost⟩
    exact ⟨hne, _, _, hhost, rfl, rfl, rfl⟩

theorem withoutTls_dotUpstream (tls : Bool) (host : UpstreamHost) (port : Option UInt16) :
    withoutTls (dotUpstream tls host port) = host.written ++ portText port := by
  cases tls with
  | true =>
    have hstrip : stripPrefix TLS_SCHEME (dotUpstream true host port) =
      some (host.written ++ portText port) := stripPrefix_eq_some_iff.mpr rfl
    rw [withoutTls, hstrip, Option.getD_some]
  | false =>
    have hstrip : stripPrefix TLS_SCHEME (dotUpstream false host port) = none := by
      rw [Option.eq_none_iff_forall_ne_some]
      intro rest hrest
      have htext : host.written ++ portText port = TLS_SCHEME ++ rest :=
        stripPrefix_eq_some_iff.mp hrest
      by_cases hv6 : host.isIpv6 = false
      · have hslash : '/' ∈ TLS_SCHEME ++ rest := List.mem_append_left rest (by decide)
        rw [← htext, (UpstreamHost.text_spec hv6).1] at hslash
        rcases List.mem_append.mp hslash with hslash | hslash
        · exact UpstreamHost.not_mem_text hv6 rfl hslash
        · exact slash_not_mem_portText port hslash
      · cases host with
        | ipv6 text literal => cases htext
        | name text nonempty chars => exact hv6 rfl
        | ipv4 octets => exact hv6 rfl
    rw [withoutTls, hstrip]
    rfl

theorem dot_as_written_iff (tls : Bool) (host : UpstreamHost) (port : Option UInt16) :
    DotAsWritten tls host port ↔ host.isIpv6 = false := by
  rw [DotAsWritten, parseDotUpstream_eq_ok, withoutTls_dotUpstream]
  constructor
  · rintro ⟨-, -, hhost⟩
    cases host with
    | ipv6 text literal => exact absurd literal (hostPort_bracket hhost)
    | name text nonempty chars => rfl
    | ipv4 octets => rfl
  · intro hv6
    obtain ⟨hwritten, hne, -⟩ := UpstreamHost.text_spec hv6
    rw [hwritten]
    exact ⟨by simp [hne], rfl, hostPort_written hv6 _ _ _ _⟩

/-! ## Accepted texts -/

/-- The host has no `/`, `[` or `]`, and the port was not taken from inside an IPv6 literal:
    `authority` is the text that host and port were taken from. -/
structure CleanUpstream (authority host : List Char) : Prop where
  slash : '/' ∉ host
  opening : '[' ∉ host
  closing : ']' ∉ host
  literal : ¬ IsIpv6 authority

theorem clean_iff {what : String} {value authority host : List Char} {default p : UInt16}
    (h : hostPort what value default authority = .ok (host, p)) :
    CleanUpstream authority host ↔ CleanUpstream authority authority := by
  have hslash := mem_host_iff (c := '/') h rfl (by decide) (by decide)
  have hopening := mem_host_iff (c := '[') h rfl (by decide) (by decide)
  have hclosing := mem_host_iff (c := ']') h rfl (by decide) (by decide)
  constructor
  · rintro ⟨h1, h2, h3, h4⟩
    exact ⟨hslash.not.mp h1, hopening.not.mp h2, hclosing.not.mp h3, h4⟩
  · rintro ⟨h1, h2, h3, h4⟩
    exact ⟨hslash.not.mpr h1, hopening.not.mpr h2, hclosing.not.mpr h3, h4⟩

def dohText (url : List Char) : List Char := (url.drop HTTPS_SCHEME.length).takeWhile (· ≠ '/')

/-- If this DoH URL is accepted, it was written properly. -/
def CleanDoh (url : List Char) : Prop :=
  ∀ r, parseDohUrl url = .ok r → CleanUpstream (dohText url) r.host

/-- If this DoT upstream is accepted, it was written properly. -/
def CleanDot (value : List Char) : Prop :=
  ∀ r, parseDotUpstream value = .ok r → CleanUpstream (withoutTls value) r.host

theorem dohText_of_not_mem {rest : List Char} (h : '/' ∉ rest) :
    dohText (HTTPS_SCHEME ++ rest) = rest := by
  rw [dohText, List.drop_left, List.takeWhile_eq_self_iff]
  intro c hc
  simpa using fun hslash : c = '/' => h (hslash ▸ hc)

theorem dohText_append {a : List Char} (b : List Char) (h : '/' ∉ a) :
    dohText (HTTPS_SCHEME ++ (a ++ '/' :: b)) = a := by
  have ha := dohText_of_not_mem h
  rw [dohText, List.drop_left, List.takeWhile_eq_self_iff] at ha
  rw [dohText, List.drop_left, List.takeWhile_append_of_pos ha]
  simp

theorem doh_clean_iff {url : List Char} {r : ParsedDohUrl} (h : parseDohUrl url = .ok r) :
    CleanUpstream (dohText url) r.host ↔
      url ≠ HTTPS_SCHEME ++ (dohText url ++ ['/']) ∧ '[' ∉ dohText url ∧ ']' ∉ dohText url ∧
        ¬ IsIpv6 (dohText url) := by
  obtain ⟨rest, rfl⟩ : ∃ rest, url = HTTPS_SCHEME ++ rest := by
    simp only [parseDohUrl, bind_eq_ok, okOr_eq_ok, stripPrefix_eq_some_iff] at h
    obtain ⟨rest, hrest, -⟩ := h
    exact ⟨rest, hrest⟩
  obtain ⟨-, -, -, hhost⟩ := parseDohUrl_eq_ok.mp h
  rw [ne_eq, List.append_cancel_left_eq]
  cases hcut : splitOnce '/' rest with
  | none =>
    have hslash := splitOnce_eq_none_iff.mp hcut
    rw [dohAuthority_of_not_mem hslash] at hhost
    rw [dohText_of_not_mem hslash, clean_iff hhost]
    refine ⟨fun h => ⟨by simp, h.opening, h.closing, h.literal⟩, ?_⟩
    rintro ⟨-, h1, h2, h3⟩
    exact ⟨hslash, h1, h2, h3⟩
  | some cut =>
    obtain ⟨auth, path⟩ := cut
    obtain ⟨rfl, hslash⟩ := splitOnce_eq_some_iff.mp hcut
    rw [dohText_append path hslash]
    by_cases hpath : path = []
    · subst hpath
      rw [dohAuthority_slash hslash] at hhost
      have hmem : '/' ∈ r.host := (mem_host_iff hhost rfl (by decide) (by decide)).mpr (by simp)
      exact iff_of_false (fun h => h.slash hmem) (fun h => h.1 rfl)
    · rw [dohAuthority_append hslash hpath] at hhost
      rw [clean_iff hhost]
      refine ⟨fun h => ⟨by simpa using hpath, h.opening, h.closing, h.literal⟩, ?_⟩
      rintro ⟨-, h1, h2, h3⟩
      exact ⟨hslash, h1, h2, h3⟩

theorem dot_clean_iff {value : List Char} {r : ParsedDotUpstream}
    (h : parseDotUpstream value = .ok r) : CleanUpstream (withoutTls value) r.host ↔
      '/' ∉ withoutTls value ∧ '[' ∉ withoutTls value ∧ ']' ∉ withoutTls value ∧
        ¬ IsIpv6 (withoutTls value) := by
  obtain ⟨-, -, hhost⟩ := parseDotUpstream_eq_ok.mp h
  rw [clean_iff hhost]
  exact ⟨fun ⟨h1, h2, h3, h4⟩ => ⟨h1, h2, h3, h4⟩, fun ⟨h1, h2, h3, h4⟩ => ⟨h1, h2, h3, h4⟩⟩

/-- For every host, port and path, with or without `tls://`, and for every text that is
    accepted. Both functions read what is written exactly if the host is not an IPv6 literal
    and the path is not just `/`. What they accept gives a host without `/`, `[` and `]`, and a
    port that is not part of an IPv6 literal, exactly if the text before the path has no
    bracket, is no IPv6 literal and is not followed by a lone `/`. -/
theorem upstreams_read_iff (tls : Bool) (host : UpstreamHost) (port : Option UInt16)
    (path : Option (List Char)) (url value : List Char) :
    (DohAsWritten host port path ↔ host.isIpv6 = false ∧ path ≠ some []) ∧
      (DotAsWritten tls host port ↔ host.isIpv6 = false) ∧
      (CleanDoh url ↔ (IsOk (parseDohUrl url) →
        url ≠ HTTPS_SCHEME ++ (dohText url ++ ['/']) ∧ '[' ∉ dohText url ∧ ']' ∉ dohText url ∧
          ¬ IsIpv6 (dohText url))) ∧
      (CleanDot value ↔ (IsOk (parseDotUpstream value) →
        '/' ∉ withoutTls value ∧ '[' ∉ withoutTls value ∧ ']' ∉ withoutTls value ∧
          ¬ IsIpv6 (withoutTls value))) := by
  refine ⟨doh_as_written_iff host port path, dot_as_written_iff tls host port, ?_, ?_⟩
  · exact ⟨fun h ⟨r, hr⟩ => (doh_clean_iff hr).mp (h r hr),
      fun h r hr => (doh_clean_iff hr).mpr (h ⟨r, hr⟩)⟩
  · exact ⟨fun h ⟨r, hr⟩ => (dot_clean_iff hr).mp (h r hr),
      fun h r hr => (dot_clean_iff hr).mpr (h ⟨r, hr⟩)⟩

theorem doh_upstream_misread :
    (parseDohUrl "https://dns.google/".toList).map ParsedDohUrl.host =
        .ok "dns.google/".toList ∧
      (parseDohUrl "https://[::1]:8443/dns-query".toList).map ParsedDohUrl.host =
        .ok "[::1]".toList ∧
      parseDohUrl "https://[::1]".toList = .error "invalid DoH URL port in https://[::1]" ∧
      parseDotUpstream "::1:853".toList = .ok ⟨"::1".toList, 853, "::1".toList⟩ ∧
      IsIpv6 "::1:853".toList := by
  refine ⟨by decide +kernel, by decide +kernel, by decide +kernel, by decide +kernel, ?_⟩
  exact ⟨AddrParse.ofGroups [0, 0, 0, 0, 0, 0, 1, 0x853], by decide +kernel⟩

end SkadiCore.Client
