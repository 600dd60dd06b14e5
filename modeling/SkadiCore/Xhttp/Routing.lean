import Mathlib.Data.List.TakeWhile
import SkadiCore.Reality.HelloAad
import SkadiCore.Xhttp.Client
import SkadiCore.Xhttp.Server

/-!
# Paths of XHTTP requests

What `handle_request` and `extract_meta` (`crates/skadi-transport/src/xhttp/accept.rs`,
lines 132-186, and `xhttp/common.rs`, lines 15-25) make of the paths that a client builds, and
of paths outside the configured one.

* `extractMeta_base`, `extractMeta_session`, `extractMeta_packet`: the path of a client is
  taken apart into what it was put together from, whatever slashes the configured path has.
* `recognised`: a request that passes the tests of method, host and padding gets to the
  handler that its client means.
-/

namespace SkadiCore.Xhttp

/-! ## What `extract_meta` returns -/

theorem trimSlashes_eq {s : List Char} (hhead : s.head? ≠ some '/')
    (hlast : s.getLast? ≠ some '/') :
    trimSlashes s = s := by
  have hdrop : ∀ l : List Char, l.head? ≠ some '/' → l.dropWhile (· = '/') = l := by
    intro l hl
    cases l with
    | nil => rfl
    | cons c l =>
      have hc : c ≠ '/' := by simpa using hl
      simp [hc]
  have hlast' : s.reverse.head? ≠ some '/' := by rwa [List.head?_reverse]
  rw [trimSlashes, hdrop s hhead, hdrop _ hlast', List.reverse_reverse]

theorem trimSlashes_cons (s : List Char) : trimSlashes ('/' :: s) = trimSlashes s := by
  simp [trimSlashes]

variable {path : String}

theorem extractMeta_append {base suffix : List Char} (h : path.toList = base ++ suffix) :
    extractMeta path base =
      if trimSlashes suffix = [] then ("", "")
      else (.ofList (((trimSlashes suffix).splitOn '/').headD []),
        .ofList (((trimSlashes suffix).splitOn '/').tail.headD [])) := by
  have hdrop : path.toList.dropPrefix? base = some suffix := by
    rw [h]
    exact List.dropPrefix?_append_of_beq suffix (beq_self_eq_true base)
  simp only [extractMeta, hdrop, Option.getD_some]

variable {base : List Char}

theorem extractMeta_base (h : path.toList = base) : extractMeta path base = ("", "") := by
  have hpath : path.toList = base ++ [] := by rw [h, List.append_nil]
  rw [extractMeta_append hpath]
  rfl

variable {session : String}

theorem Segment.ends (h : Segment session) :
    session.toList ≠ [] ∧ session.toList.head? ≠ some '/' ∧ session.toList.getLast? ≠ some '/' := by
  obtain ⟨hne, hslash⟩ := h
  refine ⟨by simpa using hne, ?_, ?_⟩
  · intro hhead
    exact hslash (List.mem_of_head? hhead)
  · intro hlast
    exact hslash (List.mem_of_getLast? hlast)

theorem extractMeta_session (hs : Segment session)
    (h : path.toList = base ++ '/' :: session.toList) :
    extractMeta path base = (session, "") := by
  obtain ⟨hne, hhead, hlast⟩ := hs.ends
  have hsplit : session.toList.splitOn '/' = [session.toList] := by
    rw [List.splitOn_eq_splitOnP]
    apply List.splitOnP_eq_singleton
    intro c hc
    have : c ≠ '/' := by rintro rfl; exact hs.2 hc
    simpa using this
  rw [extractMeta_append h, trimSlashes_cons, trimSlashes_eq hhead hlast, if_neg hne, hsplit]
  simp

theorem slash_not_mem_toDigits (n : ℕ) : '/' ∉ Nat.toDigits 10 n := by
  intro h
  have := Nat.isDigit_of_mem_toDigits (by norm_num) le_rfl h
  exact absurd this (by decide)

theorem extractMeta_packet {n : ℕ} (hs : Segment session)
    (h : path.toList = base ++ '/' :: session.toList ++ '/' :: Nat.toDigits 10 n) :
    extractMeta path base = (session, .ofList (Nat.toDigits 10 n)) := by
  obtain ⟨hne, hhead, -⟩ := hs.ends
  have hdigits : Nat.toDigits 10 n ≠ [] := Nat.toDigits_ne_nil
  have hslash : ∀ {s : List Char}, '/' ∉ s → ∀ c ∈ s, (c == '/') = false := by
    intro s hs c hc
    have : c ≠ '/' := by rintro rfl; exact hs hc
    simpa using this
  have hsplit : (session.toList ++ '/' :: Nat.toDigits 10 n).splitOn '/' =
      [session.toList, Nat.toDigits 10 n] := by
    rw [List.splitOn_eq_splitOnP,
      List.splitOnP_append_cons_of_forall_mem (hslash hs.2) '/' (by simp),
      List.splitOnP_eq_singleton (hslash (slash_not_mem_toDigits n))]
  have htrim : trimSlashes ('/' :: (session.toList ++ '/' :: Nat.toDigits 10 n)) =
      session.toList ++ '/' :: Nat.toDigits 10 n := by
    rw [trimSlashes_cons, trimSlashes_eq]
    · rw [List.head?_append_of_ne_nil _ hne]
      exact hhead
    · intro hlast
      rw [List.getLast?_append_of_ne_nil _ (by simp), List.getLast?_cons_of_ne_nil hdigits] at hlast
      exact slash_not_mem_toDigits n (List.mem_of_getLast? hlast)
  rw [extractMeta_append (by rw [h, List.append_assoc, List.cons_append]), htrim,
    if_neg (by simp), hsplit]
  simp

theorem parseU64_toDigits {n : ℕ} (hn : n < 2 ^ 64) :
    parseU64 (.ofList (Nat.toDigits 10 n)) = some n := by
  have hdigit : ∀ c ∈ Nat.toDigits 10 n, c.isDigit = true := fun c hc =>
    Nat.isDigit_of_mem_toDigits (by norm_num) le_rfl hc
  have hplus : (Nat.toDigits 10 n).head? ≠ some '+' := by
    intro h
    exact absurd (hdigit _ (List.mem_of_head? h)) (by decide)
  have hvalue : (Nat.toDigits 10 n).foldl (fun n c => 10 * n + (c.toNat - '0'.toNat)) 0 = n :=
    Nat.ofDigitChars_ten_toDigits
  simp only [parseU64, String.toList_ofList, if_neg hplus, hvalue, if_pos hn]
  rw [if_pos ⟨Nat.toDigits_ne_nil, List.all_eq_true.mpr hdigit⟩]

/-! ## Requests to the configured path -/

/-- The request is answered before its path is looked at. -/
def Refused (config : XhttpConfig) (req : Request) : Prop :=
  req.method = .options ∨ hostMatches config.host req = false ∨ paddingValid req = false

/-- The route the client means by a call. -/
def ClientCall.Means (session : String) (r : Route) : ClientCall → Prop
  | streamOne => r = .streamOne
  | downlink | uplink => r = .streamUp session
  | packet seq => ∃ digits, r = .packetUp session digits ∧ parseU64 digits = some seq.toNat

/-- A client's call with this path is routed as that call, unless it is refused. -/
def Recognised (config : XhttpConfig) (req : Request) : Prop :=
  ∀ (cfg : XhttpClientConfig) (session : String) (call : ClientCall), cfg.path = config.path →
    Segment session → req.path.toList = call.path cfg.normalizedPath session →
      ¬ Refused config req → call.Means session (route config req)

variable {config : XhttpConfig} {req : Request}

theorem route_inside (hbase : config.normalizedPath <+: req.path.toList)
    (h : ¬ Refused config req) :
    route config req =
      if (extractMeta req.path config.normalizedPath).1 = "" then .streamOne
      else if (extractMeta req.path config.normalizedPath).2 ≠ "" then
        .packetUp (extractMeta req.path config.normalizedPath).1
          (extractMeta req.path config.normalizedPath).2
      else .streamUp (extractMeta req.path config.normalizedPath).1 := by
  simp only [Refused, not_or, Bool.not_eq_false] at h
  obtain ⟨hmethod, hhost, hpadding⟩ := h
  simp only [route, if_neg hmethod, hbase, hhost, hpadding, not_true_eq_false, if_false]

theorem recognised (config : XhttpConfig) (req : Request) : Recognised config req := by
  intro cfg session call hcfg hs hpath hrefused
  rw [XhttpClientConfig.normalizedPath_eq hcfg] at hpath
  cases call with
  | streamOne =>
    show route config req = .streamOne
    have hpath : req.path.toList = config.normalizedPath := hpath
    rw [route_inside (by rw [hpath]) hrefused, extractMeta_base hpath]
    simp
  | downlink | uplink =>
    show route config req = .streamUp session
    rw [route_inside ⟨_, hpath.symm⟩ hrefused, extractMeta_session hs hpath]
    simp [hs.1]
  | packet seq =>
    have hpath : req.path.toList =
      config.normalizedPath ++ '/' :: session.toList ++ '/' :: Nat.toDigits 10 seq.toNat := hpath
    refine ⟨.ofList (Nat.toDigits 10 seq.toNat), ?_, parseU64_toDigits seq.toNat_lt⟩
    have hdigits : String.ofList (Nat.toDigits 10 seq.toNat) ≠ "" := by
      simp [Nat.toDigits_ne_nil]
    rw [route_inside ⟨_, by rw [hpath, List.append_assoc]⟩ hrefused, extractMeta_packet hs hpath]
    simp [hs.1, hdigits]

/-! ## Requests to other paths -/

/-- The path is the base or below it. -/
def Inside (base path : List Char) : Prop :=
  path = base ∨ (if base.getLast? = some '/' then base else base ++ ['/']) <+: path

instance (base path : List Char) : Decidable (Inside base path) :=
  inferInstanceAs (Decidable (_ ∨ _))

theorem route_not_found_iff : route config req = .answer (errorResponse NOT_FOUND) ↔
    req.method ≠ .options ∧
      (¬ config.normalizedPath <+: req.path.toList ∨ hostMatches config.host req = false) := by
  have hbad : errorResponse BAD_REQUEST ≠ errorResponse NOT_FOUND := by decide
  have hoptions : optionsResponse ≠ errorResponse NOT_FOUND := by decide
  unfold route
  dsimp only
  split_ifs with hmethod hbase hhost hpadding hid hseq
  · simp [hmethod, hoptions]
  · simp [hbase, hhost]
  · simp [hbase, hhost]
  · simp [hbase, hhost]
  · simp [hbad, hbase, hhost]
  · simp [hmethod, hhost]
  · simp [hmethod, hbase]

namespace XhttpServer

variable {s : XhttpServer} {c : ℕ} {random : UInt32}

theorem respond_ne {t : XhttpServer} {method : Method} {response : Response}
    (ht : t.answers = s.answers) (hstatus : response.status ≠ NOT_FOUND) :
    t.respond c method response ≠ s.respond c req.method (errorResponse NOT_FOUND) := by
  intro h
  have hanswers := congrArg XhttpServer.answers h
  simp only [respond, ht, List.append_cancel_left_eq, List.cons.injEq, Answer.mk.injEq] at hanswers
  rw [hanswers.1.2.2] at hstatus
  exact hstatus rfl

theorem streaming_status_ne (config : XhttpConfig) (random : UInt32) :
    (streaming config random).status ≠ NOT_FOUND := by
  show OK ≠ NOT_FOUND
  decide

theorem handleStreamUp_ne {sid : String} : handleStreamUp config s c req.method sid random ≠
    s.respond c req.method (errorResponse NOT_FOUND) := by
  unfold handleStreamUp
  dsimp only
  split
  · unfold handleGet
    split_ifs
    · exact respond_ne rfl (by decide)
    · exact respond_ne rfl (streaming_status_ne config random)
    · exact respond_ne rfl (by decide)
  · unfold handlePost
    split_ifs
    · exact respond_ne rfl (by decide)
    · exact respond_ne rfl (by decide)
  · exact respond_ne rfl (by decide)

theorem handleRequest_not_found_iff :
    handleRequest config s c req random = s.respond c req.method (errorResponse NOT_FOUND) ↔
      route config req = .answer (errorResponse NOT_FOUND) := by
  constructor
  swap
  · intro h
    simp only [handleRequest, h]
  intro h
  cases hroute : route config req with
  | answer response =>
    simp only [handleRequest, hroute] at h
    have hanswers := congrArg XhttpServer.answers h
    simp only [respond, List.append_cancel_left_eq, List.cons.injEq, Answer.mk.injEq] at hanswers
    rw [hanswers.1.2.2]
  | streamOne =>
    simp only [handleRequest, hroute, handleStreamOne] at h
    split_ifs at h
    · exact absurd h (respond_ne rfl (by decide))
    · exact absurd h (respond_ne rfl (streaming_status_ne config random))
  | packetUp sid seq =>
    simp only [handleRequest, hroute, handlePacketUp] at h
    split_ifs at h
    · exact absurd h (respond_ne rfl (by decide))
    · exact absurd h (respond_ne rfl (by decide))
    · cases hseq : parseU64 seq with
      | none =>
        simp only [hseq] at h
        exact absurd h (respond_ne rfl (by decide))
      | some n =>
        simp only [hseq] at h
        have hanswers := congrArg XhttpServer.answers h
        simp [respond] at hanswers
  | streamUp sid =>
    simp only [handleRequest, hroute] at h
    exact absurd h handleStreamUp_ne

/-- Every request of every client is routed as it is meant; and a request to a path outside
    the configured one is answered with 404, and leaves everything as it is, exactly if its
    method is not `OPTIONS` and its path does not begin with the text of the configured one, or
    its host does not match. -/
theorem routes_iff (config : XhttpConfig) (s : XhttpServer) (c : ℕ) (req : Request)
    (random : UInt32) :
    (Recognised config req ∧
      (¬ Inside config.normalizedPath req.path.toList →
        handleRequest config s c req random =
          s.respond c req.method (errorResponse NOT_FOUND))) ↔
      (¬ Inside config.normalizedPath req.path.toList → req.method ≠ .options ∧
        (¬ config.normalizedPath <+: req.path.toList ∨ hostMatches config.host req = false)) := by
  rw [and_iff_right (recognised config req)]
  refine imp_congr_right fun _ => ?_
  rw [handleRequest_not_found_iff, route_not_found_iff]

theorem neighbour_served :
    XhttpConfig.auto.normalizedPath = "/xhttp".toList ∧
    ¬ Inside "/xhttp".toList "/xhttpfoo".toList ∧
    route .auto (.plain .post "/xhttpfoo") = .streamUp "foo" ∧
    ((handleRequest .auto .new 0 (.plain .post "/xhttpfoo") 0).answers.map (·.response.status) =
      [OK]) ∧
    (handleRequest .auto .new 0 (.plain .post "/xhttpfoo") 0).reg.registry.lookup "foo" = some 0 ∧
    XhttpServer.new.reg.registry.lookup "foo" = none := by
  refine ⟨by decide +kernel, by decide +kernel, by decide +kernel, by decide +kernel,
    by decide +kernel, by decide +kernel⟩

end XhttpServer

/-! ## Sessions of different clients -/

def Route.sessionId : Route → Option String
  | .packetUp sid _ | .streamUp sid => some sid
  | .answer _ | .streamOne => none

theorem randomSessionId_inj {bytes bytes' : List.Vector Byte 16}
    (h : randomSessionId bytes = randomSessionId bytes') : bytes = bytes' := by
  have hhex : Reality.hexEncode bytes.val = Reality.hexEncode bytes'.val := by
    simpa [randomSessionId] using congrArg String.toList h
  have hinit : bytes.val <+: bytes'.val := by
    refine Reality.prefix_of_hexEncode ?_
    rw [hhex]
  exact Subtype.ext ((List.prefix_iff_eq_take.mp hinit).trans
    (List.take_of_length_le (by rw [bytes.property, bytes'.property])))

theorem ClientCall.Means.sessionId {call : ClientCall} {r : Route} {sid : String}
    (h : call.Means session r) (hr : r.sessionId = some sid) : sid = session := by
  cases call with
  | streamOne =>
    cases h
    cases hr
  | downlink | uplink =>
    cases h
    exact (Option.some.inj hr).symm
  | packet seq =>
    obtain ⟨digits, rfl, -⟩ := h
    exact (Option.some.inj hr).symm

variable {cfg : XhttpClientConfig}

theorem mem_normalizedPath {c : Char} (h : c ∈ cfg.normalizedPath) :
    c = '/' ∨ c ∈ cfg.path.toList ∧ c ≠ '?' := by
  have htake {c : Char} (h : c ∈ cfg.path.toList.takeWhile (· ≠ '?')) :
      c ∈ cfg.path.toList ∧ c ≠ '?' :=
    ⟨(List.takeWhile_prefix _).mem h, by simpa using List.mem_takeWhile_imp h⟩
  unfold XhttpClientConfig.normalizedPath at h
  dsimp only at h
  split_ifs at h
  · exact .inr (htake h)
  · exact (List.mem_cons.mp h).imp_right fun h => htake ((List.dropWhile_suffix _).mem h)

/-- The server sees the path that the client means. -/
theorem uriPath_path (hpath : ∀ c ∈ cfg.path.toList, uriChar c = true) (bytes : List.Vector Byte 16)
    (call : ClientCall) :
    uriPath (call.path cfg.normalizedPath (randomSessionId bytes)) =
      call.path cfg.normalizedPath (randomSessionId bytes) := by
  have hbase : ∀ c ∈ cfg.normalizedPath, c ≠ '?' ∧ c ≠ '#' := by
    intro c hc
    obtain rfl | ⟨hmem, hquery⟩ := mem_normalizedPath hc
    · decide
    · exact ⟨hquery, by rintro rfl; exact absurd (hpath _ hmem) (by decide)⟩
  have hsession : ∀ c ∈ '/' :: (randomSessionId bytes).toList, c ≠ '?' ∧ c ≠ '#' := by
    intro c hc
    obtain rfl | hc := List.mem_cons.mp hc
    · decide
    · obtain ⟨n, rfl⟩ := digit_of_mem_session hc
      exact ⟨Nat.digitChar_ne '?' rfl, Nat.digitChar_ne '#' rfl⟩
  have hseq (seq : UInt64) : ∀ c ∈ '/' :: Nat.toDigits 10 seq.toNat, c ≠ '?' ∧ c ≠ '#' := by
    intro c hc
    obtain rfl | hc := List.mem_cons.mp hc
    · decide
    · have hdigit := Nat.isDigit_of_mem_toDigits (by decide) (by decide) hc
      constructor <;> (rintro rfl; exact absurd hdigit (by decide))
  refine List.takeWhile_eq_self_iff.mpr fun c hc => ?_
  have hplain : c ≠ '?' ∧ c ≠ '#' := by
    cases call with
    | streamOne => exact hbase c hc
    | downlink | uplink => exact (List.mem_append.mp hc).elim (hbase c) (hsession c)
    | packet seq =>
      obtain hc | hc := List.mem_append.mp hc
      · exact (List.mem_append.mp hc).elim (hbase c) (hsession c)
      · exact hseq seq c hc
  simpa using hplain

/-- Two clients of a server with a path of URI characters, each with a session id of its own
    random bytes: the requests of both are routed as they are meant, and no request of one gets
    to a session of the other. -/
theorem sessions_apart {config : XhttpConfig} {cfg cfg' : XhttpClientConfig}
    {bytes bytes' : List.Vector Byte 16} {random random' : UInt32} {call call' : ClientCall}
    (hpath : ∀ c ∈ config.path.toList, uriChar c = true)
    (hcfg : cfg.path = config.path) (hcfg' : cfg'.path = config.path)
    (h : ¬ Refused config (cfg.request (randomSessionId bytes) random call))
    (h' : ¬ Refused config (cfg'.request (randomSessionId bytes') random' call')) :
    let r := route config (cfg.request (randomSessionId bytes) random call)
    let r' := route config (cfg'.request (randomSessionId bytes') random' call')
    call.Means (randomSessionId bytes) r ∧ call'.Means (randomSessionId bytes') r' ∧
      (bytes ≠ bytes' → ∀ sid ∈ r.sessionId, r'.sessionId ≠ some sid) := by
  intro r r'
  have hmeans : call.Means (randomSessionId bytes) r :=
    recognised config _ cfg _ call hcfg (randomSessionId_segment bytes)
      (String.toList_ofList.trans (uriPath_path (hcfg ▸ hpath) bytes call)) h
  have hmeans' : call'.Means (randomSessionId bytes') r' :=
    recognised config _ cfg' _ call' hcfg' (randomSessionId_segment bytes')
      (String.toList_ofList.trans (uriPath_path (hcfg' ▸ hpath) bytes' call')) h'
  refine ⟨hmeans, hmeans', fun hne sid hsid hsid' => hne (randomSessionId_inj ?_)⟩
  rw [← hmeans.sessionId hsid, ← hmeans'.sessionId hsid']

theorem sessions_apart_two :
    let cfg : XhttpClientConfig := ⟨"/xhttp", "", .auto, .default⟩
    let r := route .auto (cfg.request (randomSessionId (.replicate 16 1)) 0 .uplink)
    let r' := route .auto (cfg.request (randomSessionId (.replicate 16 2)) 0 (.packet 0))
    ∃ sid ∈ r.sessionId, r'.sessionId ≠ some sid := by
  intro cfg r r'
  have hrefused : ∀ b call, (b, call) = (1, ClientCall.uplink) ∨ (b, call) = (2, .packet 0) →
      ¬ Refused .auto (cfg.request (randomSessionId (.replicate 16 b)) 0 call) := by
    rintro b call (h | h) <;> cases h <;>
      exact not_or.mpr ⟨by decide, not_or.mpr ⟨by decide +kernel, by decide +kernel⟩⟩
  obtain ⟨hmeans, -, hapart⟩ := sessions_apart (List.all_eq_true.mp (by decide +kernel)) rfl rfl
    (hrefused _ _ (.inl rfl)) (hrefused _ _ (.inr rfl))
  have hsid : r.sessionId = some (randomSessionId (.replicate 16 1)) := congrArg _ hmeans
  exact ⟨_, hsid, hapart (by decide) _ hsid⟩

end SkadiCore.Xhttp
