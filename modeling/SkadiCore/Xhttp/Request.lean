import SkadiCore.Common.Bytes

/-!
# XHTTP requests

Model of `crates/skadi-transport/src/xhttp/config.rs`, of the free functions of
`xhttp/common.rs` (lines 15-59) and of `handle_request` (`xhttp/accept.rs`, lines 132-186)
up to the handler it calls: what a request asks for, from its method, path and headers.
-/

namespace SkadiCore.Xhttp

/-! ## Configuration -/

inductive XhttpMode
  | auto
  | packetUp
  | streamUp
  | streamOne
  deriving DecidableEq

namespace XhttpMode

/-- `XhttpMode::parse` (lines 13-21). -/
def parse (s : String) : Option XhttpMode :=
  if s = "" ∨ s = "auto" then some auto
  else if s = "packet-up" then some packetUp
  else if s = "stream-up" then some streamUp
  else if s = "stream-one" then some streamOne
  else none

def allowsStreamOne : XhttpMode → Bool
  | auto | streamOne | streamUp => true
  | packetUp => false

def allowsStreamUp : XhttpMode → Bool
  | auto | streamUp | streamOne => true
  | packetUp => false

def allowsPacketUp : XhttpMode → Bool
  | auto | packetUp => true
  | streamUp | streamOne => false

end XhttpMode

structure PaddingRange where
  min : UInt32
  max : UInt32
  deriving DecidableEq

/-- `sample_len` (lines 51-57), from a random number. -/
def PaddingRange.sampleLen (p : PaddingRange) (random : UInt32) : ℕ :=
  if p.max ≤ p.min then p.min.toNat
  else p.min.toNat + random.toNat % ((p.max - p.min).toNat + 1)

/-- `PaddingRange::default` (lines 61-66). -/
def PaddingRange.default : PaddingRange := ⟨100, 1000⟩

structure XhttpConfig where
  path : String
  host : Option String
  mode : XhttpMode
  padding : PaddingRange
  noSseHeader : Bool
  deriving DecidableEq

/-- `normalized_path` (lines 80-87), as characters. -/
def XhttpConfig.normalizedPath (config : XhttpConfig) : List Char :=
  let path := config.path.toList.takeWhile (· ≠ '?')
  if path.head? = some '/' then path else '/' :: path.dropWhile (· = '/')

def XhttpConfig.auto : XhttpConfig := ⟨"/xhttp", none, .auto, .default, false⟩

/-! ## Requests -/

inductive Method
  | get
  | post
  | options
  | other (name : String)
  deriving DecidableEq

structure Request where
  method : Method
  path : String
  host : Option Bytes
  xPadding : Option Bytes
  referer : Option Bytes

def Request.plain (method : Method) (path : String) : Request := ⟨method, path, none, none, none⟩

def headerToStr (value : Bytes) : Option String :=
  if value.all fun b => (32 ≤ b && b < 127) || b == 9 then
    some (.ofList (value.map fun b => Char.ofNat b.toNat))
  else none

def trimSlashes (s : List Char) : List Char :=
  ((s.dropWhile (· = '/')).reverse.dropWhile (· = '/')).reverse

/-- `extract_meta` (`common.rs`, lines 15-25): the session id and the sequence number. -/
def extractMeta (requestPath : String) (basePath : List Char) : String × String :=
  let suffix := (requestPath.toList.dropPrefix? basePath).getD requestPath.toList
  let trimmed := trimSlashes suffix
  if trimmed = [] then ("", "")
  else
    let parts := trimmed.splitOn '/'
    (.ofList (parts.headD []), .ofList (parts.tail.headD []))

def paddingLenValid (len : ℕ) : Bool := 100 ≤ len && len ≤ 1000

def paddingParam (s : String) : Option (List Char) :=
  (s.toList.tails.findSome? (·.dropPrefix? "x_padding=".toList)).map (·.takeWhile (· ≠ '&'))

/-- `padding_valid` (lines 27-41). -/
def paddingValid (req : Request) : Bool :=
  match req.xPadding with
  | some pad => paddingLenValid pad.length
  | none =>
    match req.referer with
    | some referer =>
      match paddingParam ((headerToStr referer).getD "") with
      | some pad => paddingLenValid pad.length
      | none => true
    | none => true

def eqIgnoreAsciiCase (s t : String) : Bool := toAsciiLowercase s = toAsciiLowercase t

def hostMatches (expected : Option String) (req : Request) : Bool :=
  match expected with
  | none => true
  | some expected =>
    if expected = "" then true
    else
      let requestHost := (req.host.bind headerToStr).getD ""
      eqIgnoreAsciiCase requestHost expected ||
        eqIgnoreAsciiCase (.ofList (requestHost.toList.takeWhile (· ≠ ':'))) expected

/-! ## Responses -/

structure Response where
  status : ℕ
  headers : List (String × String)
  streaming : Bool
  deriving DecidableEq

def OK : ℕ := 200
def BAD_REQUEST : ℕ := 400
def NOT_FOUND : ℕ := 404
def METHOD_NOT_ALLOWED : ℕ := 405
def CONFLICT : ℕ := 409
def PAYLOAD_TOO_LARGE : ℕ := 413

/-- `options_response` (`common.rs`, lines 43-51). -/
def optionsResponse : Response := ⟨OK, [("access-control-allow-origin", "*")], false⟩

/-- `error_response` (lines 53-58). -/
def errorResponse (status : ℕ) : Response := ⟨status, [], false⟩

/-- `streaming_response` (`accept.rs`, lines 333-356), with a padding of `padLen`. -/
def streamingResponse (padLen : ℕ) (noSse : Bool) : Response where
  status := OK
  headers :=
    [("access-control-allow-origin", "*"), ("x-accel-buffering", "no"),
      ("cache-control", "no-store")] ++
    (if noSse then [] else [("content-type", "text/event-stream")]) ++
    (if padLen > 0 then [("x-padding", .ofList (List.replicate padLen 'X'))] else [])
  streaming := true

def packetResponse : Response := ⟨OK, [("cache-control", "no-store")], false⟩

def postResponse : Response :=
  ⟨OK, [("x-accel-buffering", "no"), ("cache-control", "no-store")], false⟩

/-! ## Routing -/

inductive Route
  | answer (response : Response)
  | streamOne
  | packetUp (sessionId seq : String)
  | streamUp (sessionId : String)
  deriving DecidableEq

/-- `handle_request` (`accept.rs`, lines 132-186). -/
def route (config : XhttpConfig) (req : Request) : Route :=
  let path := config.normalizedPath
  if req.method = .options then .answer optionsResponse
  else if ¬ path <+: req.path.toList then .answer (errorResponse NOT_FOUND)
  else if ¬ hostMatches config.host req then .answer (errorResponse NOT_FOUND)
  else if ¬ paddingValid req then .answer (errorResponse BAD_REQUEST)
  else
    let (sessionId, seq) := extractMeta req.path path
    if sessionId = "" then .streamOne
    else if seq ≠ "" then .packetUp sessionId seq
    else .streamUp sessionId

def parseU64 (s : String) : Option ℕ :=
  let digits := if s.toList.head? = some '+' then s.toList.tail else s.toList
  if digits ≠ [] ∧ digits.all Char.isDigit then
    let n := digits.foldl (fun n c => 10 * n + (c.toNat - '0'.toNat)) 0
    if n < 2 ^ 64 then some n else none
  else none

def DEFAULT_MAX_POST_BYTES : ℕ := 1000000

/-- The loop of `read_body_limited` (`accept.rs`, lines 252-263) over the chunks of a body
    that ends, or fails behind them; `out` is what was read before. -/
def readBodyLimited (maxBytes : ℕ) (failed : Bool) (out : Bytes) :
    List Bytes → Except ℕ Bytes
  | [] => if failed then .error BAD_REQUEST else .ok out
  | chunk :: chunks =>
    if out.length + chunk.length > maxBytes then .error PAYLOAD_TOO_LARGE
    else readBodyLimited maxBytes failed (out ++ chunk) chunks

theorem readBodyLimited_error {maxBytes : ℕ} {failed : Bool} {out : Bytes} {chunks : List Bytes}
    {status : ℕ} (h : readBodyLimited maxBytes failed out chunks = .error status) :
    status ≠ OK := by
  induction chunks generalizing out with
  | nil =>
    unfold readBodyLimited at h
    split_ifs at h
    cases h
    decide
  | cons chunk chunks ih =>
    unfold readBodyLimited at h
    split_ifs at h
    · cases h
      decide
    · exact ih h

theorem route_answer {config : XhttpConfig} {req : Request} {response : Response}
    (h : route config req = .answer response) :
    response.streaming = false ∧ (response.status = OK → req.method = .options) := by
  unfold route at h
  dsimp only at h
  split_ifs at h with hoptions <;> cases h
  · exact ⟨rfl, fun _ => hoptions⟩
  all_goals exact ⟨rfl, fun h => absurd h (by decide)⟩

theorem route_options {config : XhttpConfig} {req : Request} (h : req.method = .options) :
    route config req = .answer optionsResponse := by
  simp [route, h]

end SkadiCore.Xhttp
