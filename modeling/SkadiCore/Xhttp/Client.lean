import SkadiCore.Reality.Auth
import SkadiCore.Xhttp.Request

/-!
# Requests of the XHTTP client

Model of `XhttpClientConfig` and of the requests that `connect_stream_one`,
`connect_stream_up` and `connect_packet_up` write
(`crates/skadi-transport/src/xhttp/client.rs`, lines 27-274), as the server sees them: a
`Request` has the fields that `handle_request` reads.

* `normalizedPath_eq`: client and server normalize a path in the same way.
* `randomSessionId_segment`: a session id of the client is a path segment.

**Abstraction.** The request line is parsed by `http::Uri`. Of this parser `uriPath` has that a
query and a fragment are cut off; it refuses other characters than those of a URI.
-/

namespace SkadiCore.Xhttp

structure XhttpClientConfig where
  path : String
  host : String
  mode : XhttpMode
  padding : PaddingRange
  deriving DecidableEq

/-- `random_session_id` (lines 270-274), from 16 random bytes. -/
def randomSessionId (bytes : List.Vector Byte 16) : String := .ofList (Reality.hexEncode bytes.val)

/-- `padding_header_line` (lines 262-268): the value of `X-Padding`, if the header is sent. -/
def paddingHeader (padding : PaddingRange) (random : UInt32) : Option Bytes :=
  let len := padding.sampleLen random
  if len = 0 then none else some (List.replicate len 88)

/-- The requests of a client: the `POST` of stream-one (line 129), the `GET` of the other two
    modes (lines 156, 193), the `POST` of stream-up (line 165), the packets (line 213). -/
inductive ClientCall
  | streamOne
  | downlink
  | uplink
  | packet (seq : UInt64)
  deriving DecidableEq

namespace ClientCall

def method : ClientCall → Method
  | downlink => .get
  | streamOne | uplink | packet _ => .post

def path (path : List Char) (session : String) : ClientCall → List Char
  | streamOne => path
  | downlink | uplink => path ++ '/' :: session.toList
  | packet seq => path ++ '/' :: session.toList ++ '/' :: Nat.toDigits 10 seq.toNat

def sentIn (mode : XhttpMode) : ClientCall → Bool
  | streamOne => mode == .streamOne
  | downlink => mode == .streamUp || mode == .packetUp
  | uplink => mode == .streamUp
  | packet _ => mode == .packetUp

end ClientCall

/-- `req.uri().path()` for the target of a request line. -/
def uriPath (target : List Char) : List Char := target.takeWhile fun c => c ≠ '?' && c ≠ '#'

/-- The characters of a path and a query (RFC 3986), which `http::Uri` takes as they are. -/
def uriChar (c : Char) : Bool := c.isAlphanum || "-._~!$&'()*+,;=:@%/?".toList.contains c

namespace XhttpClientConfig

/-- `normalized_path` (lines 37-44), as characters. -/
def normalizedPath (cfg : XhttpClientConfig) : List Char :=
  let path := cfg.path.toList.takeWhile (· ≠ '?')
  if path.head? = some '/' then path else '/' :: path.dropWhile (· = '/')

/-- `resolved_mode` (lines 47-52). -/
def resolvedMode (cfg : XhttpClientConfig) : XhttpMode :=
  match cfg.mode with
  | .auto => .streamOne
  | other => other

/-- The request as `handle_request` sees it. -/
def request (cfg : XhttpClientConfig) (session : String) (random : UInt32) (call : ClientCall) :
    Request where
  method := call.method
  path := .ofList (uriPath (call.path cfg.normalizedPath session))
  host := some (asBytes cfg.host)
  xPadding := paddingHeader cfg.padding random
  referer := none

variable {cfg : XhttpClientConfig} {config : XhttpConfig}

theorem normalizedPath_eq (h : cfg.path = config.path) :
    cfg.normalizedPath = config.normalizedPath := by
  simp only [normalizedPath, XhttpConfig.normalizedPath, h]

theorem exists_sentIn (cfg : XhttpClientConfig) : ∃ call : ClientCall,
    call.sentIn cfg.resolvedMode = true := by
  unfold resolvedMode
  cases cfg.mode with
  | auto | streamOne => exact ⟨.streamOne, rfl⟩
  | streamUp => exact ⟨.uplink, rfl⟩
  | packetUp => exact ⟨.downlink, rfl⟩

end XhttpClientConfig

/-- One non-empty segment of a path. -/
def Segment (s : String) : Prop := s ≠ "" ∧ '/' ∉ s.toList

instance (s : String) : Decidable (Segment s) := inferInstanceAs (Decidable (_ ∧ _))

theorem digit_of_mem_session {bytes : List.Vector Byte 16} {c : Char}
    (h : c ∈ (randomSessionId bytes).toList) : ∃ n, c = Nat.digitChar n := by
  simp only [randomSessionId, String.toList_ofList, Reality.hexEncode, List.mem_flatMap] at h
  obtain ⟨b, -, hb⟩ := h
  rcases List.mem_cons.mp hb with hb | hb
  · exact ⟨_, hb⟩
  · exact ⟨_, List.mem_singleton.mp hb⟩

theorem randomSessionId_segment (bytes : List.Vector Byte 16) :
    Segment (randomSessionId bytes) := by
  constructor
  · obtain ⟨l, hl⟩ := bytes
    intro h
    have hnil : Reality.hexEncode l = [] := by
      simpa [randomSessionId] using congrArg String.toList h
    cases l with
    | nil => cases hl
    | cons b l => simp [Reality.hexEncode] at hnil
  · intro h
    obtain ⟨n, hn⟩ := digit_of_mem_session h
    exact Nat.digitChar_ne '/' rfl hn.symm

end SkadiCore.Xhttp
