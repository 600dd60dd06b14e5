import SkadiCore.Vless.PortAddress

/-!
# Mux frames

Model of `crates/skadi-protocol/src/vless/mux/frame.rs`: the metadata of a frame,
its parser and its encoders.

* `two_le_length_wire`, `wire_ne_nil`: a frame is never empty on the wire.
-/

namespace SkadiCore.Mux

open SkadiCore.Vless

def SESSION_STATUS_NEW : Byte := 0x01
def SESSION_STATUS_KEEP : Byte := 0x02
def SESSION_STATUS_END : Byte := 0x03
def SESSION_STATUS_KEEP_ALIVE : Byte := 0x04

def OPTION_DATA : Byte := 0x01
def OPTION_ERROR : Byte := 0x02

def NETWORK_TCP : Byte := 0x01
def NETWORK_UDP : Byte := 0x02

def MAX_META_LEN : ℕ := 512
def MAX_CHUNK_SIZE : ℕ := 8 * 1024

def XUDP_SESSION_ID : UInt16 := 0
def GLOBAL_ID_LEN : ℕ := 8

abbrev GlobalId := List.Vector Byte 8

inductive MuxError
  | tooShort
  | metaTooLarge (len : ℕ)
  | chunkTooLarge (len : ℕ)
  | unknownNetwork (network : Byte)
  | unknownStatus (status : Byte)
  | address (msg : String)
  deriving DecidableEq

def MuxError.display : MuxError → String
  | tooShort => "mux metadata too short"
  | metaTooLarge len => s!"mux metadata too large: {len}"
  | chunkTooLarge len => s!"mux chunk too large: {len}"
  | unknownNetwork network => s!"unknown mux network: 0x{hex02 network}"
  | unknownStatus status => s!"unknown mux session status: 0x{hex02 status}"
  | address msg => s!"address parse error: {msg}"

structure MuxMeta where
  sessionId : UInt16
  status : Byte
  option : Byte
  network : Option Byte
  target : Option Endpoint
  globalId : Option GlobalId
  deriving DecidableEq

/-- `MuxMeta::has_data` (lines 60-62). -/
def MuxMeta.hasData (m : MuxMeta) : Bool := m.option &&& OPTION_DATA != 0

structure MuxFrame where
  meta_ : MuxMeta
  payload : Option Bytes
  deriving DecidableEq

/-! ## The parser -/

/-- `needs_target` (lines 86-89): a NEW frame with a TCP or UDP network byte, or a
    KEEP frame with a UDP one. -/
def needsTarget (body : Bytes) : Bool :=
  decide (4 < body.length) &&
    (byteAt body 2 == SESSION_STATUS_NEW &&
        (byteAt body 4 == NETWORK_TCP || byteAt body 4 == NETWORK_UDP) ||
      byteAt body 2 == SESSION_STATUS_KEEP && byteAt body 4 == NETWORK_UDP)

/-- `parse_meta_body` (lines 73-116). -/
def parseMetaBody (body : Bytes) : Except MuxError MuxMeta :=
  if body.length < 4 then .error .tooShort
  else
    let sessionId := fromBe16 (byteAt body 0) (byteAt body 1)
    let status := byteAt body 2
    let option := byteAt body 3
    if needsTarget body then
      let network := byteAt body 4
      match parsePortAddress (body.drop 5) with
      | .error e => .error (.address e.display)
      | .ok (endpoint, consumed) =>
        let offset := 5 + consumed
        let globalId :=
          if status = SESSION_STATUS_NEW ∧ network = NETWORK_UDP ∧
              offset + GLOBAL_ID_LEN ≤ body.length then
            some (toArray 8 (slice body offset (offset + GLOBAL_ID_LEN)))
          else none
        .ok ⟨sessionId, status, option, some network, some endpoint, globalId⟩
    else .ok ⟨sessionId, status, option, none, none, none⟩

/-- `parse_frame` (lines 179-217): the frame and the bytes consumed. -/
def parseFrame (input : Bytes) : Except MuxError (MuxFrame × ℕ) :=
  if input.length < 2 then .error .tooShort
  else
    let metaLen := (fromBe16 (byteAt input 0) (byteAt input 1)).toNat
    if metaLen > MAX_META_LEN then .error (.metaTooLarge metaLen)
    else
      let metaEnd := 2 + metaLen
      if input.length < metaEnd then .error .tooShort
      else
        match parseMetaBody (slice input 2 metaEnd) with
        | .error e => .error e
        | .ok m =>
          if m.hasData then
            if input.length < metaEnd + 2 then .error .tooShort
            else
              let chunkLen := (fromBe16 (byteAt input metaEnd) (byteAt input (metaEnd + 1))).toNat
              let consumed := metaEnd + 2
              if chunkLen > MAX_CHUNK_SIZE then .error (.chunkTooLarge chunkLen)
              else if input.length < consumed + chunkLen then .error .tooShort
              else
                .ok (⟨m, some (slice input consumed (consumed + chunkLen))⟩, consumed + chunkLen)
          else .ok (⟨m, none⟩, metaEnd)

/-! ## The encoders -/

/-- The body that `encode_meta` builds (lines 120-144). -/
def metaBody (m : MuxMeta) : Bytes :=
  toBe16 m.sessionId ++ [m.status, m.option] ++
    if m.status = SESSION_STATUS_NEW then
      match m.network, m.target with
      | some network, some target =>
        network :: encodePortAddress target ++
          if network = NETWORK_UDP then (m.globalId.map fun id => id.val).getD [] else []
      | _, _ => []
    else if m.status = SESSION_STATUS_KEEP then
      match m.network, m.target with
      | some network, some target =>
        if network = NETWORK_UDP then NETWORK_UDP :: encodePortAddress target else []
      | _, _ => []
    else []

/-- `encode_meta` (lines 119-151): the body behind its length as a `u16`. -/
def encodeMeta (m : MuxMeta) : Bytes :=
  toBe16 (UInt16.ofNat (metaBody m).length) ++ metaBody m

/-- `encode_data_frame` (lines 154-163). -/
def encodeDataFrame (m : MuxMeta) (payload : Bytes) : Except MuxError Bytes :=
  if payload.length > MAX_CHUNK_SIZE then .error (.chunkTooLarge payload.length)
  else .ok (encodeMeta m ++ toBe16 (UInt16.ofNat payload.length) ++ payload)

def endMeta (sessionId : UInt16) (withError : Bool) : MuxMeta :=
  { sessionId := sessionId
    status := SESSION_STATUS_END
    option := if withError then OPTION_ERROR else 0
    network := none
    target := none
    globalId := none }

/-- `encode_end_frame` (lines 166-176). -/
def encodeEndFrame (sessionId : UInt16) (withError : Bool) : Bytes :=
  encodeMeta (endMeta sessionId withError)

def wire (f : MuxFrame) : Bytes :=
  encodeMeta f.meta_ ++
    match f.payload with
    | none => []
    | some payload => toBe16 (UInt16.ofNat payload.length) ++ payload

theorem two_le_length_wire (f : MuxFrame) : 2 ≤ (wire f).length := by
  simp [wire, encodeMeta, toBe16]

theorem wire_ne_nil (f : MuxFrame) : wire f ≠ [] := by
  intro h
  have := two_le_length_wire f
  simp [h] at this

/-! ## Frames of a client -/

def newFrame (sessionId : UInt16) (network : Byte) (target : Endpoint) (globalId : Option GlobalId)
    (payload : Option Bytes) : MuxFrame :=
  { meta_ :=
      { sessionId := sessionId
        status := SESSION_STATUS_NEW
        option := if payload.isSome then OPTION_DATA else 0
        network := some network
        target := some target
        globalId := globalId }
    payload := payload }

def keepFrame (sessionId : UInt16) (payload : Bytes) : MuxFrame :=
  { meta_ :=
      { sessionId := sessionId
        status := SESSION_STATUS_KEEP
        option := OPTION_DATA
        network := none
        target := none
        globalId := none }
    payload := some payload }

def endFrame (sessionId : UInt16) : MuxFrame := ⟨endMeta sessionId false, none⟩

end SkadiCore.Mux
