import SkadiCore.Common.Bytes
import SkadiCore.Common.Crypto

/-!
# The ClientHello parser

Model of `crates/skadi-transport/src/reality/hello_parser.rs`. The parser takes the
buffer with everything that was read, which may be more than the first record: after
the length of the record was checked, every bound is that of the buffer.

The loops over extensions, names and key shares take what is left of their input, so
that `offset + n > end` reads as a bound on its length.
-/

namespace SkadiCore.Reality

structure ClientHelloInfo where
  sessionId : Bytes
  clientRandom : Key
  publicKey : Option Bytes
  serverName : Option String
  deriving DecidableEq

def sniLoop (rest : Bytes) : Option String :=
  match rest with
  | nameType :: hi :: lo :: tail =>
    let nameLen := (fromBe16 hi lo).toNat
    if tail.length < nameLen then none
    else if nameType = 0x00 then fromUtf8 (tail.take nameLen)
    else sniLoop (tail.drop nameLen)
  | _ => none
termination_by rest.length
decreasing_by simp only [List.length_drop, List.length_cons]; omega

/-- `parse_sni` (lines 133-157). -/
def parseSni (extData : Bytes) : Option String :=
  if extData.length < 2 then none
  else
    let listLen := (fromBe16 (byteAt extData 0) (byteAt extData 1)).toNat
    if extData.length < 2 + listLen then none else sniLoop (slice extData 2 (2 + listLen))

/-- The loop of `parse_key_share` (lines 170-182): the first X25519 share of 32 bytes. -/
def keyShareLoop (rest : Bytes) : Option Bytes :=
  match rest with
  | g₁ :: g₂ :: hi :: lo :: tail =>
    let keyLen := (fromBe16 hi lo).toNat
    if tail.length < keyLen then none
    else if fromBe16 g₁ g₂ = 0x001d ∧ keyLen = 32 then some (tail.take 32)
    else keyShareLoop (tail.drop keyLen)
  | _ => none
termination_by rest.length
decreasing_by simp only [List.length_drop, List.length_cons]; omega

/-- `parse_key_share` (lines 159-183). -/
def parseKeyShare (extData : Bytes) : Option Bytes :=
  if extData.length < 2 then none
  else
    let sharesLen := (fromBe16 (byteAt extData 0) (byteAt extData 1)).toNat
    if extData.length < 2 + sharesLen then none
    else keyShareLoop (slice extData 2 (2 + sharesLen))

def extensionsLoop (rest : Bytes) (publicKey : Option Bytes) (serverName : Option String) :
    Option Bytes × Option String :=
  match rest with
  | t₁ :: t₂ :: hi :: lo :: tail =>
    let extType := fromBe16 t₁ t₂
    let extLen := (fromBe16 hi lo).toNat
    if tail.length < extLen then (publicKey, serverName)
    else
      let extData := tail.take extLen
      let serverName := if extType = 0x0000 then parseSni extData else serverName
      let publicKey := if extType = 0x0033 then parseKeyShare extData else publicKey
      if publicKey.isSome ∧ serverName.isSome then (publicKey, serverName)
      else extensionsLoop (tail.drop extLen) publicKey serverName
  | _ => (publicKey, serverName)
termination_by rest.length
decreasing_by simp only [List.length_drop, List.length_cons]; omega

/-- `parse_extensions` (lines 104-131). -/
def parseExtensions (extensions : Bytes) : Option Bytes × Option String :=
  extensionsLoop extensions none none

/-- What follows the session id in `parse_client_hello` (lines 59-101): cipher suites,
    compression methods and extensions. -/
def parseAfterSessionId (buf : Bytes) (offset : ℕ) (sessionId : Bytes) (clientRandom : Key) :
    Except String (Option ClientHelloInfo) :=
  if offset + 2 > buf.length then .error "short buffer for cipher suites len"
  else
    let cipherSuitesLen := (fromBe16 (byteAt buf offset) (byteAt buf (offset + 1))).toNat
    let offset := offset + 2
    if offset + cipherSuitesLen > buf.length then .error "short buffer for cipher suites"
    else
      let offset := offset + cipherSuitesLen
      if offset ≥ buf.length then .error "short buffer for compression methods len"
      else
        let compressionMethodsLen := (byteAt buf offset).toNat
        let offset := offset + 1
        if offset + compressionMethodsLen > buf.length then
          .error "short buffer for compression methods"
        else
          let offset := offset + compressionMethodsLen
          if offset + 2 > buf.length then .ok (some ⟨sessionId, clientRandom, none, none⟩)
          else
            let extensionsLen := (fromBe16 (byteAt buf offset) (byteAt buf (offset + 1))).toNat
            let offset := offset + 2
            if offset + extensionsLen > buf.length then .error "short buffer for extensions"
            else
              let r := parseExtensions (slice buf offset (offset + extensionsLen))
              .ok (some ⟨sessionId, clientRandom, r.1, r.2⟩)

/-- `parse_client_hello` (lines 15-102). -/
def parseClientHello (buf : Bytes) : Except String (Option ClientHelloInfo) :=
  if buf.length < 5 ∨ byteAt buf 0 ≠ 0x16 then .ok none
  else
    let recordLen := (fromBe16 (byteAt buf 3) (byteAt buf 4)).toNat
    if buf.length < 5 + recordLen then .ok none
    else if 5 + 4 > buf.length then .error "short buffer"
    else if byteAt buf 5 ≠ 0x01 then .ok none
    else if 9 + 2 > buf.length then .error "short buffer for version"
    else if 11 + 32 > buf.length then .error "short buffer for random"
    else
      let clientRandom := toArray 32 (slice buf 11 43)
      if 43 ≥ buf.length then .error "short buffer for session id len"
      else
        let sessionIdLen := (byteAt buf 43).toNat
        if 44 + sessionIdLen > buf.length then .error "short buffer for session id"
        else
          parseAfterSessionId buf (44 + sessionIdLen) (slice buf 44 (44 + sessionIdLen))
            clientRandom

end SkadiCore.Reality
