import SkadiCore.Reality.HelloLayout

/-!
# The ClientHello parser with its indices

The functions of `crates/skadi-transport/src/reality/hello_parser.rs` as the source has them:
with offsets, and with every index and every slice checked. A function returns `none` where it
would panic.

* `parseClientHello_eq`, `parseExtensions_eq`, `parseSni_eq`, `parseKeyShare_eq`: nothing
  panics, and the results are those of the model without offsets.
-/

namespace SkadiCore.Reality

/-! ## Checked accesses -/

namespace Checked

def index (buf : Bytes) (i : ℕ) : Option Byte := buf[i]?

def index16 (buf : Bytes) (i : ℕ) : Option UInt16 :=
  (index buf i).bind fun hi => (index buf (i + 1)).map fun lo => fromBe16 hi lo

def range (buf : Bytes) (a b : ℕ) : Option Bytes :=
  if a ≤ b ∧ b ≤ buf.length then some (slice buf a b) else none

variable {buf extData extensions : Bytes} {i a b offset stop : ℕ} {publicKey : Option Bytes}
  {serverName : Option String}

theorem index_of_lt (h : i < buf.length) : index buf i = some (byteAt buf i) := by
  simp [index, byteAt, h]

theorem index16_of_lt (h : i + 1 < buf.length) :
    index16 buf i = some (fromBe16 (byteAt buf i) (byteAt buf (i + 1))) := by
  rw [index16, index_of_lt (by omega), index_of_lt h]
  rfl

theorem range_of_le (hab : a ≤ b) (hb : b ≤ buf.length) : range buf a b = some (slice buf a b) :=
  if_pos ⟨hab, hb⟩

/-- An early return is no panic. -/
theorem ite_eq_some {α : Type} {c : Prop} [Decidable c] {x y : α} {o : Option α}
    (h : ¬ c → o = some y) : (if c then some x else o) = some (if c then x else y) := by
  split_ifs with hc
  · rfl
  · exact h hc

/-! ## Server names -/

def sniLoop (extData : Bytes) (stop offset : ℕ) : Option (Option String) :=
  if h : offset + 3 ≤ stop then
    (index extData offset).bind fun nameType =>
    (index16 extData (offset + 1)).bind fun nameLen =>
      if offset + 3 + nameLen.toNat > stop then some none
      else if nameType = 0x00 then
        (range extData (offset + 3) (offset + 3 + nameLen.toNat)).map fromUtf8
      else sniLoop extData stop (offset + 3 + nameLen.toNat)
  else some none
termination_by stop - offset

def parseSni (extData : Bytes) : Option (Option String) :=
  if extData.length < 2 then some none
  else
    (index16 extData 0).bind fun listLen =>
      if extData.length < 2 + listLen.toNat then some none
      else sniLoop extData (2 + listLen.toNat) 2

variable {rest : Bytes}

theorem sniLoop_short (h : rest.length < 3) : Reality.sniLoop rest = none := by
  rw [Reality.sniLoop.eq_def]
  split
  · simp only [List.length_cons] at h
    omega
  · rfl

theorem sniLoop_eq (hstop : stop ≤ extData.length) :
    sniLoop extData stop offset = some (Reality.sniLoop (slice extData offset stop)) := by
  induction hn : stop - offset using Nat.strong_induction_on generalizing offset with
  | _ n ih =>
    rw [sniLoop]
    by_cases h : offset + 3 ≤ stop
    · rw [dif_pos h, index_of_lt (by omega), index16_of_lt (by omega),
        ← byteAt_cons_slice (by omega) (by omega), ← byteAt_cons_slice (by omega) (by omega),
        ← byteAt_cons_slice (by omega) (by omega), Reality.sniLoop]
      simp only [Option.bind_some, length_slice hstop]
      generalize (fromBe16 (byteAt extData (offset + 1)) (byteAt extData (offset + 1 + 1))).toNat =
        nameLen
      by_cases hfits : offset + 3 + nameLen > stop
      · rw [if_pos hfits, if_pos (by omega)]
      · rw [if_neg hfits, if_neg (show ¬ stop - (offset + 3) < nameLen by omega),
          take_slice (by omega), drop_slice]
        split_ifs
        · rw [range_of_le (by omega) (by omega)]
          rfl
        · exact ih (stop - (offset + 3 + nameLen)) (by omega) rfl
    · rw [dif_neg h, sniLoop_short]
      rw [length_slice hstop]
      omega

theorem parseSni_eq (extData : Bytes) : parseSni extData = some (Reality.parseSni extData) := by
  refine ite_eq_some fun hlen => ?_
  rw [index16_of_lt (by omega)]
  exact ite_eq_some fun hlist => sniLoop_eq (by omega)

/-! ## Key shares -/

def keyShareLoop (extData : Bytes) (stop offset : ℕ) : Option (Option Bytes) :=
  if h : offset + 4 ≤ stop then
    (index16 extData offset).bind fun group =>
    (index16 extData (offset + 2)).bind fun keyLen =>
      if offset + 4 + keyLen.toNat > stop then some none
      else if group = 0x001d ∧ keyLen.toNat = 32 then
        (range extData (offset + 4) (offset + 4 + 32)).map some
      else keyShareLoop extData stop (offset + 4 + keyLen.toNat)
  else some none
termination_by stop - offset

def parseKeyShare (extData : Bytes) : Option (Option Bytes) :=
  if extData.length < 2 then some none
  else
    (index16 extData 0).bind fun sharesLen =>
      if extData.length < 2 + sharesLen.toNat then some none
      else keyShareLoop extData (2 + sharesLen.toNat) 2

theorem keyShareLoop_short (h : rest.length < 4) : Reality.keyShareLoop rest = none := by
  rw [Reality.keyShareLoop.eq_def]
  split
  · simp only [List.length_cons] at h
    omega
  · rfl

theorem keyShareLoop_eq (hstop : stop ≤ extData.length) :
    keyShareLoop extData stop offset = some (Reality.keyShareLoop (slice extData offset stop)) := by
  induction hn : stop - offset using Nat.strong_induction_on generalizing offset with
  | _ n ih =>
    rw [keyShareLoop]
    by_cases h : offset + 4 ≤ stop
    · rw [dif_pos h, index16_of_lt (by omega), index16_of_lt (by omega),
        ← byteAt_cons_slice (by omega) (by omega), ← byteAt_cons_slice (by omega) (by omega),
        ← byteAt_cons_slice (by omega) (by omega), ← byteAt_cons_slice (by omega) (by omega),
        Reality.keyShareLoop]
      simp only [Option.bind_some, length_slice hstop]
      generalize (fromBe16 (byteAt extData (offset + 2)) (byteAt extData (offset + 2 + 1))).toNat =
        keyLen
      by_cases hfits : offset + 4 + keyLen > stop
      · rw [if_pos hfits, if_pos (by omega)]
      · rw [if_neg hfits, if_neg (show ¬ stop - (offset + 4) < keyLen by omega), drop_slice]
        split_ifs with hgroup
        · rw [range_of_le (by omega) (by omega), take_slice (by omega)]
          rfl
        · exact ih (stop - (offset + 4 + keyLen)) (by omega) rfl
    · rw [dif_neg h, keyShareLoop_short]
      rw [length_slice hstop]
      omega

theorem parseKeyShare_eq (extData : Bytes) :
    parseKeyShare extData = some (Reality.parseKeyShare extData) := by
  refine ite_eq_some fun hlen => ?_
  rw [index16_of_lt (by omega)]
  exact ite_eq_some fun hlist => keyShareLoop_eq (by omega)

/-! ## Extensions -/

def extensionsLoop (extensions : Bytes) (offset : ℕ) (publicKey : Option Bytes)
    (serverName : Option String) : Option (Option Bytes × Option String) :=
  if h : offset + 4 ≤ extensions.length then
    (index16 extensions offset).bind fun extType =>
    (index16 extensions (offset + 2)).bind fun extLen =>
      if offset + 4 + extLen.toNat > extensions.length then some (publicKey, serverName)
      else
        (range extensions (offset + 4) (offset + 4 + extLen.toNat)).bind fun extData =>
        (if extType = 0x0000 then parseSni extData else some serverName).bind fun serverName =>
        (if extType = 0x0033 then parseKeyShare extData else some publicKey).bind fun publicKey =>
          if publicKey.isSome ∧ serverName.isSome then some (publicKey, serverName)
          else extensionsLoop extensions (offset + 4 + extLen.toNat) publicKey serverName
  else some (publicKey, serverName)
termination_by extensions.length - offset

def parseExtensions (extensions : Bytes) : Option (Option Bytes × Option String) :=
  extensionsLoop extensions 0 none none

theorem extensionsLoop_short (h : rest.length < 4) (publicKey : Option Bytes)
    (serverName : Option String) :
    Reality.extensionsLoop rest publicKey serverName = (publicKey, serverName) := by
  rw [Reality.extensionsLoop.eq_def]
  split
  · simp only [List.length_cons] at h
    omega
  · rfl

theorem extensionsLoop_eq : extensionsLoop extensions offset publicKey serverName =
    some (Reality.extensionsLoop (extensions.drop offset) publicKey serverName) := by
  induction hn : extensions.length - offset using Nat.strong_induction_on
    generalizing offset publicKey serverName with
  | _ n ih =>
    rw [extensionsLoop]
    by_cases h : offset + 4 ≤ extensions.length
    · rw [dif_pos h, index16_of_lt (by omega), index16_of_lt (by omega),
        drop_eq_byteAt_cons (by omega), drop_eq_byteAt_cons (by omega),
        drop_eq_byteAt_cons (by omega), drop_eq_byteAt_cons (by omega), Reality.extensionsLoop]
      simp only [Option.bind_some, List.length_drop]
      generalize
        (fromBe16 (byteAt extensions (offset + 2)) (byteAt extensions (offset + 2 + 1))).toNat =
        extLen
      by_cases hfits : offset + 4 + extLen > extensions.length
      · rw [if_pos hfits, if_pos (by omega)]
      · rw [if_neg hfits, if_neg (show ¬ extensions.length - (offset + 4) < extLen by omega),
          range_of_le (by omega) (by omega), List.drop_drop]
        have hdata : (extensions.drop (offset + 1 + 1 + 1 + 1)).take extLen =
            slice extensions (offset + 4) (offset + 4 + extLen) := by
          rw [slice, Nat.add_sub_cancel_left]
        simp only [Option.bind_some, hdata, parseSni_eq, parseKeyShare_eq, ← apply_ite some]
        split_ifs
        all_goals first | rfl | exact ih (extensions.length - (offset + 4 + extLen)) (by omega) rfl
    · rw [dif_neg h, extensionsLoop_short]
      rw [List.length_drop]
      omega

theorem parseExtensions_eq (extensions : Bytes) :
    parseExtensions extensions = some (Reality.parseExtensions extensions) :=
  extensionsLoop_eq

/-! ## The message -/

def parseAfterSessionId (buf : Bytes) (offset : ℕ) (sessionId : Bytes) (clientRandom : Key) :
    Option (Except String (Option ClientHelloInfo)) :=
  if offset + 2 > buf.length then some (.error "short buffer for cipher suites len")
  else
    (index16 buf offset).bind fun cipherSuitesLen =>
    let offset := offset + 2
    if offset + cipherSuitesLen.toNat > buf.length then
      some (.error "short buffer for cipher suites")
    else
      let offset := offset + cipherSuitesLen.toNat
      if offset ≥ buf.length then some (.error "short buffer for compression methods len")
      else
        (index buf offset).bind fun compressionMethodsLen =>
        let offset := offset + 1
        if offset + compressionMethodsLen.toNat > buf.length then
          some (.error "short buffer for compression methods")
        else
          let offset := offset + compressionMethodsLen.toNat
          if offset + 2 > buf.length then some (.ok (some ⟨sessionId, clientRandom, none, none⟩))
          else
            (index16 buf offset).bind fun extensionsLen =>
            let offset := offset + 2
            if offset + extensionsLen.toNat > buf.length then
              some (.error "short buffer for extensions")
            else
              (range buf offset (offset + extensionsLen.toNat)).bind fun extensions =>
              (parseExtensions extensions).map fun r =>
                .ok (some ⟨sessionId, clientRandom, r.1, r.2⟩)

def parseClientHello (buf : Bytes) : Option (Except String (Option ClientHelloInfo)) :=
  if buf.length < 5 then some (.ok none)
  else
    (index buf 0).bind fun recordType =>
    if recordType ≠ 0x16 then some (.ok none)
    else
      (index16 buf 3).bind fun recordLen =>
      if buf.length < 5 + recordLen.toNat then some (.ok none)
      else if 5 + 4 > buf.length then some (.error "short buffer")
      else
        (index buf 5).bind fun msgType =>
        if msgType ≠ 0x01 then some (.ok none)
        else if 9 + 2 > buf.length then some (.error "short buffer for version")
        else if 11 + 32 > buf.length then some (.error "short buffer for random")
        else
          (range buf 11 43).bind fun clientRandom =>
          if 43 ≥ buf.length then some (.error "short buffer for session id len")
          else
            (index buf 43).bind fun sessionIdLen =>
            if 44 + sessionIdLen.toNat > buf.length then
              some (.error "short buffer for session id")
            else
              (range buf 44 (44 + sessionIdLen.toNat)).bind fun sessionId =>
              parseAfterSessionId buf (44 + sessionIdLen.toNat) sessionId (toArray 32 clientRandom)

theorem parseAfterSessionId_eq (buf : Bytes) (offset : ℕ) (sessionId : Bytes)
    (clientRandom : Key) : parseAfterSessionId buf offset sessionId clientRandom =
      some (Reality.parseAfterSessionId buf offset sessionId clientRandom) := by
  refine ite_eq_some fun hsuitesLen => ?_
  rw [index16_of_lt (by omega), Option.bind_some]
  refine ite_eq_some fun hsuites => ite_eq_some fun hmethodsLen => ?_
  rw [index_of_lt (by omega), Option.bind_some]
  refine ite_eq_some fun hmethods => ite_eq_some fun hextensionsLen => ?_
  rw [index16_of_lt (by omega), Option.bind_some]
  refine ite_eq_some fun hextensions => ?_
  rw [range_of_le (by omega) (by omega), Option.bind_some, parseExtensions_eq]
  rfl

theorem parseClientHello_eq (buf : Bytes) :
    parseClientHello buf = some (Reality.parseClientHello buf) := by
  unfold parseClientHello Reality.parseClientHello
  by_cases hlen : buf.length < 5
  · rw [if_pos hlen, if_pos (.inl hlen)]
  rw [if_neg hlen, index_of_lt (by omega), Option.bind_some]
  by_cases htype : byteAt buf 0 ≠ 0x16
  · rw [if_pos htype, if_pos (.inr htype)]
  rw [if_neg htype, if_neg (not_or.mpr ⟨hlen, htype⟩), index16_of_lt (by omega), Option.bind_some]
  refine ite_eq_some fun hrecord => ite_eq_some fun hheader => ?_
  rw [index_of_lt (by omega), Option.bind_some]
  refine ite_eq_some fun hmsg => ite_eq_some fun hversion => ite_eq_some fun hrandom => ?_
  rw [range_of_le (by omega) (by omega), Option.bind_some]
  refine ite_eq_some fun hidLen => ?_
  rw [index_of_lt (by omega), Option.bind_some]
  refine ite_eq_some fun hid => ?_
  rw [range_of_le (by omega) (by omega), Option.bind_some]
  exact parseAfterSessionId_eq ..

end Checked

end SkadiCore.Reality
