import SkadiCore.Common.Counted
import SkadiCore.Common.Result
import SkadiCore.Reality.Hello

/-!
# What the ClientHello parser accepts

`parse_client_hello` (`crates/skadi-transport/src/reality/hello_parser.rs`) against the layout
of a ClientHello. A `Layout` is a buffer cut into its fields, without regard to the length
of the record or of the message, which the parser does not look at either.

* `parseClientHello_eq_some_iff`: the parser succeeds with the fields of a layout.

**Defect.** After `record_len` was compared with the buffer (line 21), every bound is that
of the buffer. Fields that end behind the record are taken from what follows it
(`reads_next_record`).
-/

namespace SkadiCore.Reality

variable {buf rest sessionId : Bytes} {offset : ℕ} {clientRandom : Key}
  {result : Option ClientHelloInfo} {info : ClientHelloInfo}

/-! ## Fields -/

/-- The block of extensions (lines 81-93): fewer than two bytes count as an empty one. -/
def extensionsBlock (rest : Bytes) : Option Bytes :=
  if rest.length < 2 then some [] else (readCounted16 rest).map Prod.fst

def helloInfo (sessionId : Bytes) (clientRandom : Key) (extensions : Bytes) : ClientHelloInfo :=
  ⟨sessionId, clientRandom, (parseExtensions extensions).1, (parseExtensions extensions).2⟩

theorem parseExtensions_nil : parseExtensions [] = (none, none) := by
  simp [parseExtensions, extensionsLoop]

theorem extensionsBlock_drop (buf : Bytes) (offset : ℕ) :
    extensionsBlock (buf.drop offset) =
      if offset + 2 > buf.length then some []
      else if offset + 2 + (fromBe16 (byteAt buf offset) (byteAt buf (offset + 1))).toNat >
        buf.length then none
      else some (slice buf (offset + 2)
        (offset + 2 + (fromBe16 (byteAt buf offset) (byteAt buf (offset + 1))).toNat)) := by
  rw [extensionsBlock, readCounted16_drop, List.length_drop]
  by_cases hshort : offset + 2 > buf.length
  · rw [if_pos (show buf.length - offset < 2 by omega), if_pos hshort]
  · rw [if_neg hshort, if_neg hshort, if_neg (by omega), apply_ite (Option.map Prod.fst)]
    rfl

theorem parseAfterSessionId_eq_ok_iff :
    parseAfterSessionId buf offset sessionId clientRandom = .ok result ↔
      ∃ suites afterSuites, readCounted16 (buf.drop offset) = some (suites, afterSuites) ∧
        ∃ methods rest, readCounted afterSuites = some (methods, rest) ∧
          ∃ extensions, extensionsBlock rest = some extensions ∧
            result = some (helloInfo sessionId clientRandom extensions) := by
  unfold parseAfterSessionId
  rw [readCounted16_drop]
  dsimp only
  by_cases hsuitesLen : offset + 2 > buf.length
  · simp [hsuitesLen]
  rw [if_neg hsuitesLen, if_neg hsuitesLen]
  generalize offset + 2 + (fromBe16 (byteAt buf offset) (byteAt buf (offset + 1))).toNat =
    afterSuites
  by_cases hsuites : afterSuites > buf.length
  · simp [hsuites]
  rw [if_neg hsuites, if_neg hsuites]
  simp only [Option.some.injEq, Prod.mk.injEq, and_assoc, exists_and_left, exists_eq_left']
  rw [readCounted_drop]
  by_cases hmethodsLen : afterSuites ≥ buf.length
  · simp [hmethodsLen]
  rw [if_neg hmethodsLen, if_neg hmethodsLen]
  generalize afterSuites + 1 + (byteAt buf afterSuites).toNat = afterMethods
  by_cases hmethods : afterMethods > buf.length
  · simp [hmethods]
  rw [if_neg hmethods, if_neg hmethods]
  simp only [Option.some.injEq, Prod.mk.injEq, and_assoc, exists_and_left, exists_eq_left']
  rw [extensionsBlock_drop]
  by_cases hextensionsLen : afterMethods + 2 > buf.length
  · simp [hextensionsLen, helloInfo, parseExtensions_nil, eq_comm]
  rw [if_neg hextensionsLen, if_neg hextensionsLen]
  by_cases hextensions : afterMethods + 2 +
      (fromBe16 (byteAt buf afterMethods) (byteAt buf (afterMethods + 1))).toNat > buf.length
  · simp [hextensions]
  · simp [hextensions, helloInfo, eq_comm]

def Complete (buf : Bytes) : Prop :=
  5 ≤ buf.length ∧ byteAt buf 0 = 0x16 ∧
    5 + (fromBe16 (byteAt buf 3) (byteAt buf 4)).toNat ≤ buf.length

theorem parseClientHello_of_complete (h : Complete buf) :
    parseClientHello buf =
      if 9 > buf.length then .error "short buffer"
      else if byteAt buf 5 ≠ 0x01 then .ok none
      else if 11 > buf.length then .error "short buffer for version"
      else if 43 > buf.length then .error "short buffer for random"
      else if 43 ≥ buf.length then .error "short buffer for session id len"
      else if 44 + (byteAt buf 43).toNat > buf.length then .error "short buffer for session id"
      else parseAfterSessionId buf (44 + (byteAt buf 43).toNat)
        (slice buf 44 (44 + (byteAt buf 43).toNat)) (toArray 32 (slice buf 11 43)) := by
  obtain ⟨hlen, htype, hrecord⟩ := h
  have hfirst : ¬ (buf.length < 5 ∨ byteAt buf 0 ≠ 0x16) := by
    rintro (hshort | hne)
    · omega
    · exact hne htype
  unfold parseClientHello
  dsimp only
  rw [if_neg hfirst, if_neg (by omega)]

theorem parseClientHello_of_not_complete (h : ¬ Complete buf) :
    parseClientHello buf = .ok none := by
  unfold parseClientHello
  dsimp only
  by_cases hfirst : buf.length < 5 ∨ byteAt buf 0 ≠ 0x16
  · rw [if_pos hfirst]
  · rw [if_neg hfirst]
    push Not at hfirst
    rw [if_pos]
    by_contra hrecord
    exact h ⟨hfirst.1, hfirst.2, by omega⟩

theorem complete_of_some (h : parseClientHello buf = .ok (some info)) : Complete buf := by
  by_contra hnot
  simp [parseClientHello_of_not_complete hnot] at h

theorem parseClientHello_eq_some_iff_fields (h : Complete buf) :
    parseClientHello buf = .ok (some info) ↔
      byteAt buf 5 = 0x01 ∧ ∃ sessionId afterId,
        readCounted (buf.drop 43) = some (sessionId, afterId) ∧
        ∃ suites afterSuites, readCounted16 afterId = some (suites, afterSuites) ∧
        ∃ methods rest, readCounted afterSuites = some (methods, rest) ∧
        ∃ extensions, extensionsBlock rest = some extensions ∧
          info = helloInfo sessionId (toArray 32 (slice buf 11 43)) extensions := by
  rw [parseClientHello_of_complete h, readCounted_drop]
  by_cases hlen : 43 ≥ buf.length
  · simp only [if_pos hlen]
    split_ifs <;> simp
  rw [if_neg (by omega), if_neg (by omega : ¬ 11 > buf.length),
    if_neg (by omega : ¬ 43 > buf.length), if_neg hlen, if_neg hlen]
  by_cases htype : byteAt buf 5 = 0x01
  · rw [if_neg (not_not.mpr htype)]
    by_cases hid : 44 + (byteAt buf 43).toNat > buf.length
    · simp [hid]
    · rw [if_neg hid, if_neg hid, parseAfterSessionId_eq_ok_iff]
      simp [htype]
  · simp [htype]

/-! ## Layouts -/

/-- A buffer cut into the fields of a ClientHello: five bytes of the record header, the type
    and three bytes of length of the message, the version, and the fields proper. `rest` is
    the block of extensions with all that follows. -/
structure Layout where
  header : List.Vector Byte 5
  msgLen : List.Vector Byte 3
  version : List.Vector Byte 2
  random : Key
  sessionId : Bytes
  suites : Bytes
  methods : Bytes
  rest : Bytes
  sessionId_lt : sessionId.length < 256
  suites_lt : suites.length < 65536
  methods_lt : methods.length < 256

namespace Layout

variable {L : Layout}

def front (L : Layout) : Bytes :=
  L.header.val ++ 0x01 :: (L.msgLen.val ++ L.version.val ++ L.random.val)

def bytes (L : Layout) : Bytes :=
  L.front ++ (counted L.sessionId ++ (counted16 L.suites ++ (counted L.methods ++ L.rest)))

def append (L : Layout) (more : Bytes) : Layout := { L with rest := L.rest ++ more }

theorem length_front (L : Layout) : L.front.length = 43 := by
  simp [front, L.header.property, L.msgLen.property, L.version.property, L.random.property]

theorem bytes_append (L : Layout) (more : Bytes) : (L.append more).bytes = L.bytes ++ more := by
  simp [append, bytes, front]

theorem drop_bytes (L : Layout) : L.bytes.drop 43 =
    counted L.sessionId ++ (counted16 L.suites ++ (counted L.methods ++ L.rest)) :=
  List.drop_left' L.length_front

theorem byteAt_type (L : Layout) : byteAt L.bytes 5 = 0x01 := by
  have hsplit : L.bytes = L.header.val ++ 0x01 :: (L.msgLen.val ++ L.version.val ++ L.random.val ++
      (counted L.sessionId ++ (counted16 L.suites ++ (counted L.methods ++ L.rest)))) := by
    simp [bytes, front]
  rw [hsplit, byteAt_append _ _ _ L.header.property.symm]

theorem slice_random (L : Layout) : slice L.bytes 11 43 = L.random.val := by
  have hsplit : L.bytes = (L.header.val ++ 0x01 :: (L.msgLen.val ++ L.version.val)) ++
      (L.random.val ++
        (counted L.sessionId ++ (counted16 L.suites ++ (counted L.methods ++ L.rest)))) := by
    simp [bytes, front]
  rw [hsplit]
  apply slice_append
  · simp [L.header.property, L.msgLen.property, L.version.property]
  · simp [L.random.property]

theorem parse_eq_some_iff (L : Layout) (h : Complete L.bytes) :
    parseClientHello L.bytes = .ok (some info) ↔ ∃ extensions,
      extensionsBlock L.rest = some extensions ∧
        info = helloInfo L.sessionId L.random extensions := by
  rw [parseClientHello_eq_some_iff_fields h, L.drop_bytes, L.slice_random, toArray_self]
  simp [L.byteAt_type, readCounted_counted L.sessionId_lt, readCounted16_counted16 L.suites_lt,
    readCounted_counted L.methods_lt]

theorem exists_of_parse (h : parseClientHello buf = .ok (some info)) :
    ∃ L : Layout, buf = L.bytes := by
  obtain ⟨htype, sessionId, afterId, hid, suites, afterSuites, hsuites, methods, rest, hmethods,
    -⟩ := (parseClientHello_eq_some_iff_fields (complete_of_some h)).mp h
  obtain ⟨hidLen, hdrop⟩ := readCounted_eq_some_iff.mp hid
  obtain ⟨hsuitesLen, rfl⟩ := readCounted16_eq_some_iff.mp hsuites
  obtain ⟨hmethodsLen, rfl⟩ := readCounted_eq_some_iff.mp hmethods
  have hlen : 43 < buf.length := by
    have hlength := congrArg List.length hdrop
    simp only [List.length_drop, List.length_append, length_counted] at hlength
    omega
  refine ⟨⟨toArray 5 (slice buf 0 5), toArray 3 (slice buf 6 9), toArray 2 (slice buf 9 11),
    toArray 32 (slice buf 11 43), sessionId, suites, methods, rest, hidLen, hsuitesLen,
    hmethodsLen⟩, ?_⟩
  have hslice (a b : ℕ) (hb : b ≤ 43) (n : ℕ) (hn : b - a = n) :
      (toArray n (slice buf a b)).val = slice buf a b :=
    toArray_val (by simp only [slice, List.length_take, List.length_drop]; omega)
  simp only [bytes, front, hslice 0 5 (by omega) 5 rfl, hslice 6 9 (by omega) 3 rfl,
    hslice 9 11 (by omega) 2 rfl, hslice 11 43 (by omega) 32 rfl]
  rw [slice_append_slice buf (by omega) (by omega), slice_append_slice buf (by omega) (by omega),
    ← htype, byteAt_cons_slice (by omega) (by omega), slice_append_slice buf (by omega) (by omega),
    ← hdrop, slice_append_drop]

end Layout

theorem parseClientHello_eq_some_iff :
    parseClientHello buf = .ok (some info) ↔ Complete buf ∧ ∃ L : Layout, buf = L.bytes ∧
      ∃ extensions, extensionsBlock L.rest = some extensions ∧
        info = helloInfo L.sessionId L.random extensions := by
  constructor
  · intro h
    obtain ⟨L, rfl⟩ := Layout.exists_of_parse h
    have hcomplete := complete_of_some h
    exact ⟨hcomplete, L, rfl, (L.parse_eq_some_iff hcomplete).mp h⟩
  · rintro ⟨hcomplete, L, rfl, hinfo⟩
    exact (L.parse_eq_some_iff hcomplete).mpr hinfo

theorem parseClientHello_eq_none_iff (h : Complete buf) :
    parseClientHello buf = .ok none ↔ 9 ≤ buf.length ∧ byteAt buf 5 ≠ 0x01 := by
  have hsome : ∀ {o s r}, parseAfterSessionId buf o s r ≠ .ok none := by
    intro o s r hnone
    obtain ⟨_, _, _, _, _, _, _, _, hcontra⟩ := parseAfterSessionId_eq_ok_iff.mp hnone
    cases hcontra
  rw [parseClientHello_of_complete h]
  split_ifs <;> simp_all

/-! ## Bytes behind the record -/

/-- One whole TLS handshake record. -/
structure IsRecord (r : Bytes) : Prop where
  type : byteAt r 0 = 0x16
  length : r.length = 5 + (fromBe16 (byteAt r 3) (byteAt r 4)).toNat

/-- The message of the record is whole up to its extensions. -/
def HoldsHello (r : Bytes) : Prop :=
  ∃ L : Layout, r = L.bytes ∧ ∃ extensions more, extensions.length < 65536 ∧
    L.rest = counted16 extensions ++ more

variable {r : Bytes}

theorem IsRecord.complete (h : IsRecord r) (x : Bytes) : Complete (r ++ x) := by
  obtain ⟨htype, hlength⟩ := h
  refine ⟨?_, ?_, ?_⟩
  · rw [List.length_append]
    omega
  · rw [byteAt_append_left (by omega), htype]
  · rw [byteAt_append_left (by omega), byteAt_append_left (by omega), List.length_append]
    omega

theorem isOk_of_long (h : 132000 ≤ buf.length) : IsOk (parseClientHello buf) := by
  by_cases hcomplete : Complete buf
  · by_cases htype : byteAt buf 5 = 0x01
    · have hdrop : (buf.drop 43).length = buf.length - 43 := List.length_drop
      obtain ⟨sessionId, afterId, hid, hidLen⟩ :=
        exists_readCounted (show 256 ≤ (buf.drop 43).length by omega)
      obtain ⟨suites, afterSuites, hsuites, hsuitesLen⟩ :=
        exists_readCounted16 (show 65537 ≤ afterId.length by omega)
      obtain ⟨methods, rest, hmethods, hmethodsLen⟩ :=
        exists_readCounted (show 256 ≤ afterSuites.length by omega)
      obtain ⟨extensions, more, hextensions, -⟩ :=
        exists_readCounted16 (show 65537 ≤ rest.length by omega)
      have hblock : extensionsBlock rest = some extensions := by
        rw [extensionsBlock, if_neg (by omega), hextensions]
        rfl
      exact ⟨_, (parseClientHello_eq_some_iff_fields hcomplete).mpr
        ⟨htype, _, _, hid, _, _, hsuites, _, _, hmethods, _, hblock, rfl⟩⟩
    · exact ⟨none, (parseClientHello_eq_none_iff hcomplete).mpr ⟨by omega, htype⟩⟩
  · rw [parseClientHello_of_not_complete hcomplete]
    exact isOk_ok _

theorem extensionsBlock_short {rest : Bytes} (h : rest.length < 2) :
    extensionsBlock (rest ++ [0xff, 0xff]) = none := by
  have hff : ∀ b : Byte, 255 ≤ (fromBe16 b 0xff).toNat := by
    intro b
    rw [toNat_fromBe16]
    exact Nat.le_add_left 255 _
  rcases rest with _ | ⟨b, _ | ⟨c, tail⟩⟩
  · rfl
  · have hlt : 1 < (fromBe16 b 0xff).toNat := lt_of_lt_of_le (by decide) (hff b)
    simp [extensionsBlock, readCounted16, hlt]
  · simp at h

theorem HoldsHello.parse (h : HoldsHello r) (hr : IsRecord r) :
    ∃ info, ∀ x, parseClientHello (r ++ x) = .ok (some info) := by
  obtain ⟨L, rfl, extensions, more, hlen, hrest⟩ := h
  refine ⟨helloInfo L.sessionId L.random extensions, fun x => ?_⟩
  have hcomplete := hr.complete x
  rw [← L.bytes_append] at hcomplete ⊢
  refine ((L.append x).parse_eq_some_iff hcomplete).mpr ⟨extensions, ?_, rfl⟩
  show extensionsBlock (L.rest ++ x) = some extensions
  rw [hrest, List.append_assoc, extensionsBlock, readCounted16_counted16 hlen,
    if_neg (by simp only [List.length_append, length_counted16]; omega)]
  rfl

/-- For every complete handshake record, the result is the same whatever follows the record, if
    and only if the record has a message header, and is no ClientHello or holds all fields of
    one. -/
theorem stable_iff (hr : IsRecord r) :
    (∀ x y, parseClientHello (r ++ x) = parseClientHello (r ++ y)) ↔
      9 ≤ r.length ∧ (byteAt r 5 ≠ 0x01 ∨ HoldsHello r) := by
  have hcomplete : Complete r := by simpa using hr.complete []
  constructor
  · intro hstable
    -- behind enough zeros there is no error, so there is none without them
    have hok : IsOk (parseClientHello r) := by
      have hsame := hstable [] (List.replicate 132000 0)
      rw [List.append_nil] at hsame
      rw [hsame]
      exact isOk_of_long (by rw [List.length_append, List.length_replicate]; omega)
    obtain ⟨result, hresult⟩ := hok
    cases result with
    | none =>
      obtain ⟨hlen, htype⟩ := (parseClientHello_eq_none_iff hcomplete).mp hresult
      exact ⟨hlen, .inl htype⟩
    | some info =>
      obtain ⟨-, L, rfl, extensions, hblock, -⟩ := parseClientHello_eq_some_iff.mp hresult
      have hlen : 43 ≤ L.bytes.length := by
        rw [Layout.bytes, List.length_append, L.length_front]
        omega
      refine ⟨by omega, .inr ⟨L, rfl, ?_⟩⟩
      by_cases hshort : L.rest.length < 2
      · have hsame := hstable [] [0xff, 0xff]
        have hcomplete' := hr.complete [0xff, 0xff]
        rw [List.append_nil, hresult, ← L.bytes_append] at hsame
        rw [← L.bytes_append] at hcomplete'
        obtain ⟨_, hnone, -⟩ := ((L.append [0xff, 0xff]).parse_eq_some_iff hcomplete').mp hsame.symm
        have hcontra := extensionsBlock_short hshort
        rw [show L.rest ++ [0xff, 0xff] = (L.append [0xff, 0xff]).rest from rfl, hnone] at hcontra
        cases hcontra
      · rw [extensionsBlock, if_neg hshort] at hblock
        obtain ⟨⟨_, more⟩, hread, rfl⟩ := Option.map_eq_some_iff.mp hblock
        obtain ⟨hlt, hrest⟩ := readCounted16_eq_some_iff.mp hread
        exact ⟨_, more, hlt, hrest⟩
  · rintro ⟨hlen, htype | hhello⟩ x y
    · have hnone (x : Bytes) : parseClientHello (r ++ x) = .ok none := by
        refine (parseClientHello_eq_none_iff (hr.complete x)).mpr ⟨?_, ?_⟩
        · rw [List.length_append]
          omega
        · rwa [byteAt_append_left (by omega)]
      rw [hnone, hnone]
    · obtain ⟨info, hinfo⟩ := hhello.parse hr
      rw [hinfo, hinfo]

/-- The extensions with the server name `a` and with a key share. -/
def nameAndShare : Bytes :=
  [0, 0, 0, 6, 0, 4, 0, 0, 1, 97] ++ [0, 51, 0, 38, 0, 36, 0, 29, 0, 32] ++ List.replicate 32 9

def fullHello : Layout where
  header := ⟨[0x16, 3, 1, 0, 131], rfl⟩
  msgLen := ⟨[0, 0, 127], rfl⟩
  version := ⟨[3, 3], rfl⟩
  random := List.Vector.replicate 32 7
  sessionId := List.replicate 32 5
  suites := [0x13, 1]
  methods := [0]
  rest := counted16 nameAndShare
  sessionId_lt := by decide
  suites_lt := by decide
  methods_lt := by decide

theorem stable_fullHello :
    parseClientHello (fullHello.bytes ++ []) =
        parseClientHello (fullHello.bytes ++ [0xff, 0xff]) ∧
      parseClientHello fullHello.bytes = .ok (some ⟨List.replicate 32 5,
        List.Vector.replicate 32 7, some (List.replicate 32 9), some "a"⟩) := by
  have hrecord : IsRecord fullHello.bytes := ⟨by decide +kernel, by decide +kernel⟩
  exact ⟨(stable_iff hrecord).mpr ⟨by decide +kernel, .inr ⟨fullHello, rfl, nameAndShare, [],
    by decide, (List.append_nil _).symm⟩⟩ [] [0xff, 0xff], by decide +kernel⟩

theorem reads_next_record :
    let r := [0x16, 3, 1, 0, 42, 1, 0, 0, 38, 3, 3] ++ List.replicate 32 7 ++ [0, 0, 0, 0]
    IsRecord r ∧
      parseClientHello r = .ok (some ⟨[], List.Vector.replicate 32 7, none, none⟩) ∧
      parseClientHello (r ++ [0, 10, 0, 0, 0, 6, 0, 4, 0, 0, 1, 97]) =
        .ok (some ⟨[], List.Vector.replicate 32 7, none, some "a"⟩) := by
  exact ⟨⟨by decide, by decide⟩, by decide +kernel⟩

end SkadiCore.Reality
