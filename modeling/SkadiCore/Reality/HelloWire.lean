import SkadiCore.Reality.HelloBounds

/-!
# ClientHello messages on the wire

A ClientHello as TLS defines it, and its encoding in one record. `WellFormed` says that all
lengths fit in their fields and that no type of extension occurs twice.

* `sniLoop_encode`, `keyShareLoop_encode`, `extensionsLoop_encode`: the three loops of the parser
  on lists that were written.
-/

namespace SkadiCore.Reality

structure ServerName where
  nameType : Byte
  name : Bytes

structure KeyShare where
  group : UInt16
  key : Bytes

inductive Extension
  | serverName (names : List ServerName)
  | keyShare (shares : List KeyShare)
  | other (extType : UInt16) (data : Bytes) (h : extType ≠ 0x0000 ∧ extType ≠ 0x0033)

/-! ## Encoding -/

def ServerName.encode (n : ServerName) : Bytes := n.nameType :: counted16 n.name

def KeyShare.encode (s : KeyShare) : Bytes := toBe16 s.group ++ counted16 s.key

namespace Extension

def type : Extension → UInt16
  | serverName _ => 0x0000
  | keyShare _ => 0x0033
  | other t _ _ => t

def data : Extension → Bytes
  | serverName names => counted16 (names.flatMap ServerName.encode)
  | keyShare shares => counted16 (shares.flatMap KeyShare.encode)
  | other _ d _ => d

def encode (e : Extension) : Bytes := toBe16 e.type ++ counted16 e.data

def names : Extension → Option (List ServerName)
  | serverName names => some names
  | _ => none

def shares : Extension → Option (List KeyShare)
  | keyShare shares => some shares
  | _ => none

/-- The parts of the extension fit their length fields. -/
def Fits (e : Extension) : Prop :=
  e.data.length < 65536 ∧ (∀ ns ∈ e.names, ∀ n ∈ ns, n.name.length < 65536) ∧
    ∀ ss ∈ e.shares, ∀ s ∈ ss, s.key.length < 65536

end Extension

def hostName (names : List ServerName) : Option String :=
  (names.find? (·.nameType = 0x00)).bind fun n => fromUtf8 n.name

def x25519Share (shares : List KeyShare) : Option Bytes :=
  (shares.find? fun s => s.group = 0x001d ∧ s.key.length = 32).map KeyShare.key

structure Hello where
  recordVersion : List.Vector Byte 2
  version : List.Vector Byte 2
  random : Key
  sessionId : Bytes
  cipherSuites : List UInt16
  compressionMethods : Bytes
  extensions : Option (List Extension)

namespace Hello

variable (h : Hello)

def extensionList : List Extension := h.extensions.getD []

def body : Bytes :=
  h.version.val ++ h.random.val ++ counted h.sessionId ++
    counted16 (h.cipherSuites.flatMap toBe16) ++ counted h.compressionMethods ++
    (h.extensions.map fun es => counted16 (es.flatMap Extension.encode)).getD []

def toBe24 (n : ℕ) : Bytes := [UInt8.ofNat (n / 65536), UInt8.ofNat (n / 256), UInt8.ofNat n]

def message : Bytes := 0x01 :: (toBe24 h.body.length ++ h.body)

def record : Bytes := 0x16 :: (h.recordVersion.val ++ counted16 h.message)

def info : ClientHelloInfo where
  sessionId := h.sessionId
  clientRandom := h.random
  publicKey := (h.extensionList.findSome? Extension.shares).bind x25519Share
  serverName := (h.extensionList.findSome? Extension.names).bind hostName

/-- The parts of the hello fit their length fields, and no extension comes twice. -/
structure WellFormed : Prop where
  sessionId : h.sessionId.length ≤ 32
  suites : (h.cipherSuites.flatMap toBe16).length < 65536
  methods : h.compressionMethods.length < 256
  entries : ∀ e ∈ h.extensionList, e.Fits
  block : (h.extensionList.flatMap Extension.encode).length < 65536
  message : h.message.length < 65536
  distinct : (h.extensionList.map Extension.type).Nodup

end Hello

/-! ## Reading the lists -/

theorem sniLoop_encode {names : List ServerName} (h : ∀ n ∈ names, n.name.length < 65536) :
    sniLoop (names.flatMap ServerName.encode) = hostName names := by
  induction names with
  | nil => exact Checked.sniLoop_short (by simp)
  | cons n names ih =>
    obtain ⟨hn, hnames⟩ := List.forall_mem_cons.mp h
    obtain ⟨hi, lo, hbytes, hvalue⟩ := exists_toBe16_ofNat hn
    have hencode : (n :: names).flatMap ServerName.encode =
        n.nameType :: hi :: lo :: (n.name ++ names.flatMap ServerName.encode) := by
      rw [List.flatMap_cons, ServerName.encode, counted16, hbytes]
      rfl
    rw [hencode, sniLoop]
    simp only [hvalue]
    rw [if_neg (by simp), List.take_left, List.drop_left, hostName, List.find?_cons]
    by_cases htype : n.nameType = 0x00
    · simp [htype]
    · rw [if_neg htype, ih hnames]
      simp [htype, hostName]

theorem keyShareLoop_encode {shares : List KeyShare} (h : ∀ s ∈ shares, s.key.length < 65536) :
    keyShareLoop (shares.flatMap KeyShare.encode) = x25519Share shares := by
  induction shares with
  | nil => exact Checked.keyShareLoop_short (by simp)
  | cons s shares ih =>
    obtain ⟨hs, hshares⟩ := List.forall_mem_cons.mp h
    obtain ⟨g₁, g₂, hgroup, hgroupValue⟩ := exists_toBe16 s.group
    obtain ⟨hi, lo, hbytes, hvalue⟩ := exists_toBe16_ofNat hs
    have hencode : (s :: shares).flatMap KeyShare.encode =
        g₁ :: g₂ :: hi :: lo :: (s.key ++ shares.flatMap KeyShare.encode) := by
      rw [List.flatMap_cons, KeyShare.encode, counted16, hgroup, hbytes]
      rfl
    rw [hencode, keyShareLoop]
    simp only [hvalue, hgroupValue]
    rw [if_neg (by simp), List.drop_left, x25519Share, List.find?_cons]
    by_cases hx : s.group = 0x001d ∧ s.key.length = 32
    · have htake : (s.key ++ shares.flatMap KeyShare.encode).take 32 = s.key := List.take_left' hx.2
      simp [hx, htake]
    · rw [if_neg hx, ih hshares]
      simp [hx, x25519Share]

theorem parseSni_counted16 {l : Bytes} (h : l.length < 65536) :
    parseSni (counted16 l) = sniLoop l := by
  obtain ⟨hi, lo, hbytes, hvalue⟩ := exists_toBe16_ofNat h
  rw [counted16, hbytes]
  show parseSni (hi :: lo :: l) = _
  simp [parseSni, hvalue, slice, Nat.add_comm 2]

theorem parseKeyShare_counted16 {l : Bytes} (h : l.length < 65536) :
    parseKeyShare (counted16 l) = keyShareLoop l := by
  obtain ⟨hi, lo, hbytes, hvalue⟩ := exists_toBe16_ofNat h
  rw [counted16, hbytes]
  show parseKeyShare (hi :: lo :: l) = _
  simp [parseKeyShare, hvalue, slice, Nat.add_comm 2]

/-! ## Reading the extensions -/

section Pick

variable {β γ : Type} {f : Extension → Option β} {g : β → Option γ} {o : Option γ}
  {e : Extension} {es : List Extension} {t : UInt16}

def pick (f : Extension → Option β) (g : β → Option γ) (o : Option γ) (es : List Extension) :
    Option γ :=
  ((es.findSome? f).map g).getD o

def Settled (f : Extension → Option β) (o : Option γ) (es : List Extension) : Prop :=
  o.isSome → es.findSome? f = none

theorem findSome?_eq_none (hf : ∀ e, (f e).isSome → e.type = t)
    (hdistinct : ((e :: es).map Extension.type).Nodup) (he : (f e).isSome) :
    es.findSome? f = none := by
  rw [List.findSome?_eq_none_iff]
  intro e' he'
  by_contra hsome
  have htype : e'.type = e.type := by
    rw [hf e he, hf e' (Option.ne_none_iff_isSome.mp hsome)]
  exact (List.nodup_cons.mp hdistinct).1 (htype ▸ List.mem_map_of_mem he')

theorem pick_none : pick f g none es = (es.findSome? f).bind g := by
  cases h : es.findSome? f <;> simp [pick, h]

theorem pick_cons (h : (f e).isSome → es.findSome? f = none) :
    pick f g o (e :: es) = pick f g (((f e).map g).getD o) es := by
  rw [pick, List.findSome?_cons]
  cases he : f e with
  | none => rfl
  | some b => simp [pick, h (by rw [he]; rfl)]

theorem Settled.tail (h : Settled f o (e :: es)) (hone : (f e).isSome → es.findSome? f = none) :
    Settled f (((f e).map g).getD o) es := by
  intro hsome
  cases he : f e with
  | none =>
    rw [he] at hsome
    have hnone := h hsome
    rwa [List.findSome?_cons, he] at hnone
  | some b => exact hone (by rw [he]; rfl)

theorem Settled.pick (h : Settled f o es) (ho : o.isSome) : Reality.pick f g o es = o := by
  rw [Reality.pick, h ho]
  rfl

end Pick

section

variable {e : Extension} {es : List Extension} {publicKey : Option Bytes}
  {serverName : Option String}

theorem serverName_step (h : e.Fits) :
    (if e.type = 0x0000 then parseSni e.data else serverName) =
      (e.names.map hostName).getD serverName := by
  obtain ⟨hdata, hnames, -⟩ := h
  cases e with
  | serverName names =>
    have hlist : (names.flatMap ServerName.encode).length < 65536 := by
      simp only [Extension.data, length_counted16] at hdata
      omega
    show parseSni (counted16 (names.flatMap ServerName.encode)) = hostName names
    rw [parseSni_counted16 hlist, sniLoop_encode (hnames names rfl)]
  | keyShare shares => rfl
  | other t d ht => exact if_neg ht.1

theorem publicKey_step (h : e.Fits) :
    (if e.type = 0x0033 then parseKeyShare e.data else publicKey) =
      (e.shares.map x25519Share).getD publicKey := by
  obtain ⟨hdata, -, hshares⟩ := h
  cases e with
  | serverName names => rfl
  | keyShare shares =>
    have hlist : (shares.flatMap KeyShare.encode).length < 65536 := by
      simp only [Extension.data, length_counted16] at hdata
      omega
    show parseKeyShare (counted16 (shares.flatMap KeyShare.encode)) = x25519Share shares
    rw [parseKeyShare_counted16 hlist, keyShareLoop_encode (hshares shares rfl)]
  | other t d ht => exact if_neg ht.2

theorem type_of_names (e : Extension) (h : e.names.isSome) : e.type = 0x0000 := by
  cases e with
  | serverName names => rfl
  | keyShare shares => cases h
  | other t d ht => cases h

theorem type_of_shares (e : Extension) (h : e.shares.isSome) : e.type = 0x0033 := by
  cases e with
  | serverName names => cases h
  | keyShare shares => rfl
  | other t d ht => cases h

theorem extensionsLoop_cons (h : e.Fits) (rest : Bytes) :
    extensionsLoop (e.encode ++ rest) publicKey serverName =
      let publicKey := (e.shares.map x25519Share).getD publicKey
      let serverName := (e.names.map hostName).getD serverName
      if publicKey.isSome ∧ serverName.isSome then (publicKey, serverName)
      else extensionsLoop rest publicKey serverName := by
  obtain ⟨t₁, t₂, htype, htypeValue⟩ := exists_toBe16 e.type
  obtain ⟨hi, lo, hbytes, hvalue⟩ := exists_toBe16_ofNat h.1
  have hencode : e.encode ++ rest = t₁ :: t₂ :: hi :: lo :: (e.data ++ rest) := by
    rw [Extension.encode, counted16, htype, hbytes]
    rfl
  rw [hencode, extensionsLoop]
  simp only [htypeValue, hvalue]
  rw [if_neg (by simp), List.take_left, List.drop_left, serverName_step h, publicKey_step h]

theorem extensionsLoop_encode (hfits : ∀ e ∈ es, e.Fits)
    (hdistinct : (es.map Extension.type).Nodup) (hkey : Settled Extension.shares publicKey es)
    (hname : Settled Extension.names serverName es) :
    extensionsLoop (es.flatMap Extension.encode) publicKey serverName =
      (pick Extension.shares x25519Share publicKey es,
        pick Extension.names hostName serverName es) := by
  induction es generalizing publicKey serverName with
  | nil => exact Checked.extensionsLoop_short (by simp) ..
  | cons e es ih =>
    obtain ⟨he, hes⟩ := List.forall_mem_cons.mp hfits
    have hshares := findSome?_eq_none (f := Extension.shares) type_of_shares hdistinct
    have hnames := findSome?_eq_none (f := Extension.names) type_of_names hdistinct
    replace hkey := hkey.tail (g := x25519Share) hshares
    replace hname := hname.tail (g := hostName) hnames
    rw [List.flatMap_cons, extensionsLoop_cons he, pick_cons hshares, pick_cons hnames]
    dsimp only
    split_ifs with hboth
    · rw [hkey.pick hboth.1, hname.pick hboth.2]
    · exact ih hes (List.nodup_cons.mp hdistinct).2 hkey hname

theorem parseExtensions_encode (hfits : ∀ e ∈ es, e.Fits)
    (hdistinct : (es.map Extension.type).Nodup) :
    parseExtensions (es.flatMap Extension.encode) =
      ((es.findSome? Extension.shares).bind x25519Share,
        (es.findSome? Extension.names).bind hostName) := by
  rw [parseExtensions, extensionsLoop_encode hfits hdistinct (fun h => by cases h)
    (fun h => by cases h)]
  rw [pick_none, pick_none]

end

/-! ## Reading the message -/

namespace Hello

variable {h : Hello}

def layout (h : Hello) (hw : h.WellFormed) : Layout where
  header := ⟨0x16 :: (h.recordVersion.val ++ toBe16 (UInt16.ofNat h.message.length)), by
    simp [h.recordVersion.property]⟩
  msgLen := ⟨toBe24 h.body.length, rfl⟩
  version := h.version
  random := h.random
  sessionId := h.sessionId
  suites := h.cipherSuites.flatMap toBe16
  methods := h.compressionMethods
  rest := (h.extensions.map fun es => counted16 (es.flatMap Extension.encode)).getD []
  sessionId_lt := lt_of_le_of_lt hw.sessionId (by omega)
  suites_lt := hw.suites
  methods_lt := hw.methods

theorem bytes_layout (hw : h.WellFormed) : (h.layout hw).bytes = h.record := by
  simp [layout, Layout.bytes, Layout.front, record, counted16, message, body]

theorem complete_record (hw : h.WellFormed) : Complete h.record := by
  obtain ⟨hi, lo, hbytes, hvalue⟩ := exists_toBe16_ofNat hw.message
  obtain ⟨v₁, v₂, hversion⟩ := List.length_eq_two.mp h.recordVersion.property
  have hrecord : h.record = 0x16 :: v₁ :: v₂ :: hi :: lo :: h.message := by
    rw [record, counted16, hbytes, hversion]
    rfl
  rw [hrecord]
  refine ⟨?_, rfl, ?_⟩
  · simp only [List.length_cons]
    omega
  · show 5 + (fromBe16 hi lo).toNat ≤ _
    simp only [hvalue, List.length_cons]
    omega

theorem extensionsBlock_rest (hw : h.WellFormed) : extensionsBlock (h.layout hw).rest =
    some (h.extensionList.flatMap Extension.encode) := by
  have hblock := hw.block
  unfold extensionList at hblock ⊢
  unfold layout
  cases hes : h.extensions with
  | none => rfl
  | some es =>
    simp only [hes, Option.getD_some] at hblock
    simp only [Option.map_some, Option.getD_some]
    rw [extensionsBlock, length_counted16, if_neg (by omega)]
    have hread := readCounted16_counted16 hblock []
    rw [List.append_nil] at hread
    rw [hread]
    rfl

theorem parse_of_wellFormed (hw : h.WellFormed) :
    parseClientHello h.record = .ok (some h.info) := by
  have hcomplete := complete_record hw
  rw [← bytes_layout hw] at hcomplete ⊢
  refine ((h.layout hw).parse_eq_some_iff hcomplete).mpr ⟨_, extensionsBlock_rest hw, ?_⟩
  rw [helloInfo, parseExtensions_encode hw.entries hw.distinct]
  rfl

end Hello

/-- On every byte string, no function of the parser takes an index or a slice out of range; and
    of every well-formed ClientHello in one record, the parser returns the random, the session
    id, the first X25519 share of 32 bytes and the first host name. -/
theorem parse_record :
    (∀ bytes, (Checked.parseClientHello bytes).isSome ∧ (Checked.parseExtensions bytes).isSome ∧
      (Checked.parseSni bytes).isSome ∧ (Checked.parseKeyShare bytes).isSome) ∧
    ∀ h : Hello, h.WellFormed → Checked.parseClientHello h.record = some (.ok (some h.info)) := by
  constructor
  · intro bytes
    rw [Checked.parseClientHello_eq, Checked.parseExtensions_eq, Checked.parseSni_eq,
      Checked.parseKeyShare_eq]
    exact ⟨rfl, rfl, rfl, rfl⟩
  · intro h hw
    rw [Checked.parseClientHello_eq, Hello.parse_of_wellFormed hw]

theorem parse_record_sample :
    let h : Hello := ⟨⟨[3, 1], rfl⟩, ⟨[3, 3], rfl⟩, List.Vector.replicate 32 7, [1, 2], [0x1301],
      [0], some [.keyShare [⟨0x0017, [4, 5]⟩, ⟨0x001d, List.replicate 32 9⟩],
        .other 0x0010 [] (by decide), .serverName [⟨0, [97]⟩]]⟩
    Checked.parseClientHello h.record = some (.ok (some ⟨[1, 2], List.Vector.replicate 32 7,
      some (List.replicate 32 9), some "a"⟩)) := by
  intro h
  have hw : h.WellFormed :=
    ⟨by decide, by decide, by decide, by simp [h, Hello.extensionList, Extension.Fits,
      Extension.names, Extension.shares, Extension.data, ServerName.encode, KeyShare.encode],
      by decide, by decide, by decide⟩
  have hinfo : h.info =
      ⟨[1, 2], List.Vector.replicate 32 7, some (List.replicate 32 9), some "a"⟩ := by
    decide +kernel
  rw [← hinfo]
  exact parse_record.2 h hw

end SkadiCore.Reality
