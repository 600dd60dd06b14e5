import SkadiCore.Vless.AddonsWire
import SkadiCore.Vless.Handler

/-!
# Addons and the protobuf format

What `parse_addons` accepts, compared with the protobuf format, and what the check of the flow
(`crates/skadi-protocol/src/vless/handler.rs`, lines 127-133) makes of it.

**Defects.** The readers overlook the flaws of `Field.Flawed`: a body of fixed size may be cut
off at the end, field numbers may be 0 or too large, and varints are taken modulo `2 ^ 64`
(`flaws_accepted`). The schema of Xray has the flow as a string, the parser takes it as a
nested message; a flow that reads as a message without a field 1 is no flow to the
server (`nested_flow_accepted`).
-/

namespace SkadiCore.Vless

open Protobuf

variable {data : Bytes} {fields : List Field} {f : Field} {addons : VlessAddons}

/-! ## Messages of the format -/

theorem shortNumber_of_wellFormed (h : f.WellFormed) : shortNumber f = f.number := by
  have hfits := h.fits
  have hlt := h.lt
  unfold Field.number at hlt ⊢
  unfold shortNumber
  omega

theorem number_of_wellFormed (h : f.WellFormed) : lenient.number f = format.number f :=
  shortNumber_of_wellFormed h

theorem flowText_of_wellFormed (h : ∀ f ∈ fields, f.WellFormed) :
    lenient.flowText fields = format.flowText fields := by
  unfold Rules.flowText
  rw [lastOf_congr fun f hf => by rw [number_of_wellFormed (h f hf)]]

theorem lastPayload_of_wellFormed (h : ∀ f ∈ fields, f.WellFormed) (n : ℕ) :
    lenient.lastPayload n fields = format.lastPayload n fields := by
  unfold Rules.lastPayload
  rw [lastOf_congr fun f hf => by rw [number_of_wellFormed (h f hf)]]

theorem flowFields_iff (h : ∀ f ∈ fields, f.WellFormed) :
    format.FlowFields data fields ↔ lenient.FlowFields data fields := by
  constructor
  · rintro ⟨hdata, -, haccepts⟩
    refine ⟨hdata, framed_of_wellFormed h, fun f hf => ?_⟩
    rw [number_of_wellFormed (h f hf)]
    exact haccepts f hf
  · rintro ⟨hdata, -, haccepts⟩
    refine ⟨hdata, h, fun f hf => ?_⟩
    rw [← number_of_wellFormed (h f hf)]
    exact haccepts f hf

theorem isFlow_lenient {text : String} (h : format.IsFlow data text) :
    lenient.IsFlow data text := by
  obtain ⟨fields, hfields, rfl⟩ := h
  exact ⟨fields, (flowFields_iff hfields.ok).mp hfields, (flowText_of_wellFormed hfields.ok).symm⟩

theorem AddonsAccepts.imp {P Q : Bytes → Prop} {number : ℕ} {body : Body}
    (h : AddonsAccepts P number body)
    (hPQ : ∀ b, payloadOf 1 number body = some b → P b → Q b) : AddonsAccepts Q number body := by
  intro b hb
  have hbound := h b hb
  split_ifs at hbound ⊢ with hone
  · exact ⟨hbound.1, hPQ b (payloadOf_eq_some_iff.mpr ⟨hone, hb⟩) hbound.2⟩
  · exact hbound
  · exact hbound

theorem addonsFields_lenient (h : format.AddonsFields data fields) :
    lenient.AddonsFields data fields := by
  refine ⟨h.wire, framed_of_wellFormed h.ok, fun f hf => ?_⟩
  rw [number_of_wellFormed (h.ok f hf)]
  refine (h.accepts f hf).imp fun b _ hnested => ?_
  obtain ⟨nested, hfields⟩ := hnested
  exact ⟨nested, (flowFields_iff hfields.ok).mp hfields⟩

theorem rel_imp {P Q : Bytes → String → Prop} {x : Option Bytes} {y : Option String}
    (h : Option.Rel P x y) (hPQ : ∀ b text, x = some b → P b text → Q b text) :
    Option.Rel Q x y := by
  cases h with
  | none => exact .none
  | some hb => exact .some (hPQ _ _ rfl hb)

theorem parseAddons_of_isAddons (h : format.IsAddons data addons) :
    parseAddons data = .ok addons := by
  obtain ⟨fields, hfields, hseed, hflow⟩ := h
  refine parseAddons_ok_iff.mpr ⟨fields, addonsFields_lenient hfields, ?_, ?_⟩
  · rw [hseed, lastPayload_of_wellFormed hfields.ok]
  · rw [lastPayload_of_wellFormed hfields.ok]
    exact rel_imp hflow fun b text _ => isFlow_lenient

/-! ## Flaws -/

/-- The parser accepts a flawed field, in the addons or in their flow message. -/
def Overlooks (data : Bytes) : Prop :=
  ∃ fields, lenient.AddonsFields data fields ∧
    ((∃ f ∈ fields, f.Flawed) ∨
      ∃ f ∈ fields, ∃ b nested, payloadOf 1 (shortNumber f) f.body = some b ∧
        lenient.FlowFields b nested ∧ ∃ g ∈ nested, g.Flawed)

theorem isOk_of_addonsFields (h : lenient.AddonsFields data fields) : IsOk (parseAddons data) :=
  ⟨⟨_, _⟩, parseAddons_ok_iff.mpr ⟨fields, h, rfl, (flow_eq_iff h).mp rfl⟩⟩

theorem not_flawed_of_wire {fields' : List Field} (h : Framed fields)
    (h' : ∀ f ∈ fields', f.WellFormed) (hwire : wire fields = wire fields') :
    ∀ f ∈ fields, ¬ f.Flawed := by
  obtain rfl := h.unique (framed_of_wellFormed h') hwire
  intro f hf
  obtain ⟨last, hframed⟩ := h.of_mem hf
  exact (Field.wellFormed_iff hframed).mp (h' f hf)

theorem isAddons_of_parseAddons (hno : ¬ Overlooks data) (h : parseAddons data = .ok addons) :
    format.IsAddons data addons := by
  obtain ⟨fields, hfields, hseed, hflow⟩ := parseAddons_ok_iff.mp h
  have hwell : ∀ f ∈ fields, f.WellFormed :=
    Framed.wellFormed hfields.ok fun f hf hflaw => hno ⟨fields, hfields, .inl ⟨f, hf, hflaw⟩⟩
  have hnested : ∀ f ∈ fields, ∀ b nested, payloadOf 1 (shortNumber f) f.body = some b →
      lenient.FlowFields b nested → ∀ g ∈ nested, g.WellFormed := by
    intro f hf b nested hb hnested
    refine Framed.wellFormed hnested.ok fun g hg hflaw => hno ⟨fields, hfields, .inr ?_⟩
    exact ⟨f, hf, b, nested, hb, hnested, g, hg, hflaw⟩
  refine ⟨fields, ⟨hfields.wire, hwell, fun f hf => ?_⟩, ?_, ?_⟩
  · rw [← number_of_wellFormed (hwell f hf)]
    refine (hfields.accepts f hf).imp fun b hb hread => ?_
    obtain ⟨nested, hflowFields⟩ := hread
    exact ⟨nested, (flowFields_iff (hnested f hf b nested hb hflowFields)).mpr hflowFields⟩
  · rw [hseed, lastPayload_of_wellFormed hwell]
  · rw [← lastPayload_of_wellFormed hwell]
    refine rel_imp hflow fun b text hb hread => ?_
    obtain ⟨f, hf, hpayload⟩ := exists_of_lastOf hb
    obtain ⟨nested, hflowFields, rfl⟩ := hread
    have hwell' := hnested f hf b nested hpayload hflowFields
    exact ⟨nested, (flowFields_iff hwell').mpr hflowFields, flowText_of_wellFormed hwell'⟩

/-- For every string, `parse_addons` returns what the format says, and nothing for what is no
    message of the format within the bounds, if and only if it overlooks no flaw in the string. -/
theorem exact_iff (data : Bytes) :
    (∀ addons, parseAddons data = .ok addons ↔ format.IsAddons data addons) ↔
      ¬ Overlooks data := by
  constructor
  · rintro hexact ⟨fields, hfields, hflaw⟩
    obtain ⟨addons, haddons⟩ := isOk_of_addonsFields hfields
    obtain ⟨fields', hformat, -⟩ := (hexact addons).mp haddons
    have hwire := hfields.wire.symm.trans hformat.wire
    rcases hflaw with ⟨f, hf, hflawed⟩ | ⟨f, hf, b, nested, hb, hnested, g, hg, hflawed⟩
    · exact not_flawed_of_wire hfields.ok hformat.ok hwire f hf hflawed
    · obtain rfl := Framed.unique hfields.ok (framed_of_wellFormed hformat.ok) hwire
      rw [shortNumber_of_wellFormed (hformat.ok f hf)] at hb
      obtain ⟨nested', hformat'⟩ := hformat.nested hf hb
      have hwire' := hnested.wire.symm.trans hformat'.wire
      exact not_flawed_of_wire hnested.ok hformat'.ok hwire' g hg hflawed
  · intro hno addons
    exact ⟨isAddons_of_parseAddons hno, parseAddons_of_isAddons⟩

theorem not_isAddons_of_flawed (h : f.Framed True) (hflaw : f.Flawed) :
    ¬ format.IsAddons f.bytes addons := by
  rintro ⟨fields', hformat, -⟩
  have hframed : Framed [f] := ⟨by rw [eq_self]; exact h, trivial⟩
  have hwire : wire [f] = wire fields' := by
    rw [← hformat.wire]
    simp [wire]
  exact not_flawed_of_wire hframed hformat.ok hwire f (List.mem_singleton_self f) hflaw

theorem flaws_accepted :
    let flaws : List Field := [⟨[0x09], .fixed64 []⟩, ⟨[0x00], .varint [0x00]⟩,
      ⟨[0x18], .varint (List.replicate 9 0xff ++ [0x7f])⟩]
    ∀ f ∈ flaws, parseAddons f.bytes = .ok ⟨none, none⟩ ∧
      ∀ addons, ¬ format.IsAddons f.bytes addons := by
  intro flaws f hf
  simp only [flaws, List.mem_cons, List.not_mem_nil, or_false] at hf
  rcases hf with rfl | rfl | rfl
  · refine ⟨by decide +kernel, fun addons => not_isAddons_of_flawed ⟨?_, by decide, ?_⟩ ?_⟩
    · exact .last (by decide)
    · exact .inr ⟨by decide, trivial⟩
    · exact .inr (.inr (.inr (show (0 : ℕ) < 8 by decide)))
  · refine ⟨by decide +kernel, fun addons => not_isAddons_of_flawed ⟨?_, by decide, ?_⟩ ?_⟩
    · exact .last (by decide)
    · exact .last (by decide)
    · exact .inr (.inl (by decide))
  · refine ⟨by decide +kernel, fun addons => not_isAddons_of_flawed ⟨?_, by decide, ?_⟩ ?_⟩
    · exact .last (by decide)
    · show Varint 10 (List.replicate 9 0xff ++ [0x7f])
      repeat first | exact .last (by decide) | refine .more (by decide) ?_
    · exact .inr (.inr (.inr (show 2 ^ 64 ≤ value _ by decide)))

/-! ## The flow check -/

def checkAddons (data : Bytes) (userFlow : Option String) : Except String Unit :=
  match parseAddons data with
  | .error e => .error s!"VLESS addons: {e.display}"
  | .ok addons =>
    match validateFlow addons.flow userFlow with
    | .error _ => .error "unsupported flow"
    | .ok _ => .ok ()

theorem isOk_checkAddons_iff {userFlow : Option String} :
    IsOk (checkAddons data userFlow) ↔
      ∃ addons, lenient.IsAddons data addons ∧ addons.flow.getD "" = "" ∧
        userFlow.getD "" = "" := by
  simp only [← validateFlow_ok_iff, ← parseAddons_ok_iff]
  unfold checkAddons
  cases parseAddons data with
  | error e => simp
  | ok addons =>
    cases hflow : validateFlow addons.flow userFlow with
    | error e => simp [hflow]
    | ok _ => simp [hflow]

/-- The fields are a well-formed flow message for `flow`. -/
structure EncodesFlow (fields : List Field) (flow : String) : Prop where
  wellFormed : ∀ f ∈ fields, f.WellFormed
  utf8 : ∀ f ∈ fields, ∀ b ∈ payloadOf 1 f.number f.body, (fromUtf8 b).isSome
  flow : format.flowText fields = flow

theorem EncodesFlow.lastPayload {flow : String} (h : EncodesFlow fields flow) (hflow : flow ≠ "") :
    lenient.lastPayload 1 fields = some (asBytes flow) := by
  have hbind : lastOf (fun f => textOf f.number f.body) fields =
      (format.lastPayload 1 fields).bind fromUtf8 := lastOf_bind h.utf8
  have htext : (lastOf (fun f => textOf f.number f.body) fields).getD "" = flow := h.flow
  rw [hbind, eq_comm] at htext
  rw [lastPayload_of_wellFormed h.wellFormed]
  cases hlast : format.lastPayload 1 fields with
  | none =>
    rw [hlast] at htext
    exact absurd htext hflow
  | some b =>
    rw [hlast, Option.bind_some] at htext
    cases hutf8 : fromUtf8 b with
    | none =>
      rw [hutf8] at htext
      exact absurd htext hflow
    | some text =>
      rw [hutf8] at htext
      obtain rfl : flow = text := htext
      rw [fromUtf8_eq_some_iff.mp hutf8]

def flowField (flow : String) : Field :=
  ⟨[0x0a], .delimited [UInt8.ofNat (asBytes flow).length] (asBytes flow)⟩

theorem number_flowField (flow : String) : (flowField flow).number = 1 :=
  show value [0x0a] / 8 = 1 by decide

theorem encodesFlow_flowField {flow : String} (h : (asBytes flow).length < 128) :
    EncodesFlow [flowField flow] flow := by
  have hlength := toNat_ofNat_of_lt (show (asBytes flow).length < 256 by omega)
  have hvalue : value [UInt8.ofNat (asBytes flow).length] = (asBytes flow).length := by
    simp only [value, hlength]
    omega
  have hlen : Varint 10 [UInt8.ofNat (asBytes flow).length] := .last (by rw [hlength]; exact h)
  have hnumber := number_flowField flow
  refine ⟨?_, ?_, ?_⟩
  · have hfits : value [0x0a] < 2 ^ 64 := by decide
    have htype : value [0x0a] % 8 = 2 := by decide
    refine List.forall_mem_singleton.mpr
      ⟨.last (by decide), hfits, htype, by omega, by omega, hlen, ?_, hvalue.symm⟩
    rw [hvalue]
    omega
  · refine List.forall_mem_singleton.mpr fun b hb => ?_
    obtain rfl : asBytes flow = b := Option.some.inj (payloadOf_eq_some_iff.mp hb).2
    rw [fromUtf8_asBytes]
    rfl
  · have htext : textOf 1 (flowField flow).body = some flow := fromUtf8_asBytes flow
    show (lastOf (fun f => textOf f.number f.body) [flowField flow]).getD "" = flow
    rw [lastOf_cons, lastOf_nil, Option.none_or, hnumber, htext]
    rfl

/-- A message with a flow is refused if the user has a flow, if a string is too long or a flow
    is no nested message, or if the flow as a nested message has a text. -/
theorem flow_refused_iff {flow : String} (h : EncodesFlow fields flow) (hflow : flow ≠ "")
    (userFlow : Option String) :
    ¬ IsOk (checkAddons (wire fields) userFlow) ↔
      userFlow.getD "" ≠ "" ∨
      (∃ f ∈ fields, ¬ AddonsAccepts (fun b => ∃ nested, lenient.FlowFields b nested)
        f.number f.body) ∨
      ∃ nested, lenient.FlowFields (asBytes flow) nested ∧ lenient.flowText nested ≠ "" := by
  have hlast := h.lastPayload hflow
  have hnumber : ∀ f ∈ fields, lenient.number f = f.number :=
    fun f hf => shortNumber_of_wellFormed (h.wellFormed f hf)
  rw [isOk_checkAddons_iff]
  constructor
  · intro hrefused
    by_contra hno
    push Not at hno
    obtain ⟨huser, haccepts, htext⟩ := hno
    have hfields : lenient.AddonsFields (wire fields) fields := by
      refine ⟨rfl, framed_of_wellFormed h.wellFormed, fun f hf => ?_⟩
      rw [hnumber f hf]
      exact haccepts f hf
    obtain ⟨f, hf, hb⟩ := exists_of_lastOf hlast
    obtain ⟨nested, hnested⟩ := hfields.nested hf hb
    refine hrefused ⟨⟨some "", _⟩, ⟨fields, hfields, rfl, ?_⟩, rfl, huser⟩
    rw [hlast]
    exact .some ⟨nested, hnested, (htext nested hnested).symm⟩
  · rintro hcond ⟨addons, ⟨fields', hfields, -, hrel⟩, htext, huser⟩
    obtain rfl := Framed.unique hfields.ok (framed_of_wellFormed h.wellFormed) hfields.wire.symm
    rw [hlast] at hrel
    rcases hcond with hcond | ⟨f, hf, hcond⟩ | ⟨nested, hnested, hcond⟩
    · exact hcond huser
    · rw [← hnumber f hf] at hcond
      exact hcond (hfields.accepts f hf)
    · generalize hx : addons.flow = x at hrel htext
      cases hrel with
      | some hb =>
        have hparse := parseFlowMessage_ok_iff.mpr hb
        rw [parseFlowMessage_ok_iff.mpr ⟨nested, hnested, rfl⟩] at hparse
        cases hparse
        exact hcond htext

theorem vision_refused : ¬ IsOk (checkAddons (wire [flowField FLOW_XTLS_VISION]) none) := by
  have hlength : (asBytes FLOW_XTLS_VISION).length < 128 := by decide +kernel
  refine (flow_refused_iff (encodesFlow_flowField hlength) (by decide) none).mpr (.inr (.inl ?_))
  refine ⟨_, List.mem_singleton_self _, fun haccepts => ?_⟩
  have hparse : parseFlowMessage (asBytes FLOW_XTLS_VISION) = .error (.invalidWireType 4) := by
    decide +kernel
  obtain ⟨text, htext⟩ := isOk_parseFlowMessage_iff.mpr (haccepts _ rfl).2
  rw [hparse] at htext
  cases htext

theorem nested_flow_accepted :
    EncodesFlow [flowField "\x08\x01"] "\x08\x01" ∧
      wire [flowField "\x08\x01"] = [0x0a, 0x02, 0x08, 0x01] ∧
      checkAddons [0x0a, 0x02, 0x08, 0x01] none = .ok () :=
  ⟨encodesFlow_flowField (by decide +kernel), by decide +kernel, by decide +kernel⟩

end SkadiCore.Vless
