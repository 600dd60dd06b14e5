import SkadiCore.Common.Bytes
import SkadiCore.Common.Run

/-!
# The path MTU

Model of `crates/skadi-client/src/pmtud.rs`, lines 1-208, and of the task `stack_to_tun`
(`crates/skadi-client/src/tun/mod.rs`, lines 80-95).

**Defect.** The protocol of a packet is not looked at: type and code are read where a TCP or
UDP packet has its source port, so a packet from port 772 is taken for an ICMP message
(`udp_lowers_mtu`).

**Abstraction.** The name lookup and the system calls of `probe_path_mtu` (lines 70-139) are the
value that `getsockopt` returns, or the error of the first call that fails. `MtuState` is an
atomic that only one task writes, so `try_lower` is one step.
-/

namespace SkadiCore.Client

/-! ## The probe -/

def IPV4_HEADER_LEN : ℕ := 20

def UDP_HEADER_LEN : ℕ := 8

def ICMP_HEADER_LEN : ℕ := 8

def MIN_TUN_MTU : UInt16 := 576

def RECOMMENDED_TUN_MTU : UInt16 := 1400

inductive PmtudMode
  | off
  | static
  | probe
  deriving DecidableEq

def asU16 (mtu : Int32) : UInt16 := UInt16.ofNat (mtu.toInt % 65536).toNat

/-- `probe_path_mtu_linux` (lines 93-139), given the value of `IP_MTU`. -/
def probePathMtuLinux (ipMtu : Except String Int32) : Except String UInt16 :=
  match ipMtu with
  | .ok mtu =>
    if mtu ≤ 0 then .error ("invalid path MTU from IP_MTU: " ++ toString mtu) else .ok (asU16 mtu)
  | .error err => .error err

def saturatingSub (a b : UInt16) : UInt16 := if a < b then 0 else a - b

/-- `resolve_effective_mtu` (lines 37-68). -/
def resolveEffectiveMtu (configuredMtu : UInt16) (mode : PmtudMode) (overhead : UInt16)
    (ipMtu : Except String Int32) : UInt16 :=
  match mode with
  | .off | .static => configuredMtu
  | .probe =>
    match probePathMtuLinux ipMtu with
    | .ok pathMtu => min (max (saturatingSub pathMtu overhead) MIN_TUN_MTU) configuredMtu
    | .error _ => min configuredMtu RECOMMENDED_TUN_MTU

/-- The MTU over the integers. -/
def probedMtu (configured overhead : UInt16) (p : Int32) : ℤ :=
  min configured.toNat (max 576 (p.toInt - overhead.toNat))

/-- What Linux may return as `IP_MTU` of an IPv4 socket: the MTU of a route is capped at 65535,
    the greatest length of a packet, also where the device has more (loopback: 65536). -/
def KernelMtu (p : Int32) : Prop := 0 < p.toInt ∧ p.toInt ≤ 65535

theorem toNat_saturatingSub (a b : UInt16) : (saturatingSub a b).toNat = a.toNat - b.toNat := by
  unfold saturatingSub
  split_ifs with h
  · rw [UInt16.lt_iff_toNat_lt] at h
    rw [Nat.sub_eq_zero_of_le h.le]
    rfl
  · rw [UInt16.toNat_sub_of_le _ _ (UInt16.not_lt.mp h)]

theorem toNat_asU16 (p : Int32) : ((asU16 p).toNat : ℤ) = p.toInt % 65536 := by
  rw [asU16, UInt16.toNat_ofNat']
  omega

theorem resolve_probe (configured overhead : UInt16) {p : Int32} (hp : 0 < p.toInt) :
    ((resolveEffectiveMtu configured .probe overhead (.ok p)).toNat : ℤ) =
      min (configured.toNat : ℤ) (max 576 (p.toInt % 65536 - overhead.toNat)) := by
  have hpos : ¬ p ≤ 0 := by
    rw [Int32.le_iff_toInt_le]
    exact not_le.mpr hp
  have hmin : MIN_TUN_MTU.toNat = 576 := rfl
  have hpath := toNat_asU16 p
  simp only [resolveEffectiveMtu, probePathMtuLinux, hpos, if_false, UInt16.toNat_min,
    UInt16.toNat_max, toNat_saturatingSub, hmin]
  omega

/-- For every configured MTU, every overhead and every path MTU of the kernel: the MTU is the
    one over the integers, so never above the configured one, nor above what the path leaves
    if that is at least 576, and monotone in the path MTU. -/
theorem probed_mtu (configured overhead : UInt16) (p : Int32) (hp : KernelMtu p) :
    ((resolveEffectiveMtu configured .probe overhead (.ok p)).toNat : ℤ) =
        probedMtu configured overhead p ∧
      (resolveEffectiveMtu configured .probe overhead (.ok p)).toNat ≤ configured.toNat ∧
      (576 ≤ p.toInt - overhead.toNat →
        (resolveEffectiveMtu configured .probe overhead (.ok p)).toNat ≤
          p.toInt - overhead.toNat) ∧
      ∀ q, KernelMtu q → p.toInt ≤ q.toInt →
        (resolveEffectiveMtu configured .probe overhead (.ok p)).toNat ≤
          (resolveEffectiveMtu configured .probe overhead (.ok q)).toNat := by
  obtain ⟨hpos, hcap⟩ := hp
  have hvalue := resolve_probe configured overhead hpos
  unfold probedMtu
  refine ⟨?_, ?_, ?_, ?_⟩
  · omega
  · omega
  · omega
  · rintro q ⟨hpos', hcap'⟩ hq
    have hvalue' := resolve_probe configured overhead hpos'
    omega

theorem probed_mtu_ethernet :
    (resolveEffectiveMtu 1400 .probe 100 (.ok 1500)).toNat = probedMtu 1400 100 1500 :=
  (probed_mtu 1400 100 1500 ⟨by decide, by decide⟩).1

/-! ## ICMP messages -/

/-- `parse_icmp_frag_needed_v4` (lines 187-208). -/
def parseIcmpFragNeededV4 (packet : Bytes) : Option UInt16 :=
  if packet.length < IPV4_HEADER_LEN + ICMP_HEADER_LEN then none
  else if byteAt packet 0 >>> 4 ≠ 4 then none
  else
    let ihl := (byteAt packet 0 &&& 0x0f).toNat * 4
    if ihl < IPV4_HEADER_LEN ∨ packet.length < ihl + ICMP_HEADER_LEN then none
    else
      let icmp := packet.drop ihl
      if byteAt icmp 0 ≠ 3 ∨ byteAt icmp 1 ≠ 4 then none
      else
        let mtu := fromBe16 (byteAt icmp 6) (byteAt icmp 7)
        if mtu < MIN_TUN_MTU then none else some mtu

/-- The MTU field of an ICMP message that says that fragmentation was needed: the packet is
    the first fragment of an IPv4 packet of protocol ICMP, of type 3 and code 4, and the
    field is at least 576. -/
def nextHopMtu (packet : Bytes) : Option UInt16 :=
  let ihl := (byteAt packet 0).toNat % 16 * 4
  let mtu := fromBe16 (byteAt packet (ihl + 6)) (byteAt packet (ihl + 7))
  if (byteAt packet 0).toNat / 16 = 4 ∧ 20 ≤ ihl ∧ ihl + 8 ≤ packet.length ∧
      byteAt packet 9 = 1 ∧ (fromBe16 (byteAt packet 6) (byteAt packet 7)).toNat % 2 ^ 13 = 0 ∧
      byteAt packet ihl = 3 ∧ byteAt packet (ihl + 1) = 4 ∧ 576 ≤ mtu.toNat then
    some mtu
  else none

theorem version_eq_iff (b : Byte) : b >>> 4 = 4 ↔ b.toNat / 16 = 4 := by
  rw [← UInt8.toNat_inj, UInt8.toNat_shiftRight]
  simp [Nat.shiftRight_eq_div_pow]

theorem toNat_and_0x0f (b : Byte) : (b &&& 0x0f).toNat = b.toNat % 16 := by
  rw [UInt8.toNat_and]
  exact Nat.and_two_pow_sub_one_eq_mod b.toNat 4

theorem parseIcmpFragNeededV4_eq_some {packet : Bytes} {n : UInt16} :
    parseIcmpFragNeededV4 packet = some n ↔
      let ihl := (byteAt packet 0).toNat % 16 * 4
      (byteAt packet 0).toNat / 16 = 4 ∧ 20 ≤ ihl ∧ ihl + 8 ≤ packet.length ∧
        byteAt packet ihl = 3 ∧ byteAt packet (ihl + 1) = 4 ∧ 576 ≤ n.toNat ∧
        fromBe16 (byteAt packet (ihl + 6)) (byteAt packet (ihl + 7)) = n := by
  have hmin : MIN_TUN_MTU.toNat = 576 := rfl
  simp only [parseIcmpFragNeededV4, Option.ite_none_left_eq_some, version_eq_iff, toNat_and_0x0f,
    byteAt_drop, Nat.add_zero, not_lt, not_or, not_not, Option.some.injEq, UInt16.lt_iff_toNat_lt,
    hmin, IPV4_HEADER_LEN, ICMP_HEADER_LEN]
  constructor
  · rintro ⟨-, hversion, ⟨hihl, hlen⟩, ⟨htype, hcode⟩, hleast, rfl⟩
    exact ⟨hversion, hihl, hlen, htype, hcode, hleast, rfl⟩
  · rintro ⟨hversion, hihl, hlen, htype, hcode, hleast, rfl⟩
    exact ⟨by omega, hversion, ⟨hihl, hlen⟩, ⟨htype, hcode⟩, hleast, rfl⟩

theorem parse_of_nextHopMtu {packet : Bytes} {n : UInt16} (h : nextHopMtu packet = some n) :
    parseIcmpFragNeededV4 packet = some n := by
  rw [parseIcmpFragNeededV4_eq_some]
  simp only [nextHopMtu, Option.ite_none_right_eq_some, Option.some.injEq] at h
  obtain ⟨⟨hversion, hihl, hlen, -, -, htype, hcode, hleast⟩, rfl⟩ := h
  exact ⟨hversion, hihl, hlen, htype, hcode, hleast, rfl⟩

/-! ## The task that writes to the TUN device -/

/-- `MtuState::try_lower` (lines 170-183): the MTU behind it, and the answer. -/
def tryLower (current nextHopMtu : UInt16) : UInt16 × Bool :=
  let clamped := max nextHopMtu MIN_TUN_MTU
  if current ≤ clamped then (current, false) else (clamped, true)

inductive StackItem
  | packet (pkt : Bytes) (sent : Bool)
  | failed

structure StackToTun where
  mtu : UInt16
  stopped : Bool
  deriving DecidableEq

namespace StackToTun

variable {s t : StackToTun} {item : StackItem} {items : List StackItem}

def onPacket (mtu : UInt16) (pkt : Bytes) : UInt16 :=
  match parseIcmpFragNeededV4 pkt with
  | some next => (tryLower mtu next).1
  | none => mtu

def step (s : StackToTun) (item : StackItem) : Option StackToTun :=
  if s.stopped then none
  else
    match item with
    | .packet pkt sent => some ⟨onPacket s.mtu pkt, !sent⟩
    | .failed => some s

def lowest (mtu : UInt16) : List StackItem → UInt16
  | [] => mtu
  | .packet pkt _ :: items => lowest (((nextHopMtu pkt).map (min mtu)).getD mtu) items
  | .failed :: items => lowest mtu items

/-- A packet that is only taken for Fragmentation Needed does not lower the MTU. -/
def Harmless (s : StackToTun) : StackItem → Prop
  | .packet pkt _ => ∀ n, parseIcmpFragNeededV4 pkt = some n → nextHopMtu pkt = none → s.mtu ≤ n
  | .failed => True

theorem lowest_append (mtu : UInt16) (items : List StackItem) (item : StackItem) :
    lowest mtu (items ++ [item]) = lowest (lowest mtu items) [item] := by
  induction items generalizing mtu with
  | nil => rfl
  | cons first items ih =>
    cases first with
    | packet pkt sent => exact ih _
    | failed => exact ih _

theorem tryLower_of_least {m n : UInt16} (hn : 576 ≤ n.toNat) : (tryLower m n).1 = min m n := by
  have hmin : MIN_TUN_MTU.toNat = 576 := rfl
  apply UInt16.toNat_inj.mp
  unfold tryLower
  simp only [UInt16.le_iff_toNat_le, UInt16.toNat_max, hmin]
  split_ifs with h
  · show m.toNat = _
    rw [UInt16.toNat_min]
    omega
  · show (max n MIN_TUN_MTU).toNat = _
    rw [UInt16.toNat_min, UInt16.toNat_max, hmin]
    omega

theorem step_exact_iff (h : s.step item = some t) :
    t.mtu = lowest s.mtu [item] ↔ Harmless s item := by
  simp only [step, Option.ite_none_left_eq_some] at h
  obtain ⟨-, h⟩ := h
  cases item with
  | failed =>
    cases h
    simp [lowest, Harmless]
  | packet pkt sent =>
    cases h
    simp only [lowest, Harmless, onPacket]
    cases hparse : parseIcmpFragNeededV4 pkt with
    | none =>
      have hnone : nextHopMtu pkt = none := by
        rw [Option.eq_none_iff_forall_ne_some]
        intro n hn
        rw [parse_of_nextHopMtu hn] at hparse
        cases hparse
      simp [hnone]
    | some n =>
      have hleast := (parseIcmpFragNeededV4_eq_some.mp hparse).2.2.2.2.2.1
      cases hnext : nextHopMtu pkt with
      | some n' =>
        have hsame := (parse_of_nextHopMtu hnext).symm.trans hparse
        cases hsame
        simp [tryLower_of_least hleast]
      | none =>
        simp only [tryLower_of_least hleast, Option.map_none, Option.getD_none,
          Option.some.injEq, forall_eq', forall_const]
        rw [← UInt16.toNat_inj, UInt16.toNat_min, UInt16.le_iff_toNat_le]
        omega

/-- For every first MTU and every sequence of packets: at all times the MTU is the lowest of
    the first one and those of the ICMP messages, exactly if every packet that is taken for
    such a message without being one names an MTU that is no lower than the current one. -/
theorem mtu_exact_iff (mtu : UInt16) (hrun : Run step Any ⟨mtu, false⟩ items s) :
    (∀ past t, past <+: items → Run step Any ⟨mtu, false⟩ past t → t.mtu = lowest mtu past) ↔
      Run step Harmless ⟨mtu, false⟩ items s := by
  induction hrun with
  | nil =>
    constructor
    · exact fun _ => .nil _
    · intro _ past t hpast hrun
      cases List.prefix_nil.mp hpast
      cases hrun.unique (Run.nil (C := Any) _)
      rfl
  | @snoc t u items item hrun _ hstep ih =>
    rw [hrun.snoc_iff hstep, ← ih]
    constructor
    · intro h
      refine ⟨fun past v hpast => h past v (hpast.trans (List.prefix_append _ _)), ?_⟩
      have ht : t.mtu = lowest mtu items := h items t (List.prefix_append _ _) hrun
      rw [← step_exact_iff hstep, ht, ← lowest_append]
      exact h _ u List.prefix_rfl (hrun.snoc trivial hstep)
    · rintro ⟨h, hharmless⟩ past v hpast hpastrun
      rcases List.prefix_concat_iff.mp hpast with rfl | hpast
      · cases hpastrun.unique (hrun.snoc (C := Any) trivial hstep)
        rw [lowest_append, ← h items t List.prefix_rfl hrun]
        exact (step_exact_iff hstep).mpr hharmless
      · exact h past v hpast hpastrun

/-- A UDP packet from port 772, with 600 where an ICMP message has its MTU. -/
def udpPacket : Bytes :=
  [0x45, 0, 0, 28, 0, 0, 0, 0, 64, 17, 0, 0, 10, 0, 0, 1, 10, 0, 0, 2, 3, 4, 0, 53, 0, 8, 2, 88]

/-- The same with 1400. -/
def harmlessPacket : Bytes := udpPacket.take 26 ++ [5, 120]

/-- An ICMP message: fragmentation needed, the MTU of the next hop is 1300. -/
def icmpPacket : Bytes :=
  [0x45, 0, 0, 28, 0, 0, 0, 0, 64, 1, 0, 0, 10, 0, 0, 1, 10, 0, 0, 2, 3, 4, 0, 0, 0, 0, 5, 20]

theorem mtu_exact_iff_lowered :
    let items : List StackItem := [.packet icmpPacket true, .packet harmlessPacket true]
    Run step Any ⟨1400, false⟩ items ⟨1300, false⟩ ∧ nextHopMtu icmpPacket = some 1300 ∧
      parseIcmpFragNeededV4 harmlessPacket = some 1400 ∧ nextHopMtu harmlessPacket = none ∧
      ∀ past t, past <+: items → Run step Any ⟨1400, false⟩ past t → t.mtu = lowest 1400 past := by
  intro items
  have hicmp : nextHopMtu icmpPacket = some 1300 := by decide
  have hudp : parseIcmpFragNeededV4 harmlessPacket = some 1400 := by decide
  have hrun : Run step Harmless ⟨1400, false⟩ items ⟨1300, false⟩ := by
    refine (Run.single (fun n _ hnone => ?_) (t := ⟨1300, false⟩) (by decide)).snoc
      (fun n hn _ => ?_) (by decide)
    · rw [hicmp] at hnone
      cases hnone
    · rw [hudp] at hn
      cases hn
      decide
  exact ⟨hrun.any, hicmp, hudp, by decide, (mtu_exact_iff 1400 hrun.any).mpr hrun⟩

theorem udp_lowers_mtu :
    byteAt udpPacket 9 = 17 ∧ nextHopMtu udpPacket = none ∧
      Run step Any ⟨1400, false⟩ [.packet udpPacket true] ⟨600, false⟩ ∧
      lowest 1400 [.packet udpPacket true] = 1400 :=
  ⟨rfl, by decide, Run.single trivial (by decide), by decide⟩

/-! ## Bounds of the MTU -/

theorem min_le_mtu (mtu : UInt16) : min mtu MIN_TUN_MTU ≤ mtu := by
  rw [UInt16.le_iff_toNat_le, UInt16.toNat_min]
  exact min_le_left _ _

theorem tryLower_bounds (mtu next : UInt16) :
    (tryLower mtu next).1 ≤ mtu ∧ min mtu MIN_TUN_MTU ≤ (tryLower mtu next).1 := by
  simp only [tryLower]
  split_ifs with hge
  · exact ⟨UInt16.le_refl mtu, min_le_mtu mtu⟩
  · simp only [UInt16.le_iff_toNat_le, UInt16.toNat_max, UInt16.toNat_min] at hge ⊢
    omega

/-- Whatever packets pass, forged ones included, the MTU never rises, and never falls below the
    least one of a tunnel unless it was there before. -/
theorem mtu_bounds_run (hrun : Run step Any s items t) :
    t.mtu ≤ s.mtu ∧ min s.mtu MIN_TUN_MTU ≤ t.mtu := by
  induction hrun with
  | nil => exact ⟨UInt16.le_refl s.mtu, min_le_mtu s.mtu⟩
  | @snoc t u items item _ _ hstep ih =>
    simp only [step, Option.ite_none_left_eq_some] at hstep
    obtain ⟨-, hstep⟩ := hstep
    cases item with
    | failed =>
      cases hstep
      exact ih
    | packet pkt sent =>
      cases hstep
      show onPacket t.mtu pkt ≤ s.mtu ∧ min s.mtu MIN_TUN_MTU ≤ onPacket t.mtu pkt
      cases hparse : parseIcmpFragNeededV4 pkt with
      | none => simpa [onPacket, hparse] using ih
      | some next =>
        have hlower := tryLower_bounds t.mtu next
        simp only [onPacket, hparse]
        simp only [UInt16.le_iff_toNat_le, UInt16.toNat_min] at ih hlower ⊢
        omega

theorem mtu_bounds_run_udp :
    Run step Any ⟨1400, false⟩ [.packet udpPacket true] ⟨600, false⟩ ∧
      (600 : UInt16) ≤ 1400 ∧ min 1400 MIN_TUN_MTU ≤ 600 := by
  have hrun : Run step Any ⟨1400, false⟩ [.packet udpPacket true] ⟨600, false⟩ :=
    Run.single trivial (by decide)
  exact ⟨hrun, mtu_bounds_run hrun⟩

end StackToTun

end SkadiCore.Client
