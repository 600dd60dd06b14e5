import SkadiCore.Client.Pmtud
import SkadiCore.Client.TunUdp
import SkadiCore.Common.InternetChecksum

/-!
# The ICMP message for a datagram that is too large

Model of `build_icmp_frag_needed_v4` (`crates/skadi-client/src/pmtud.rs`, lines 211-265).

**The checksum of the header is written over its total length.** `packet[2..4]` is where
`write_ipv4_header` has put the length; the checksum belongs to `packet[10..12]`, which stays
zero (line 238).
-/

namespace SkadiCore.Client

open SkadiCore.Udp (IcmpFragNeeded)

def copyAt (buf : Bytes) (i : ℕ) (src : Bytes) : Bytes :=
  buf.take i ++ (src ++ buf.drop (i + src.length))

/-- `write_ipv4_header` (lines 241-249). -/
def writeIpv4Header (buf : Bytes) (src dst : List.Vector Byte 4) (protocol : Byte)
    (payloadLen : UInt16) : Bytes :=
  let buf := buf.set 0 0x45
  let totalLen := UInt16.ofNat (IPV4_HEADER_LEN + payloadLen.toNat)
  let buf := copyAt buf 2 (toBe16 totalLen)
  let buf := buf.set 8 64
  let buf := buf.set 9 protocol
  let buf := copyAt buf 12 src.val
  copyAt buf 16 dst.val

/-- `internet_checksum` (lines 251-265). A packet has too few words for its `u32` to
    overflow. -/
def internetChecksum (data : Bytes) : UInt16 := ~~~onesSum data

def innerDatagram (m : IcmpFragNeeded) : Bytes :=
  let inner := List.replicate (IPV4_HEADER_LEN + UDP_HEADER_LEN) 0
  let inner := writeIpv4Header inner m.src m.dst 17 (UInt16.ofNat UDP_HEADER_LEN)
  let inner := copyAt inner IPV4_HEADER_LEN (toBe16 m.srcPort)
  copyAt inner (IPV4_HEADER_LEN + 2) (toBe16 m.dstPort)

def icmpPart (m : IcmpFragNeeded) : Bytes :=
  let inner := innerDatagram m
  let icmp := List.replicate (ICMP_HEADER_LEN + inner.length) 0
  let icmp := icmp.set 0 3
  let icmp := icmp.set 1 4
  let icmp := copyAt icmp 6 (toBe16 m.mtu)
  let icmp := copyAt icmp ICMP_HEADER_LEN inner
  copyAt icmp 2 (toBe16 (internetChecksum icmp))

def ipPacket (src dst : List.Vector Byte 4) (icmp : Bytes) : Bytes :=
  let packet := List.replicate (IPV4_HEADER_LEN + icmp.length) 0
  let packet := writeIpv4Header packet src dst 1 (UInt16.ofNat icmp.length)
  let packet := copyAt packet IPV4_HEADER_LEN icmp
  copyAt packet 2 (toBe16 (internetChecksum (packet.take IPV4_HEADER_LEN)))

/-- `build_icmp_frag_needed_v4` (lines 211-239). -/
def buildIcmpFragNeededV4 (m : IcmpFragNeeded) : Bytes := ipPacket m.dst m.src (icmpPart m)

/-! ## The layout -/

variable (m : IcmpFragNeeded)

def afterLength (protocol : Byte) (src dst : List.Vector Byte 4) : Bytes :=
  [0, 0, 0, 0, 64, protocol, 0, 0] ++ (src.val ++ dst.val)

def ipv4Header (totalLen : UInt16) (protocol : Byte) (src dst : List.Vector Byte 4) : Bytes :=
  [0x45, 0] ++ (toBe16 totalLen ++ afterLength protocol src dst)

theorem copyAt_append {pre mid post src : Bytes} {i : ℕ} (hpre : pre.length = i)
    (hmid : mid.length = src.length) :
    copyAt (pre ++ (mid ++ post)) i src = pre ++ (src ++ post) := by
  have hdrop : (pre ++ (mid ++ post)).drop (i + src.length) = post := by
    rw [← hpre, ← hmid, ← List.append_assoc, ← List.length_append, List.drop_left]
  rw [copyAt, hdrop, List.take_left' hpre]

theorem exists_octets (v : List.Vector Byte 4) : ∃ a b c d, v = ipv4Addr a b c d := by
  obtain ⟨l, hl⟩ := v
  obtain ⟨a, b, c, d, rfl⟩ := List.length_eq_four.mp hl
  exact ⟨a, b, c, d, rfl⟩

theorem length_ipv4Header (totalLen : UInt16) (protocol : Byte) (src dst : List.Vector Byte 4) :
    (ipv4Header totalLen protocol src dst).length = IPV4_HEADER_LEN := by
  simp [ipv4Header, afterLength, IPV4_HEADER_LEN]

theorem writeIpv4Header_zeros (n : ℕ) (src dst : List.Vector Byte 4) (protocol : Byte)
    (payloadLen : UInt16) :
    writeIpv4Header (List.replicate (IPV4_HEADER_LEN + n) 0) src dst protocol payloadLen =
      ipv4Header (UInt16.ofNat (20 + payloadLen.toNat)) protocol src dst ++
        List.replicate n 0 := by
  obtain ⟨a, b, c, d, rfl⟩ := exists_octets src
  obtain ⟨a', b', c', d', rfl⟩ := exists_octets dst
  rw [List.replicate_add]
  rfl

theorem innerDatagram_eq : innerDatagram m =
    ipv4Header 28 17 m.src m.dst ++ (toBe16 m.srcPort ++ (toBe16 m.dstPort ++ [0, 0, 0, 0])) := by
  obtain ⟨src, dst, srcPort, dstPort, mtu⟩ := m
  obtain ⟨a, b, c, d, rfl⟩ := exists_octets src
  obtain ⟨a', b', c', d', rfl⟩ := exists_octets dst
  rfl

def afterChecksum (m : IcmpFragNeeded) : Bytes :=
  [0, 0] ++ (toBe16 m.mtu ++ innerDatagram m)

theorem icmpPart_eq : icmpPart m = [3, 4] ++
    (toBe16 (~~~onesSum ([3, 4] ++ (toBe16 0 ++ afterChecksum m))) ++ afterChecksum m) := by
  obtain ⟨src, dst, srcPort, dstPort, mtu⟩ := m
  obtain ⟨a, b, c, d, rfl⟩ := exists_octets src
  obtain ⟨a', b', c', d', rfl⟩ := exists_octets dst
  rfl

theorem length_icmpPart : (icmpPart m).length = 36 := by
  rw [icmpPart_eq]
  simp [afterChecksum, innerDatagram_eq, length_ipv4Header, IPV4_HEADER_LEN]

def outerHeader (m : IcmpFragNeeded) : Bytes :=
  [0x45, 0] ++ (toBe16 (~~~onesSum ([0x45, 0] ++ (toBe16 56 ++ afterLength 1 m.dst m.src))) ++
    afterLength 1 m.dst m.src)

theorem length_outerHeader : (outerHeader m).length = 20 := by
  simp [outerHeader, afterLength]

theorem build_eq : buildIcmpFragNeededV4 m = outerHeader m ++ icmpPart m := by
  have hlen := length_icmpPart m
  rw [buildIcmpFragNeededV4, ipPacket, hlen]
  generalize icmpPart m = icmp at hlen
  have hheader := length_ipv4Header 56 1 m.dst m.src
  have hzeros : (List.replicate 36 (0 : Byte)).length = icmp.length := by simp [hlen]
  have hpacket : copyAt (writeIpv4Header (List.replicate (IPV4_HEADER_LEN + 36) 0) m.dst m.src 1
      (UInt16.ofNat 36)) IPV4_HEADER_LEN icmp = ipv4Header 56 1 m.dst m.src ++ icmp := by
    rw [writeIpv4Header_zeros, ← List.append_nil (List.replicate 36 0),
      copyAt_append (length_ipv4Header _ _ _ _) hzeros, List.append_nil]
    rfl
  simp only [hpacket]
  rw [List.take_left' hheader, ipv4Header]
  rw [List.append_assoc, List.append_assoc, copyAt_append (by rfl) (by rfl)]
  simp only [outerHeader, internetChecksum, List.append_assoc]

def layout (m : IcmpFragNeeded) (s t : UInt16) : Bytes :=
  [0x45, 0] ++ (toBe16 s ++ (afterLength 1 m.dst m.src ++ ([3, 4] ++ (toBe16 t ++ ([0, 0] ++
    (toBe16 m.mtu ++ (ipv4Header 28 17 m.src m.dst ++ (toBe16 m.srcPort ++
      (toBe16 m.dstPort ++ [0, 0, 0, 0])))))))))

theorem exists_layout : ∃ s t, buildIcmpFragNeededV4 m = layout m s t := by
  rw [build_eq, icmpPart_eq, outerHeader, afterChecksum, innerDatagram_eq]
  simp only [layout, List.append_assoc]
  exact ⟨_, _, rfl⟩

/-! ## What holds of the packet -/

/-- A packet whose receiver finds the message in it. -/
structure ValidFragNeeded (m : IcmpFragNeeded) (packet : Bytes) : Prop where
  totalLength : (fromBe16 (byteAt packet 2) (byteAt packet 3)).toNat = packet.length
  headerVerifies : Verifies (packet.take 20)
  icmpVerifies : Verifies (packet.drop 20)
  protocol : byteAt packet 9 = 1
  source : slice packet 12 16 = m.dst.val
  destination : slice packet 16 20 = m.src.val
  quoted : slice packet 28 48 = ipv4Header 28 17 m.src m.dst
  ports : slice packet 48 52 = toBe16 m.srcPort ++ toBe16 m.dstPort
  found : 576 ≤ m.mtu.toNat → parseIcmpFragNeededV4 packet = some m.mtu

theorem icmpPart_verifies : Verifies (icmpPart m) := by
  rw [icmpPart_eq, verifies_overwrite_iff 0 (by rfl) (by decide)]
  rfl

theorem outerHeader_not_verifies : ¬ Verifies (outerHeader m) := by
  rw [outerHeader, verifies_overwrite_iff 56 (by rfl) (by decide)]
  decide

theorem parse_layout (s t : UInt16) (h : 576 ≤ m.mtu.toNat) :
    parseIcmpFragNeededV4 (layout m s t) = some m.mtu := by
  have hfirst : (byteAt (layout m s t) 0).toNat = 0x45 := rfl
  have hlength : (layout m s t).length = 56 := by
    simp [layout, afterLength, length_ipv4Header, IPV4_HEADER_LEN]
  rw [parseIcmpFragNeededV4_eq_some, hfirst, hlength]
  obtain ⟨src, dst, srcPort, dstPort, mtu⟩ := m
  obtain ⟨a, b, c, d, rfl⟩ := exists_octets src
  obtain ⟨a', b', c', d', rfl⟩ := exists_octets dst
  exact ⟨rfl, by decide, by decide, rfl, rfl, h, fromBe16_toBe16 mtu⟩

theorem fragNeeded_parts : Verifies ((buildIcmpFragNeededV4 m).drop 20) ∧
    byteAt (buildIcmpFragNeededV4 m) 9 = 1 ∧ slice (buildIcmpFragNeededV4 m) 12 16 = m.dst.val ∧
    slice (buildIcmpFragNeededV4 m) 16 20 = m.src.val ∧
    slice (buildIcmpFragNeededV4 m) 28 48 = ipv4Header 28 17 m.src m.dst ∧
    slice (buildIcmpFragNeededV4 m) 48 52 = toBe16 m.srcPort ++ toBe16 m.dstPort ∧
    (576 ≤ m.mtu.toNat → parseIcmpFragNeededV4 (buildIcmpFragNeededV4 m) = some m.mtu) := by
  have hicmp : (buildIcmpFragNeededV4 m).drop 20 = icmpPart m := by
    rw [build_eq, ← length_outerHeader m, List.drop_left]
  refine ⟨hicmp ▸ icmpPart_verifies m, ?_⟩
  obtain ⟨s, t, hlayout⟩ := exists_layout m
  have hfound := parse_layout m s t
  rw [hlayout]
  obtain ⟨src, dst, srcPort, dstPort, mtu⟩ := m
  obtain ⟨a, b, c, d, rfl⟩ := exists_octets src
  obtain ⟨a', b', c', d', rfl⟩ := exists_octets dst
  exact ⟨rfl, rfl, rfl, rfl, rfl, hfound⟩

/-- For all addresses, ports and MTUs, the packet is not valid: the checksum of its header
    does not verify. -/
theorem fragNeeded_never_valid : ¬ ValidFragNeeded m (buildIcmpFragNeededV4 m) := by
  intro h
  have hheader : (buildIcmpFragNeededV4 m).take 20 = outerHeader m := by
    rw [build_eq, ← length_outerHeader m, List.take_left]
  exact outerHeader_not_verifies m (hheader ▸ h.headerVerifies)

theorem fragNeeded_overwritten :
    let packet := buildIcmpFragNeededV4
      ⟨ipv4Addr 10 0 0 2, ipv4Addr 93 184 216 34, 12345, 443, 1400⟩
    (fromBe16 (byteAt packet 2) (byteAt packet 3)).toNat = 15081 ∧ packet.length = 56 ∧
      slice packet 10 12 = [0, 0] := by
  have hsum : onesSum ([0x45, 0] ++ (toBe16 56 ++
      afterLength 1 (ipv4Addr 93 184 216 34) (ipv4Addr 10 0 0 2))) = 50454 := by
    have hwords : wordSum ([0x45, 0] ++ (toBe16 56 ++
        afterLength 1 (ipv4Addr 93 184 216 34) (ipv4Addr 10 0 0 2))) = 115989 := by decide
    rw [onesSum, hwords, addCarries, if_neg (by decide), addCarries, if_pos (by decide)]
    rfl
  rw [build_eq, outerHeader, hsum]
  exact ⟨rfl, by rw [List.length_append, length_icmpPart]; rfl, rfl⟩

end SkadiCore.Client
