import SkadiCore.Socks5.Incomplete

/-!
# SOCKS5 UDP datagrams

`encode_udp_datagram` and `parse_udp_datagram` (`crates/skadi-protocol/src/socks5/parse.rs`,
lines 249-295) are inverse to each other.

* `encodeUdpDatagram_eq`: the encoder puts the header of the format in front of the payload.

**Defect.** The encoder cuts a host name to 255 bytes, so that a longer one does not come
back; a name that was parsed is never longer.
-/

namespace SkadiCore.Socks5

variable {target : Endpoint}

theorem targetOk_iff : TargetOk target ↔ target.Canonical := by
  rcases target with ⟨⟨octets, port⟩ | ⟨octets, port, flowinfo, scopeId⟩⟩ | ⟨host, port⟩ <;> rfl

theorem encodeUdpDatagram_eq (h : TargetOk target) (payload : Bytes) :
    encodeUdpDatagram target payload = encodeUdpHeader target ++ payload := by
  rcases target with ⟨⟨octets, port⟩ | ⟨octets, port, flowinfo, scopeId⟩⟩ | ⟨host, port⟩
  · rfl
  · rfl
  · have hcut : (asBytes host).take 255 = asBytes host := by
      apply List.take_of_length_le
      have := h.2
      omega
    simp only [encodeUdpDatagram, encodeUdpHeader, encodeTarget, hcut]

theorem parse_encodeUdpDatagram (h : TargetOk target) (payload : Bytes) :
    ∃ n, parseUdpDatagram (encodeUdpDatagram target payload) = .ok (target, n) ∧
      (encodeUdpDatagram target payload).drop n = payload := by
  rw [encodeUdpDatagram_eq h]
  refine ⟨(encodeUdpHeader target).length, ?_, List.drop_left⟩
  exact parseUdpDatagram_ok_iff.mpr ⟨payload, rfl, h, rfl⟩

theorem encode_parseUdpDatagram {datagram : Bytes} {n : ℕ}
    (h : parseUdpDatagram datagram = .ok (target, n)) :
    encodeUdpDatagram target (datagram.drop n) = datagram := by
  obtain ⟨payload, rfl, hok, rfl⟩ := parseUdpDatagram_ok_iff.mp h
  rw [List.drop_left, encodeUdpDatagram_eq hok]

/-- The codec of UDP datagrams: every target that a header can carry and every payload come
    back, and every datagram that parses is the encoding of its target and payload. -/
theorem datagram_codec :
    (∀ (target : Endpoint) (payload : Bytes), target.Canonical →
      ∃ n, parseUdpDatagram (encodeUdpDatagram target payload) = .ok (target, n) ∧
        (encodeUdpDatagram target payload).drop n = payload) ∧
    ∀ (datagram : Bytes) (target : Endpoint) (n : ℕ),
      parseUdpDatagram datagram = .ok (target, n) →
        encodeUdpDatagram target (datagram.drop n) = datagram := by
  constructor
  · intro target payload h
    exact parse_encodeUdpDatagram (targetOk_iff.mpr h) payload
  · intro datagram target n h
    exact encode_parseUdpDatagram h

theorem datagram_codec_host :
    (∃ n, parseUdpDatagram (encodeUdpDatagram (.domain "ns" 53) [1, 2]) =
        .ok (.domain "ns" 53, n) ∧
      (encodeUdpDatagram (.domain "ns" 53) [1, 2]).drop n = [1, 2]) ∧
    parseUdpDatagram [0, 0, 0, 3, 2, 110, 115, 0, 53, 1, 2] = .ok (.domain "ns" 53, 9) ∧
    encodeUdpDatagram (.domain "ns" 53) ([0, 0, 0, 3, 2, 110, 115, 0, 53, 1, 2].drop 9) =
      [0, 0, 0, 3, 2, 110, 115, 0, 53, 1, 2] := by
  have hparse : parseUdpDatagram [0, 0, 0, 3, 2, 110, 115, 0, 53, 1, 2] =
      .ok (.domain "ns" 53, 9) := by decide +kernel
  exact ⟨datagram_codec.1 _ _ (by decide +kernel), hparse, datagram_codec.2 _ _ _ hparse⟩

end SkadiCore.Socks5
