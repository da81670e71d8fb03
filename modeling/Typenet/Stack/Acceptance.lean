import Typenet.Stack.InternetChecksum
import Typenet.Stack.Ipv4Packet

namespace Typenet

open Checksum

/-!
# What the parsers accept

The IPv4 parser checks the first 20 bytes of a packet, whatever length the header announces,
and does not ask for a length of 20.  `Ipv4Header.acceptsExactly_iff` says for which packets
that is the same as checking the header that is announced.  The TCP parser does not check the
data offset and the UDP parser does not read the length field; `delimitation_iff` says for which
messages they cut the payload where these say.
-/

/-! ### IPv4 headers -/

namespace Ipv4Header

/-- The packet starts with a valid header for a supported protocol: all of the header length
    it announces is there, and is covered by its checksum. -/
structure Acceptable (data : List UInt8) : Prop where
  min_len : 20 ≤ data.length
  version : data.headD 0 >>> 4 = 4
  ihl_min : 20 ≤ headerLen data
  ihl_fits : headerLen data ≤ data.length
  verifies : rfc1071 (data.take (headerLen data)) = 0
  protocol : data.getD 9 0 = 1 ∨ data.getD 9 0 = 6 ∨ data.getD 9 0 = 17

/-- The parser accepts the packet exactly when it should, and cuts it behind its header. -/
def AcceptsExactly (D : Direction) (data : List UInt8) : Prop :=
  ((∃ r, innerParse (D := D) data = .ok r) ↔ Acceptable data)
    ∧ ∀ (hdr : Ipv4Header D) (payload : List UInt8), innerParse data = .ok (hdr, payload) →
      payload = data.drop (headerLen data)

/-- Every check but that of the checksum and that of the shortest header length. -/
structure Plausible (data : List UInt8) : Prop where
  min_len : 20 ≤ data.length
  version : data.headD 0 >>> 4 = 4
  ihl_fits : headerLen data ≤ data.length
  protocol : data.getD 9 0 = 1 ∨ data.getD 9 0 = 6 ∨ data.getD 9 0 = 17

/-- The first 20 bytes are the header, or their checksum says the same as the header's. -/
def ShortcutsAgree (data : List UInt8) : Prop :=
  headerLen data = 20
    ∨ headerLen data < 20 ∧ rfc1071 (data.take 20) ≠ 0
    ∨ 20 < headerLen data
      ∧ (rfc1071 (data.take 20) = 0 ↔ rfc1071 (data.take (headerLen data)) = 0)

variable {D : Direction} {data : List UInt8}

/-- The supported protocols have these numbers. -/
theorem exists_protocol {value : UInt8} :
    (∃ protocol, Protocol.tryFrom value = .ok protocol) ↔ value = 1 ∨ value = 6 ∨ value = 17 := by
  unfold Protocol.tryFrom
  constructor
  · rintro ⟨protocol, h⟩
    by_cases h1 : value = 1
    · exact Or.inl h1
    by_cases h6 : value = 6
    · exact Or.inr (Or.inl h6)
    by_cases h17 : value = 17
    · exact Or.inr (Or.inr h17)
    rw [if_neg h1, if_neg h6, if_neg h17] at h
    cases h
  · rintro (rfl | rfl | rfl)
    · exact ⟨.Icmp, rfl⟩
    · exact ⟨.Tcp, rfl⟩
    · exact ⟨.Udp, rfl⟩

/-- **What the parser accepts**: whatever is plausible and starts with 20 bytes that verify. -/
theorem accepts_iff : (∃ r, innerParse (D := D) data = .ok r)
    ↔ Plausible data ∧ rfc1071 (data.take 20) = 0 := by
  constructor
  · rintro ⟨⟨hdr, payload⟩, h⟩
    obtain ⟨ipHdr, hchunk, hversion, hcksum, hproto, hfits, -, -⟩ := innerParse_iff.mp h
    obtain ⟨hlen, htake⟩ := firstChunk_eq_some hchunk
    have hfirst : ipHdr.get 0 = data.headD 0 := firstChunk_head hchunk (by decide)
    rw [hfirst] at hversion hfits
    rw [htake, calculate_eq (by rw [List.length_take]; omega)] at hcksum
    refine ⟨⟨hlen, hversion, hfits, ?_⟩, hcksum⟩
    rw [← exists_protocol]
    exact ⟨hdr.protocol, by rw [← hproto, firstChunk_get hchunk]; rfl⟩
  · rintro ⟨⟨hlen, hversion, hfits, hproto⟩, hcksum⟩
    obtain ⟨ipHdr, hchunk⟩ := firstChunk_exists hlen
    have hfirst : ipHdr.get 0 = data.headD 0 := firstChunk_head hchunk (by decide)
    obtain ⟨protocol, hprotocol⟩ := exists_protocol.mpr hproto
    refine ⟨(ofChunk protocol ipHdr, data.drop (ihlBytes (ipHdr.get 0))), innerParse_iff.mpr
      ⟨ipHdr, hchunk, by rw [hfirst, hversion], ?_, ?_, ?_, rfl, rfl⟩⟩
    · rw [(firstChunk_eq_some hchunk).2, calculate_eq (by rw [List.length_take]; omega), hcksum]
    · rw [firstChunk_get hchunk]
      exact hprotocol
    · rw [hfirst]
      exact hfits

theorem acceptable_iff : Acceptable data ↔ Plausible data ∧ 20 ≤ headerLen data
    ∧ rfc1071 (data.take (headerLen data)) = 0 := by
  constructor
  · rintro ⟨hlen, hversion, hmin, hfits, hcksum, hproto⟩
    exact ⟨⟨hlen, hversion, hfits, hproto⟩, hmin, hcksum⟩
  · rintro ⟨⟨hlen, hversion, hfits, hproto⟩, hmin, hcksum⟩
    exact ⟨hlen, hversion, hmin, hfits, hcksum, hproto⟩

/-- **The parser accepts exactly what it should** if the packet is not plausible, or if the
    checksum of its first 20 bytes and its header's agree. -/
theorem acceptsExactly_iff (D : Direction) (data : List UInt8) :
    AcceptsExactly D data ↔ (Plausible data → ShortcutsAgree data) := by
  have hcut : ∀ (hdr : Ipv4Header D) (payload : List UInt8),
      innerParse data = .ok (hdr, payload) → payload = data.drop (headerLen data) :=
    fun hdr payload h => (innerParse_eq_ok h).2
  rw [AcceptsExactly, and_iff_left hcut, accepts_iff, acceptable_iff, and_congr_right_iff]
  apply imp_congr_right
  intro _
  unfold ShortcutsAgree
  rcases Nat.lt_trichotomy (headerLen data) 20 with hlt | heq | hgt
  · have hnot : ¬ 20 ≤ headerLen data := by omega
    constructor
    · intro h
      exact Or.inr (Or.inl ⟨hlt, fun hzero => hnot (h.mp hzero).1⟩)
    · rintro (heq | ⟨-, hne⟩ | ⟨hgt, -⟩)
      · omega
      · exact ⟨fun hzero => absurd hzero hne, fun h => absurd h.1 hnot⟩
      · omega
  · rw [heq]
    exact ⟨fun _ => Or.inl rfl, fun _ => ⟨fun h => ⟨Nat.le_refl 20, h⟩, fun h => h.2⟩⟩
  · rw [and_iff_right (Nat.le_of_lt hgt)]
    constructor
    · intro h
      exact Or.inr (Or.inr ⟨hgt, h⟩)
    · rintro (heq | ⟨hlt, -⟩ | ⟨-, h⟩)
      · omega
      · omega
      · exact h

/-- A header of 20 bytes that announces a length of 4. -/
def SHORT_IHL_HEADER : List UInt8 :=
  [0x41, 0, 0, 20, 0, 0, 0, 0, 64, 1, 106, 231, 10, 0, 0, 2, 10, 0, 0, 1]

/-- A header with four bytes of options, all of which its checksum covers. -/
def OPTIONS_HEADER : List UInt8 :=
  [0x46, 0, 0, 24, 0, 0, 0, 0, 64, 1, 99, 226, 10, 0, 0, 2, 10, 0, 0, 1, 1, 1, 1, 0]

/-- **The first is accepted and the second rejected**, both wrongly. -/
theorem not_acceptsExactly : ¬ AcceptsExactly .In SHORT_IHL_HEADER
    ∧ ¬ AcceptsExactly .In OPTIONS_HEADER := by
  constructor
  · rintro ⟨h, -⟩
    have hfits : Plausible SHORT_IHL_HEADER :=
      ⟨by decide, by decide, by decide, by decide⟩
    have hmin := (h.mp (accepts_iff.mpr ⟨hfits, by decide +kernel⟩)).ihl_min
    exact absurd hmin (by decide)
  · rintro ⟨h, -⟩
    have hacceptable : Acceptable OPTIONS_HEADER :=
      ⟨by decide, by decide, by decide, by decide, by decide +kernel, by decide⟩
    have hcksum := (accepts_iff.mp (h.mpr hacceptable)).2
    exact absurd hcksum (by decide +kernel)

end Ipv4Header

/-! ### Payloads -/

/-- The length in bytes that a TCP header announces, from its 32-bit words. -/
def TcpSegment.dataOffset (data : List UInt8) : Nat := (data.getD 12 0 >>> 4 <<< 2).toNat

/-- The length of a datagram that a UDP header announces. -/
def UdpDatagram.lengthField (data : List UInt8) : Nat :=
  (fromBeBytes16 (data.getD 4 0) (data.getD 5 0)).toNat

/-- An accepted segment has a whole header, and its payload is what follows it. -/
def TcpSegment.Delimited {D : Direction} (data : List UInt8) (ipPair : Ipv4AddrPair D) : Prop :=
  ∀ seg, innerParse data ipPair = .ok seg → 20 ≤ dataOffset data
    ∧ dataOffset data ≤ data.length ∧ TcpPayload.bytes seg.payload = data.drop (dataOffset data)

/-- An accepted datagram is as long as it says at most, and its payload ends there. -/
def UdpDatagram.Delimited (data : List UInt8) (ipPair : Ipv4AddrPair .In) : Prop :=
  ∀ dgram, parse data ipPair = .ok dgram → 8 ≤ lengthField data
    ∧ lengthField data ≤ data.length ∧ dgram.payload = (data.take (lengthField data)).drop 8

/-- The segment passes every check of the parser: its size, its checksum and its flags. -/
structure TcpSegment.Plausible {D : Direction} (data : List UInt8) (ipPair : Ipv4AddrPair D) :
    Prop where
  min_len : 20 ≤ data.length
  verifies : pseudoHdrCksum data ipPair .Tcp = .ok 0
  flags : ∃ flags, TcpFlags.tryFrom (data.getD 13 0) = .ok flags

/-- The datagram passes every check of the parser: its size and its checksum, if it has one. -/
structure UdpDatagram.Plausible (data : List UInt8) (ipPair : Ipv4AddrPair .In) : Prop where
  min_len : 8 ≤ data.length
  verifies : fromBeBytes16 (data.getD 6 0) (data.getD 7 0) = 0
    ∨ pseudoHdrCksum data ipPair .Udp = .ok 0

/-- Only data that fits a length field has a pseudo-header checksum. -/
theorem lt_of_pseudoHdrCksum {D : Direction} {data : List UInt8} {ipPair : Ipv4AddrPair D}
    {protocol : Protocol} {cksum : UInt16}
    (h : pseudoHdrCksum data ipPair protocol = .ok cksum) : data.length < 2 ^ 16 := by
  obtain ⟨protoLen, hlen, -⟩ := Res.bind_eq_ok.mp h
  exact (u16TryFrom_eq_ok.mp (Res.ofResult_eq_ok.mp hlen)).1

/-- **What the TCP parser accepts**, and that it cuts the payload at the data offset. -/
theorem TcpSegment.accepts_iff {D : Direction} {data : List UInt8} {ipPair : Ipv4AddrPair D} :
    (∃ seg, innerParse data ipPair = .ok seg) ↔ Plausible data ipPair := by
  constructor
  · rintro ⟨seg, h⟩
    obtain ⟨tcpHdr, hchunk, hcksum, hflags, -, -⟩ := innerParse_iff.mp h
    rw [firstChunk_get hchunk] at hflags
    exact ⟨(firstChunk_eq_some hchunk).1, hcksum, seg.flags, hflags⟩
  · rintro ⟨hlen, hcksum, flags, hflags⟩
    obtain ⟨tcpHdr, hchunk⟩ := firstChunk_exists hlen
    have hlt := lt_of_pseudoHdrCksum hcksum
    obtain ⟨payload, hpayload, -⟩ :
        ∃ payload, TcpPayload.tryFromIter (data.drop (tcpHdr.get 12 >>> 4 <<< 2).toNat)
          = .ok payload ∧ _ :=
      TcpPayload.tryFromIter_ok (by rw [List.length_drop]; omega)
    refine ⟨ofChunk ipPair flags payload tcpHdr, innerParse_iff.mpr
      ⟨tcpHdr, hchunk, hcksum, ?_, hpayload, rfl⟩⟩
    rw [firstChunk_get hchunk]
    exact hflags

theorem TcpSegment.payload_eq {D : Direction} {data : List UInt8} {ipPair : Ipv4AddrPair D}
    {seg : TcpSegment D} (h : innerParse data ipPair = .ok seg) :
    TcpPayload.bytes seg.payload = data.drop (dataOffset data) := by
  obtain ⟨tcpHdr, hchunk, hcksum, -, hpayload, -⟩ := innerParse_iff.mp h
  have hlt := lt_of_pseudoHdrCksum hcksum
  obtain ⟨payload, hpayload', hbytes⟩ :
      ∃ payload, TcpPayload.tryFromIter (data.drop (tcpHdr.get 12 >>> 4 <<< 2).toNat)
        = .ok payload ∧ _ := TcpPayload.tryFromIter_ok (by rw [List.length_drop]; omega)
  rw [← Except.ok.inj (hpayload'.symm.trans hpayload), hbytes, firstChunk_get hchunk]
  rfl

/-- **What the UDP parser accepts**. -/
theorem UdpDatagram.accepts_iff {data : List UInt8} {ipPair : Ipv4AddrPair .In} :
    (∃ dgram, parse data ipPair = .ok dgram) ↔ Plausible data ipPair := by
  constructor
  · rintro ⟨dgram, h⟩
    obtain ⟨udpHdr, hchunk, hcksum, -⟩ := parse_iff.mp h
    rw [firstChunk_get hchunk, firstChunk_get hchunk] at hcksum
    exact ⟨(firstChunk_eq_some hchunk).1, hcksum⟩
  · rintro ⟨hlen, hcksum⟩
    obtain ⟨udpHdr, hchunk⟩ := firstChunk_exists hlen
    refine ⟨_, parse_iff.mpr ⟨udpHdr, hchunk, ?_, rfl⟩⟩
    rw [firstChunk_get hchunk, firstChunk_get hchunk]
    exact hcksum

/-- **Where the parsers cut payloads off.**  A segment is delimited exactly if its data offset
    is that of a whole header whenever it passes the checks, and a datagram exactly if its
    length field is its length. -/
theorem delimitation_iff {D : Direction} (data : List UInt8) (tcpPair : Ipv4AddrPair D)
    (udpPair : Ipv4AddrPair .In) :
    (TcpSegment.Delimited data tcpPair ↔ (TcpSegment.Plausible data tcpPair →
        20 ≤ TcpSegment.dataOffset data ∧ TcpSegment.dataOffset data ≤ data.length))
      ∧ (UdpDatagram.Delimited data udpPair ↔ (UdpDatagram.Plausible data udpPair →
        UdpDatagram.lengthField data = data.length)) := by
  constructor
  · rw [← TcpSegment.accepts_iff]
    constructor
    · rintro h ⟨seg, hseg⟩
      exact ⟨(h seg hseg).1, (h seg hseg).2.1⟩
    · intro h seg hseg
      obtain ⟨hmin, hmax⟩ := h ⟨seg, hseg⟩
      exact ⟨hmin, hmax, TcpSegment.payload_eq hseg⟩
  · rw [← UdpDatagram.accepts_iff]
    constructor
    · rintro h ⟨dgram, hdgram⟩
      obtain ⟨hmin, hmax, hpayload⟩ := h dgram hdgram
      rw [(UdpDatagram.parse_fields hdgram).2] at hpayload
      have hlen := congrArg List.length hpayload
      have hfull := UdpDatagram.parse_payload hdgram
      simp only [List.length_drop, List.length_take] at hlen
      omega
    · intro h dgram hdgram
      have hfull := UdpDatagram.parse_payload hdgram
      rw [h ⟨dgram, hdgram⟩, List.take_length, (UdpDatagram.parse_fields hdgram).2]
      exact ⟨by omega, Nat.le_refl _, rfl⟩

/-- An ACK whose data offset is 0, with a valid checksum and two bytes behind its header. -/
def ZERO_OFFSET_SEGMENT : List UInt8 :=
  [4, 210, 0, 80, 0, 0, 0, 101, 0, 0, 1, 145, 0x00, 0x10, 255, 255, 227, 182, 0, 0, 1, 2]

/-- A datagram whose length field is 0, without a checksum. -/
def ZERO_LENGTH_DATAGRAM : List UInt8 := [4, 210, 0, 7, 0, 0, 0, 0, 1, 2]

/-- **Both are accepted**, though neither says where its payload is. -/
theorem not_delimited :
    ¬ TcpSegment.Delimited ZERO_OFFSET_SEGMENT (⟨⟨10, 0, 0, 2⟩, ⟨10, 0, 0, 1⟩⟩ : Ipv4AddrPair .In)
      ∧ ¬ UdpDatagram.Delimited ZERO_LENGTH_DATAGRAM ⟨⟨10, 0, 0, 2⟩, ⟨10, 0, 0, 1⟩⟩ := by
  constructor
  · intro h
    have hfits : TcpSegment.Plausible ZERO_OFFSET_SEGMENT
        (⟨⟨10, 0, 0, 2⟩, ⟨10, 0, 0, 1⟩⟩ : Ipv4AddrPair .In) :=
      ⟨by decide, by decide +kernel, .Ack, by decide⟩
    obtain ⟨seg, hseg⟩ := TcpSegment.accepts_iff.mpr hfits
    exact absurd (h seg hseg).1 (by decide)
  · intro h
    have hfits : UdpDatagram.Plausible ZERO_LENGTH_DATAGRAM
        ⟨⟨10, 0, 0, 2⟩, ⟨10, 0, 0, 1⟩⟩ := ⟨by decide, Or.inl (by decide)⟩
    obtain ⟨dgram, hdgram⟩ := UdpDatagram.accepts_iff.mpr hfits
    exact absurd (h dgram hdgram).1 (by decide)

end Typenet
