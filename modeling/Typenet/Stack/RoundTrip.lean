import Typenet.Stack.Encoding

namespace Typenet

open Checksum

/-!
# What is encoded is decoded again

A stored checksum verifies (`pseudoHdrCksum_stored`), so a parser accepts what its encoder
wrote and finds the message in it: `Ipv4Header.innerParse_bytes`, `TcpSegment.innerParse_bytes`.
Together with `Ipv4Packet.writeInto_eq`, a TCP packet survives being written over any buffer
and read back (`tcpPacket_roundTrip`).
-/

/-! ### Fields -/

/-- Reading an encoded sequence point gives it back. -/
theorem SeqPoint.new_toBeBytes {D : Direction} (p : SeqPoint D) :
    SeqPoint.new (fromBeBytes32 (UInt8.ofNat (p.wrapping.toNat / 2 ^ 24))
      (UInt8.ofNat (p.wrapping.toNat / 2 ^ 16)) (UInt8.ofNat (p.wrapping.toNat / 2 ^ 8))
      (UInt8.ofNat p.wrapping.toNat)) = p := by
  have hlt := p.wrapping.isLt
  have hvalue : fromBeBytes32 (UInt8.ofNat (p.wrapping.toNat / 2 ^ 24))
      (UInt8.ofNat (p.wrapping.toNat / 2 ^ 16)) (UInt8.ofNat (p.wrapping.toNat / 2 ^ 8))
      (UInt8.ofNat p.wrapping.toNat) = p.wrapping.toNat := by
    simp only [fromBeBytes32, UInt8.toNat_ofNat']
    omega
  rw [hvalue, SeqPoint.new, BitVec.ofNat_toNat, BitVec.setWidth_eq]

/-- A payload's bytes are a payload again. -/
theorem TcpPayload.tryFromIter_bytes (p : Option TcpPayload) : tryFromIter (bytes p) = .ok p := by
  cases p with
  | none => rfl
  | some p =>
    show tryFromIter p.data = _
    rw [tryFromIter, dif_neg p.nonempty, dif_pos p.le_max]

/-- A slice that starts with twenty bytes has them as its first chunk. -/
theorem firstChunk_twenty {header : List UInt8} (h : header.length = 20) (rest : List UInt8) :
    firstChunk 20 (header ++ rest) = some ⟨header.toArray, h⟩ :=
  firstChunk_append ⟨header.toArray, h⟩ rest

/-! ### Stored checksums -/

/-- The checksum of a message with a word in its checksum field. -/
theorem pseudoHdrCksum_field {D : Direction} (front back : List UInt8) (word : UInt16)
    (ipPair : Ipv4AddrPair D) (protocol : Protocol) {n : Nat}
    (hn : front.length + 2 + back.length = n) (hmax : n ≤ ETHERNET_MTU) :
    pseudoHdrCksum (front ++ toBeBytes16 word ++ back) ipPair protocol
      = .ok (rfc1071 (pseudoHdr ipPair protocol n ++ front ++ toBeBytes16 word ++ back)) := by
  have hlen : (front ++ toBeBytes16 word ++ back).length = n := by
    rw [List.length_append, List.length_append]
    exact hn
  rw [pseudoHdrCksum_eq ipPair protocol (by rw [hlen]; exact hmax), hlen]
  simp only [List.append_assoc]

/-- **A stored checksum verifies** against the pseudo-header. -/
theorem pseudoHdrCksum_stored {D : Direction} {front : List UInt8} (hfront : front.length % 2 = 0)
    (back : List UInt8) (ipPair : Ipv4AddrPair D) (protocol : Protocol) {n : Nat}
    (hn : front.length + 2 + back.length = n) (hmax : n ≤ ETHERNET_MTU) :
    pseudoHdrCksum (front ++ toBeBytes16 (rfc1071 (pseudoHdr ipPair protocol n
      ++ (front ++ [0, 0] ++ back))) ++ back) ipPair protocol = .ok 0 := by
  have heven : (pseudoHdr ipPair protocol n ++ front).length % 2 = 0 := by
    rw [List.length_append, pseudoHdr_length]
    omega
  have hstored := rfc1071_stored heven back
  rw [pseudoHdrCksum_field front back _ ipPair protocol hn hmax]
  simp only [List.append_assoc] at hstored ⊢
  rw [hstored]

/-- So does all ones where the checksum is zero. -/
theorem pseudoHdrCksum_stored_ones {D : Direction} {front : List UInt8}
    (hfront : front.length % 2 = 0) (back : List UInt8) (ipPair : Ipv4AddrPair D)
    (protocol : Protocol) {n : Nat} (hn : front.length + 2 + back.length = n)
    (hmax : n ≤ ETHERNET_MTU)
    (hzero : rfc1071 (pseudoHdr ipPair protocol n ++ (front ++ [0, 0] ++ back)) = 0) :
    pseudoHdrCksum (front ++ toBeBytes16 0xFFFF ++ back) ipPair protocol = .ok 0 := by
  have heven : (pseudoHdr ipPair protocol n ++ front).length % 2 = 0 := by
    rw [List.length_append, pseudoHdr_length]
    omega
  rw [pseudoHdrCksum_field front back _ ipPair protocol hn hmax]
  apply congrArg Except.ok
  apply rfc1071_stored_ones heven back
  simp only [List.append_assoc] at hzero ⊢
  exact hzero

/-- The checksum of a written header verifies. -/
theorem Ipv4Header.rfc1071_bytes {D : Direction} (self : Ipv4Header D) : rfc1071 self.bytes = 0 :=
  rfc1071_stored (by rw [headBytes_length]) self.tailBytes

/-- The checksum of a written header is zero. -/
theorem Ipv4Header.calculate_bytes {D : Direction} (self : Ipv4Header D) :
    calculate self.bytes = 0 := by
  rw [calculate_eq (by rw [bytes_length]; decide)]
  exact self.rfc1071_bytes

/-! ### Headers and segments -/

/-- **A written header is read back**, with what follows it. -/
theorem Ipv4Header.innerParse_bytes {D : Direction} (self : Ipv4Header D)
    (payload : List UInt8) : innerParse (self.bytes ++ payload) = .ok (self, payload) := by
  have hfits : 20 ≤ (self.bytes ++ payload).length := by
    rw [List.length_append, bytes_length]
    omega
  have hversion : (0x40 ||| UInt8.ofNat (IPV4_HDR_MIN_LEN / 4)) >>> 4 = 4 := by decide
  have hihl : ihlBytes (0x40 ||| UInt8.ofNat (IPV4_HDR_MIN_LEN / 4)) = 20 := by decide
  apply innerParse_iff.mpr
  refine ⟨⟨self.bytes.toArray, self.bytes_length⟩, firstChunk_twenty self.bytes_length payload,
    hversion, self.calculate_bytes, Protocol.tryFrom_toU8 self.protocol, ?_, ?_, ?_⟩
  · exact Nat.le_trans (Nat.le_of_eq hihl) hfits
  · show self = ⟨fromBeBytes16 (self.totalLen >>> 8).toUInt8 self.totalLen.toUInt8, _, _⟩
    rw [fromBeBytes16_toBeBytes16]
    rfl
  · exact ((congrArg (List.drop · _) hihl).trans (List.drop_left' self.bytes_length)).symm

/-- **A written segment is read back**, if its header is as long as the encoder writes it. -/
theorem TcpSegment.innerParse_bytes {D : Direction} (self : TcpSegment D)
    (hoffset : self.offsetBytes = UInt8.ofNat TCP_HDR_MIN_LEN)
    (hmax : 20 + TcpPayload.lenOrDefault self.payload ≤ ETHERNET_MTU) :
    innerParse self.bytes self.ipPair = .ok self := by
  have hheader : (self.headBytes ++ toBeBytes16 self.cksum ++ [0, 0]).length = 20 := rfl
  have hbytes : self.bytes = self.headBytes ++ toBeBytes16 self.cksum ++ [0, 0]
      ++ TcpPayload.bytes self.payload := by
    rw [bytes, tailBytes, ← List.append_assoc]
  have hback : (self.offsetBytes / 4) <<< 4 >>> 4 <<< 2 = self.offsetBytes := by
    rw [hoffset]
    decide
  have hcksum : pseudoHdrCksum self.bytes self.ipPair .Tcp = .ok 0 :=
    pseudoHdrCksum_stored (by rw [headBytes_length]) self.tailBytes self.ipPair .Tcp
      (by rw [headBytes_length, tailBytes_length]; omega) hmax
  have hdrop : self.bytes.drop (UInt8.ofNat TCP_HDR_MIN_LEN).toNat
      = TcpPayload.bytes self.payload := by
    rw [hbytes]
    exact List.drop_left' hheader
  apply innerParse_iff.mpr
  refine ⟨⟨(self.headBytes ++ toBeBytes16 self.cksum ++ [0, 0]).toArray, hheader⟩, ?_, hcksum,
    ?_, ?_, ?_⟩
  · rw [hbytes]
    exact firstChunk_twenty hheader _
  · exact TcpFlags.tryFrom_toU8 self.flags
  · show TcpPayload.tryFromIter
      (self.bytes.drop ((self.offsetBytes / 4) <<< 4 >>> 4 <<< 2).toNat) = _
    rw [hback, hoffset, hdrop]
    exact TcpPayload.tryFromIter_bytes self.payload
  · have hports : self.ports = ⟨fromBeBytes16 (self.ports.src >>> 8).toUInt8
        self.ports.src.toUInt8,
        fromBeBytes16 (self.ports.dst >>> 8).toUInt8 self.ports.dst.toUInt8⟩ := by
      rw [fromBeBytes16_toBeBytes16, fromBeBytes16_toBeBytes16]
    have hfields : ∀ ports seq ack offset window, self.ports = ports → seq = self.seqNum →
        ack = self.ackNum → offset = self.offsetBytes → window = self.window →
        self = ⟨self.ipPair, ports, seq, ack, offset, self.flags, window, self.payload⟩ := by
      rintro _ _ _ _ _ rfl rfl rfl rfl rfl
      rfl
    exact hfields _ _ _ _ _ hports self.seqNum.new_toBeBytes self.ackNum.new_toBeBytes hback
      (fromBeBytes16_toBeBytes16 self.window)

/-! ### TCP packets -/

/-- What the server writes of a packet depends on the packet only. -/
theorem Ipv4Packet.writeInto_take {router : ProtocolRouter .Out} {packet : Ipv4Packet .Out}
    (h : tryFromRouter router = .ok packet) (hsize : router.size ≤ 1480) {buf : List UInt8}
    (hbuf : buf.length = ETHERNET_MTU) :
    ∃ written, packet.writeInto buf = .ok written ∧ written.length = ETHERNET_MTU
      ∧ written.take packet.totalLen.toNat = packet.bytes := by
  have hMTU : ETHERNET_MTU = 1500 := rfl
  have hwrite := writeInto_eq h hsize hbuf
  obtain ⟨rfl, htotal⟩ := tryFromRouter_eq_ok h
  have hbytes : packet.bytes.length = packet.totalLen.toNat := by
    rw [bytes, List.length_append, Ipv4Header.bytes_length, ProtocolRouter.bytes_length, htotal]
  refine ⟨_, hwrite, ?_, List.take_left' hbytes⟩
  rw [overlay_length (by omega), hbuf]

/-- **Round trip of an outgoing TCP packet**, over every buffer. -/
theorem tcpPacket_roundTrip (info : SendInfo) (ipPair : Ipv4AddrPair .Out)
    (ports : PortPair .Out) (hpayload : TcpPayload.lenOrDefault info.payload ≤ 1460) :
    ∃ packet bytes tcpBytes,
      Ipv4Packet.tryFrom (TcpSegment.fromPairsAndInfo ipPair ports info) = .ok packet
      ∧ packet.totalLen.toNat = 40 + TcpPayload.lenOrDefault info.payload
      ∧ packet.ipv4Hdr.protocol = .Tcp ∧ packet.ipv4Hdr.ipPair = ipPair
      ∧ (∀ buf : List UInt8, buf.length = ETHERNET_MTU → ∃ written,
          packet.writeInto buf = .ok written ∧ written.length = ETHERNET_MTU
          ∧ written.take packet.totalLen.toNat = bytes)
      ∧ Ipv4Header.innerParse bytes = .ok (packet.ipv4Hdr, tcpBytes)
      ∧ TcpSegment.innerParse tcpBytes packet.ipv4Hdr.ipPair
        = .ok (TcpSegment.fromPairsAndInfo ipPair ports info) := by
  have hMTU : ETHERNET_MTU = 1500 := rfl
  have hsize : (ProtocolRouter.Tcp (TcpSegment.fromPairsAndInfo ipPair ports info)).size
      = 20 + TcpPayload.lenOrDefault info.payload := rfl
  obtain ⟨packet, hpacket⟩ : ∃ packet, Ipv4Packet.tryFromRouter
      (.Tcp (TcpSegment.fromPairsAndInfo ipPair ports info)) = .ok packet :=
    Ipv4Packet.tryFromRouter_ok (by omega)
  obtain ⟨hrouter, htotal⟩ := Ipv4Packet.tryFromRouter_eq_ok hpacket
  obtain ⟨len, -, hhdr⟩ := Ipv4Packet.hdr_of_tryFromRouter hpacket
  obtain ⟨-, hproto, hpair⟩ := Ipv4Header.innerTryNew_eq_ok hhdr
  refine ⟨packet, packet.bytes, packet.router.bytes, hpacket, by omega, hproto, hpair, ?_, ?_, ?_⟩
  · intro buf hbuf
    exact Ipv4Packet.writeInto_take hpacket (by omega) hbuf
  · exact packet.ipv4Hdr.innerParse_bytes packet.router.bytes
  · rw [hpair, hrouter]
    apply TcpSegment.innerParse_bytes _ rfl
    show 20 + TcpPayload.lenOrDefault info.payload ≤ _
    omega

/-- What to send with an odd number of payload bytes. -/
def ODD_INFO : SendInfo where
  seqNum := .new 7
  ackNum := .new (2 ^ 32 - 1)
  flags := .Ack
  payload := some ⟨[1, 2, 255], List.cons_ne_nil _ _, by simp⟩

theorem tcpPacket_roundTrip_odd : TcpPayload.lenOrDefault ODD_INFO.payload ≤ 1460
    ∧ ∃ packet bytes tcpBytes,
      Ipv4Packet.tryFrom (TcpSegment.fromPairsAndInfo ⟨⟨10, 0, 0, 2⟩, ⟨10, 0, 0, 1⟩⟩ ⟨80, 4321⟩
        ODD_INFO) = .ok packet
      ∧ packet.totalLen.toNat = 40 + TcpPayload.lenOrDefault ODD_INFO.payload
      ∧ packet.ipv4Hdr.protocol = .Tcp
      ∧ packet.ipv4Hdr.ipPair = ⟨⟨10, 0, 0, 2⟩, ⟨10, 0, 0, 1⟩⟩
      ∧ (∀ buf : List UInt8, buf.length = ETHERNET_MTU → ∃ written,
          packet.writeInto buf = .ok written ∧ written.length = ETHERNET_MTU
          ∧ written.take packet.totalLen.toNat = bytes)
      ∧ Ipv4Header.innerParse bytes = .ok (packet.ipv4Hdr, tcpBytes)
      ∧ TcpSegment.innerParse tcpBytes packet.ipv4Hdr.ipPair
        = .ok (TcpSegment.fromPairsAndInfo ⟨⟨10, 0, 0, 2⟩, ⟨10, 0, 0, 1⟩⟩ ⟨80, 4321⟩ ODD_INFO) :=
  ⟨by decide, tcpPacket_roundTrip ODD_INFO _ _ (by decide)⟩

end Typenet
