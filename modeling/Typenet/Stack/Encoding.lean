import Typenet.Stack.InternetChecksum
import Typenet.Stack.Ipv4Packet
import Typenet.Utils.Overlay

namespace Typenet

open Checksum

/-!
# Messages as bytes

Each encoder writes a fixed string of bytes over the front of its buffer: the fields of the
message, with the Internet checksum of all of them in the checksum field.  The strings are
`Ipv4Header.bytes`, `TcpSegment.bytes`, `IcmpEchoMsg.bytes` and `UdpDatagram.bytes`, and
`Ipv4Packet.writeInto_eq` says that a packet is its header's bytes and its message's.  None of
them depends on what the buffer held before.
-/

/-! ### The pseudo-header -/

/-- The pseudo-header of `len` bytes of a message. -/
def pseudoHdr {D : Direction} (ipPair : Ipv4AddrPair D) (protocol : Protocol) (len : Nat) :
    List UInt8 :=
  ipPair.src.octets ++ ipPair.dst.octets ++ [0] ++ [protocol.toU8]
    ++ toBeBytes16 (UInt16.ofNat len)

@[simp] theorem pseudoHdr_length {D : Direction} (ipPair : Ipv4AddrPair D)
    (protocol : Protocol) (len : Nat) : (pseudoHdr ipPair protocol len).length = 12 := rfl

/-- **The pseudo-header checksum** is that of the pseudo-header and the data behind it. -/
theorem pseudoHdrCksum_eq {D : Direction} {data : List UInt8} (ipPair : Ipv4AddrPair D)
    (protocol : Protocol) (h : data.length ≤ ETHERNET_MTU) :
    pseudoHdrCksum data ipPair protocol
      = .ok (rfc1071 (pseudoHdr ipPair protocol data.length ++ data)) := by
  have hMTU : ETHERNET_MTU = 1500 := rfl
  have hlen : (UInt16.ofNat data.length).toNat = data.length :=
    UInt16.toNat_ofNat_of_lt' (by show _ < 2 ^ 16; omega)
  have hconv := u16TryFrom_of_lt (n := data.length) (by omega)
  unfold pseudoHdrCksum
  have hzeros : (List.replicate (PSEUDO_HDR_LEN + ETHERNET_MTU) (0 : UInt8)).length = 1512 :=
    List.length_replicate
  have hgap : ((List.replicate (PSEUDO_HDR_LEN + ETHERNET_MTU) (0 : UInt8)).drop 8).take 1
      = [0] := rfl
  rw [hconv, Res.ofResult, Res.ok_bind]
  show (copyIndexed (List.replicate (PSEUDO_HDR_LEN + ETHERNET_MTU) 0) (.range 0 4) _ >>= _) = _
  generalize List.replicate (PSEUDO_HDR_LEN + ETHERNET_MTU) (0 : UInt8) = zeros at hzeros hgap ⊢
  have hreserved : overlay (ipPair.src.octets ++ ipPair.dst.octets) zeros
      = overlay (ipPair.src.octets ++ ipPair.dst.octets ++ [0]) zeros := by
    rw [← hgap]
    exact overlay_gap _ zeros 1
  rw [← overlay_nil zeros, (writes_copyIndexed rfl).append rfl (by show 4 ≤ _; omega),
    Res.ok_bind, (writes_copyIndexed rfl).append rfl (by show 8 ≤ _; omega), Res.ok_bind,
    List.nil_append, hreserved,
    (writes_writeIndexed 9 _).append rfl (by show 10 ≤ _; omega), Res.ok_bind,
    (writes_copyIndexed rfl).append rfl (by show 12 ≤ _; omega), Res.ok_bind,
    (writes_copyInto (by rw [hlen]; rfl)).append rfl (by rw [hzeros]; show 12 + _ ≤ _; omega),
    Res.ok_bind, tryGet_overlay (by rw [List.length_append, hlen]; rfl), Res.ok_bind]
  show Except.ok (calculate (pseudoHdr ipPair protocol data.length ++ data)) = _
  rw [calculate_eq]
  rw [List.length_append, pseudoHdr_length]
  omega

/-- The length of a message fits its length field and the buffer of a packet. -/
theorem length_cksumData {front back : List UInt8} {n : Nat}
    (h : front.length + 2 + back.length = n) : (front ++ [0, 0] ++ back).length = n := by
  rw [List.length_append, List.length_append]
  exact h

/-! ### TCP -/

namespace TcpSegment

variable {D : Direction}

/-- The fields in front of the checksum. -/
def headBytes (self : TcpSegment D) : List UInt8 :=
  toBeBytes16 self.ports.src ++ toBeBytes16 self.ports.dst ++ self.seqNum.toBeBytes
    ++ self.ackNum.toBeBytes ++ [(self.offsetBytes / 4) <<< 4] ++ [self.flags.toU8]
    ++ toBeBytes16 self.window

/-- The urgent pointer and the payload. -/
def tailBytes (self : TcpSegment D) : List UInt8 := [0, 0] ++ TcpPayload.bytes self.payload

@[simp] theorem headBytes_length (self : TcpSegment D) : self.headBytes.length = 16 := rfl

@[simp] theorem tailBytes_length (self : TcpSegment D) :
    self.tailBytes.length = 2 + TcpPayload.lenOrDefault self.payload := by
  rw [tailBytes, List.length_append]
  rfl

/-- The checksum of a segment. -/
def cksum (self : TcpSegment D) : UInt16 :=
  rfc1071 (pseudoHdr self.ipPair .Tcp (20 + TcpPayload.lenOrDefault self.payload)
    ++ (self.headBytes ++ [0, 0] ++ self.tailBytes))

/-- The encoding of a segment. -/
def bytes (self : TcpSegment D) : List UInt8 :=
  self.headBytes ++ toBeBytes16 self.cksum ++ self.tailBytes

@[simp] theorem bytes_length (self : TcpSegment D) :
    self.bytes.length = 20 + TcpPayload.lenOrDefault self.payload := by
  rw [bytes, List.length_append, List.length_append, tailBytes_length]
  show 16 + 2 + (2 + _) = _
  omega

theorem writePayload_overlay {payload : Option TcpPayload} {len : UInt16}
    {front buf : List UInt8} (hfront : front.length = 20)
    (hlen : len.toNat = 20 + TcpPayload.lenOrDefault payload) (hfit : len.toNat ≤ buf.length) :
    writePayload payload len (overlay front buf)
      = .ok (overlay (front ++ TcpPayload.bytes payload) buf) := by
  cases payload with
  | none =>
    show Except.ok (overlay front buf) = Except.ok (overlay (front ++ []) buf)
    rw [List.append_nil]
  | some payload =>
    have hwrites : Writes (copyInto · (.range TCP_HDR_MIN_LEN len.toNat) payload.data)
        TCP_HDR_MIN_LEN payload.data := writes_copyInto hlen.symm
    exact hwrites.append hfront (by rw [hlen] at hfit; exact hfit)

/-- **A segment is written as its bytes.** -/
theorem innerWriteInto_eq (self : TcpSegment D) {buf : List UInt8}
    (hfit : 20 + TcpPayload.lenOrDefault self.payload ≤ buf.length)
    (hmax : 20 + TcpPayload.lenOrDefault self.payload ≤ ETHERNET_MTU) :
    self.innerWriteInto buf = .ok (overlay self.bytes buf) := by
  have hMTU : ETHERNET_MTU = 1500 := rfl
  obtain ⟨len, hlen, hlenNat⟩ := self.innerProtoLen_ok (by omega)
  -- the checksum field is skipped until the rest is written
  obtain ⟨gap, hgap, hskip⟩ : ∃ gap : List UInt8, gap.length = 2
      ∧ overlay self.headBytes buf = overlay (self.headBytes ++ gap) buf :=
    exists_gap (by rw [headBytes_length]; omega)
  have hcovered : (self.headBytes ++ [0, 0] ++ self.tailBytes).length
      = 20 + TcpPayload.lenOrDefault self.payload :=
    length_cksumData (by rw [headBytes_length, tailBytes_length]; omega)
  unfold innerWriteInto
  nth_rewrite 1 [← overlay_nil buf]
  rw [(writes_copyInto rfl).append rfl (by show 2 ≤ _; omega), Res.ok_bind,
    (writes_copyInto rfl).append rfl (by show 4 ≤ _; omega), Res.ok_bind,
    (writes_copyInto rfl).append rfl (by show 8 ≤ _; omega), Res.ok_bind,
    (writes_copyInto rfl).append rfl (by show 12 ≤ _; omega), Res.ok_bind,
    (writes_writeAt 12 _).append rfl (by show 13 ≤ _; omega), Res.ok_bind,
    (writes_writeAt 13 _).append rfl (by show 14 ≤ _; omega), Res.ok_bind,
    (writes_copyInto rfl).append rfl (by show 16 ≤ _; omega), Res.ok_bind]
  show (copyInto (overlay self.headBytes buf) (.range 18 20) [0, 0] >>= _) = _
  rw [hskip, (writes_copyInto rfl).append (by rw [List.length_append, hgap]; rfl)
    (by show 20 ≤ _; omega), Res.ok_bind, hlen, Res.ofResult, Res.ok_bind,
    writePayload_overlay (by rw [List.length_append, List.length_append, hgap]; rfl) hlenNat
      (by omega), Res.ok_bind, List.append_assoc (self.headBytes ++ gap)]
  show (copyInto (overlay (self.headBytes ++ gap ++ self.tailBytes) buf) (.range 16 18) [0, 0]
    >>= _) = _
  rw [(writes_copyInto rfl).field rfl hgap, Res.ok_bind,
    tryGet_overlay (by rw [hcovered, hlenNat]), Res.ok_bind,
    pseudoHdrCksum_eq _ _ (by omega), Res.ok_bind, hcovered]
  have hcksum : Writes (copyInto · (.range 16 18) (toBeBytes16 self.cksum)) 16
      (toBeBytes16 self.cksum) := writes_copyInto rfl
  exact hcksum.field (by rfl) (by rfl) _ _

end TcpSegment

/-! ### ICMP -/

namespace IcmpEchoMsg

variable {D : Direction}

/-- The type and the code. -/
def headBytes (self : IcmpEchoMsg D) : List UInt8 := [self.icmpType] ++ [ICMP_CODE_ECHO]

/-- What follows the checksum. -/
def tailBytes (self : IcmpEchoMsg D) : List UInt8 :=
  toBeBytes16 self.identifier ++ toBeBytes16 self.sequence ++ self.payload

@[simp] theorem headBytes_length (self : IcmpEchoMsg D) : self.headBytes.length = 2 := rfl

@[simp] theorem tailBytes_length (self : IcmpEchoMsg D) :
    self.tailBytes.length = 4 + self.payload.length := by
  rw [tailBytes, List.length_append]
  rfl

/-- The checksum of a message, which has no pseudo-header. -/
def cksum (self : IcmpEchoMsg D) : UInt16 := rfc1071 (self.headBytes ++ [0, 0] ++ self.tailBytes)

/-- The encoding of a message. -/
def bytes (self : IcmpEchoMsg D) : List UInt8 :=
  self.headBytes ++ toBeBytes16 self.cksum ++ self.tailBytes

@[simp] theorem bytes_length (self : IcmpEchoMsg D) :
    self.bytes.length = 8 + self.payload.length := by
  rw [bytes, List.length_append, List.length_append, tailBytes_length]
  show 2 + 2 + (4 + _) = _
  omega

/-- **A message is written as its bytes.** -/
theorem writeInto_eq (self : IcmpEchoMsg .Out) {buf : List UInt8}
    (hfit : 8 + self.payload.length ≤ buf.length) (hmax : 8 + self.payload.length < 2 ^ 16) :
    self.writeInto buf = .ok (overlay self.bytes buf) := by
  have hHDR : ICMP_HDR_LEN.toNat = 8 := rfl
  obtain ⟨len, hlen, hlenNat⟩ : ∃ len, self.protoLen = .ok len ∧ _ :=
    hdrAndPayloadLen_ok hmax
  have hstop : tryAddUsize ICMP_HDR_LEN.toNat self.payload.length
      = .ok (8 + self.payload.length) := tryAddUsize_eq_ok.mpr ⟨by omega, rfl⟩
  -- the payload is written first, behind what the header will be written over
  obtain ⟨gap, hgap, hskip⟩ : ∃ gap : List UInt8, gap.length = 8
      ∧ overlay [] buf = overlay gap buf := exists_gap (by show 0 + 8 ≤ _; omega)
  have hbody : (overlay (gap ++ self.payload) buf).length = buf.length := by
    apply overlay_length
    rw [List.length_append]
    omega
  have hcovered : (self.headBytes ++ [0, 0] ++ self.tailBytes).length
      = 8 + self.payload.length :=
    length_cksumData (by rw [tailBytes_length]; show 2 + 2 + (4 + _) = _; omega)
  unfold writeInto
  rw [hstop, Res.ofResult, Res.ok_bind]
  nth_rewrite 1 [← overlay_nil buf]
  rw [hskip, (writes_copyInto rfl).append hgap (by show 8 + _ ≤ _; exact hfit), Res.ok_bind]
  nth_rewrite 1 [← overlay_nil (overlay (gap ++ self.payload) buf)]
  rw [
    (writes_writeAt 0 _).append rfl (by show 1 ≤ _; omega), Res.ok_bind,
    (writes_writeAt 1 _).append rfl (by show 2 ≤ _; omega), Res.ok_bind,
    (writes_copyInto rfl).append rfl (by show 4 ≤ _; omega), Res.ok_bind,
    (writes_copyInto rfl).append rfl (by show 6 ≤ _; omega), Res.ok_bind,
    (writes_copyInto rfl).append rfl (by show 8 ≤ _; omega), Res.ok_bind,
    overlay_overlay _ hgap, hlen, Res.ofResult, Res.ok_bind]
  show (tryGet (overlay (self.headBytes ++ [0, 0] ++ self.tailBytes) buf) (.to len.toNat)
    >>= _) = _
  rw [tryGet_overlay (by rw [hcovered, hlenNat, hHDR]), Res.ok_bind, calculate_eq (by omega)]
  have hcksum : Writes (copyInto · (.range 2 4) (toBeBytes16 self.cksum)) 2
      (toBeBytes16 self.cksum) := writes_copyInto rfl
  show copyInto (overlay (self.headBytes ++ [0, 0] ++ self.tailBytes) buf) (.range 2 4)
    (toBeBytes16 self.cksum) = _
  exact hcksum.field (by rfl) (by rfl) _ _

end IcmpEchoMsg

/-! ### UDP -/

namespace UdpDatagram

variable {D : Direction}

/-- The fields in front of the checksum. -/
def headBytes (self : UdpDatagram D) : List UInt8 :=
  toBeBytes16 self.ports.src ++ toBeBytes16 self.ports.dst
    ++ toBeBytes16 (UInt16.ofNat (8 + self.payload.length))

@[simp] theorem headBytes_length (self : UdpDatagram D) : self.headBytes.length = 6 := rfl

/-- The checksum of a datagram, of which a zero is not sent. -/
def cksum (self : UdpDatagram D) : UInt16 :=
  let cksum := rfc1071 (pseudoHdr self.ipPair .Udp (8 + self.payload.length)
    ++ (self.headBytes ++ [0, 0] ++ self.payload))
  if cksum = 0 then 0xFFFF else cksum

/-- The encoding of a datagram. -/
def bytes (self : UdpDatagram D) : List UInt8 :=
  self.headBytes ++ toBeBytes16 self.cksum ++ self.payload

@[simp] theorem bytes_length (self : UdpDatagram D) :
    self.bytes.length = 8 + self.payload.length := by
  rw [bytes, List.length_append, List.length_append]
  rfl

/-- **A datagram is written as its bytes.** -/
theorem writeInto_eq (self : UdpDatagram .Out) {buf : List UInt8}
    (hfit : 8 + self.payload.length ≤ buf.length)
    (hmax : 8 + self.payload.length ≤ ETHERNET_MTU) :
    self.writeInto buf = .ok (overlay self.bytes buf) := by
  have hMTU : ETHERNET_MTU = 1500 := rfl
  have hHDR : UDP_HDR_LEN.toNat = 8 := rfl
  have hlenNat : (UInt16.ofNat (8 + self.payload.length)).toNat = 8 + self.payload.length :=
    UInt16.toNat_ofNat_of_lt' (by show _ < 2 ^ 16; omega)
  have hlen : self.protoLen = .ok (UInt16.ofNat (8 + self.payload.length)) :=
    hdrAndPayloadLen_eq_ok.mpr ⟨by omega, by rw [hlenNat, hHDR]⟩
  -- the checksum field is skipped until the rest is written
  obtain ⟨gap, hgap, hskip⟩ : ∃ gap : List UInt8, gap.length = 2
      ∧ overlay self.headBytes buf = overlay (self.headBytes ++ gap) buf :=
    exists_gap (by rw [headBytes_length]; omega)
  have hcovered : (self.headBytes ++ [0, 0] ++ self.payload).length = 8 + self.payload.length :=
    length_cksumData (by rw [headBytes_length])
  unfold writeInto
  nth_rewrite 1 [← overlay_nil buf]
  rw [(writes_copyInto rfl).append rfl (by show 2 ≤ _; omega), Res.ok_bind,
    (writes_copyInto rfl).append rfl (by show 4 ≤ _; omega), Res.ok_bind, hlen,
    Res.ofResult, Res.ok_bind,
    (writes_copyInto rfl).append rfl (by show 6 ≤ _; omega), Res.ok_bind]
  show (copyInto (overlay self.headBytes buf) (.range UDP_HDR_LEN.toNat _) _ >>= _) = _
  rw [hskip, (writes_copyInto (by rw [hlenNat]; rfl)).append
      (by rw [List.length_append, hgap]; rfl) (by show 8 + _ ≤ _; exact hfit), Res.ok_bind,
    (writes_copyInto rfl).field rfl hgap, Res.ok_bind,
    tryGet_overlay (by rw [hcovered, hlenNat]), Res.ok_bind,
    pseudoHdrCksum_eq _ _ (by omega), Res.ok_bind, hcovered]
  have hcksum : Writes (copyInto · (.range 6 8) (toBeBytes16 self.cksum)) 6
      (toBeBytes16 self.cksum) := writes_copyInto rfl
  show copyInto (overlay (self.headBytes ++ [0, 0] ++ self.payload) buf) (.range 6 8)
    (toBeBytes16 self.cksum) = _
  exact hcksum.field (by rfl) (by rfl) _ _

end UdpDatagram

/-! ### IPv4 -/

namespace Ipv4Header

variable {D : Direction}

/-- The fields in front of the checksum. -/
def headBytes (self : Ipv4Header D) : List UInt8 :=
  [0x40 ||| UInt8.ofNat (IPV4_HDR_MIN_LEN / 4)] ++ [0] ++ toBeBytes16 self.totalLen ++ [0, 0]
    ++ [0x40, 0] ++ [64] ++ [self.protocol.toU8]

/-- The addresses. -/
def tailBytes (self : Ipv4Header D) : List UInt8 :=
  self.ipPair.src.octets ++ self.ipPair.dst.octets

@[simp] theorem headBytes_length (self : Ipv4Header D) : self.headBytes.length = 10 := rfl

/-- The checksum of a header. -/
def cksum (self : Ipv4Header D) : UInt16 := rfc1071 (self.headBytes ++ [0, 0] ++ self.tailBytes)

/-- The encoding of a header. -/
def bytes (self : Ipv4Header D) : List UInt8 :=
  self.headBytes ++ toBeBytes16 self.cksum ++ self.tailBytes

@[simp] theorem bytes_length (self : Ipv4Header D) : self.bytes.length = 20 := rfl

/-- **A header is written as its bytes.** -/
theorem innerWriteInto_eq (self : Ipv4Header D) {buf : List UInt8} (hfit : 20 ≤ buf.length) :
    self.innerWriteInto buf = .ok (overlay self.bytes buf) := by
  unfold innerWriteInto
  nth_rewrite 1 [← overlay_nil buf]
  rw [(writes_writeIndexed 0 _).append rfl (by show 1 ≤ _; omega), Res.ok_bind,
    (writes_writeIndexed 1 _).append rfl (by show 2 ≤ _; omega), Res.ok_bind,
    (writes_copyIndexed rfl).append rfl (by show 4 ≤ _; omega), Res.ok_bind,
    (writes_copyIndexed rfl).append rfl (by show 6 ≤ _; omega), Res.ok_bind,
    (writes_copyIndexed rfl).append rfl (by show 8 ≤ _; omega), Res.ok_bind,
    (writes_writeIndexed 8 _).append rfl (by show 9 ≤ _; omega), Res.ok_bind,
    (writes_writeIndexed 9 _).append rfl (by show 10 ≤ _; omega), Res.ok_bind,
    (writes_copyIndexed rfl).append rfl (by show 12 ≤ _; omega), Res.ok_bind,
    (writes_copyIndexed rfl).append rfl (by show 16 ≤ _; omega), Res.ok_bind,
    (writes_copyIndexed rfl).append rfl (by show 20 ≤ _; omega), Res.ok_bind]
  show (readIndexed (overlay (self.headBytes ++ [0, 0] ++ self.tailBytes) buf)
    (.to IPV4_HDR_MIN_LEN) >>= _) = _
  rw [readIndexed_overlay (by rfl), Res.ok_bind, calculate_eq (by show 20 ≤ _; decide)]
  have hcksum : Writes (copyIndexed · (.range 10 12) (toBeBytes16 self.cksum)) 10
      (toBeBytes16 self.cksum) := writes_copyIndexed rfl
  show copyIndexed (overlay (self.headBytes ++ [0, 0] ++ self.tailBytes) buf) (.range 10 12)
    (toBeBytes16 self.cksum) = _
  exact hcksum.field (by rfl) (by rfl) _ _

end Ipv4Header

/-! ### Packets -/

/-- The encoding of a message. -/
def ProtocolRouter.bytes {D : Direction} : ProtocolRouter D → List UInt8
  | .Icmp msg => msg.bytes
  | .Tcp seg => seg.bytes
  | .Udp dgram => dgram.bytes

@[simp] theorem ProtocolRouter.bytes_length {D : Direction} (self : ProtocolRouter D) :
    self.bytes.length = self.size := by
  cases self with
  | Icmp msg => exact msg.bytes_length
  | Tcp seg => exact seg.bytes_length
  | Udp dgram => exact dgram.bytes_length

/-- **A message is written as its bytes** into every buffer it fits in. -/
theorem ProtocolRouter.writeInto_eq (self : ProtocolRouter .Out) {buf : List UInt8}
    (hfit : self.size ≤ buf.length) (hmax : self.size ≤ ETHERNET_MTU) :
    self.writeInto buf = .ok (overlay self.bytes buf) := by
  have hMTU : ETHERNET_MTU = 1500 := rfl
  cases self with
  | Icmp msg => exact msg.writeInto_eq hfit (Nat.lt_of_le_of_lt hmax (by omega))
  | Tcp seg => exact seg.innerWriteInto_eq hfit hmax
  | Udp dgram => exact dgram.writeInto_eq hfit hmax

/-- The encoding of a packet. -/
def Ipv4Packet.bytes {D : Direction} (self : Ipv4Packet D) : List UInt8 :=
  self.ipv4Hdr.bytes ++ self.router.bytes

/-- A new packet's header says what the message is and how long. -/
theorem Ipv4Packet.hdr_of_tryFromRouter {router : ProtocolRouter .Out}
    {packet : Ipv4Packet .Out} (h : tryFromRouter router = .ok packet) :
    ∃ len, router.protoLen = .ok len
      ∧ Ipv4Header.innerTryNew router.proto router.getIpPair len = .ok packet.ipv4Hdr := by
  unfold tryFromRouter at h
  cases hlen : router.protoLen with
  | error e => rw [hlen] at h; cases h
  | ok len =>
    rw [hlen] at h
    simp only [bind, Except.bind] at h
    split at h
    · cases h
    · rename_i hdr hhdr
      obtain rfl := Except.ok.inj h
      exact ⟨len, rfl, hhdr⟩

/-- **A packet is written as its bytes**, whatever the buffer held before. -/
theorem Ipv4Packet.writeInto_eq {router : ProtocolRouter .Out} {packet : Ipv4Packet .Out}
    (h : tryFromRouter router = .ok packet) (hsize : router.size ≤ 1480) {buf : List UInt8}
    (hbuf : buf.length = ETHERNET_MTU) :
    packet.writeInto buf = .ok (overlay packet.bytes buf) := by
  have hMTU : ETHERNET_MTU = 1500 := rfl
  have hHDR : REPLY_HDR_LEN = 20 := rfl
  obtain ⟨len, hlen, hhdr⟩ := hdr_of_tryFromRouter h
  obtain ⟨rfl, -⟩ := tryFromRouter_eq_ok h
  have hrest : (buf.drop REPLY_HDR_LEN).length = 1480 := by rw [List.length_drop]; omega
  have htake : (buf.take REPLY_HDR_LEN).length = 20 := by
    rw [List.length_take]
    omega
  have hroom : (buf.take REPLY_HDR_LEN ++ packet.router.bytes).length ≤ buf.length := by
    rw [List.length_append, htake, ProtocolRouter.bytes_length]
    omega
  unfold writeInto
  rw [packet.router.writeInto_eq (by omega) (by omega), Res.ok_bind, hlen, Res.ofResult,
    Res.ok_bind, hhdr, Res.ofResult, Res.ok_bind, take_append_overlay (by omega),
    packet.ipv4Hdr.innerWriteInto_eq (by rw [overlay_length hroom]; omega),
    overlay_overlay _ htake]
  rfl

end Typenet
