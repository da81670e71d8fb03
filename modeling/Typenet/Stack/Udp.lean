import Typenet.Stack.Application
import Typenet.Stack.Protocol

namespace Typenet

/-!
# UDP

A request's payload is whatever follows its header, and a reply carries what the application
makes of it; `UdpDatagram.yields_writeInto` and `UdpDatagram.fits_of_writeInto` say for which
buffers a datagram can be written.
-/

/-- The number of bytes in a UDP header. -/
def UDP_HDR_LEN : UInt16 := 8

/-- A UDP datagram flowing in direction `D`, with the addresses it travels under. -/
structure UdpDatagram (D : Direction) where
  ipPair : Ipv4AddrPair D
  ports : PortPair D
  payload : List UInt8
  deriving DecidableEq

namespace UdpDatagram

/-- Parses `data` as a UDP header and payload. -/
def parse (data : List UInt8) (ipPair : Ipv4AddrPair .In) : Res (UdpDatagram .In) :=
  match splitFirstChunk 8 data with
  | none => .error (.err (.dynamic s!"Too short for UDP header ({data.length} bytes)"))
  | some (udpHdr, payload) =>
    let dgram : UdpDatagram .In := {
      ipPair := ipPair
      ports := ⟨fromBeBytes16 (udpHdr.get 0) (udpHdr.get 1),
        fromBeBytes16 (udpHdr.get 2) (udpHdr.get 3)⟩
      payload := payload }
    -- a checksum field of all zeros means that the sender chose not to compute one
    if fromBeBytes16 (udpHdr.get 6) (udpHdr.get 7) = 0 then .ok dgram
    else do
      let cksum ← pseudoHdrCksum data ipPair .Udp
      if cksum ≠ 0 then .error (.err (.static "Invalid UDP checksum")) else .ok dgram

/-- The reply to a datagram according to the application. -/
def createReply {σ : Type} (A : Application σ) (app : σ) (self : UdpDatagram .In) :
    UdpDatagram .Out × σ :=
  let (app, payload) := A.handleUdp app self.payload
  (⟨self.ipPair.swapped, self.ports.swapped, payload⟩, app)

/-- `Encode::proto_len`. -/
def protoLen (self : UdpDatagram .Out) : TraceableResult UInt16 :=
  hdrAndPayloadLen UDP_HDR_LEN self.payload.length

/-- `Encode::write_into`. -/
def writeInto (self : UdpDatagram .Out) (buf : List UInt8) : Res (List UInt8) := do
  let buf ← copyInto buf (.to 2) (toBeBytes16 self.ports.src)
  let buf ← copyInto buf (.range 2 4) (toBeBytes16 self.ports.dst)
  let udpLen ← Res.ofResult self.protoLen
  let buf ← copyInto buf (.range 4 6) (toBeBytes16 udpLen)
  let buf ← copyInto buf (.range UDP_HDR_LEN.toNat udpLen.toNat) self.payload
  -- the checksum field is clear while the checksum is calculated
  let buf ← copyInto buf (.range 6 8) [0, 0]
  let covered ← tryGet buf (.to udpLen.toNat)
  let udpCksum ← pseudoHdrCksum covered self.ipPair .Udp
  -- a computed checksum of 0 is sent as 0xFFFF, since 0 means that there is none
  copyInto buf (.range 6 8) (toBeBytes16 (if udpCksum = 0 then 0xFFFF else udpCksum))

/-- Parsing does not panic. -/
theorem parse_ne_panic (data : List UInt8) (ipPair : Ipv4AddrPair .In) :
    parse data ipPair ≠ .error .panic := by
  unfold parse
  split
  case h_1 => simp
  case h_2 =>
    simp only
    split
    · simp
    · refine Res.bind_ne_panic (safe_pseudoHdrCksum data ipPair .Udp).1 fun cksum => ?_
      split <;> simp

/-! ### What is accepted -/

/-- **What is accepted**: every check of the parser, and what it makes of the data. -/
theorem parse_iff {data : List UInt8} {ipPair : Ipv4AddrPair .In} {dgram : UdpDatagram .In} :
    parse data ipPair = .ok dgram ↔ ∃ udpHdr, firstChunk 8 data = some udpHdr
      ∧ (fromBeBytes16 (udpHdr.get 6) (udpHdr.get 7) = 0
        ∨ pseudoHdrCksum data ipPair .Udp = .ok 0)
      ∧ dgram = ⟨ipPair, ⟨fromBeBytes16 (udpHdr.get 0) (udpHdr.get 1),
        fromBeBytes16 (udpHdr.get 2) (udpHdr.get 3)⟩, data.drop 8⟩ := by
  unfold parse splitFirstChunk
  cases hchunk : firstChunk 8 data with
  | none => simp
  | some udpHdr =>
    simp only [Option.map_some]
    constructor
    · intro h
      split at h
      case isTrue hnone =>
        obtain rfl := Except.ok.inj h
        exact ⟨udpHdr, rfl, Or.inl hnone, rfl⟩
      case isFalse =>
        obtain ⟨cksum, hcksum, h⟩ := Res.bind_eq_ok.mp h
        split at h
        case isTrue => cases h
        case isFalse hzero =>
          obtain rfl := Except.ok.inj h
          rw [not_not.mp hzero] at hcksum
          exact ⟨udpHdr, rfl, Or.inr hcksum, rfl⟩
    · rintro ⟨udpHdr', hsome, hcksum, hdgram⟩
      obtain rfl := Option.some.inj hsome
      split
      case isTrue => exact congrArg Except.ok hdgram.symm
      case isFalse hsome =>
        rw [hcksum.resolve_left hsome, Res.ok_bind, if_neg (not_not.mpr rfl)]
        exact congrArg Except.ok hdgram.symm

theorem parse_fields {data : List UInt8} {ipPair : Ipv4AddrPair .In} {dgram : UdpDatagram .In}
    (h : parse data ipPair = .ok dgram) : dgram.ipPair = ipPair ∧ dgram.payload = data.drop 8 := by
  obtain ⟨-, -, -, rfl⟩ := parse_iff.mp h
  exact ⟨rfl, rfl⟩

/-! ### Sizes -/

/-- An accepted request carries what follows its header. -/
theorem parse_payload {data : List UInt8} {ipPair : Ipv4AddrPair .In} {dgram : UdpDatagram .In}
    (h : parse data ipPair = .ok dgram) : 8 + dgram.payload.length = data.length := by
  obtain ⟨udpHdr, hchunk, -, rfl⟩ := parse_iff.mp h
  have hlen := (firstChunk_eq_some hchunk).1
  show 8 + (data.drop 8).length = _
  rw [List.length_drop]
  omega

/-- **Writing a datagram is safe**, whatever the datagram and the buffer are. -/
theorem safe_writeInto (self : UdpDatagram .Out) (buf : List UInt8) :
    (self.writeInto buf).Safe fun b => b.length = buf.length := by
  unfold writeInto
  refine (safe_copyInto rfl fun _ => toBeBytes16_length _).bind fun b1 h1 => ?_
  refine (safe_copyInto h1 fun _ => rfl).bind fun b2 h2 => ?_
  refine (Res.safe_ofResult _).bind fun len hlen => ?_
  obtain ⟨-, hlenNat⟩ := hdrAndPayloadLen_eq_ok.mp hlen
  refine (safe_copyInto h2 fun _ => rfl).bind fun b3 h3 => ?_
  refine (safe_copyInto h3 fun _ => ?_).bind fun b4 h4 => ?_
  · show self.payload.length = len.toNat - UDP_HDR_LEN.toNat
    omega
  refine (safe_copyInto h4 fun _ => rfl).bind fun b5 h5 => ?_
  refine (safe_tryGet _ _).bind fun covered _ => ?_
  refine (safe_pseudoHdrCksum _ _ _).bind fun cksum _ => ?_
  exact safe_copyInto h5 fun _ => rfl

/-- **A datagram is written** into every buffer it fits in. -/
theorem yields_writeInto (self : UdpDatagram .Out) {buf : List UInt8} {n : Nat}
    (hbuf : buf.length = n) (hfit : 8 + self.payload.length ≤ n) (hn : n ≤ ETHERNET_MTU) :
    (self.writeInto buf).Yields fun b => b.length = n := by
  have hHDR : UDP_HDR_LEN.toNat = 8 := rfl
  have hMTU : ETHERNET_MTU = 1500 := rfl
  obtain ⟨len, hlen, hlenNat⟩ : ∃ len, self.protoLen = .ok len ∧ _ :=
    hdrAndPayloadLen_ok (by omega)
  unfold writeInto
  refine (yields_copyInto_to hbuf (by omega) (toBeBytes16_length _)).bind fun b1 h1 => ?_
  refine (yields_copyInto h1 (by omega) (by omega) rfl).bind fun b2 h2 => ?_
  refine (Res.yields_ofResult (P := (· = len)) hlen rfl).bind fun len' hlen' => ?_
  subst hlen'
  refine (yields_copyInto h2 (by omega) (by omega) rfl).bind fun b3 h3 => ?_
  refine (yields_copyInto h3 (by omega) (by omega) (by omega)).bind fun b4 h4 => ?_
  refine (yields_copyInto h4 (by omega) (by omega) rfl).bind fun b5 h5 => ?_
  refine (yields_tryGet h5 (by omega)).bind fun covered hcov => ?_
  refine (yields_pseudoHdrCksum _ _ (by omega)).bind fun cksum _ => ?_
  exact yields_copyInto h5 (by omega) (by omega) rfl

/-- A datagram that has been written fits in the buffer. -/
theorem fits_of_writeInto {self : UdpDatagram .Out} {buf buf' : List UInt8}
    (h : self.writeInto buf = .ok buf') : 8 + self.payload.length ≤ buf.length := by
  obtain ⟨b1, h1, h⟩ := Res.bind_eq_ok.mp h
  obtain ⟨b2, h2, h⟩ := Res.bind_eq_ok.mp h
  obtain ⟨len, hlen, h⟩ := Res.bind_eq_ok.mp h
  obtain ⟨b3, h3, h⟩ := Res.bind_eq_ok.mp h
  obtain ⟨b4, h4, -⟩ := Res.bind_eq_ok.mp h
  have hlenNat := (hdrAndPayloadLen_eq_ok.mp (Res.ofResult_eq_ok.mp hlen)).2
  have hHDR : UDP_HDR_LEN.toNat = 8 := rfl
  -- every write before the payload's keeps the length of the buffer
  have hhi := (copyInto_eq_ok h4).1
  rw [(copyInto_eq_ok h3).2, (copyInto_eq_ok h2).2, (copyInto_eq_ok h1).2] at hhi
  simp only [SliceIndex.hi] at hhi
  omega

end UdpDatagram

end Typenet
