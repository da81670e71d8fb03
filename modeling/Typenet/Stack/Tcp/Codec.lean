import Typenet.Stack.Protocol
import Typenet.Stack.Tcp.Segment

namespace Typenet

/-!
# TCP segments as bytes

Parsing and writing of segments, which is the same in both directions.  A payload is at most
`u16::MAX` bytes by its type; `TcpSegment.yields_innerWriteInto` says that one of a single
packet's size can always be written.
-/

namespace TcpSegment

variable {D : Direction}

/-- `TcpSegment::inner_parse`. -/
def innerParse (data : List UInt8) (ipPair : Ipv4AddrPair D) : Res (TcpSegment D) :=
  match firstChunk 20 data with
  | none => .error (.err (.dynamic s!"Too short for TCP header ({data.length} bytes)"))
  | some tcpHdr => do
    let cksum ← pseudoHdrCksum data ipPair .Tcp
    if cksum ≠ 0 then .error (.err (.static "Invalid TCP checksum"))
    else
      -- from 32-bit words in the upper 4 bits to bytes
      let offsetBytes := tcpHdr.get 12 >>> 4 <<< 2
      let flags ← Res.ofResult (TcpFlags.tryFrom (tcpHdr.get 13))
      -- no payload when the offset is past the end
      let payload ← Res.ofResult (TcpPayload.tryFromIter (data.drop offsetBytes.toNat))
      .ok {
        ipPair := ipPair
        ports := ⟨fromBeBytes16 (tcpHdr.get 0) (tcpHdr.get 1),
          fromBeBytes16 (tcpHdr.get 2) (tcpHdr.get 3)⟩
        seqNum := SeqPoint.new
          (fromBeBytes32 (tcpHdr.get 4) (tcpHdr.get 5) (tcpHdr.get 6) (tcpHdr.get 7))
        ackNum := SeqPoint.new
          (fromBeBytes32 (tcpHdr.get 8) (tcpHdr.get 9) (tcpHdr.get 10) (tcpHdr.get 11))
        offsetBytes := offsetBytes
        flags := flags
        window := fromBeBytes16 (tcpHdr.get 14) (tcpHdr.get 15)
        payload := payload }

/-- The fields that the first 20 bytes of a segment hold. -/
def ofChunk (ipPair : Ipv4AddrPair D) (flags : TcpFlags) (payload : Option TcpPayload)
    (tcpHdr : Vector UInt8 20) : TcpSegment D where
  ipPair := ipPair
  ports := ⟨fromBeBytes16 (tcpHdr.get 0) (tcpHdr.get 1),
    fromBeBytes16 (tcpHdr.get 2) (tcpHdr.get 3)⟩
  seqNum := SeqPoint.new
    (fromBeBytes32 (tcpHdr.get 4) (tcpHdr.get 5) (tcpHdr.get 6) (tcpHdr.get 7))
  ackNum := SeqPoint.new
    (fromBeBytes32 (tcpHdr.get 8) (tcpHdr.get 9) (tcpHdr.get 10) (tcpHdr.get 11))
  offsetBytes := tcpHdr.get 12 >>> 4 <<< 2
  flags := flags
  window := fromBeBytes16 (tcpHdr.get 14) (tcpHdr.get 15)
  payload := payload

/-- **What is accepted**: every check of the parser, and what it makes of the data. -/
theorem innerParse_iff {data : List UInt8} {ipPair : Ipv4AddrPair D} {seg : TcpSegment D} :
    innerParse data ipPair = .ok seg ↔ ∃ tcpHdr, firstChunk 20 data = some tcpHdr
      ∧ pseudoHdrCksum data ipPair .Tcp = .ok 0
      ∧ TcpFlags.tryFrom (tcpHdr.get 13) = .ok seg.flags
      ∧ TcpPayload.tryFromIter (data.drop (tcpHdr.get 12 >>> 4 <<< 2).toNat) = .ok seg.payload
      ∧ seg = ofChunk ipPair seg.flags seg.payload tcpHdr := by
  unfold innerParse
  cases hchunk : firstChunk 20 data with
  | none => simp
  | some tcpHdr =>
    simp only
    constructor
    · intro h
      obtain ⟨cksum, hcksum, h⟩ := Res.bind_eq_ok.mp h
      split at h
      case isTrue => cases h
      case isFalse hzero =>
        obtain ⟨flags, hflags, h⟩ := Res.bind_eq_ok.mp h
        obtain ⟨payload, hpayload, h⟩ := Res.bind_eq_ok.mp h
        obtain rfl := Except.ok.inj h
        rw [not_not.mp hzero] at hcksum
        exact ⟨tcpHdr, rfl, hcksum, Res.ofResult_eq_ok.mp hflags,
          Res.ofResult_eq_ok.mp hpayload, rfl⟩
    · rintro ⟨tcpHdr', hsome, hcksum, hflags, hpayload, hseg⟩
      obtain rfl := Option.some.inj hsome
      rw [hcksum, Res.ok_bind, if_neg (not_not.mpr rfl), hflags, Res.ofResult, Res.ok_bind,
        hpayload, Res.ofResult, Res.ok_bind]
      exact congrArg Except.ok hseg.symm

/-- Parsing does not panic. -/
theorem innerParse_ne_panic (data : List UInt8) (ipPair : Ipv4AddrPair D) :
    innerParse data ipPair ≠ .error .panic := by
  unfold innerParse
  split
  case h_1 => simp
  case h_2 tcpHdr hchunk =>
    refine Res.bind_ne_panic (safe_pseudoHdrCksum data ipPair .Tcp).1 fun cksum => ?_
    split
    · simp
    · refine Res.bind_ne_panic (Res.ofResult_ne_panic _) fun flags => ?_
      exact Res.bind_ne_panic (Res.ofResult_ne_panic _) fun payload => by simp

/-- `TcpSegment::inner_proto_len`. -/
def innerProtoLen (self : TcpSegment D) : TraceableResult UInt16 :=
  tryAddU16 (UInt16.ofNat TCP_HDR_MIN_LEN) (UInt16.ofNat (TcpPayload.lenOrDefault self.payload))

/-- Copies the payload, if any, behind a header without options. -/
def writePayload (payload : Option TcpPayload) (tcpLen : UInt16) (buf : List UInt8) :
    Res (List UInt8) :=
  match payload with
  | some payload => copyInto buf (.range TCP_HDR_MIN_LEN tcpLen.toNat) payload.data
  | none => .ok buf

/-- `TcpSegment::inner_write_into`. -/
def innerWriteInto (self : TcpSegment D) (buf : List UInt8) : Res (List UInt8) := do
  let buf ← copyInto buf (.to 2) (toBeBytes16 self.ports.src)
  let buf ← copyInto buf (.range 2 4) (toBeBytes16 self.ports.dst)
  let buf ← copyInto buf (.range 4 8) self.seqNum.toBeBytes
  let buf ← copyInto buf (.range 8 12) self.ackNum.toBeBytes
  let buf ← writeAt buf 12 ((self.offsetBytes / 4) <<< 4)
  let buf ← writeAt buf 13 self.flags.toU8
  let buf ← copyInto buf (.range 14 16) (toBeBytes16 self.window)
  -- urgent pointer
  let buf ← copyInto buf (.range 18 20) [0, 0]
  let tcpLen ← Res.ofResult self.innerProtoLen
  let buf ← writePayload self.payload tcpLen buf
  -- the checksum field is clear while the checksum is calculated
  let buf ← copyInto buf (.range 16 18) [0, 0]
  let covered ← tryGet buf (.to tcpLen.toNat)
  let tcpCksum ← pseudoHdrCksum covered self.ipPair .Tcp
  copyInto buf (.range 16 18) (toBeBytes16 tcpCksum)

/-! ### Sizes -/

/-- The length of a segment, where it can be told. -/
theorem innerProtoLen_eq_ok {self : TcpSegment D} {len : UInt16}
    (h : self.innerProtoLen = .ok len) :
    len.toNat = 20 + TcpPayload.lenOrDefault self.payload := by
  have hlen := TcpPayload.toNat_ofNat_lenOrDefault self.payload
  have hHDR : (UInt16.ofNat TCP_HDR_MIN_LEN).toNat = 20 := rfl
  rw [(tryAddU16_eq_ok.mp h).2]
  omega

/-- It can be told below `2 ^ 16`. -/
theorem innerProtoLen_ok {self : TcpSegment D}
    (h : 20 + TcpPayload.lenOrDefault self.payload < 2 ^ 16) :
    ∃ len, self.innerProtoLen = .ok len ∧
      len.toNat = 20 + TcpPayload.lenOrDefault self.payload := by
  have hlen := TcpPayload.toNat_ofNat_lenOrDefault self.payload
  have hHDR : (UInt16.ofNat TCP_HDR_MIN_LEN).toNat = 20 := rfl
  have hadd : self.innerProtoLen = .ok (UInt16.ofNat TCP_HDR_MIN_LEN
      + UInt16.ofNat (TcpPayload.lenOrDefault self.payload)) := if_pos (by omega)
  exact ⟨_, hadd, innerProtoLen_eq_ok hadd⟩

/-- Writing a payload that fits keeps the length of the buffer. -/
theorem yields_writePayload {payload : Option TcpPayload} {len : UInt16} {buf : List UInt8}
    {n : Nat} (hbuf : buf.length = n) (hlen : len.toNat = 20 + TcpPayload.lenOrDefault payload)
    (hfit : len.toNat ≤ n) : (writePayload payload len buf).Yields fun b => b.length = n := by
  have hHDR : TCP_HDR_MIN_LEN = 20 := rfl
  cases payload with
  | none => exact Res.yields_ok hbuf
  | some payload =>
    rw [TcpPayload.lenOrDefault_some] at hlen
    exact yields_copyInto hbuf (by omega) hfit (by rw [TcpPayload.length_data]; omega)

/-- **A segment is written** into every buffer it fits in. -/
theorem yields_innerWriteInto (self : TcpSegment D) {buf : List UInt8} {n : Nat}
    (hbuf : buf.length = n) (hfit : 20 + TcpPayload.lenOrDefault self.payload ≤ n)
    (hn : n ≤ ETHERNET_MTU) : (self.innerWriteInto buf).Yields fun b => b.length = n := by
  have hHDR : TCP_HDR_MIN_LEN = 20 := rfl
  have hMTU : ETHERNET_MTU = 1500 := rfl
  obtain ⟨len, hlen, hlenNat⟩ := self.innerProtoLen_ok (by omega)
  unfold innerWriteInto
  refine (yields_copyInto_to hbuf (by omega) (toBeBytes16_length _)).bind fun b1 h1 => ?_
  refine (yields_copyInto h1 (by omega) (by omega) rfl).bind fun b2 h2 => ?_
  refine (yields_copyInto h2 (by omega) (by omega) rfl).bind fun b3 h3 => ?_
  refine (yields_copyInto h3 (by omega) (by omega) rfl).bind fun b4 h4 => ?_
  refine (yields_writeAt h4 _ (by omega)).bind fun b5 h5 => ?_
  refine (yields_writeAt h5 _ (by omega)).bind fun b6 h6 => ?_
  refine (yields_copyInto h6 (by omega) (by omega) rfl).bind fun b7 h7 => ?_
  refine (yields_copyInto h7 (by omega) (by omega) rfl).bind fun b8 h8 => ?_
  refine (Res.yields_ofResult (P := (· = len)) hlen rfl).bind fun len' hlen' => ?_
  subst hlen'
  refine (yields_writePayload h8 hlenNat (by omega)).bind fun b9 h9 => ?_
  refine (yields_copyInto h9 (by omega) (by omega) rfl).bind fun b10 h10 => ?_
  refine (yields_tryGet h10 (by omega)).bind fun covered hcov => ?_
  refine (yields_pseudoHdrCksum _ _ (by omega)).bind fun cksum _ => ?_
  exact yields_copyInto h10 (by omega) (by omega) rfl

/-- Writing a payload never panics. -/
theorem safe_writePayload {payload : Option TcpPayload} {len : UInt16} {buf : List UInt8}
    {n : Nat} (hbuf : buf.length = n) (hlen : len.toNat = 20 + TcpPayload.lenOrDefault payload) :
    (writePayload payload len buf).Safe fun b => b.length = n := by
  cases payload with
  | none => exact Res.safe_ok hbuf
  | some payload =>
    apply safe_copyInto hbuf
    intro _
    show payload.data.length = len.toNat - TCP_HDR_MIN_LEN
    rw [hlen, TcpPayload.lenOrDefault_some, TcpPayload.length_data]
    exact (Nat.add_sub_cancel_left 20 payload.len).symm

/-- **Writing a segment is safe**, whatever the segment and the buffer are. -/
theorem safe_innerWriteInto (self : TcpSegment D) (buf : List UInt8) :
    (self.innerWriteInto buf).Safe fun b => b.length = buf.length := by
  unfold innerWriteInto
  refine (safe_copyInto rfl fun _ => toBeBytes16_length _).bind fun b1 h1 => ?_
  refine (safe_copyInto h1 fun _ => rfl).bind fun b2 h2 => ?_
  refine (safe_copyInto h2 fun _ => rfl).bind fun b3 h3 => ?_
  refine (safe_copyInto h3 fun _ => rfl).bind fun b4 h4 => ?_
  refine (safe_writeAt h4 _ _).bind fun b5 h5 => ?_
  refine (safe_writeAt h5 _ _).bind fun b6 h6 => ?_
  refine (safe_copyInto h6 fun _ => rfl).bind fun b7 h7 => ?_
  refine (safe_copyInto h7 fun _ => rfl).bind fun b8 h8 => ?_
  refine (Res.safe_ofResult _).bind fun len hlen => ?_
  refine (safe_writePayload h8 (innerProtoLen_eq_ok hlen)).bind fun b9 h9 => ?_
  refine (safe_copyInto h9 fun _ => rfl).bind fun b10 h10 => ?_
  refine (safe_tryGet _ _).bind fun covered _ => ?_
  refine (safe_pseudoHdrCksum _ _ _).bind fun cksum _ => ?_
  exact safe_copyInto h10 fun _ => rfl

/-- It keeps the length of the buffer. -/
theorem writePayload_length {payload : Option TcpPayload} {len : UInt16}
    {buf buf' : List UInt8} (h : writePayload payload len buf = .ok buf') :
    buf'.length = buf.length := by
  cases payload with
  | none => obtain rfl := Except.ok.inj h; rfl
  | some payload => exact (copyInto_eq_ok h).2

/-- A segment that has been written fits in the buffer. -/
theorem fits_of_innerWriteInto {self : TcpSegment D} {buf buf' : List UInt8}
    (h : self.innerWriteInto buf = .ok buf') :
    20 + TcpPayload.lenOrDefault self.payload ≤ buf.length := by
  obtain ⟨b1, h1, h⟩ := Res.bind_eq_ok.mp h
  obtain ⟨b2, h2, h⟩ := Res.bind_eq_ok.mp h
  obtain ⟨b3, h3, h⟩ := Res.bind_eq_ok.mp h
  obtain ⟨b4, h4, h⟩ := Res.bind_eq_ok.mp h
  obtain ⟨b5, h5, h⟩ := Res.bind_eq_ok.mp h
  obtain ⟨b6, h6, h⟩ := Res.bind_eq_ok.mp h
  obtain ⟨b7, h7, h⟩ := Res.bind_eq_ok.mp h
  obtain ⟨b8, h8, h⟩ := Res.bind_eq_ok.mp h
  obtain ⟨len, hlen, h⟩ := Res.bind_eq_ok.mp h
  obtain ⟨b9, h9, h⟩ := Res.bind_eq_ok.mp h
  obtain ⟨b10, h10, h⟩ := Res.bind_eq_ok.mp h
  obtain ⟨covered, hcov, -⟩ := Res.bind_eq_ok.mp h
  -- the read for the checksum is inside the buffer, whose length no write changes
  have hhi := tryGet_le hcov
  rw [(copyInto_eq_ok h10).2, writePayload_length h9, (copyInto_eq_ok h8).2,
    (copyInto_eq_ok h7).2, writeAt_length h6, writeAt_length h5, (copyInto_eq_ok h4).2,
    (copyInto_eq_ok h3).2, (copyInto_eq_ok h2).2, (copyInto_eq_ok h1).2] at hhi
  rw [← innerProtoLen_eq_ok (Res.ofResult_eq_ok.mp hlen)]
  exact hhi

end TcpSegment

end Typenet
