import Typenet.Stack.Protocol

namespace Typenet

/-!
# ICMP Echo

A reply keeps the identifier, the sequence number and the payload of its request, so it is as
long as the request; `IcmpEchoMsg.yields_writeInto` and `IcmpEchoMsg.fits_of_writeInto` say
for which buffers it can be written.
-/

/-- The number of bytes in an ICMP header. -/
def ICMP_HDR_LEN : UInt16 := 8

/-- An ICMP Echo Request or Reply flowing in direction `D`; its code is constant 0. -/
structure IcmpEchoMsg (D : Direction) where
  ipPair : Ipv4AddrPair D
  icmpType : UInt8
  identifier : UInt16
  sequence : UInt16
  payload : List UInt8
  deriving DecidableEq

namespace IcmpEchoMsg

def ICMP_TYPE_ECHO_REQUEST : UInt8 := 8

def ICMP_TYPE_ECHO_REPLY : UInt8 := 0

def ICMP_CODE_ECHO : UInt8 := 0

/-- Parses `data` as an ICMP Echo Request header and payload. -/
def parse (data : List UInt8) (ipPair : Ipv4AddrPair .In) : TraceableResult (IcmpEchoMsg .In) :=
  match splitFirstChunk 8 data with
  | none => .error (.dynamic s!"Too short for ICMP header ({data.length} bytes)")
  | some (icmpHdr, payload) =>
    if Checksum.calculate data ≠ 0 then .error (.static "Invalid ICMP checksum")
    else if icmpHdr.get 0 ≠ ICMP_TYPE_ECHO_REQUEST ∨ icmpHdr.get 1 ≠ ICMP_CODE_ECHO then
      .error (.dynamic s!"Not an Echo Request: got type={icmpHdr.get 0}, code={icmpHdr.get 1}")
    else
      .ok {
        ipPair := ipPair
        icmpType := icmpHdr.get 0
        identifier := fromBeBytes16 (icmpHdr.get 4) (icmpHdr.get 5)
        sequence := fromBeBytes16 (icmpHdr.get 6) (icmpHdr.get 7)
        payload := payload }

/-- The Echo Reply to a request. -/
def createReply (self : IcmpEchoMsg .In) : IcmpEchoMsg .Out where
  ipPair := self.ipPair.swapped
  icmpType := ICMP_TYPE_ECHO_REPLY
  identifier := self.identifier
  sequence := self.sequence
  payload := self.payload

/-- `Encode::proto_len`. -/
def protoLen (self : IcmpEchoMsg .Out) : TraceableResult UInt16 :=
  hdrAndPayloadLen ICMP_HDR_LEN self.payload.length

/-- `Encode::write_into`. -/
def writeInto (self : IcmpEchoMsg .Out) (buf : List UInt8) : Res (List UInt8) := do
  let stop ← Res.ofResult (tryAddUsize ICMP_HDR_LEN.toNat self.payload.length)
  let buf ← copyInto buf (.range ICMP_HDR_LEN.toNat stop) self.payload
  let buf ← writeAt buf 0 self.icmpType
  let buf ← writeAt buf 1 ICMP_CODE_ECHO
  -- the checksum field is clear while the checksum is calculated
  let buf ← copyInto buf (.range 2 4) [0, 0]
  let buf ← copyInto buf (.range 4 6) (toBeBytes16 self.identifier)
  let buf ← copyInto buf (.range 6 8) (toBeBytes16 self.sequence)
  let protoLen ← Res.ofResult self.protoLen
  let covered ← tryGet buf (.to protoLen.toNat)
  copyInto buf (.range 2 4) (toBeBytes16 (Checksum.calculate covered))

/-! ### What is accepted -/

/-- **What is accepted**: every check of the parser, and what it makes of the data. -/
theorem parse_iff {data : List UInt8} {ipPair : Ipv4AddrPair .In} {msg : IcmpEchoMsg .In} :
    parse data ipPair = .ok msg ↔ ∃ icmpHdr, firstChunk 8 data = some icmpHdr
      ∧ Checksum.calculate data = 0 ∧ icmpHdr.get 0 = ICMP_TYPE_ECHO_REQUEST
      ∧ icmpHdr.get 1 = ICMP_CODE_ECHO
      ∧ msg = ⟨ipPair, icmpHdr.get 0, fromBeBytes16 (icmpHdr.get 4) (icmpHdr.get 5),
        fromBeBytes16 (icmpHdr.get 6) (icmpHdr.get 7), data.drop 8⟩ := by
  unfold parse splitFirstChunk
  cases hchunk : firstChunk 8 data with
  | none => simp
  | some icmpHdr =>
    simp only [Option.map_some]
    constructor
    · intro h
      split at h
      · cases h
      case isFalse hcksum =>
        split at h
        · cases h
        case isFalse hkind =>
          obtain rfl := Except.ok.inj h
          obtain ⟨htype, hcode⟩ := not_or.mp hkind
          exact ⟨icmpHdr, rfl, not_not.mp hcksum, not_not.mp htype, not_not.mp hcode, rfl⟩
    · rintro ⟨icmpHdr', hsome, hcksum, htype, hcode, hmsg⟩
      obtain rfl := Option.some.inj hsome
      rw [if_neg (not_not.mpr hcksum), if_neg (not_or.mpr ⟨not_not.mpr htype, not_not.mpr hcode⟩)]
      exact congrArg Except.ok hmsg.symm

theorem parse_ipPair {data : List UInt8} {ipPair : Ipv4AddrPair .In} {msg : IcmpEchoMsg .In}
    (h : parse data ipPair = .ok msg) : msg.ipPair = ipPair := by
  obtain ⟨-, -, -, -, -, rfl⟩ := parse_iff.mp h
  rfl

/-! ### Sizes -/

/-- An accepted request carries what follows its header. -/
theorem parse_payload {data : List UInt8} {ipPair : Ipv4AddrPair .In} {msg : IcmpEchoMsg .In}
    (h : parse data ipPair = .ok msg) : 8 + msg.payload.length = data.length := by
  obtain ⟨icmpHdr, hchunk, -, -, -, rfl⟩ := parse_iff.mp h
  have hlen := (firstChunk_eq_some hchunk).1
  show 8 + (data.drop 8).length = _
  rw [List.length_drop]
  omega

/-- **Writing a message is safe**, whatever the message and the buffer are. -/
theorem safe_writeInto (self : IcmpEchoMsg .Out) (buf : List UInt8) :
    (self.writeInto buf).Safe fun b => b.length = buf.length := by
  unfold writeInto
  refine (Res.safe_ofResult _).bind fun stop hstop => ?_
  obtain ⟨-, hstopNat⟩ := tryAddUsize_eq_ok.mp hstop
  refine (safe_copyInto rfl fun _ => ?_).bind fun b1 h1 => ?_
  · show self.payload.length = stop - ICMP_HDR_LEN.toNat
    omega
  refine (safe_writeAt h1 _ _).bind fun b2 h2 => ?_
  refine (safe_writeAt h2 _ _).bind fun b3 h3 => ?_
  refine (safe_copyInto h3 fun _ => rfl).bind fun b4 h4 => ?_
  refine (safe_copyInto h4 fun _ => rfl).bind fun b5 h5 => ?_
  refine (safe_copyInto h5 fun _ => rfl).bind fun b6 h6 => ?_
  refine (Res.safe_ofResult _).bind fun len _ => ?_
  refine (safe_tryGet _ _).bind fun covered _ => ?_
  exact safe_copyInto h6 fun _ => rfl

/-- **A message is written** into every buffer it fits in. -/
theorem yields_writeInto (self : IcmpEchoMsg .Out) {buf : List UInt8} {n : Nat}
    (hbuf : buf.length = n) (hfit : 8 + self.payload.length ≤ n) (hn : n < 2 ^ 16) :
    (self.writeInto buf).Yields fun b => b.length = n := by
  have hHDR : ICMP_HDR_LEN.toNat = 8 := rfl
  obtain ⟨len, hlen, hlenNat⟩ : ∃ len, self.protoLen = .ok len ∧ _ :=
    hdrAndPayloadLen_ok (by omega)
  unfold writeInto
  refine (Res.yields_ofResult (P := (· = 8 + self.payload.length))
    (tryAddUsize_eq_ok.mpr ⟨by omega, rfl⟩) rfl).bind fun stop hstop => ?_
  refine (yields_copyInto hbuf (by omega) (by omega) (by omega)).bind fun b1 h1 => ?_
  refine (yields_writeAt h1 _ (by omega)).bind fun b2 h2 => ?_
  refine (yields_writeAt h2 _ (by omega)).bind fun b3 h3 => ?_
  refine (yields_copyInto h3 (by omega) (by omega) rfl).bind fun b4 h4 => ?_
  refine (yields_copyInto h4 (by omega) (by omega) rfl).bind fun b5 h5 => ?_
  refine (yields_copyInto h5 (by omega) (by omega) rfl).bind fun b6 h6 => ?_
  refine (Res.yields_ofResult (P := (· = len)) hlen rfl).bind fun len' hlen' => ?_
  refine (yields_tryGet h6 (by rw [hlen']; omega)).bind fun covered _ => ?_
  exact yields_copyInto h6 (by omega) (by omega) rfl

/-- A message that has been written fits in the buffer. -/
theorem fits_of_writeInto {self : IcmpEchoMsg .Out} {buf buf' : List UInt8}
    (h : self.writeInto buf = .ok buf') : 8 + self.payload.length ≤ buf.length := by
  obtain ⟨stop, hstop, h⟩ := Res.bind_eq_ok.mp h
  obtain ⟨b1, hcopy, -⟩ := Res.bind_eq_ok.mp h
  have hstop' := (tryAddUsize_eq_ok.mp (Res.ofResult_eq_ok.mp hstop)).2
  have hhi := (copyInto_eq_ok hcopy).1
  simp only [SliceIndex.hi] at hhi
  have hHDR : ICMP_HDR_LEN.toNat = 8 := rfl
  omega

end IcmpEchoMsg

end Typenet
