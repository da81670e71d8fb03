import Typenet.Stack.Protocol

namespace Typenet

/-!
# IPv4 headers

`innerParse` checks the first 20 bytes of a packet and cuts the packet at the header length
it announces, whatever that length is; `innerParse_eq_ok` collects what an accepted packet
satisfies.  A header is written over the first 20 bytes of the write buffer.
-/

/-- IPv4 header fields for a packet flowing in direction `D`. -/
structure Ipv4Header (D : Direction) where
  totalLen : UInt16
  protocol : Protocol
  ipPair : Ipv4AddrPair D
  deriving DecidableEq

namespace Ipv4Header

variable {D : Direction}

/-- The header length in bytes that the first byte of a packet announces, from its 32-bit
    words. -/
def ihlBytes (first : UInt8) : Nat := (first &&& 0xF).toNat * 4

/-- `Ipv4Header::inner_parse`: the header fields and the payload. -/
def innerParse (data : List UInt8) : TraceableResult (Ipv4Header D × List UInt8) :=
  match firstChunk 20 data with
  | none => .error (.dynamic s!"Too short for IPv4 header ({data.length} bytes)")
  | some ipHdr =>
    let version := ipHdr.get 0 >>> 4
    if version = 6 then .error (.static "IPv6 packet")
    else if version ≠ 4 then .error (.dynamic s!"Unexpected IP version {version}")
    -- the checksum covers the first 20 bytes, without options
    else if Checksum.calculate ipHdr.toList ≠ 0 then
      .error (.static "Invalid IPv4 header checksum")
    else
      let ihlBytes := ihlBytes (ipHdr.get 0)
      match Protocol.tryFrom (ipHdr.get 9) with
      | .error e => .error e
      | .ok protocol =>
        if ihlBytes ≤ data.length then
          .ok ({
            totalLen := fromBeBytes16 (ipHdr.get 2) (ipHdr.get 3)
            protocol := protocol
            ipPair := ⟨⟨ipHdr.get 12, ipHdr.get 13, ipHdr.get 14, ipHdr.get 15⟩,
              ⟨ipHdr.get 16, ipHdr.get 17, ipHdr.get 18, ipHdr.get 19⟩⟩ },
            data.drop ihlBytes)
        else .error (.static "IPv4 data shorter than its IHL")

/-- `Ipv4Header::inner_try_new`. -/
def innerTryNew (protocol : Protocol) (ipPair : Ipv4AddrPair D) (protoLen : UInt16) :
    TraceableResult (Ipv4Header D) :=
  (tryAddU16 (UInt16.ofNat IPV4_HDR_MIN_LEN) protoLen).map fun totalLen =>
    ⟨totalLen, protocol, ipPair⟩

/-- `Ipv4Header::inner_write_into`, for a buffer of `ETHERNET_MTU` bytes. -/
def innerWriteInto (self : Ipv4Header D) (buf : List UInt8) : Res (List UInt8) := do
  let buf ← writeIndexed buf 0 (0x40 ||| UInt8.ofNat (IPV4_HDR_MIN_LEN / 4))
  let buf ← writeIndexed buf 1 0
  let buf ← copyIndexed buf (.range 2 4) (toBeBytes16 self.totalLen)
  let buf ← copyIndexed buf (.range 4 6) [0, 0]
  -- Don't Fragment
  let buf ← copyIndexed buf (.range 6 8) [0x40, 0]
  let buf ← writeIndexed buf 8 64
  let buf ← writeIndexed buf 9 self.protocol.toU8
  -- the checksum field is clear while the checksum is calculated
  let buf ← copyIndexed buf (.range 10 12) [0, 0]
  let buf ← copyIndexed buf (.range 12 16) self.ipPair.src.octets
  let buf ← copyIndexed buf (.range 16 20) self.ipPair.dst.octets
  let header ← readIndexed buf (.to IPV4_HDR_MIN_LEN)
  copyIndexed buf (.range 10 12) (toBeBytes16 (Checksum.calculate header))

/-! ### What is accepted and what is written -/

/-- The header length that a packet announces. -/
def headerLen (data : List UInt8) : Nat := ihlBytes (data.headD 0)

/-- The fields that the first 20 bytes of a packet hold. -/
def ofChunk (protocol : Protocol) (ipHdr : Vector UInt8 20) : Ipv4Header D where
  totalLen := fromBeBytes16 (ipHdr.get 2) (ipHdr.get 3)
  protocol := protocol
  ipPair := ⟨⟨ipHdr.get 12, ipHdr.get 13, ipHdr.get 14, ipHdr.get 15⟩,
    ⟨ipHdr.get 16, ipHdr.get 17, ipHdr.get 18, ipHdr.get 19⟩⟩

/-- **What is accepted**: every check of the parser, and what it makes of the packet. -/
theorem innerParse_iff {data payload : List UInt8} {hdr : Ipv4Header D} :
    innerParse data = .ok (hdr, payload) ↔ ∃ ipHdr, firstChunk 20 data = some ipHdr
      ∧ ipHdr.get 0 >>> 4 = 4 ∧ Checksum.calculate ipHdr.toList = 0
      ∧ Protocol.tryFrom (ipHdr.get 9) = .ok hdr.protocol
      ∧ ihlBytes (ipHdr.get 0) ≤ data.length ∧ hdr = ofChunk hdr.protocol ipHdr
      ∧ payload = data.drop (ihlBytes (ipHdr.get 0)) := by
  unfold innerParse
  cases hchunk : firstChunk 20 data with
  | none => simp
  | some ipHdr =>
    simp only
    constructor
    · intro h
      -- every check before the last one is an error when it fails
      split at h
      · cases h
      split at h
      · cases h
      case isFalse hversion =>
        split at h
        · cases h
        case isFalse hcksum =>
          split at h
          case h_1 => cases h
          case h_2 protocol hproto =>
            split at h
            case isTrue hfits =>
              obtain ⟨rfl, rfl⟩ := Prod.mk.inj (Except.ok.inj h)
              exact ⟨ipHdr, rfl, not_not.mp hversion, not_not.mp hcksum, hproto, hfits, rfl, rfl⟩
            case isFalse => cases h
    · rintro ⟨ipHdr', hsome, hversion, hcksum, hproto, hfits, hhdr, rfl⟩
      obtain rfl := Option.some.inj hsome
      rw [if_neg (by rw [hversion]; decide), if_neg (not_not.mpr hversion),
        if_neg (not_not.mpr hcksum), hproto]
      simp only
      rw [if_pos hfits]
      exact congrArg (fun hdr => Except.ok (hdr, _)) hhdr.symm

/-- **An accepted packet** is cut at the header length it announces. -/
theorem innerParse_eq_ok {data payload : List UInt8} {hdr : Ipv4Header D}
    (h : innerParse data = .ok (hdr, payload)) :
    20 ≤ data.length ∧ payload = data.drop (headerLen data) := by
  obtain ⟨ipHdr, hchunk, -, -, -, -, -, rfl⟩ := innerParse_iff.mp h
  have hfirst : ipHdr.get 0 = data.headD 0 := firstChunk_head hchunk (by decide)
  rw [headerLen, ← hfirst]
  exact ⟨(firstChunk_eq_some hchunk).1, rfl⟩

/-- A new header has the length of a header more than what it covers. -/
theorem innerTryNew_eq_ok {protocol : Protocol} {ipPair : Ipv4AddrPair D} {protoLen : UInt16}
    {hdr : Ipv4Header D} (h : innerTryNew protocol ipPair protoLen = .ok hdr) :
    hdr.totalLen.toNat = 20 + protoLen.toNat ∧ hdr.protocol = protocol
      ∧ hdr.ipPair = ipPair := by
  unfold innerTryNew at h
  cases hadd : tryAddU16 (UInt16.ofNat IPV4_HDR_MIN_LEN) protoLen with
  | error e => rw [hadd] at h; cases h
  | ok totalLen =>
    rw [hadd] at h
    obtain rfl := Except.ok.inj h
    exact ⟨(tryAddU16_eq_ok.mp hadd).2, rfl, rfl⟩

theorem innerTryNew_ok (protocol : Protocol) (ipPair : Ipv4AddrPair D) (protoLen : UInt16)
    (h : 20 + protoLen.toNat < 2 ^ 16) :
    ∃ hdr, innerTryNew protocol ipPair protoLen = .ok hdr := by
  have hadd : tryAddU16 (UInt16.ofNat IPV4_HDR_MIN_LEN) protoLen
      = .ok (UInt16.ofNat IPV4_HDR_MIN_LEN + protoLen) := if_pos h
  exact ⟨_, by rw [innerTryNew, hadd]; rfl⟩

/-- **A header is always written.** -/
theorem yields_innerWriteInto (self : Ipv4Header D) {buf : List UInt8}
    (h : buf.length = ETHERNET_MTU) :
    (self.innerWriteInto buf).Yields fun b => b.length = ETHERNET_MTU := by
  unfold innerWriteInto
  refine (yields_writeIndexed h _ (by decide)).bind fun b1 h1 => ?_
  refine (yields_writeIndexed h1 _ (by decide)).bind fun b2 h2 => ?_
  refine (yields_copyIndexed h2 (by decide) (by decide) rfl).bind fun b3 h3 => ?_
  refine (yields_copyIndexed h3 (by decide) (by decide) rfl).bind fun b4 h4 => ?_
  refine (yields_copyIndexed h4 (by decide) (by decide) rfl).bind fun b5 h5 => ?_
  refine (yields_writeIndexed h5 _ (by decide)).bind fun b6 h6 => ?_
  refine (yields_writeIndexed h6 _ (by decide)).bind fun b7 h7 => ?_
  refine (yields_copyIndexed h7 (by decide) (by decide) rfl).bind fun b8 h8 => ?_
  refine (yields_copyIndexed h8 (by decide) (by decide) rfl).bind fun b9 h9 => ?_
  refine (yields_copyIndexed h9 (by decide) (by decide) rfl).bind fun b10 h10 => ?_
  refine (yields_readIndexed h10 (by decide)).bind fun header _ => ?_
  exact yields_copyIndexed h10 (by decide) (by decide) rfl

end Ipv4Header

end Typenet
