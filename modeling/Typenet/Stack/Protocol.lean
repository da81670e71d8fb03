import Typenet.Stack.Addr
import Typenet.Stack.Checksum
import Typenet.Utils.Fallible

namespace Typenet

/-!
# Protocols and the pseudo-header checksum

`pseudoHdrCksum` copies the data it covers behind a pseudo-header into a buffer of fixed
size, so it fails on data longer than `ETHERNET_MTU`; `yields_pseudoHdrCksum` says that it
fails on nothing else.
-/

inductive Protocol
  | Icmp
  | Tcp
  | Udp
  deriving DecidableEq, Repr

namespace Protocol

/-- `u8::from`. -/
def toU8 : Protocol → UInt8
  | .Icmp => 1
  | .Tcp => 6
  | .Udp => 17

/-- `Protocol::try_from`. -/
def tryFrom (value : UInt8) : TraceableResult Protocol :=
  if value = 1 then .ok .Icmp
  else if value = 6 then .ok .Tcp
  else if value = 17 then .ok .Udp
  else .error (.dynamic s!"Unsupported protocol {value}")

/-- Decoding an encoded protocol gives it back. -/
theorem tryFrom_toU8 (p : Protocol) : tryFrom p.toU8 = .ok p := by
  cases p <;> decide

end Protocol

/-- The number of bytes in a TCP/UDP pseudo-header. -/
def PSEUDO_HDR_LEN : Nat := 12

/-- Calculates the TCP/UDP checksum of the pseudo-header + `data`. -/
def pseudoHdrCksum {D : Direction} (data : List UInt8) (ipPair : Ipv4AddrPair D)
    (protocol : Protocol) : Res UInt16 := do
  let protoLen ← Res.ofResult (u16TryFrom data.length)
  let cksumLen := PSEUDO_HDR_LEN + protoLen.toNat
  let cksumData := List.replicate (PSEUDO_HDR_LEN + ETHERNET_MTU) 0
  let cksumData ← copyIndexed cksumData (.range 0 4) ipPair.src.octets
  let cksumData ← copyIndexed cksumData (.range 4 8) ipPair.dst.octets
  -- byte 8 is reserved
  let cksumData ← writeIndexed cksumData 9 protocol.toU8
  let cksumData ← copyIndexed cksumData (.range 10 12) (toBeBytes16 protoLen)
  let cksumData ← copyInto cksumData (.range PSEUDO_HDR_LEN cksumLen) data
  let covered ← tryGet cksumData (.to cksumLen)
  .ok (Checksum.calculate covered)

/-- The length of a header and its payload, `hdr_len.try_add(payload_len.try_into()?)`. -/
def hdrAndPayloadLen (hdrLen : UInt16) (payloadLen : Nat) : TraceableResult UInt16 := do
  let payloadLen ← u16TryFrom payloadLen
  tryAddU16 hdrLen payloadLen

/-- The length is exact when it exists, and it exists below `2 ^ 16`. -/
theorem hdrAndPayloadLen_eq_ok {hdrLen len : UInt16} {payloadLen : Nat} :
    hdrAndPayloadLen hdrLen payloadLen = .ok len ↔
      hdrLen.toNat + payloadLen < 2 ^ 16 ∧ len.toNat = hdrLen.toNat + payloadLen := by
  unfold hdrAndPayloadLen u16TryFrom
  split
  case isTrue h =>
    have hm : (UInt16.ofNat payloadLen).toNat = payloadLen := UInt16.toNat_ofNat_of_lt' h
    rw [← hm, ← tryAddU16_eq_ok]
    rw [hm]
    rfl
  case isFalse h => exact iff_of_false nofun fun hc => h (by omega)

theorem hdrAndPayloadLen_ok {hdrLen : UInt16} {payloadLen : Nat}
    (h : hdrLen.toNat + payloadLen < 2 ^ 16) :
    ∃ len, hdrAndPayloadLen hdrLen payloadLen = .ok len ∧
      len.toNat = hdrLen.toNat + payloadLen := by
  have hlen := UInt16.toNat_ofNat_of_lt' (n := hdrLen.toNat + payloadLen) h
  exact ⟨_, hdrAndPayloadLen_eq_ok.mpr ⟨h, hlen⟩, hlen⟩

/-- **The pseudo-header checksum is safe** for data of any length: only the copy of the data
    into the fixed buffer can fail, and it fails with an error for data that does not fit. -/
theorem safe_pseudoHdrCksum {D : Direction} (data : List UInt8) (ipPair : Ipv4AddrPair D)
    (protocol : Protocol) :
    (pseudoHdrCksum data ipPair protocol).Safe fun _ => data.length ≤ ETHERNET_MTU := by
  have hPSEUDO : PSEUDO_HDR_LEN = 12 := rfl
  unfold pseudoHdrCksum
  refine (Res.safe_ofResult _).bind fun n hn => ?_
  obtain ⟨-, hlen⟩ := u16TryFrom_eq_ok.mp hn
  have h0 : (List.replicate (PSEUDO_HDR_LEN + ETHERNET_MTU) (0 : UInt8)).length = 1512 := by
    rw [List.length_replicate]
    rfl
  refine (yields_copyIndexed h0 (by decide) (by decide) rfl).safe.bind fun b1 h1 => ?_
  refine (yields_copyIndexed h1 (by decide) (by decide) rfl).safe.bind fun b2 h2 => ?_
  refine (yields_writeIndexed h2 _ (by decide)).safe.bind fun b3 h3 => ?_
  refine (yields_copyIndexed h3 (by decide) (by decide) rfl).safe.bind fun b4 h4 => ?_
  refine (safe_copyInto h4 ?_).bind fun b5 h5 => ?_
  · intro _
    show data.length = PSEUDO_HDR_LEN + n.toNat - PSEUDO_HDR_LEN
    omega
  · refine (safe_tryGet _ _).bind fun covered hcovered => Res.safe_ok ?_
    have hfits : PSEUDO_HDR_LEN + n.toNat ≤ b5.length := hcovered
    show data.length ≤ 1500
    omega

/-- **The pseudo-header checksum exists** for data that fits a packet. -/
theorem yields_pseudoHdrCksum {D : Direction} {data : List UInt8} (ipPair : Ipv4AddrPair D)
    (protocol : Protocol) (h : data.length ≤ ETHERNET_MTU) :
    (pseudoHdrCksum data ipPair protocol).Yields fun _ => True := by
  have hMTU : ETHERNET_MTU = 1500 := rfl
  have hPSEUDO : PSEUDO_HDR_LEN = 12 := rfl
  have hlen : (UInt16.ofNat data.length).toNat = data.length :=
    UInt16.toNat_ofNat_of_lt' (by show _ < 2 ^ 16; omega)
  have hconv := u16TryFrom_of_lt (n := data.length) (by omega)
  unfold pseudoHdrCksum
  refine (Res.yields_ofResult (P := (·.toNat = data.length)) hconv hlen).bind fun n hn => ?_
  -- each write keeps the length of the buffer
  have h0 : (List.replicate (PSEUDO_HDR_LEN + ETHERNET_MTU) (0 : UInt8)).length = 1512 := by
    rw [List.length_replicate]
    rfl
  refine (yields_copyIndexed h0 (by decide) (by decide) rfl).bind fun b1 h1 => ?_
  refine (yields_copyIndexed h1 (by decide) (by decide) rfl).bind fun b2 h2 => ?_
  refine (yields_writeIndexed h2 _ (by decide)).bind fun b3 h3 => ?_
  refine (yields_copyIndexed h3 (by decide) (by decide) rfl).bind fun b4 h4 => ?_
  refine (yields_copyInto h4 (by omega) (by omega) (by omega)).bind fun b5 h5 => ?_
  exact (yields_tryGet h5 (by omega)).bind fun _ _ => Res.yields_ok trivial

end Typenet
