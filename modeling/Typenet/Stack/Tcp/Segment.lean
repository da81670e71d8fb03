import Typenet.Stack.Tcp.SeqSpace
import Typenet.Utils.Fallible

namespace Typenet

/-!
# TCP segments

Flags, payloads and segments.  A payload carries the invariant of its source type, a
length between 1 and `u16::MAX`, so an empty or oversized payload cannot be built.
-/

/-! ### Flags -/

inductive TcpFlags
  | Syn
  | SynAck
  | Ack
  | FinAck
  | Rst
  | RstAck
  deriving DecidableEq, Repr

namespace TcpFlags

/-- `u8::from`: FIN is bit 0, SYN bit 1, RST bit 2 and ACK bit 4. -/
def toU8 : TcpFlags → UInt8
  | .Syn => 0x02
  | .SynAck => 0x12
  | .Ack => 0x10
  | .FinAck => 0x11
  | .Rst => 0x04
  | .RstAck => 0x14

/-- The error of a flag combination outside the enumeration. -/
def invalid (other : UInt8) : TraceableError :=
  let ack := other &&& 0x10 != 0
  let rst := other &&& 0x04 != 0
  let syn := other &&& 0x02 != 0
  let fin := other &&& 0x01 != 0
  .dynamic s!"Invalid TCP flag combination: ACK={ack} RST={rst} SYN={syn} FIN={fin}"

/-- `TcpFlags::try_from`, which looks at the ACK, RST, SYN and FIN bits only. -/
def tryFrom (value : UInt8) : TraceableResult TcpFlags :=
  let masked := value &&& 0x17
  if masked = 0x02 then .ok .Syn
  else if masked = 0x10 then .ok .Ack
  else if masked = 0x04 then .ok .Rst
  else if masked = 0x12 then .ok .SynAck
  else if masked = 0x11 then .ok .FinAck
  else if masked = 0x14 then .ok .RstAck
  else .error (invalid masked)

/-- Decoding an encoded flag byte gives the flags back. -/
theorem tryFrom_toU8 (f : TcpFlags) : tryFrom f.toU8 = .ok f := by
  cases f <;> decide

end TcpFlags

/-! ### Payloads -/

/-- A payload of bytes with a length in the range of `NonZeroU16`. -/
structure TcpPayload where
  data : List UInt8
  nonempty : data ≠ []
  le_max : data.length < 2 ^ 16
  deriving DecidableEq

namespace TcpPayload

def len (p : TcpPayload) : Nat := p.data.length

/-- A payload is not empty. -/
theorem len_pos (p : TcpPayload) : 0 < p.len := List.length_pos_iff.mpr p.nonempty

/-- A payload fits sixteen bits. -/
theorem len_lt (p : TcpPayload) : p.len < 2 ^ 16 := p.le_max

@[simp] theorem length_data (p : TcpPayload) : p.data.length = p.len := rfl

/-- `TcpPayload::try_from_iter`: nothing for an empty iterator, an error for one longer
    than `u16::MAX`. -/
def tryFromIter (iter : List UInt8) : TraceableResult (Option TcpPayload) :=
  if hne : iter = [] then .ok none
  else if hlen : iter.length < 2 ^ 16 then .ok (some ⟨iter, hne, hlen⟩)
  else .error (.static
    "Attempted to create a `TcpPayload` from an iterator longer than `u16::MAX`")

/-- The bytes of an optional payload. -/
def bytes : Option TcpPayload → List UInt8
  | none => []
  | some p => p.data

/-- `len_or_default`. -/
def lenOrDefault (p : Option TcpPayload) : Nat := (bytes p).length

@[simp] theorem lenOrDefault_none : lenOrDefault none = 0 := rfl

@[simp] theorem lenOrDefault_some (p : TcpPayload) : lenOrDefault (some p) = p.len := rfl

theorem lenOrDefault_lt (p : Option TcpPayload) : lenOrDefault p < 2 ^ 16 := by
  cases p with
  | none => decide
  | some p => exact p.len_lt

theorem toNat_ofNat_lenOrDefault (p : Option TcpPayload) :
    (UInt16.ofNat (lenOrDefault p)).toNat = lenOrDefault p :=
  UInt16.toNat_ofNat_of_lt' (lenOrDefault_lt p)

/-- A payload that fits a length field is built from exactly the given bytes. -/
theorem tryFromIter_ok {iter : List UInt8} (h : iter.length < 2 ^ 16) :
    ∃ p, tryFromIter iter = .ok p ∧ bytes p = iter := by
  unfold tryFromIter
  by_cases hne : iter = []
  · exact ⟨none, dif_pos hne, hne.symm⟩
  · exact ⟨some ⟨iter, hne, h⟩, by rw [dif_neg hne, dif_pos h], rfl⟩

end TcpPayload

/-! ### Segments -/

/-- A TCP segment flowing in direction `D`, with the addresses it travels under. -/
structure TcpSegment (D : Direction) where
  ipPair : Ipv4AddrPair D
  ports : PortPair D
  seqNum : SeqPoint D
  ackNum : SeqPoint D.Rev
  /-- The header length in bytes. -/
  offsetBytes : UInt8
  flags : TcpFlags
  window : UInt16
  payload : Option TcpPayload
  deriving DecidableEq

/-- The minimum number of bytes in a TCP header (no options). -/
def TCP_HDR_MIN_LEN : Nat := 20

/-- The single phantom byte consumed by SYN in either stream. -/
def SYN_BYTE : Nat := 1

/-- The single phantom byte consumed by FIN in either stream. -/
def FIN_BYTE : Nat := 1

/-- The receive window, left at `u16::MAX`. -/
def RCV_WND : UInt16 := 65535

/-- Comprises the fields that differ when determining a segment to send. -/
structure SendInfo where
  seqNum : SeqPoint .Out
  ackNum : SeqPoint .In
  flags : TcpFlags
  payload : Option TcpPayload
  deriving DecidableEq

/-- `TcpSegment::from_pairs_and_info`. -/
def TcpSegment.fromPairsAndInfo (ipPair : Ipv4AddrPair .Out) (ports : PortPair .Out)
    (info : SendInfo) : TcpSegment .Out where
  ipPair := ipPair
  ports := ports
  seqNum := info.seqNum
  ackNum := info.ackNum
  offsetBytes := UInt8.ofNat TCP_HDR_MIN_LEN
  flags := info.flags
  window := RCV_WND
  payload := info.payload

end Typenet
