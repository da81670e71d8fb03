import Mathlib.Algebra.Group.Nat.Defs
import Mathlib.Tactic.Common

namespace Typenet

/-!
# Directions and addresses

The direction of a flow is a parameter of addresses, segments and sequence points, so an
incoming value cannot be used where an outgoing one is meant.  Replies are addressed by
`swapped`, which is its own inverse.
-/

/-- A direction of traffic flow, either incoming or outgoing. -/
inductive Direction
  | In
  | Out
  deriving DecidableEq, Repr

/-- The reverse direction of traffic flow. -/
@[reducible] def Direction.Rev : Direction → Direction
  | .In => .Out
  | .Out => .In

/-- `std::net::Ipv4Addr`, by its four octets. -/
structure Ipv4Addr where
  a : UInt8
  b : UInt8
  c : UInt8
  d : UInt8
  deriving DecidableEq, Repr

def Ipv4Addr.octets (ip : Ipv4Addr) : List UInt8 := [ip.a, ip.b, ip.c, ip.d]

@[simp] theorem Ipv4Addr.octets_length (ip : Ipv4Addr) : ip.octets.length = 4 := rfl

/-- A pair of source and destination IPv4 addresses. -/
structure Ipv4AddrPair (D : Direction) where
  src : Ipv4Addr
  dst : Ipv4Addr
  deriving DecidableEq, Repr

/-- A pair of source and destination ports. -/
structure PortPair (D : Direction) where
  src : UInt16
  dst : UInt16
  deriving DecidableEq, Repr

def Ipv4AddrPair.swapped {D : Direction} (p : Ipv4AddrPair D) : Ipv4AddrPair D.Rev :=
  ⟨p.dst, p.src⟩

def PortPair.swapped {D : Direction} (p : PortPair D) : PortPair D.Rev :=
  ⟨p.dst, p.src⟩

/-! ### Packet sizes -/

/-- The Maximum Transmission Unit of standard Ethernet. -/
def ETHERNET_MTU : Nat := 1500

/-- The minimum number of bytes in an IPv4 header (no options). -/
def IPV4_HDR_MIN_LEN : Nat := 20

/-- The length in bytes of an IPv4 header for a reply packet (no options). -/
def REPLY_HDR_LEN : Nat := IPV4_HDR_MIN_LEN

/-! ### Big-endian words -/

/-- `u16::to_be_bytes`. -/
def toBeBytes16 (n : UInt16) : List UInt8 := [(n >>> 8).toUInt8, n.toUInt8]

/-- `u16::from_be_bytes`. -/
def fromBeBytes16 (hi lo : UInt8) : UInt16 := hi.toUInt16 <<< 8 ||| lo.toUInt16

/-- `u32::from_be_bytes`. -/
def fromBeBytes32 (a b c d : UInt8) : Nat :=
  ((a.toNat * 256 + b.toNat) * 256 + c.toNat) * 256 + d.toNat

@[simp] theorem toBeBytes16_length (n : UInt16) : (toBeBytes16 n).length = 2 := rfl

theorem fromBeBytes16_toNat (hi lo : UInt8) :
    (fromBeBytes16 hi lo).toNat = hi.toNat * 256 + lo.toNat := by
  have hhi := hi.toNat_lt
  have hlo := lo.toNat_lt
  have hshift : (hi.toUInt16 <<< 8).toNat = 2 ^ 8 * hi.toNat := by
    simp [UInt16.toNat_shiftLeft, Nat.shiftLeft_eq]
    omega
  rw [fromBeBytes16, UInt16.toNat_or, hshift, UInt8.toNat_toUInt16,
    ← Nat.two_pow_add_eq_or_of_lt hlo]
  omega

theorem toBeBytes16_toNat (n : UInt16) :
    (n >>> 8).toUInt8.toNat * 256 + n.toUInt8.toNat = n.toNat := by
  have hn := n.toNat_lt
  simp [UInt16.toNat_shiftRight, Nat.shiftRight_eq_div_pow]
  omega

/-- Reading an encoded word gives it back. -/
theorem fromBeBytes16_toBeBytes16 (n : UInt16) :
    fromBeBytes16 (n >>> 8).toUInt8 n.toUInt8 = n := by
  rw [← UInt16.toNat_inj, fromBeBytes16_toNat, toBeBytes16_toNat]

end Typenet
