import Mathlib.Data.Nat.Bitwise
import Typenet.Stack.Acceptance
import Typenet.Stack.Encoding

namespace Typenet

open Checksum OnesComplement

/-!
# Single-bit corruption

A bit of a byte counts in the total of the checksummed data with a power of two, and the byte at
an even position counts for 256 times as much as the one behind it.  So inverting one bit changes
the total by one of `2 ^ 0` to `2 ^ 15` (`Checksum.total_flipBit`), none of which vanishes modulo
`0xFFFF`, and the checksum of the corrupted data is not zero.  The pseudo-header brings the
addresses, and every byte of the segment is covered behind it.
-/

/-! ### Inverting one bit -/

/-- Bit `bit` of a byte inverted, bit 0 being the lowest. -/
def flipByte (byte : UInt8) (bit : Fin 8) : UInt8 := byte ^^^ UInt8.ofNat (2 ^ bit.val)

/-- Bit `bit` of the byte at `i` inverted. -/
def flipBit (data : List UInt8) (i : Nat) (bit : Fin 8) : List UInt8 :=
  data.modify i (flipByte · bit)

/-- Bit `bit` of the octet at `i` inverted. -/
def Ipv4Addr.flipBit (ip : Ipv4Addr) (i : Fin 4) (bit : Fin 8) : Ipv4Addr :=
  match i with
  | 0 => { ip with a := flipByte ip.a bit }
  | 1 => { ip with b := flipByte ip.b bit }
  | 2 => { ip with c := flipByte ip.c bit }
  | 3 => { ip with d := flipByte ip.d bit }

/-- The parser's input but for one bit, which is in the slice or in one of the addresses. -/
inductive Corrupted {D : Direction} (data : List UInt8) (ipPair : Ipv4AddrPair D) :
    List UInt8 → Ipv4AddrPair D → Prop
  | data {i : Nat} (bit : Fin 8) : i < data.length →
      Corrupted data ipPair (flipBit data i bit) ipPair
  | src (i : Fin 4) (bit : Fin 8) :
      Corrupted data ipPair data ⟨ipPair.src.flipBit i bit, ipPair.dst⟩
  | dst (i : Fin 4) (bit : Fin 8) :
      Corrupted data ipPair data ⟨ipPair.src, ipPair.dst.flipBit i bit⟩

@[simp] theorem flipBit_length (data : List UInt8) (i : Nat) (bit : Fin 8) :
    (flipBit data i bit).length = data.length :=
  List.length_modify ..

/-- Flipping a bit of an address flips it in the octets. -/
theorem Ipv4Addr.octets_flipBit (ip : Ipv4Addr) (i : Fin 4) (bit : Fin 8) :
    (ip.flipBit i bit).octets = Typenet.flipBit ip.octets i bit := by
  match i with
  | 0 | 1 | 2 | 3 => rfl

/-- Inverting a bit of a number adds its weight or takes it away. -/
theorem xor_two_pow (n k : Nat) : n ^^^ 2 ^ k = n + 2 ^ k ∨ n = (n ^^^ 2 ^ k) + 2 ^ k := by
  induction k generalizing n with
  | zero =>
    have hdiv := Nat.xor_div_two (a := n) (b := 2 ^ 0)
    have hmod := Nat.xor_mod_two_eq (m := n) (n := 2 ^ 0)
    rw [show 2 ^ 0 / 2 = 0 from rfl, Nat.xor_zero] at hdiv
    omega
  | succ k ih =>
    have hdiv := Nat.xor_div_two (a := n) (b := 2 ^ (k + 1))
    have hmod := Nat.xor_mod_two_eq (m := n) (n := 2 ^ (k + 1))
    have hhalf := ih (n / 2)
    rw [Nat.pow_succ, Nat.mul_div_cancel _ Nat.two_pos] at hdiv
    rw [Nat.pow_succ] at hmod ⊢
    omega

/-- A flipped bit adds or takes away its weight. -/
theorem flipByte_toNat (byte : UInt8) (bit : Fin 8) :
    (flipByte byte bit).toNat = byte.toNat + 2 ^ bit.val
      ∨ byte.toNat = (flipByte byte bit).toNat + 2 ^ bit.val := by
  have hlt : 2 ^ bit.val < 2 ^ 8 := Nat.pow_lt_pow_right (by decide) bit.isLt
  rw [flipByte, UInt8.toNat_xor, UInt8.toNat_ofNat_of_lt' hlt]
  exact xor_two_pow _ _

/-! ### What it changes -/

/-- The totals differ by the weight of one bit of a word. -/
def BitApart (a b : Nat) : Prop := ∃ d, 0 < d ∧ d < 0xFFFF ∧ (b = a + d ∨ a = b + d)

/-- What is one bit apart stays so when something is added. -/
theorem BitApart.add_right {a b : Nat} (h : BitApart a b) (n : Nat) : BitApart (a + n) (b + n) := by
  obtain ⟨d, hpos, hlt, h⟩ := h
  exact ⟨d, hpos, hlt, by omega⟩

/-- On either side. -/
theorem BitApart.add_left {a b : Nat} (h : BitApart a b) (n : Nat) : BitApart (n + a) (n + b) := by
  rw [Nat.add_comm n a, Nat.add_comm n b]
  exact h.add_right n

/-- The high byte of a word counts 256 times. -/
theorem bitApart_hi (byte : UInt8) (bit : Fin 8) :
    BitApart (byte.toNat * 256) ((flipByte byte bit).toNat * 256) := by
  have hpos := Nat.two_pow_pos bit.val
  have hle : 2 ^ bit.val ≤ 2 ^ 7 := Nat.pow_le_pow_right Nat.two_pos (by omega)
  have hflip := flipByte_toNat byte bit
  exact ⟨2 ^ bit.val * 256, by omega, by omega, by omega⟩

/-- A flipped bit of a low byte keeps its weight. -/
theorem bitApart_lo (byte : UInt8) (bit : Fin 8) :
    BitApart byte.toNat (flipByte byte bit).toNat := by
  have hpos := Nat.two_pow_pos bit.val
  have hle : 2 ^ bit.val ≤ 2 ^ 7 := Nat.pow_le_pow_right Nat.two_pos (by omega)
  exact ⟨2 ^ bit.val, hpos, by omega, flipByte_toNat byte bit⟩

/-- **Every bit counts**, at whichever position its byte is. -/
theorem Checksum.total_flipBit {data : List UInt8} {i : Nat} (h : i < data.length)
    (bit : Fin 8) : BitApart (total data) (total (flipBit data i bit)) := by
  fun_induction words data generalizing i with
  | case1 hi lo rest ih =>
    rcases i with _ | _ | i
    · show BitApart _ (total (flipByte hi bit :: lo :: rest))
      rw [total_cons, total_cons]
      exact ((bitApart_hi hi bit).add_right _).add_right _
    · show BitApart _ (total (hi :: flipByte lo bit :: rest))
      rw [total_cons, total_cons]
      exact ((bitApart_lo lo bit).add_left _).add_right _
    · show BitApart _ (total (hi :: lo :: flipBit rest i bit))
      rw [total_cons, total_cons]
      exact (ih (by simpa using h)).add_left _
  | case2 hi =>
    rcases i with _ | i
    · show BitApart _ (total [flipByte hi bit])
      rw [total_singleton, total_singleton]
      exact bitApart_hi hi bit
    · simp at h
  | case3 => simp at h

/-- Data whose totals are a bit apart do not both verify. -/
theorem Checksum.rfc1071_ne_zero {data data' : List UInt8}
    (h : BitApart (total data) (total data')) (hzero : rfc1071 data = 0) :
    rfc1071 data' ≠ 0 := by
  obtain ⟨d, hpos, hlt, hnear⟩ := h
  rw [rfc1071_eq_zero] at hzero
  rw [ne_eq, rfc1071_eq_zero]
  exact residue_ne_of_near hpos hlt hnear hzero

/-- The addresses count in the total of what the checksum of a segment covers, and so does
    every byte of the segment. -/
theorem total_pseudoHdr_append {D : Direction} (ipPair : Ipv4AddrPair D) (protocol : Protocol)
    (data : List UInt8) :
    total (pseudoHdr ipPair protocol data.length ++ data)
      = total ipPair.src.octets + total ipPair.dst.octets
        + (protocol.toU8.toNat + (UInt16.ofNat data.length).toNat) + total data := by
  have hwords : total ([0] ++ [protocol.toU8] ++ toBeBytes16 (UInt16.ofNat data.length))
      = protocol.toU8.toNat + (UInt16.ofNat data.length).toNat := by
    rw [← toBeBytes16_toNat]
    simp [toBeBytes16]
  rw [total_append (pseudoHdr_length ipPair protocol _ ▸ rfl), ← hwords, pseudoHdr,
    List.append_assoc, List.append_assoc, total_append (by simp), total_append (by simp)]
  simp only [List.append_assoc]

/-- **Corruption changes the total** by the weight of a bit. -/
theorem Corrupted.bitApart {D : Direction} {data data' : List UInt8}
    {ipPair ipPair' : Ipv4AddrPair D} (h : Corrupted data ipPair data' ipPair')
    (protocol : Protocol) :
    BitApart (total (pseudoHdr ipPair protocol data.length ++ data))
      (total (pseudoHdr ipPair' protocol data'.length ++ data')) := by
  rw [total_pseudoHdr_append, total_pseudoHdr_append]
  cases h with
  | data bit hi =>
    rw [flipBit_length]
    exact (total_flipBit hi bit).add_left _
  | src i bit =>
    rw [Ipv4Addr.octets_flipBit]
    exact (((total_flipBit i.isLt bit).add_right _).add_right _).add_right _
  | dst i bit =>
    rw [Ipv4Addr.octets_flipBit]
    exact (((total_flipBit i.isLt bit).add_left _).add_right _).add_right _

/-- Corruption keeps the length. -/
theorem Corrupted.length_eq {D : Direction} {data data' : List UInt8}
    {ipPair ipPair' : Ipv4AddrPair D} (h : Corrupted data ipPair data' ipPair') :
    data'.length = data.length := by
  cases h with
  | data bit hi => exact flipBit_length ..
  | src | dst => rfl

/-! ### Segments -/

/-- **Corruption of a single bit is always detected.**  If a segment is accepted, inverting one
    bit of it or of one of its addresses has it rejected for its checksum. -/
theorem TcpSegment.corruption_rejected {D : Direction} (data data' : List UInt8)
    (ipPair ipPair' : Ipv4AddrPair D) (seg : TcpSegment D)
    (hparse : innerParse data ipPair = .ok seg) (hbit : Corrupted data ipPair data' ipPair') :
    innerParse data' ipPair' = .error (.err (.static "Invalid TCP checksum")) := by
  obtain ⟨tcpHdr, hchunk, hcksum, -, -, -⟩ := innerParse_iff.mp hparse
  have hfits : data.length ≤ ETHERNET_MTU := (safe_pseudoHdrCksum data ipPair .Tcp).2 0 hcksum
  have hlen := hbit.length_eq
  have hmin : 20 ≤ data'.length := by
    rw [hlen]
    exact (firstChunk_eq_some hchunk).1
  obtain ⟨tcpHdr', hchunk'⟩ := firstChunk_exists hmin
  rw [pseudoHdrCksum_eq ipPair .Tcp hfits] at hcksum
  have hne := rfc1071_ne_zero (hbit.bitApart .Tcp) (Except.ok.inj hcksum)
  unfold innerParse
  rw [hchunk']
  simp only
  rw [pseudoHdrCksum_eq ipPair' .Tcp (by omega), Res.ok_bind, if_pos hne]

/-- An ACK that carries a single byte, so that its last word is half empty. -/
def ODD_SEGMENT : List UInt8 :=
  [4, 210, 0, 80, 0, 0, 0, 101, 0, 0, 1, 145, 0x50, 0x10, 255, 255, 44, 185, 0, 0, 0x68]

/-- The highest bit of the odd byte is covered. -/
theorem TcpSegment.corruption_rejected_odd :
    (∃ seg, innerParse ODD_SEGMENT (⟨⟨10, 0, 0, 2⟩, ⟨10, 0, 0, 1⟩⟩ : Ipv4AddrPair .In) = .ok seg)
      ∧ innerParse (flipBit ODD_SEGMENT 20 7)
          (⟨⟨10, 0, 0, 2⟩, ⟨10, 0, 0, 1⟩⟩ : Ipv4AddrPair .In)
        = .error (.err (.static "Invalid TCP checksum")) := by
  have hfits : Plausible ODD_SEGMENT (⟨⟨10, 0, 0, 2⟩, ⟨10, 0, 0, 1⟩⟩ : Ipv4AddrPair .In) :=
    ⟨by decide, by decide +kernel, .Ack, by decide⟩
  obtain ⟨seg, hseg⟩ := accepts_iff.mpr hfits
  exact ⟨⟨seg, hseg⟩, corruption_rejected _ _ _ _ seg hseg (.data 7 (by decide))⟩

end Typenet
