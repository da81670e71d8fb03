import Mathlib.Algebra.Group.Int.Defs
import Typenet.Lib.Serial
import Typenet.Stack.Addr

namespace Typenet

/-!
# TCP sequence space

A `SeqPoint D` is a point of the 32-bit sequence space of the stream flowing in direction
`D`.  Offsets are naturals or, for the difference of two points, integers; adding an
offset reduces it modulo `2 ^ 32`.  The comparisons follow the code, through the signed
reading of a wrapping difference; `precedes_iff`, `precedesOrEq_iff` and `inWindow_iff`
say which distances they accept, and everything above this file argues with `dist`.
-/

/-- A specific point in TCP sequence number space from the stream flowing in direction
    `D`. -/
structure SeqPoint (D : Direction) where
  wrapping : BitVec 32
  deriving DecidableEq, Repr

namespace SeqPoint

variable {D : Direction}

/-- `SeqPoint::new`. -/
def new (primitive : Nat) : SeqPoint D := ⟨BitVec.ofNat 32 primitive⟩

instance : HAdd (SeqPoint D) Nat (SeqPoint D) where
  hAdd p n := ⟨p.wrapping + BitVec.ofNat 32 n⟩

/-- Signed offset of `self` past `rhs`, an `i32`. -/
def sub (self rhs : SeqPoint D) : Int := (self.wrapping - rhs.wrapping).toInt

/-- Whether `self` precedes `other`, accounting for wraparound. -/
def precedes (self other : SeqPoint D) : Bool := decide (self.sub other < 0)

/-- Whether `self` precedes or equals `other`, accounting for wraparound. -/
def precedesOrEq (self other : SeqPoint D) : Bool := self == other || self.precedes other

/-- Whether `self` falls within the window of `wndLen` sequence numbers from `wndStart`. -/
def inWindow (self wndStart : SeqPoint D) (wndLen : Nat) : Bool :=
  wndStart.precedesOrEq self && self.precedes (wndStart + wndLen)

/-- `SeqPoint::to_be_bytes`. -/
def toBeBytes (p : SeqPoint D) : List UInt8 :=
  let n := p.wrapping.toNat
  [UInt8.ofNat (n / 2 ^ 24), UInt8.ofNat (n / 2 ^ 16), UInt8.ofNat (n / 2 ^ 8), UInt8.ofNat n]

@[simp] theorem toBeBytes_length (p : SeqPoint D) : p.toBeBytes.length = 4 := rfl

/-! ### Distances -/

/-- The number of sequence numbers from `a` forward to `b`. -/
def dist (a b : SeqPoint D) : Nat := Serial.dist a.wrapping b.wrapping

theorem dist_lt (a b : SeqPoint D) : dist a b < 2 ^ 32 := Serial.dist_lt _ _

@[simp] theorem dist_self (a : SeqPoint D) : dist a a = 0 := Serial.dist_self _

/-- Points at one distance from a base are the same point. -/
theorem dist_inj {a b c : SeqPoint D} : dist a b = dist a c ↔ b = c := by
  rw [dist, dist, Serial.dist_inj]
  cases b; cases c; simp

theorem dist_eq_zero {a b : SeqPoint D} : dist a b = 0 ↔ b = a := by
  rw [← dist_self a, dist_inj]

/-- The distance between two points from their distances past a common base. -/
theorem dist_eq (base a b : SeqPoint D) :
    dist a b = (dist base b + (2 ^ 32 - dist base a)) % 2 ^ 32 :=
  Serial.dist_eq _ _ _

/-- Moving a point on moves its distance on, around the circle. -/
theorem dist_add (base a : SeqPoint D) (n : Nat) :
    dist base (a + n) = (dist base a + n) % 2 ^ 32 :=
  Serial.dist_add _ _ _

@[simp] theorem dist_self_add (a : SeqPoint D) (n : Nat) : dist a (a + n) = n % 2 ^ 32 := by
  rw [dist_add, dist_self, Nat.zero_add]

@[simp] theorem add_zero (a : SeqPoint D) : a + 0 = a := by
  rw [← dist_inj (a := a), dist_self_add, dist_self, Nat.zero_mod]

/-- Offsets add up. -/
theorem add_assoc (a : SeqPoint D) (m n : Nat) : a + m + n = a + (m + n) := by
  rw [← dist_inj (a := a), dist_add, dist_self_add, dist_self_add]
  omega

/-- A step shorter than the circle leads elsewhere. -/
theorem add_ne (a : SeqPoint D) {n : Nat} (hpos : 0 < n) (hlt : n < 2 ^ 32) : a + n ≠ a := by
  intro heq
  have hd := dist_self_add a n
  rw [heq, dist_self, Nat.mod_eq_of_lt hlt] at hd
  omega

/-- A point lies its own distance ahead of the base. -/
theorem add_dist (a b : SeqPoint D) : a + dist a b = b := by
  rw [← dist_inj (a := a), dist_self_add, Nat.mod_eq_of_lt (dist_lt a b)]

/-- One point precedes another exactly at the distances `1 .. 2 ^ 31`. -/
theorem precedes_iff (a b : SeqPoint D) :
    a.precedes b = true ↔ 0 < dist a b ∧ dist a b ≤ 2 ^ 31 := by
  rw [precedes, decide_eq_true_iff]
  exact Serial.precedes_iff (by decide) _ _

/-- No point precedes itself. -/
theorem precedes_irrefl (a : SeqPoint D) : a.precedes a = false := by
  rw [← Bool.not_eq_true, precedes_iff, dist_self]
  omega

/-- One point precedes or equals another exactly at the distances `0 .. 2 ^ 31`. -/
theorem precedesOrEq_iff (a b : SeqPoint D) :
    a.precedesOrEq b = true ↔ dist a b ≤ 2 ^ 31 := by
  rw [precedesOrEq, Bool.or_eq_true, beq_iff_eq, precedes_iff, eq_comm, ← dist_eq_zero]
  omega

/-- **Within half the circle** the comparison is the order of the distances. -/
theorem precedes_iff_dist_lt {base a b : SeqPoint D} (ha : dist base a < 2 ^ 31)
    (hb : dist base b < 2 ^ 31) : a.precedes b = true ↔ dist base a < dist base b := by
  rw [precedes, decide_eq_true_iff]
  exact Serial.precedes_iff_dist_lt (by decide) ha hb

/-- Within half the circle from a base, `precedesOrEq` compares distances. -/
theorem precedesOrEq_iff_dist_le {base a b : SeqPoint D} (ha : dist base a < 2 ^ 31)
    (hb : dist base b < 2 ^ 31) : a.precedesOrEq b = true ↔ dist base a ≤ dist base b := by
  have h := Serial.eq_or_precedes_iff_dist_le (by decide) ha hb
  rw [dist, dist, ← h, precedesOrEq, Bool.or_eq_true, beq_iff_eq, precedes, decide_eq_true_iff]
  have heq : a = b ↔ a.wrapping = b.wrapping := by
    cases a; cases b; simp
  rw [heq]; rfl

/-- Within half the circle the signed offset is the difference of the distances. -/
theorem sub_eq_dist_sub {base a b : SeqPoint D} (ha : dist base a < 2 ^ 31)
    (hb : dist base b < 2 ^ 31) : b.sub a = (dist base b : Int) - dist base a :=
  Serial.toInt_sub_eq (by decide) ha hb

/-- The window test is a bound on the distance, for lengths up to half the circle. -/
theorem inWindow_iff (x start : SeqPoint D) {len : Nat} (hpos : 0 < len)
    (hlen : len ≤ 2 ^ 31) : x.inWindow start len = true ↔ dist start x < len := by
  have h := Serial.inWindow_iff (by decide) x.wrapping start.wrapping hpos hlen
  rw [dist, ← h, inWindow, Bool.and_eq_true, precedesOrEq, Bool.or_eq_true, beq_iff_eq, precedes,
    precedes, decide_eq_true_iff, decide_eq_true_iff, Serial.InWindow]
  have heq : start = x ↔ start.wrapping = x.wrapping := by
    cases start; cases x; simp
  rw [heq]; rfl

/-- The signed offset is the distance when it is less than half the circle, and negative
    otherwise. -/
theorem sub_eq (a b : SeqPoint D) :
    a.sub b = if dist b a < 2 ^ 31 then (dist b a : Int) else (dist b a : Int) - 2 ^ 32 := by
  rw [sub, BitVec.toInt_eq_toNat_cond]
  show (if 2 * dist b a < 2 ^ 32 then (dist b a : Int) else _) = _
  by_cases h : dist b a < 2 ^ 31
  · rw [if_pos h, if_pos (by omega)]
  · rw [if_neg h, if_neg (by omega)]; rfl

end SeqPoint

end Typenet
