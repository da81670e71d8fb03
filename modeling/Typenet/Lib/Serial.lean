import Mathlib.Algebra.Group.Nat.Defs
import Mathlib.Data.Nat.Basic
import Mathlib.Tactic.Common

namespace Serial

/-!
# Serial number arithmetic on a circle of `2 ^ w` points

Points are words of `w` bits.  `dist a b` is the number of steps from `a` forward to
`b`, as a natural number; every comparison is read off it:

* `Precedes` — the signed-difference comparison used by serial number arithmetic, which
  holds exactly at the distances `1 .. 2 ^ (w - 1)` (`precedes_iff`), the antipode
  included in both directions;
* `InWindow` — membership in the half-open range of `len` points from `start`, which is
  `dist start x < len` for every length up to half the circle (`inWindow_iff`).

The distances from one base point turn statements about the circle into statements
about naturals: `dist_eq` moves between bases, `dist_add` follows a point forward.
-/

variable {w : Nat}

/-- The number of steps from `a` forward to `b`. -/
def dist (a b : BitVec w) : Nat := (b - a).toNat

theorem dist_lt (a b : BitVec w) : dist a b < 2 ^ w := (b - a).isLt

@[simp] theorem dist_self (a : BitVec w) : dist a a = 0 := by simp [dist]

/-- Two points at the same distance from a base are equal. -/
theorem dist_inj {a b c : BitVec w} : dist a b = dist a c ↔ b = c := by
  constructor
  · intro h
    have hbc : b - a = c - a := BitVec.eq_of_toNat_eq h
    calc b = b - a + a := (BitVec.sub_add_cancel b a).symm
      _ = c - a + a := by rw [hbc]
      _ = c := BitVec.sub_add_cancel c a
  · rintro rfl; rfl

theorem dist_eq_zero {a b : BitVec w} : dist a b = 0 ↔ b = a := by
  rw [← dist_self a, dist_inj]

/-- **Change of base.** The distance between two points, from their distances past a
    common base. -/
theorem dist_eq (base a b : BitVec w) :
    dist a b = (dist base b + (2 ^ w - dist base a)) % 2 ^ w := by
  have h : b - a = (b - base) - (a - base) := by grind
  rw [dist, h, BitVec.toNat_sub, Nat.add_comm]; rfl

/-- The distance forward to a point that is no closer to the base. -/
theorem dist_of_le {base a b : BitVec w} (h : dist base a ≤ dist base b) :
    dist a b = dist base b - dist base a := by
  have hb := dist_lt base b
  have hsum : dist base b + (2 ^ w - dist base a)
      = (dist base b - dist base a) + 2 ^ w := by omega
  rw [dist_eq base, hsum, Nat.add_mod_right, Nat.mod_eq_of_lt (by omega)]

/-- The distance to a point that is closer to the base leads around the circle. -/
theorem dist_of_gt {base a b : BitVec w} (h : dist base b < dist base a) :
    dist a b = 2 ^ w - (dist base a - dist base b) := by
  have ha := dist_lt base a
  rw [dist_eq base, Nat.mod_eq_of_lt (by omega)]
  omega

/-- Moving a point `n` steps forward moves its distance by `n`, around the circle. -/
theorem dist_add (base a : BitVec w) (n : Nat) :
    dist base (a + BitVec.ofNat w n) = (dist base a + n) % 2 ^ w := by
  have h : a + BitVec.ofNat w n - base = a - base + BitVec.ofNat w n := by grind
  rw [dist, h, BitVec.toNat_add, BitVec.toNat_ofNat, Nat.add_mod_mod]; rfl

/-! ### The signed comparison -/

/-- `a` comes before `b` when the signed reading of `a - b` is negative. -/
def Precedes (a b : BitVec w) : Prop := (a - b).toInt < 0

instance (a b : BitVec w) : Decidable (Precedes a b) := inferInstanceAs (Decidable (_ < _))

/-- **Exactness of the comparison.** `a` precedes `b` exactly when `b` lies one to half
    a circle ahead of `a`; at the antipode both orders hold. -/
theorem precedes_iff (hw : 0 < w) (a b : BitVec w) :
    Precedes a b ↔ 0 < dist a b ∧ dist a b ≤ 2 ^ (w - 1) := by
  have hpow : 2 ^ w = 2 * 2 ^ (w - 1) := by
    rw [← Nat.pow_succ', Nat.succ_eq_add_one, Nat.sub_add_cancel hw]
  have hab := dist_eq a b a
  have hlt := dist_lt a b
  rw [dist_self, Nat.zero_add] at hab
  rw [Precedes, BitVec.toInt_neg_iff]
  show 2 ^ w ≤ 2 * dist b a ↔ _
  rw [hab]
  rcases Nat.eq_zero_or_pos (dist a b) with h0 | hpos
  · rw [h0, Nat.sub_zero, Nat.mod_self]; omega
  · rw [Nat.mod_eq_of_lt (by omega)]; omega

/-- Equality or precedence, as one bound on the distance. -/
theorem eq_or_precedes_iff (hw : 0 < w) (a b : BitVec w) :
    a = b ∨ Precedes a b ↔ dist a b ≤ 2 ^ (w - 1) := by
  have hpos := Nat.two_pow_pos (w - 1)
  rw [precedes_iff hw, eq_comm, ← dist_eq_zero]
  omega

/-- **Within half the circle** the comparison is the order of the distances from a base behind
    both points. -/
theorem precedes_iff_dist_lt (hw : 0 < w) {base a b : BitVec w} (ha : dist base a < 2 ^ (w - 1))
    (hb : dist base b < 2 ^ (w - 1)) : Precedes a b ↔ dist base a < dist base b := by
  have hpow : 2 ^ w = 2 * 2 ^ (w - 1) := by
    rw [← Nat.pow_succ', Nat.succ_eq_add_one, Nat.sub_add_cancel hw]
  rw [precedes_iff hw]
  rcases Nat.lt_or_ge (dist base b) (dist base a) with h | h
  · -- `b` is behind `a`, so more than half the circle ahead of it
    rw [dist_of_gt h]
    omega
  · rw [dist_of_le h]
    omega

/-- Within half the circle, equality or precedence is the order of the distances as well. -/
theorem eq_or_precedes_iff_dist_le (hw : 0 < w) {base a b : BitVec w}
    (ha : dist base a < 2 ^ (w - 1)) (hb : dist base b < 2 ^ (w - 1)) :
    a = b ∨ Precedes a b ↔ dist base a ≤ dist base b := by
  rw [precedes_iff_dist_lt hw ha hb, ← dist_inj (a := base), Nat.le_iff_lt_or_eq, or_comm]

/-- **The signed difference** of two points within half the circle is that of the distances. -/
theorem toInt_sub_eq (hw : 0 < w) {base a b : BitVec w} (ha : dist base a < 2 ^ (w - 1))
    (hb : dist base b < 2 ^ (w - 1)) : (b - a).toInt = (dist base b : Int) - dist base a := by
  have hpow : 2 ^ w = 2 * 2 ^ (w - 1) := by
    rw [← Nat.pow_succ', Nat.succ_eq_add_one, Nat.sub_add_cancel hw]
  rw [BitVec.toInt_eq_toNat_cond]
  show (if 2 * dist a b < 2 ^ w then (dist a b : Int) else (dist a b : Int) - (2 ^ w : Nat)) = _
  rcases Nat.lt_or_ge (dist base b) (dist base a) with h | h
  · -- behind `a`, the distance leads around the circle and is read as negative
    rw [dist_of_gt h, if_neg (by omega)]
    omega
  · rw [dist_of_le h, if_pos (by omega)]
    omega

/-! ### Windows -/

/-- `x` lies at or after `start` and strictly before the point `len` steps on, each in
    the sense of the signed comparison. -/
def InWindow (x start : BitVec w) (len : Nat) : Prop :=
  (start = x ∨ Precedes start x) ∧ Precedes x (start + BitVec.ofNat w len)

instance (x start : BitVec w) (len : Nat) : Decidable (InWindow x start len) :=
  inferInstanceAs (Decidable (_ ∧ _))

/-- **Exactness of the window test**, for every length from one to half the circle. -/
theorem inWindow_iff (hw : 0 < w) (x start : BitVec w) {len : Nat} (hpos : 0 < len)
    (hlen : len ≤ 2 ^ (w - 1)) : InWindow x start len ↔ dist start x < len := by
  have hpow : 2 ^ w = 2 * 2 ^ (w - 1) := by
    rw [← Nat.pow_succ', Nat.succ_eq_add_one, Nat.sub_add_cancel hw]
  have hx := dist_lt start x
  have hend := dist_add start start len
  rw [dist_self, Nat.zero_add, Nat.mod_eq_of_lt (by omega)] at hend
  rw [InWindow, eq_or_precedes_iff hw, precedes_iff hw]
  rcases Nat.lt_or_ge len (dist start x) with h | h
  · -- past the end, which is then more than half the circle ahead
    have hpast : dist start (start + BitVec.ofNat w len) < dist start x := by rw [hend]; exact h
    rw [dist_of_gt hpast, hend]
    omega
  · have hin : dist start x ≤ dist start (start + BitVec.ofNat w len) := by rw [hend]; exact h
    rw [dist_of_le hin, hend]
    omega

end Serial
