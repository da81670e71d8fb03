import Mathlib.Algebra.Group.Nat.Defs
import Mathlib.Tactic.Common

namespace Typenet

/-!
# The Internet checksum

The 16-bit one's complement of the one's complement sum.  The code sums 64-bit groups in a
128-bit accumulator and folds the carries afterwards; accumulators are naturals here, with the
wrapping additions reduced modulo `2 ^ 128`.  The folding recursion is given the eight steps
that the code's own assertion allows it, and `foldAndFlip_enough` shows that it needs no more.
-/

namespace Checksum

/-- Splits data into groups of eight bytes and what remains (`as_chunks`). -/
def asChunks : List UInt8 → List (List UInt8) × List UInt8
  | a :: b :: c :: d :: e :: f :: g :: h :: rest =>
    let (groups, remainder) := asChunks rest
    ([a, b, c, d, e, f, g, h] :: groups, remainder)
  | remainder => ([], remainder)

/-- `u64::from_be_bytes`. -/
def fromBeBytes64 (bytes : List UInt8) : Nat := bytes.foldl (fun acc b => acc * 256 + b.toNat) 0

/-- Folds the bottom two 16-bit lanes together. -/
def fold (y : Nat) : Nat := (y % 2 ^ 16 + y / 2 ^ 16) % 2 ^ 128

/-- Folds until one lane is left, at most `fuel` times, and returns its one's complement. -/
def foldAndFlip : Nat → Nat → UInt16
  | 0, x => ~~~ UInt16.ofNat x
  | fuel + 1, x => if x > 0xFFFF then foldAndFlip fuel (fold x) else ~~~ UInt16.ofNat x

/-- `checksum::calculate`. -/
def calculate (data : List UInt8) : UInt16 :=
  let (byteGroups, remainderBytes) := asChunks data
  -- an odd byte goes to the high byte of its lane
  let first := fromBeBytes64 ((List.range 8).map fun i => remainderBytes.getD i 0)
  let sum := byteGroups.foldl (fun acc chunk => (acc + fromBeBytes64 chunk) % 2 ^ 128) first
  foldAndFlip 8 sum

/-! ### Eight folds are enough -/

/-- One fold removes a lane, up to a carry. -/
theorem fold_le {x k : Nat} (h : x ≤ 2 ^ 16 * k + (2 ^ 16 - 2)) :
    fold x ≤ k + (2 ^ 16 - 2) := by
  have hmod := Nat.mod_le (x % 2 ^ 16 + x / 2 ^ 16) (2 ^ 128)
  unfold fold
  omega

theorem foldAndFlip_of_le {x : Nat} (h : x ≤ 0xFFFF) (fuel : Nat) :
    foldAndFlip fuel x = ~~~ UInt16.ofNat x := by
  cases fuel with
  | zero => rfl
  | succ fuel => exact if_neg (by omega)

/-- An accumulator of `n` lanes and a carry needs `n` folds. -/
theorem foldAndFlip_add {n x : Nat} (h : x ≤ (2 ^ 16) ^ n + (2 ^ 16 - 2)) (fuel : Nat) :
    foldAndFlip (n + fuel) x = foldAndFlip n x := by
  induction n generalizing x with
  | zero =>
    rw [Nat.pow_zero] at h
    rw [foldAndFlip_of_le (by omega), foldAndFlip_of_le (by omega)]
  | succ n ih =>
    have hfold : fold x ≤ (2 ^ 16) ^ n + (2 ^ 16 - 2) :=
      fold_le (by rw [Nat.pow_succ, Nat.mul_comm] at h; exact h)
    rw [Nat.succ_add, foldAndFlip, foldAndFlip, ih hfold]

/-- **The recursion ends within eight folds** from every accumulator. -/
theorem foldAndFlip_enough {x : Nat} (h : x < 2 ^ 128) (fuel : Nat) :
    foldAndFlip (8 + fuel) x = foldAndFlip 8 x :=
  foldAndFlip_add (by omega) fuel

end Checksum

end Typenet
