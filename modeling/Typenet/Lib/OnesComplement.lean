import Mathlib.Data.Nat.ModEq
import Mathlib.Tactic.Common

namespace OnesComplement

/-!
# One's complement sums of words between 0 and `m`

For words of `w` bits, `m` is the word `2 ^ w - 1` of all ones, the negative zero.  Adding two
words carries around the end, which is addition modulo `m`, except that a sum of positive words
never comes back to zero.  So a sum of words is known by the natural number it adds up to:

* `residue m n` — the word that a total of `n` comes down to, zero for zero only;
* `residue_congr`, `residue_lanes`, `residue_halves` — totals with the same residue: congruent
  ones, and those that differ in which lane of a wider word a summand is in;
* `endAroundSum_eq` — adding words one by one, with the carry brought around each time, computes
  the residue of their total;
* `foldl_residue` — so does every accumulator whose steps keep the residue;
* `residue_complement` — the complement of a sum completes it to negative zero;
* `residue_ne_of_near` — totals less than `m` apart do not both come down to negative zero.
-/

variable {m : Nat}

/-- The word that a total comes down to. -/
def residue (m n : Nat) : Nat := if n = 0 then 0 else (n - 1) % m + 1

@[simp] theorem residue_zero : residue m 0 = 0 := rfl

/-- The residue of a positive number lies between `1` and `m`. -/
theorem residue_of_pos {n : Nat} (h : 0 < n) : residue m n = (n - 1) % m + 1 :=
  if_neg (by omega)

/-- Only zero has the residue zero. -/
theorem residue_eq_zero {n : Nat} : residue m n = 0 ↔ n = 0 := by
  unfold residue
  split <;> simp_all

/-- A residue is at most `m`. -/
theorem residue_le (hm : 0 < m) (n : Nat) : residue m n ≤ m := by
  have hlt := Nat.mod_lt (n - 1) hm
  unfold residue
  split <;> omega

/-- A residue is congruent to its number. -/
theorem residue_modEq (n : Nat) : residue m n ≡ n [MOD m] := by
  rcases Nat.eq_zero_or_pos n with rfl | hpos
  · rfl
  · rw [residue_of_pos hpos]
    have h := (Nat.mod_modEq (n - 1) m).add_right 1
    rwa [Nat.sub_add_cancel hpos] at h

/-- Congruent totals come down to the same word, if both are zero or neither is. -/
theorem residue_congr {a b : Nat} (hzero : a = 0 ↔ b = 0) (h : a ≡ b [MOD m]) :
    residue m a = residue m b := by
  by_cases ha : a = 0
  · rw [ha, hzero.mp ha]
  · have hb : b ≠ 0 := fun hb => ha (hzero.mpr hb)
    have hpred : a - 1 ≡ b - 1 [MOD m] := by
      apply Nat.ModEq.add_right_cancel' 1
      rwa [Nat.sub_add_cancel (by omega), Nat.sub_add_cancel (by omega)]
    rw [residue_of_pos (by omega), residue_of_pos (by omega), hpred]

/-- A word is its own residue. -/
theorem residue_of_le {n : Nat} (h : n ≤ m) : residue m n = n := by
  rcases Nat.eq_zero_or_pos n with rfl | hpos
  · rfl
  · rw [residue_of_pos hpos, Nat.mod_eq_of_lt (by omega)]
    omega

/-- A summand may be brought down first. -/
theorem residue_residue_add (a b : Nat) : residue m (residue m a + b) = residue m (a + b) := by
  have ha : residue m a = 0 ↔ a = 0 := residue_eq_zero
  exact residue_congr (by omega) ((residue_modEq a).add_right b)

/-- Residues may be added to. -/
theorem residue_add_congr {a b : Nat} (h : residue m a = residue m b) (n : Nat) :
    residue m (n + a) = residue m (n + b) := by
  rw [Nat.add_comm n a, Nat.add_comm n b, ← residue_residue_add, h, residue_residue_add]

/-! ### Lanes of wider words -/

/-- **A lane may be moved down.** -/
theorem residue_lanes (hi lo : Nat) : residue m ((m + 1) * hi + lo) = residue m (hi + lo) := by
  apply residue_congr
  · cases hi with
    | zero => simp
    | succ hi => rw [Nat.mul_succ]; omega
  · have h : (m + 1) * hi ≡ hi [MOD m] := by
      rw [Nat.add_mul, Nat.one_mul]
      exact Nat.ModEq.modulus_mul_add
    exact h.add_right lo

/-- Folding the lowest lane and the others together keeps the residue. -/
theorem residue_halves (n : Nat) :
    residue m (n % (m + 1) + n / (m + 1)) = residue m n := by
  rw [Nat.add_comm, ← residue_lanes, Nat.div_add_mod]

/-! ### Sums -/

/-- The one's complement sum of two words, a carry out of which is added at the other end. -/
def endAroundAdd (m a b : Nat) : Nat := if a + b ≤ m then a + b else a + b - m

/-- **End-around addition** adds residues. -/
theorem endAroundAdd_eq {a b : Nat} (ha : a ≤ m) (hb : b ≤ m) :
    endAroundAdd m a b = residue m (a + b) := by
  unfold endAroundAdd
  split
  case isTrue h => rw [residue_of_le h]
  case isFalse h =>
    have hsum : a + b = (m + 1) * 1 + (a + b - m - 1) := by omega
    rw [hsum, residue_lanes, residue_of_le (by omega)]
    omega

/-- **The accumulator rule.** If every step of an accumulation keeps the residue of the total,
    so does the whole of it. -/
theorem foldl_residue {α β : Type} {f : β → α → β} {read : β → Nat} {value : α → Nat}
    {inv : β → Prop} (xs : List α)
    (hstep : ∀ acc, ∀ x ∈ xs, inv acc →
      inv (f acc x) ∧ residue m (read (f acc x)) = residue m (read acc + value x))
    (acc : β) (hacc : inv acc) :
    inv (xs.foldl f acc)
      ∧ residue m (read (xs.foldl f acc)) = residue m (read acc + (xs.map value).sum) := by
  induction xs generalizing acc with
  | nil => exact ⟨hacc, rfl⟩
  | cons x xs ih =>
    obtain ⟨hinv, hres⟩ := hstep acc x List.mem_cons_self hacc
    obtain ⟨hinv', hres'⟩ := ih (fun acc y hy => hstep acc y (List.mem_cons_of_mem x hy)) _ hinv
    rw [List.foldl_cons, List.map_cons, List.sum_cons]
    refine ⟨hinv', ?_⟩
    rw [hres', ← residue_residue_add, hres, residue_residue_add, Nat.add_assoc]

/-- The one's complement sum of a list of words. -/
def endAroundSum (m : Nat) (words : List Nat) : Nat := words.foldl (endAroundAdd m) 0

/-- **A sum of words is the residue of their total.** -/
theorem endAroundSum_eq (hm : 0 < m) {words : List Nat} (hwords : ∀ w ∈ words, w ≤ m) :
    endAroundSum m words = residue m words.sum := by
  have hstep : ∀ acc, ∀ w ∈ words, acc ≤ m → endAroundAdd m acc w ≤ m
      ∧ residue m (id (endAroundAdd m acc w)) = residue m (id acc + id w) := by
    intro acc w hw hacc
    rw [endAroundAdd_eq hacc (hwords w hw)]
    exact ⟨residue_le hm _, residue_of_le (residue_le hm _)⟩
  obtain ⟨hle, hres⟩ := foldl_residue words hstep 0 (Nat.zero_le m)
  rw [id, residue_of_le hle, List.map_id, id, Nat.zero_add] at hres
  exact hres

/-- **The complement of a sum completes it** to negative zero. -/
theorem residue_complement (hm : 0 < m) (n : Nat) :
    residue m (n + (m - residue m n)) = m := by
  have hle := residue_le hm n
  rw [← residue_residue_add, Nat.add_sub_cancel' hle, residue_of_le (Nat.le_refl m)]

/-- Negative zero may be added to negative zero. -/
theorem residue_add_self {n : Nat} (h : residue m n = m) : residue m (n + m) = m := by
  have htwo : m + m ≡ m [MOD m] := by simp [Nat.ModEq]
  calc residue m (n + m)
      = residue m (m + m) := by rw [← residue_residue_add, h]
    _ = residue m m := residue_congr (by omega) htwo
    _ = m := residue_of_le (Nat.le_refl m)

/-- **A change of less than `m` shows** in a total that came down to negative zero. -/
theorem residue_ne_of_near {a b d : Nat} (hpos : 0 < d) (hlt : d < m)
    (h : b = a + d ∨ a = b + d) (ha : residue m a = m) : residue m b ≠ m := by
  intro hb
  have hma : a ≡ m [MOD m] := by simpa only [ha] using (residue_modEq (m := m) a).symm
  have hmb : b ≡ m [MOD m] := by simpa only [hb] using (residue_modEq (m := m) b).symm
  have hdvd : m ∣ d := by
    rcases h with rfl | rfl
    · exact Nat.modEq_zero_iff_dvd.mp (Nat.ModEq.add_left_cancel' a (hmb.trans hma.symm))
    · exact Nat.modEq_zero_iff_dvd.mp (Nat.ModEq.add_left_cancel' b (hma.trans hmb.symm))
  exact absurd (Nat.le_of_dvd hpos hdvd) (by omega)

end OnesComplement
