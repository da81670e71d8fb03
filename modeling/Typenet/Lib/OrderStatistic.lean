import Mathlib.Data.List.Sort
import Mathlib.Order.Basic

namespace OrderStatistic

/-!
# Order statistics

`IsNth xs k x` says that `x` is the element of `xs` with `k` elements before it once `xs` is
sorted, without a word about sorting: at most `k` elements of `xs` are less than `x`, and more than
`k` are no greater.

* `isNth_getElem` — the elements of a sorted list are its order statistics;
* `IsNth.le`, `IsNth.unique` — they grow with `k`, so each `k` has one.
-/

variable {α : Type*} [LinearOrder α] {xs ys : List α} {k l : Nat} {x y : α}

/-- `x` is the element of `xs` that comes after `k` others in the order of their values. -/
structure IsNth (xs : List α) (k : Nat) (x : α) : Prop where
  mem : x ∈ xs
  before : xs.countP (· < x) ≤ k
  upTo : k < xs.countP (· ≤ x)

/-- The order in which the elements are listed does not matter. -/
theorem IsNth.perm (h : IsNth xs k x) (hperm : xs.Perm ys) : IsNth ys k x where
  mem := hperm.mem_iff.mp h.mem
  before := hperm.countP_eq _ ▸ h.before
  upTo := hperm.countP_eq _ ▸ h.upTo

/-- An element with nothing greater before it and nothing less after it. -/
theorem isNth_of_split {front back : List α} (hfront : ∀ z ∈ front, z ≤ x)
    (hback : ∀ z ∈ back, x ≤ z) : IsNth (front ++ x :: back) front.length x where
  mem := by simp
  before := by
    have hnone : back.countP (· < x) = 0 := by
      rw [List.countP_eq_zero]
      intro z hz
      simp [hback z hz]
    rw [List.countP_append, List.countP_cons_of_neg (by simp), hnone]
    exact List.countP_le_length
  upTo := by
    have hall : front.countP (· ≤ x) = front.length := by
      rw [List.countP_eq_length]
      intro z hz
      simp [hfront z hz]
    rw [List.countP_append, List.countP_cons_of_pos (by simp), hall]
    omega

/-- **The elements of a sorted list** are its order statistics. -/
theorem isNth_getElem (hsorted : xs.Pairwise (· ≤ ·)) (hk : k < xs.length) :
    IsNth xs k xs[k] := by
  have hsplit : xs.take k ++ xs[k] :: xs.drop (k + 1) = xs := by simp
  have hlen : (xs.take k).length = k := List.length_take_of_le hk.le
  have hparts : (xs.take k ++ xs[k] :: xs.drop (k + 1)).Pairwise (· ≤ ·) := hsplit.symm ▸ hsorted
  obtain ⟨-, hrest, hfront⟩ := List.pairwise_append.mp hparts
  obtain ⟨hback, -⟩ := List.pairwise_cons.mp hrest
  have hnth := isNth_of_split (fun z hz => hfront z hz xs[k] List.mem_cons_self) hback
  rw [hsplit, hlen] at hnth
  exact hnth

/-- **Order statistics grow.** -/
theorem IsNth.le (h : IsNth xs k x) (h' : IsNth xs l y) (hkl : k ≤ l) : x ≤ y := by
  by_contra hlt
  have hcount : xs.countP (· ≤ y) ≤ xs.countP (· < x) := by
    apply List.countP_mono_left
    intro z _ hz
    rw [decide_eq_true_eq] at hz ⊢
    exact lt_of_le_of_lt hz (not_le.mp hlt)
  have hbefore := h.before
  have hupTo := h'.upTo
  omega

/-- So there is only one for each `k`. -/
theorem IsNth.unique (h : IsNth xs k x) (h' : IsNth xs k y) : x = y :=
  le_antisymm (h.le h' le_rfl) (h'.le h le_rfl)

end OrderStatistic
