import Mathlib.Order.Lattice
import Mathlib.Data.List.Basic

namespace Latest

/-!
# The latest of the items seen so far

Items arrive in any order, each with an age in a linear order, and a register keeps one of
them.  `IsLatest age seen a` says that the register `a` is the latest of the items `seen`.  It
stays so when the register takes every item that is at least as late (`IsLatest.newer`) and
leaves alone those that are not (`IsLatest.older`), so what it keeps depends on the ages of the
items and not on the order of their arrival.
-/

variable {α K : Type*} [LinearOrder K] {age : α → K} {seen : List α} {a b : α}

/-- `a` has been seen, and nothing later has. -/
structure IsLatest (age : α → K) (seen : List α) (a : α) : Prop where
  mem : a ∈ seen
  le : ∀ b ∈ seen, age b ≤ age a

theorem isLatest_singleton (age : α → K) (a : α) : IsLatest age [a] a where
  mem := List.mem_singleton_self a
  le b hb := by rw [List.mem_singleton.mp hb]

/-- Taking an item that is at least as late. -/
theorem IsLatest.newer (h : IsLatest age seen a) (hle : age a ≤ age b) :
    IsLatest age (seen ++ [b]) b where
  mem := List.mem_append_right _ (List.mem_singleton_self b)
  le c hc := by
    rcases List.mem_append.mp hc with hc | hc
    · exact (h.le c hc).trans hle
    · rw [List.mem_singleton.mp hc]

/-- Leaving alone an item that is no later. -/
theorem IsLatest.older (h : IsLatest age seen a) (hle : age b ≤ age a) :
    IsLatest age (seen ++ [b]) a where
  mem := List.mem_append_left _ h.mem
  le c hc := by
    rcases List.mem_append.mp hc with hc | hc
    · exact h.le c hc
    · rw [List.mem_singleton.mp hc]
      exact hle

end Latest
