import Mathlib.Order.Lattice
import Mathlib.Data.List.Basic

namespace Tiling

/-!
# Queues of intervals that tile a range

A queue of half-open intervals `[a, b)` over a linear order, each starting where the one
before it ends:

* `Tiles a l b` — the intervals of `l` cut `[a, b)` into non-empty pieces, in order;
* `Awaits x l b` — `l` is what is left of such a queue once everything before `x` has
  been acknowledged: it is empty when nothing is left, otherwise its first interval
  contains `x` and the queue runs on without gaps to `b`.

A queue of this kind is extended at its end (`Awaits.push`) and pruned by a cumulative
acknowledgment that moves `x` forward (`Awaits.prune`).
-/

variable {α : Type*} [LinearOrder α]

/-- The intervals of `l` are non-empty, consecutive, and run from `a` to `b`. -/
inductive Tiles : α → List (α × α) → α → Prop
  | nil (a : α) : Tiles a [] a
  | cons {a b c : α} {l : List (α × α)} : a < b → Tiles b l c → Tiles a ((a, b) :: l) c

theorem Tiles.le {a b : α} {l : List (α × α)} (h : Tiles a l b) : a ≤ b := by
  induction h with
  | nil => exact le_refl _
  | cons hab _ ih => exact le_trans (le_of_lt hab) ih

/-- Appending the interval that starts at the end of the range. -/
theorem Tiles.snoc {a b c : α} {l : List (α × α)} (h : Tiles a l b) (hbc : b < c) :
    Tiles a (l ++ [(b, c)]) c := by
  induction h with
  | nil => exact .cons hbc (.nil c)
  | cons hab _ ih => exact .cons hab (ih hbc)

/-- Every interval of a tiling is non-empty and lies inside the range. -/
theorem Tiles.bounds {a b : α} {l : List (α × α)} (h : Tiles a l b) :
    ∀ iv ∈ l, a ≤ iv.1 ∧ iv.1 < iv.2 ∧ iv.2 ≤ b := by
  induction h with
  | nil => simp
  | cons hab htl ih =>
    intro iv hiv
    rcases List.mem_cons.mp hiv with rfl | hmem
    · exact ⟨le_refl _, hab, htl.le⟩
    · obtain ⟨h1, h2, h3⟩ := ih iv hmem
      exact ⟨le_trans (le_of_lt hab) h1, h2, h3⟩

/-- The queue `l` still awaits everything from `x` up to `b`. -/
def Awaits (x : α) (l : List (α × α)) (b : α) : Prop :=
  (l = [] ∧ x = b) ∨ ∃ iv t, l = iv :: t ∧ iv.1 ≤ x ∧ x < iv.2 ∧ Tiles iv.1 l b

/-- Nothing is awaited exactly when the queue is empty. -/
theorem Awaits.nil_iff {x b : α} {l : List (α × α)} (h : Awaits x l b) : l = [] ↔ x = b := by
  rcases h with ⟨rfl, rfl⟩ | ⟨iv, t, rfl, -, hx, htl⟩
  · simp
  · have hb : iv.2 ≤ b := (htl.bounds iv (by simp)).2.2
    simpa using (lt_of_lt_of_le hx hb).ne

theorem Awaits.le {x b : α} {l : List (α × α)} (h : Awaits x l b) : x ≤ b := by
  rcases h with ⟨-, rfl⟩ | ⟨iv, t, rfl, -, hx, htl⟩
  · exact le_refl _
  · exact le_trans (le_of_lt hx) (htl.bounds iv (by simp)).2.2

/-- Every awaited interval reaches past `x` and ends by `b`. -/
theorem Awaits.bounds {x b : α} {l : List (α × α)} (h : Awaits x l b) :
    ∀ iv ∈ l, x < iv.2 ∧ iv.2 ≤ b := by
  rcases h with ⟨rfl, -⟩ | ⟨⟨a, c⟩, t, rfl, -, hx, htl⟩
  · nofun
  · cases htl with
    | cons hab htl =>
      intro iv' hiv'
      rcases List.mem_cons.mp hiv' with rfl | hmem
      · exact ⟨hx, htl.le⟩
      · obtain ⟨h1, h2, h3⟩ := htl.bounds iv' hmem
        exact ⟨lt_of_lt_of_le hx (le_trans h1 (le_of_lt h2)), h3⟩

/-- **Extending the queue** by the interval that starts at its end. -/
theorem Awaits.push {x b c : α} {l : List (α × α)} (h : Awaits x l b) (hbc : b < c) :
    Awaits x (l ++ [(b, c)]) c := by
  right
  rcases h with ⟨rfl, rfl⟩ | ⟨iv, t, rfl, hle, hx, htl⟩
  · exact ⟨(x, c), [], rfl, le_refl _, hbc, .cons hbc (.nil c)⟩
  · exact ⟨iv, t ++ [(b, c)], rfl, hle, hx, htl.snoc hbc⟩

/-- Pruning a tiling at a point of its range keeps exactly what is awaited from there. -/
theorem Tiles.prune {a b y : α} {l : List (α × α)} (h : Tiles a l b) (hay : a ≤ y)
    (hyb : y ≤ b) : Awaits y (l.filter fun iv => decide (y < iv.2)) b := by
  induction h with
  | nil a => exact .inl ⟨rfl, le_antisymm hyb hay⟩
  | @cons a b c l hab htl ih =>
    by_cases hy : y < b
    · -- the first interval survives, and with it every later one
      have hall : ∀ iv ∈ l, y < iv.2 := fun iv hiv => by
        obtain ⟨h1, h2, -⟩ := htl.bounds iv hiv
        exact lt_of_lt_of_le hy (le_trans h1 (le_of_lt h2))
      have htail : l.filter (fun iv => decide (y < iv.2)) = l :=
        List.filter_eq_self.mpr fun iv hiv => by simpa using hall iv hiv
      refine .inr ⟨(a, b), l, ?_, hay, hy, ?_⟩
      · rw [List.filter_cons_of_pos (by simpa using hy), htail]
      · rw [List.filter_cons_of_pos (by simpa using hy), htail]
        exact .cons hab htl
    · rw [List.filter_cons_of_neg (by simpa using hy)]
      exact ih (not_lt.mp hy) hyb

/-- **A cumulative acknowledgment** up to `y` leaves exactly what is awaited from `y`. -/
theorem Awaits.prune {x y b : α} {l : List (α × α)} (h : Awaits x l b) (hxy : x ≤ y)
    (hyb : y ≤ b) : Awaits y (l.filter fun iv => decide (y < iv.2)) b := by
  rcases h with ⟨rfl, rfl⟩ | ⟨iv, t, rfl, hle, -, htl⟩
  · exact .inl ⟨rfl, le_antisymm hyb hxy⟩
  · exact htl.prune (le_trans hle hxy) hyb

end Tiling
