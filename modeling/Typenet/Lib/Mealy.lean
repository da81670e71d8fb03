import Mathlib.Data.List.Basic
import Mathlib.Data.List.Forall2

namespace Mealy

/-!
# Machines that answer every event

A step takes a state and an event to an output and the next state; `run` collects the outputs.

* `run_hom` — a map of states, events and outputs that commutes with one step commutes with runs;
* `run_related` — a relation of states kept by every step relates the outputs of runs;
* `run_filter` — events that do nothing and are answered by nothing can be left out.
-/

variable {S E O S' E' O' : Type*}

/-- The outputs of the events in order, and the state reached. -/
def run (step : S → E → O × S) : List E → S → List O × S
  | [], s => ([], s)
  | e :: es, s =>
    let (o, s') := step s e
    let (os, t) := run step es s'
    (o :: os, t)

@[simp] theorem run_nil (step : S → E → O × S) (s : S) : run step [] s = ([], s) := rfl

theorem run_cons (step : S → E → O × S) (e : E) (es : List E) (s : S) :
    run step (e :: es) s
      = ((step s e).1 :: (run step es (step s e).2).1, (run step es (step s e).2).2) := rfl

theorem run_length (step : S → E → O × S) (es : List E) (s : S) :
    (run step es s).1.length = es.length := by
  induction es generalizing s with
  | nil => rfl
  | cons e es ih => rw [run_cons, List.length_cons, List.length_cons, ih]

theorem run_append (step : S → E → O × S) (es es' : List E) (s : S) :
    run step (es ++ es') s = ((run step es s).1 ++ (run step es' (run step es s).2).1,
      (run step es' (run step es s).2).2) := by
  induction es generalizing s with
  | nil => simp
  | cons e es ih => rw [List.cons_append, run_cons, run_cons, ih, List.cons_append]

/-- **Homomorphisms.** -/
theorem run_hom {step : S → E → O × S} {step' : S' → E' → O' × S'} (f : S → S') (g : E → E')
    (k : O → O') (h : ∀ s e, step' (f s) (g e) = (k (step s e).1, f (step s e).2))
    (es : List E) (s : S) :
    run step' (es.map g) (f s) = ((run step es s).1.map k, f (run step es s).2) := by
  induction es generalizing s with
  | nil => simp
  | cons e es ih => rw [List.map_cons, run_cons, run_cons, h, ih, List.map_cons]

/-- **Simulation.** -/
theorem run_related {step : S → E → O × S} {step' : S' → E → O' × S'} {R : S → S' → Prop}
    {Q : O → O' → Prop}
    (h : ∀ s s' e, R s s' → Q (step s e).1 (step' s' e).1 ∧ R (step s e).2 (step' s' e).2)
    (es : List E) {s : S} {s' : S'} (hR : R s s') :
    List.Forall₂ Q (run step es s).1 (run step' es s').1 ∧
      R (run step es s).2 (run step' es s').2 := by
  induction es generalizing s s' with
  | nil => exact ⟨.nil, hR⟩
  | cons e es ih =>
    obtain ⟨hQ, hR'⟩ := h s s' e hR
    obtain ⟨hQs, hlast⟩ := ih hR'
    exact ⟨.cons hQ hQs, hlast⟩

/-- **Deletion** of events that leave the state alone and are answered by the empty list. -/
theorem run_filter {step : S → E → List O × S} {p : E → Bool}
    (h : ∀ s e, p e = false → step s e = ([], s)) (es : List E) (s : S) :
    (run step (es.filter p) s).1.flatten = (run step es s).1.flatten ∧
      (run step (es.filter p) s).2 = (run step es s).2 := by
  induction es generalizing s with
  | nil => simp
  | cons e es ih =>
    cases hp : p e with
    | true =>
      rw [List.filter_cons_of_pos hp, run_cons, run_cons, List.flatten_cons, List.flatten_cons]
      obtain ⟨hout, hst⟩ := ih (step s e).2
      exact ⟨by rw [hout], hst⟩
    | false =>
      rw [List.filter_cons_of_neg (by simp [hp]), run_cons, h s e hp, List.flatten_cons,
        List.nil_append]
      exact ih s

end Mealy
