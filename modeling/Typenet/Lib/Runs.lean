import Mathlib.Data.List.Induction

namespace Runs

/-!
# Runs of a system under a side condition

A system is a total step function on states, driven by events that carry whatever the
outside world decides.  `Run step ok s es t` is a run from `s` to `t` over the events
`es` in which every step meets `ok`, a condition on the state before the step and on its
event.  Three rules serve every proof about runs:

* `Run.invariant` — what holds at the start and is kept by one step holds at the end,
  where the property may also speak of the events so far;
* `Run.of_admits` — folding the step function over events that meet `ok` is a run;
* `AtLeast.reaches` — a measure that no event lets grow is used up by enough events that let it
  shrink.
-/

variable {S E : Type*} {step : S → E → S} {ok ok' : S → E → Prop}

/-- A finite run whose steps all meet `ok`. -/
inductive Run (step : S → E → S) (ok : S → E → Prop) (s : S) : List E → S → Prop
  | nil : Run step ok s [] s
  | snoc {es : List E} {t : S} {e : E} :
      Run step ok s es t → ok t e → Run step ok s (es ++ [e]) (step t e)

/-- **Invariant rule**, for properties of the events so far and the state reached. -/
theorem Run.invariant {s t : S} {es : List E} {I : List E → S → Prop} (h0 : I [] s)
    (hstep : ∀ es t e, I es t → ok t e → I (es ++ [e]) (step t e))
    (h : Run step ok s es t) : I es t := by
  induction h with
  | nil => exact h0
  | snoc _ hok ih => exact hstep _ _ _ ih hok

/-- The invariant rule for properties of the state alone. -/
theorem Run.state_invariant {s t : S} {es : List E} {I : S → Prop} (h0 : I s)
    (hstep : ∀ t e, I t → ok t e → I (step t e)) (h : Run step ok s es t) : I t :=
  h.invariant (I := fun _ => I) h0 fun _ => hstep

/-- A weaker condition admits every run that a stronger one admits. -/
theorem Run.imp {s t : S} {es : List E} (himp : ∀ s e, ok s e → ok' s e)
    (h : Run step ok s es t) : Run step ok' s es t := by
  induction h with
  | nil => exact .nil
  | snoc _ hok ih => exact .snoc ih (himp _ _ hok)

/-- The state reached is the fold of the step function over the events. -/
theorem Run.eq_foldl {s t : S} {es : List E} (h : Run step ok s es t) :
    t = es.foldl step s := by
  induction h with
  | nil => rfl
  | snoc _ _ ih => rw [List.foldl_append, ← ih]; rfl

/-- A run may also be extended at its front. -/
theorem Run.cons {s t : S} {e : E} {es : List E} (hok : ok s e)
    (h : Run step ok (step s e) es t) : Run step ok s (e :: es) t := by
  induction h with
  | nil => exact .snoc .nil hok
  | snoc _ hok' ih => exact .snoc ih hok'

/-- Every event of the list meets `ok` in the state it is taken in. -/
def Admits (step : S → E → S) (ok : S → E → Prop) : S → List E → Prop
  | _, [] => True
  | s, e :: es => ok s e ∧ Admits step ok (step s e) es

/-- Folding the step function over admitted events is a run. -/
theorem Run.of_admits {s : S} {es : List E} (h : Admits step ok s es) :
    Run step ok s es (es.foldl step s) := by
  induction es generalizing s with
  | nil => exact .nil
  | cons e es ih => exact .cons h.1 (ih h.2)

/-- Every event of the list meets `ok` in the state that the events before it lead to. -/
theorem admits_iff_prefix {s : S} {es : List E} :
    Admits step ok s es ↔ ∀ es' e, es' ++ [e] <+: es → ok (es'.foldl step s) e := by
  induction es generalizing s with
  | nil => simp [Admits]
  | cons e es ih =>
    constructor
    · rintro ⟨he, hes⟩ es' e' hpre
      cases es' with
      | nil =>
        obtain ⟨rfl, -⟩ := List.cons_prefix_cons.mp hpre
        exact he
      | cons d ds =>
        obtain ⟨rfl, hrest⟩ := List.cons_prefix_cons.mp hpre
        exact ih.mp hes ds e' hrest
    · intro h
      refine ⟨h [] e ⟨es, rfl⟩, ih.mpr fun es' e' hpre => ?_⟩
      exact h (e :: es') e' (List.cons_prefix_cons.mpr ⟨rfl, hpre⟩)

/-- A prefix of admitted events is admitted. -/
theorem Admits.of_prefix {s : S} {es es' : List E} (h : Admits step ok s es) (hpre : es' <+: es) :
    Admits step ok s es' :=
  admits_iff_prefix.mpr fun es'' e hpre' => admits_iff_prefix.mp h es'' e (hpre'.trans hpre)

/-- All but the last of a front part of some events come before the last of them. -/
theorem dropLast_isPrefix {es es' : List E} (h : es <+: es') : es.dropLast <+: es'.dropLast := by
  obtain ⟨rest, rfl⟩ := h
  cases rest with
  | nil => exact ⟨[], by rw [List.append_nil, List.append_nil]⟩
  | cons e rest =>
    rw [List.dropLast_append_of_ne_nil (List.cons_ne_nil _ _)]
    exact (List.dropLast_prefix es).trans (List.prefix_append _ _)

/-- Events are admitted one after the other. -/
theorem admits_append {s : S} {es es' : List E} :
    Admits step ok s (es ++ es') ↔ Admits step ok s es ∧ Admits step ok (es.foldl step s) es' := by
  induction es generalizing s with
  | nil => simp [Admits]
  | cons e es ih =>
    show ok s e ∧ Admits step ok (step s e) (es ++ es') ↔ _
    rw [ih, ← and_assoc]
    exact Iff.rfl

/-- **A property of every state a run passes through.** It holds throughout exactly when every
    event meets `ok`, if steps that meet `ok` keep it and no other step does. -/
theorem admits_iff_forall {s : S} {es : List E} {I J : S → Prop} (h0 : I s)
    (hkeep : ∀ t e, I t → ok t e → I (step t e)) (hIJ : ∀ t, I t → J t)
    (hbreak : ∀ t e, J t → J (step t e) → ok t e) :
    (∀ es', es' <+: es → J (es'.foldl step s)) ↔ Admits step ok s es := by
  constructor
  · intro h
    apply admits_iff_prefix.mpr
    intro es' e hpre
    have hnext := h _ hpre
    rw [List.foldl_append] at hnext
    exact hbreak _ e (h es' ((List.prefix_append es' [e]).trans hpre)) hnext
  · intro h es' hpre
    exact hIJ _ ((Run.of_admits (h.of_prefix hpre)).state_invariant h0 hkeep)

/-- Conditions that agree on every step of a run are met throughout it by the same events. -/
theorem Admits.congr {s : S} {es : List E} {P Q : S → E → Prop} (h : Admits step ok s es)
    (hiff : ∀ t e, ok t e → (P t e ↔ Q t e)) : Admits step P s es ↔ Admits step Q s es := by
  induction es generalizing s with
  | nil => exact Iff.rfl
  | cons e es ih => exact and_congr (hiff s e h.1) (ih h.2)

/-- The same where the conditions agree in the states of an invariant only, up to the last state,
    in which `ok` may fail. -/
theorem Admits.congr_invariant {s : S} {es : List E} {P Q : S → E → Prop} {I : S → Prop}
    (h : Admits step ok s es.dropLast) (h0 : I s)
    (hstep : ∀ t e, I t → ok t e → I (step t e)) (hiff : ∀ t e, I t → (P t e ↔ Q t e)) :
    Admits step P s es ↔ Admits step Q s es := by
  induction es generalizing s with
  | nil => exact Iff.rfl
  | cons e es ih =>
    apply and_congr (hiff s e h0)
    cases es with
    | nil => exact Iff.rfl
    | cons e' es => exact ih h.2 (hstep s e h0 h.1)

/-- **An event on the way.** A run with an event that leads from `I` to `J` ends in `J`, if it starts
    in `I` and every step keeps both. -/
theorem Admits.reaches {s : S} {es : List E} {I J : S → Prop} {a : E} (h : Admits step ok s es)
    (ha : a ∈ es) (hI : I s) (hkeepI : ∀ t e, I t → ok t e → I (step t e))
    (hreach : ∀ t, I t → ok t a → J (step t a))
    (hkeepJ : ∀ t e, J t → ok t e → J (step t e)) : J (es.foldl step s) := by
  obtain ⟨front, rest, rfl⟩ := List.append_of_mem ha
  obtain ⟨hfront, ha, hrest⟩ := admits_append.mp h
  have hthere : I (front.foldl step s) := (Run.of_admits hfront).state_invariant hI hkeepI
  rw [List.foldl_append]
  exact (Run.of_admits hrest).state_invariant (hreach _ hthere ha) hkeepJ

/-- At least `n` of the events meet `P`, each in the state it is taken in. -/
inductive AtLeast (step : S → E → S) (P : S → E → Prop) : Nat → S → List E → Prop
  | zero {s : S} {es : List E} : AtLeast step P 0 s es
  | here {n : Nat} {s : S} {e : E} {es : List E} :
      P s e → AtLeast step P n (step s e) es → AtLeast step P (n + 1) s (e :: es)
  | later {n : Nat} {s : S} {e : E} {es : List E} :
      AtLeast step P n (step s e) es → AtLeast step P n s (e :: es)

/-- Events that come first take nothing away. -/
theorem AtLeast.after {n : Nat} {s : S} {es es' : List E} {P : S → E → Prop}
    (h : AtLeast step P n (es.foldl step s) es') : AtLeast step P n s (es ++ es') := by
  induction es generalizing s with
  | nil => exact h
  | cons e es ih => exact .later (ih h)

/-- The events of two runs that follow each other add up. -/
theorem AtLeast.append {m n : Nat} {s : S} {es es' : List E} {P : S → E → Prop}
    (h : AtLeast step P m s es) (h' : AtLeast step P n (es.foldl step s) es') :
    AtLeast step P (n + m) s (es ++ es') := by
  induction h with
  | zero => exact h'.after
  | here he _ ih => exact .here he (ih h')
  | later _ ih => exact .later (ih h')

/-- **Progress.** A measure that no event lets grow, and that every event of a kind lets shrink, is
    used up by so many events of that kind: the run passes through a state of `J`. -/
theorem AtLeast.reaches {n : Nat} {s : S} {es : List E} {P : S → E → Prop} {I J : S → Prop}
    {μ : S → Nat} (h : AtLeast step P n s es) (hes : Admits step ok s es) (hI : I s) (hn : μ s ≤ n)
    (hpos : ∀ t, I t → 0 < μ t)
    (hstep : ∀ t e, I t → ok t e → J (step t e) ∨ (I (step t e) ∧ μ (step t e) ≤ μ t))
    (hless : ∀ t e, I t → ok t e → P t e → J (step t e) ∨ μ (step t e) < μ t) :
    ∃ front, front <+: es ∧ J (front.foldl step s) := by
  induction h with
  | @zero s => exact absurd (hpos s hI) (by omega)
  | @here n s e es he _ ih =>
    rcases hstep s e hI hes.1 with hJ | ⟨hkept, -⟩
    · exact ⟨[e], List.cons_prefix_cons.mpr ⟨rfl, List.nil_prefix⟩, hJ⟩
    rcases hless s e hI hes.1 he with hJ | hlt
    · exact ⟨[e], List.cons_prefix_cons.mpr ⟨rfl, List.nil_prefix⟩, hJ⟩
    · obtain ⟨front, hpre, hJ⟩ := ih hes.2 hkept (by omega)
      exact ⟨e :: front, List.cons_prefix_cons.mpr ⟨rfl, hpre⟩, hJ⟩
  | @later n s e es _ ih =>
    rcases hstep s e hI hes.1 with hJ | ⟨hkept, hle⟩
    · exact ⟨[e], List.cons_prefix_cons.mpr ⟨rfl, List.nil_prefix⟩, hJ⟩
    · obtain ⟨front, hpre, hJ⟩ := ih hes.2 hkept (by omega)
      exact ⟨e :: front, List.cons_prefix_cons.mpr ⟨rfl, hpre⟩, hJ⟩

/-- Where nothing is asked of the events, all are admitted. -/
theorem admits_true (s : S) (es : List E) : Admits step (fun _ _ => True) s es :=
  admits_iff_prefix.mpr fun _ _ _ => trivial

/-- Every list of events is a run when nothing is asked of its steps. -/
theorem Run.of_foldl (s : S) (es : List E) :
    Run step (fun _ _ => True) s es (es.foldl step s) := by
  refine .of_admits ?_
  induction es generalizing s with
  | nil => trivial
  | cons e es ih => exact ⟨trivial, ih _⟩

end Runs
