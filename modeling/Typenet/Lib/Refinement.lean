import Typenet.Lib.Mealy
import Typenet.Lib.Runs

namespace Mealy

/-!
# One machine in terms of another

A machine refines another one when each of its events stands for a list of the other's events: the
other machine, run over that list, goes to the image of the new state, and what it hands out is
what can be observed of the outputs.  Both machines hand out lists, so an event may be answered by
nothing.

* `Refines` — the obligation for one event, under a condition on events and an invariant of states;
* `Refines.run` — what it gives for runs;
* `Refines.isPrefix` — a run whose last event may be cut short;
* `Refines.admits`, `Refines.atLeast` — conditions on the events of a run, and progress, carry over;
* `Refines.comp` — refinements compose.
-/

variable {S E O S' E' O' S'' E'' O'' : Type*}

/-- Everything a run hands out, in order. -/
def outputs (step : S → E → List O × S) (es : List E) (s : S) : List O := (run step es s).1.flatten

@[simp] theorem outputs_nil (step : S → E → List O × S) (s : S) : outputs step [] s = [] := rfl

theorem outputs_cons (step : S → E → List O × S) (e : E) (es : List E) (s : S) :
    outputs step (e :: es) s = (step s e).1 ++ outputs step es (step s e).2 := by
  rw [outputs, run_cons, List.flatten_cons]
  rfl

theorem outputs_append (step : S → E → List O × S) (es es' : List E) (s : S) :
    outputs step (es ++ es') s = outputs step es s ++ outputs step es' (run step es s).2 := by
  rw [outputs, run_append, List.flatten_append]
  rfl

/-- A front part of a run hands out a front part of what the run does. -/
theorem outputs_isPrefix (step : S → E → List O × S) {es es' : List E} (h : es <+: es') (s : S) :
    outputs step es s <+: outputs step es' s := by
  obtain ⟨rest, rfl⟩ := h
  rw [outputs_append]
  exact List.prefix_append _ _

/-- The state that a run reaches is the fold of the state component of the step. -/
theorem run_state (step : S → E → O × S) (es : List E) (s : S) :
    (run step es s).2 = es.foldl (fun s e => (step s e).2) s := by
  induction es generalizing s with
  | nil => rfl
  | cons e es ih => rw [run_cons, List.foldl_cons, ih]

/-- Whatever a run hands out is handed out by one of its events. -/
theorem mem_outputs {step : S → E → List O × S} {es : List E} {s : S} {x : O}
    (h : x ∈ outputs step es s) :
    ∃ front e, front ++ [e] <+: es ∧ x ∈ (step (run step front s).2 e).1 := by
  induction es generalizing s with
  | nil => cases h
  | cons e es ih =>
    rw [outputs_cons] at h
    rcases List.mem_append.mp h with hhere | hlater
    · exact ⟨[], e, ⟨es, rfl⟩, hhere⟩
    · obtain ⟨front, e₀, hpre, hmem⟩ := ih hlater
      exact ⟨e :: front, e₀, List.cons_prefix_cons.mpr ⟨rfl, hpre⟩, hmem⟩

/-- The events that the events of a run stand for, each in the state it is taken in. -/
def translate (step : S → E → O × S) (g : S → E → List E') : List E → S → List E'
  | [], _ => []
  | e :: es, s => g s e ++ translate step g es (step s e).2

theorem translate_append (step : S → E → O × S) (g : S → E → List E') (es es' : List E) (s : S) :
    translate step g (es ++ es') s
      = translate step g es s ++ translate step g es' (run step es s).2 := by
  induction es generalizing s with
  | nil => rfl
  | cons e es ih =>
    rw [List.cons_append, translate, translate, ih, run_cons, List.append_assoc]

/-- The events that a front part of a run stands for come first. -/
theorem translate_isPrefix (step : S → E → O × S) (g : S → E → List E') {es es' : List E}
    (h : es <+: es') (s : S) : translate step g es s <+: translate step g es' s := by
  obtain ⟨rest, rfl⟩ := h
  rw [translate_append]
  exact List.prefix_append _ _

/-- An event found in a translation stands for an event of the run. -/
theorem mem_translate {step : S → E → O × S} {g : S → E → List E'} {es : List E} {s : S} {e' : E'}
    (h : e' ∈ translate step g es s) :
    ∃ front e, front ++ [e] <+: es ∧ e' ∈ g (run step front s).2 e := by
  induction es generalizing s with
  | nil => cases h
  | cons e es ih =>
    rcases List.mem_append.mp h with hhere | hlater
    · exact ⟨[], e, ⟨es, rfl⟩, hhere⟩
    · obtain ⟨front, e₀, hpre, hmem⟩ := ih hlater
      exact ⟨e :: front, e₀, List.cons_prefix_cons.mpr ⟨rfl, hpre⟩, hmem⟩

/-- The machine `step` refines `step'`: `abs` maps its states, `g` its events, and `o` says what of
    its outputs can be observed. -/
structure Refines (step : S → E → List O × S) (step' : S' → E' → List O' × S')
    (ok : S → E → Prop) (I : S → Prop) (abs : S → S') (g : S → E → List E') (o : O → Option O') :
    Prop where
  keeps : ∀ s e, I s → ok s e → I (step s e).2
  state : ∀ s e, I s → ok s e → (run step' (g s e) (abs s)).2 = abs (step s e).2
  outputs : ∀ s e, I s → ok s e → outputs step' (g s e) (abs s) = (step s e).1.filterMap o

variable {step : S → E → List O × S} {step' : S' → E' → List O' × S'}
  {step'' : S'' → E'' → List O'' × S''} {ok : S → E → Prop} {ok' : S' → E' → Prop} {I : S → Prop}
  {I' : S' → Prop} {abs : S → S'} {abs' : S' → S''} {g : S → E → List E'} {g' : S' → E' → List E''}
  {o : O → Option O'} {o' : O' → Option O''}

/-- **Refinement of runs.** -/
theorem Refines.run (h : Refines step step' ok I abs g o) {es : List E} {s : S} (hI : I s)
    (hok : Runs.Admits (fun s e => (step s e).2) ok s es) :
    (run step' (translate step g es s) (abs s)).2 = abs (run step es s).2 ∧
      Mealy.outputs step' (translate step g es s) (abs s)
        = (Mealy.outputs step es s).filterMap o ∧
      I (run step es s).2 := by
  induction es generalizing s with
  | nil => exact ⟨rfl, rfl, hI⟩
  | cons e es ih =>
    obtain ⟨he, hes⟩ := hok
    obtain ⟨hstate, hout, hlast⟩ := ih (h.keeps s e hI he) hes
    refine ⟨?_, ?_, hlast⟩
    · rw [translate, run_append, h.state s e hI he]
      exact hstate
    · rw [translate, outputs_append, h.outputs s e hI he, h.state s e hI he, hout, outputs_cons,
        List.filterMap_append]

/-- **A last event that is cut short.**  What a run hands out begins what the other machine hands
    out, if that holds of a single event: only the last one need not meet `ok`. -/
theorem Refines.isPrefix (h : Refines step step' ok I abs g o)
    (hlast : ∀ s e, I s → (step s e).1.filterMap o <+: Mealy.outputs step' (g s e) (abs s))
    {es : List E} {s : S} (hI : I s)
    (hok : Runs.Admits (fun s e => (step s e).2) ok s es.dropLast) :
    (Mealy.outputs step es s).filterMap o
      <+: Mealy.outputs step' (translate step g es s) (abs s) := by
  induction es generalizing s with
  | nil => exact List.nil_prefix
  | cons e es ih =>
    cases es with
    | nil =>
      rw [outputs_cons, outputs_nil, List.append_nil, translate, translate, List.append_nil]
      exact hlast s e hI
    | cons e' es =>
      obtain ⟨he, hrest⟩ := hok
      rw [outputs_cons, List.filterMap_append, translate, outputs_append, h.outputs s e hI he,
        h.state s e hI he]
      exact (List.prefix_append_right_inj _).mpr (ih (h.keeps s e hI he) hrest)

/-- What every event asks of the events it stands for is asked of all that the run stands for; the
    last one need not meet `ok`. -/
theorem Refines.admits (h : Refines step step' ok I abs g o) {P : S → E → Prop}
    {P' : S' → E' → Prop}
    (hP : ∀ s e, I s → P s e → Runs.Admits (fun s e => (step' s e).2) P' (abs s) (g s e))
    {es : List E} {s : S} (hI : I s)
    (hok : Runs.Admits (fun s e => (step s e).2) ok s es.dropLast)
    (hes : Runs.Admits (fun s e => (step s e).2) P s es) :
    Runs.Admits (fun s e => (step' s e).2) P' (abs s) (translate step g es s) := by
  induction es generalizing s with
  | nil => trivial
  | cons e es ih =>
    refine Runs.admits_append.mpr ⟨hP s e hI hes.1, ?_⟩
    cases es with
    | nil => trivial
    | cons e' es =>
      obtain ⟨he, hrest⟩ := hok
      rw [← run_state, h.state s e hI he]
      exact ih (h.keeps s e hI he) hrest hes.2

/-- **Progress carries over.** Where each event that meets `P` stands for one that meets `P'`, as many
    of the other machine's events do, unless that machine comes by a state of `J`, in which nothing
    is asked of the events. -/
theorem Refines.atLeast (h : Refines step step' ok I abs g o) {P : S → E → Prop}
    {P' : S' → E' → Prop} {J : S' → Prop}
    (hP : ∀ s e, I s → ok s e → P s e →
      J (abs s) ∨ Runs.AtLeast (fun s e => (step' s e).2) P' 1 (abs s) (g s e))
    {n : Nat} {es : List E} {s : S} (hes : Runs.AtLeast (fun s e => (step s e).2) P n s es)
    (hI : I s) (hok : Runs.Admits (fun s e => (step s e).2) ok s es) :
    (∃ front, front <+: translate step g es s ∧
        J (front.foldl (fun s e => (step' s e).2) (abs s))) ∨
      Runs.AtLeast (fun s e => (step' s e).2) P' n (abs s) (translate step g es s) := by
  -- a state of `J` later on is one of the whole run
  have hlater : ∀ {s e es}, I s → ok s e →
      (∃ front, front <+: translate step g es (step s e).2 ∧
        J (front.foldl (fun s e => (step' s e).2) (abs (step s e).2))) →
      ∃ front, front <+: translate step g (e :: es) s ∧
        J (front.foldl (fun s e => (step' s e).2) (abs s)) := by
    rintro s e es hI he ⟨front, hpre, hJ⟩
    refine ⟨g s e ++ front, (List.prefix_append_right_inj _).mpr hpre, ?_⟩
    rw [List.foldl_append, ← run_state step' (g s e), h.state s e hI he]
    exact hJ
  induction hes with
  | zero => exact .inr .zero
  | @here n s e es hPe _ ih =>
    have hnext := h.state s e hI hok.1
    rw [run_state] at hnext
    rcases hP s e hI hok.1 hPe with hJ | hone
    · exact .inl ⟨[], List.nil_prefix, hJ⟩
    rcases ih (h.keeps s e hI hok.1) hok.2 with hJ | hrest
    · exact .inl (hlater hI hok.1 hJ)
    · exact .inr (hone.append (hnext ▸ hrest))
  | @later n s e es _ ih =>
    have hnext := h.state s e hI hok.1
    rw [run_state] at hnext
    rcases ih (h.keeps s e hI hok.1) hok.2 with hJ | hrest
    · exact .inl (hlater hI hok.1 hJ)
    · exact .inr (Runs.AtLeast.after (hnext ▸ hrest))

/-- **Refinements compose**, where the events of the middle machine that come up are admitted. -/
theorem Refines.comp (h : Refines step step' ok I abs g o) (h' : Refines step' step'' ok' I' abs' g' o')
    (hok : ∀ s e, I s → ok s e → Runs.Admits (fun s e => (step' s e).2) ok' (abs s) (g s e)) :
    Refines step step'' ok (fun s => I s ∧ I' (abs s)) (abs' ∘ abs)
      (fun s e => translate step' g' (g s e) (abs s)) (fun x => (o x).bind o') where
  keeps s e hs he := by
    obtain ⟨hI, hI'⟩ := hs
    have hrun := h'.run hI' (hok s e hI he)
    rw [h.state s e hI he] at hrun
    exact ⟨h.keeps s e hI he, hrun.2.2⟩
  state s e hs he := by
    have hrun := h'.run hs.2 (hok s e hs.1 he)
    rw [Function.comp_apply, hrun.1, h.state s e hs.1 he]
    rfl
  outputs s e hs he := by
    have hrun := h'.run hs.2 (hok s e hs.1 he)
    rw [Function.comp_apply, hrun.2.1, h.outputs s e hs.1 he, List.filterMap_filterMap]

end Mealy
