import Mathlib.Data.List.Basic
import Mathlib.Data.List.Infix

namespace Stream

/-!
# Pieces of a stream

A stream is a list; the piece of `s` at offset `o` is a prefix of `s.drop o`.  A receiver
that holds pieces ahead of its position releases them as a *greedy chain*:

* `take_append_piece` — the piece at the current position extends what was received;
* `Chain held n outs m` — starting at `n`, repeatedly taking a held piece that starts at
  the current position yields `outs` and stops at `m`, where none starts;
* `Chain.take_eq` — if everything held is a piece of `s`, the chain extends what was
  received from `s.take n` to `s.take m`.
-/

variable {α : Type*}

/-- Receiving the piece at offset `n` extends the first `n` elements. -/
theorem take_append_piece {s p : List α} {n : Nat} (h : p <+: s.drop n) :
    s.take n ++ p = s.take (n + p.length) := by
  rw [List.take_add, ← List.prefix_iff_eq_take.mp h]

/-- A non-empty piece lies inside the stream. -/
theorem piece_le {s p : List α} {n : Nat} (h : p <+: s.drop n) (hp : p ≠ []) :
    n + p.length ≤ s.length := by
  have hlen := h.length_le
  have hpos := List.length_pos_of_ne_nil hp
  rw [List.length_drop] at hlen
  omega

/-- A piece of a stream is a piece of every stream that continues it. -/
theorem piece_mono {s s' p : List α} {n : Nat} (hs : s <+: s') (h : p <+: s.drop n) :
    p <+: s'.drop n :=
  h.trans (hs.drop n)

/-- The greedy chain of held pieces from position `n`. -/
inductive Chain (held : List (Nat × List α)) : Nat → List (List α) → Nat → Prop
  | stop {n : Nat} : (∀ p, (n, p) ∉ held) → Chain held n [] n
  | take {n m : Nat} {p : List α} {outs : List (List α)} :
      (n, p) ∈ held → Chain held (n + p.length) outs m → Chain held n (p :: outs) m

theorem Chain.le {held : List (Nat × List α)} {n m : Nat} {outs : List (List α)}
    (h : Chain held n outs m) : n ≤ m := by
  induction h with
  | stop => exact le_refl _
  | take _ _ ih => omega

/-- The chain does not leave a range that it starts in and that holds every piece. -/
theorem Chain.le_of_forall {held : List (Nat × List α)} {n m b : Nat} {outs : List (List α)}
    (hb : ∀ o p, (o, p) ∈ held → o + p.length ≤ b) (hn : n ≤ b) (h : Chain held n outs m) :
    m ≤ b := by
  induction h with
  | stop => exact hn
  | take hmem _ ih => exact ih (hb _ _ hmem)

/-- The chain stops where no held piece starts. -/
theorem Chain.stops {held : List (Nat × List α)} {n m : Nat} {outs : List (List α)}
    (h : Chain held n outs m) : ∀ p, (m, p) ∉ held := by
  induction h with
  | stop hno => exact hno
  | take _ _ ih => exact ih

/-- Chains only look at pieces from their start on, so two buffers that agree from there
    have the same chains. -/
theorem Chain.congr {held held' : List (Nat × List α)} {n m : Nat} {outs : List (List α)}
    (heq : ∀ o p, n ≤ o → ((o, p) ∈ held ↔ (o, p) ∈ held')) (h : Chain held n outs m) :
    Chain held' n outs m := by
  induction h with
  | stop hno => exact .stop fun p hp => hno p ((heq _ p (le_refl _)).mpr hp)
  | take hmem _ ih =>
    exact .take ((heq _ _ (le_refl _)).mp hmem) (ih fun o p ho => heq o p (by omega))

/-- **The chain delivers the stream.** When every held piece is a piece of `s`, the chain
    from `n` delivers exactly the elements of `s` from `n` up to where it stops. -/
theorem Chain.take_eq {s : List α} {held : List (Nat × List α)} {n m : Nat}
    {outs : List (List α)} (hs : ∀ o p, (o, p) ∈ held → p <+: s.drop o)
    (h : Chain held n outs m) : s.take n ++ outs.flatten = s.take m := by
  induction h with
  | stop => simp
  | take hmem _ ih =>
    rw [List.flatten_cons, ← List.append_assoc, take_append_piece (hs _ _ hmem), ih]

/-- A chain of non-empty pieces of `s` that starts inside `s` stops inside `s`. -/
theorem Chain.le_length {s : List α} {held : List (Nat × List α)} {n m : Nat}
    {outs : List (List α)} (hs : ∀ o p, (o, p) ∈ held → p <+: s.drop o ∧ p ≠ [])
    (hn : n ≤ s.length) (h : Chain held n outs m) : m ≤ s.length := by
  induction h with
  | stop => exact hn
  | take hmem _ ih => exact ih (piece_le (hs _ _ hmem).1 (hs _ _ hmem).2)

/-- A list that agrees with `s` on every position up to the end of `s` is a front part of `s`. -/
theorem prefix_of_agree {s xs : List α}
    (h : ∀ k x, k ≤ s.length → xs[k]? = some x → s[k]? = some x) : xs <+: s := by
  -- an element behind the end of `s` would have to be in `s`
  have hle : xs.length ≤ s.length := by
    by_contra hlong
    have hlt : s.length < xs.length := by omega
    have hmore := h s.length xs[s.length] (Nat.le_refl _) (List.getElem?_eq_getElem hlt)
    rw [List.getElem?_eq_none (Nat.le_refl _)] at hmore
    cases hmore
  rw [List.prefix_iff_getElem?]
  intro k hk
  exact h k xs[k] (by omega) (List.getElem?_eq_getElem hk)

end Stream
