import Mathlib.Algebra.Group.Nat.Defs
import Mathlib.Tactic.Common

namespace Typenet

/-!
# Applications

An application decides what data to send back.  It is a state machine with state type
`σ`: its TCP hook receives a slice of the peer's stream and can only append to the send
buffer, so what it does there is the list of bytes it appends.

* `Application.feed` — a run of the TCP hook over several slices, with everything it
  appended;
* `Application.recorded` — the same application with a log of the slices it was handed
  and of the bytes it appended, which observes a connection without changing it.
-/

/-- Application-level behavior that decides what data to send back over UDP and TCP. -/
structure Application (σ : Type) where
  /-- Decides what to send back in reply to a UDP datagram's payload. -/
  handleUdp : σ → List UInt8 → σ × List UInt8
  /-- Reacts to data arriving on a TCP connection, returning the bytes it appends to the
      send buffer. -/
  handleTcp : σ → List UInt8 → σ × List UInt8

variable {σ : Type}

/-- The TCP hook on a list of slices in order, with all bytes it appends. -/
def Application.feed (A : Application σ) (st : σ) : List (List UInt8) → σ × List UInt8
  | [] => (st, [])
  | data :: rest =>
    let (st', out) := A.handleTcp st data
    let (st'', outs) := A.feed st' rest
    (st'', out ++ outs)

@[simp] theorem Application.feed_nil (A : Application σ) (st : σ) : A.feed st [] = (st, []) :=
  rfl

theorem Application.feed_cons (A : Application σ) (st : σ) (data : List UInt8)
    (rest : List (List UInt8)) :
    A.feed st (data :: rest) = ((A.feed (A.handleTcp st data).1 rest).1,
      (A.handleTcp st data).2 ++ (A.feed (A.handleTcp st data).1 rest).2) := rfl

theorem Application.feed_append (A : Application σ) (st : σ) (xs ys : List (List UInt8)) :
    A.feed st (xs ++ ys) = ((A.feed (A.feed st xs).1 ys).1,
      (A.feed st xs).2 ++ (A.feed (A.feed st xs).1 ys).2) := by
  induction xs generalizing st with
  | nil => simp
  | cons x xs ih =>
    rw [List.cons_append, feed_cons, feed_cons, ih]
    simp only [List.append_assoc]

/-! ### Recording what an application sees and says -/

/-- An application's state together with the slices it was handed and the bytes it
    appended since the log began. -/
structure Recorded (σ : Type) where
  inner : σ
  received : List (List UInt8) := []
  appended : List UInt8 := []
  deriving DecidableEq

/-- The application `A`, logging every call of its TCP hook. -/
def Application.recorded (A : Application σ) : Application (Recorded σ) where
  handleUdp r data :=
    let (st, out) := A.handleUdp r.inner data
    ({ r with inner := st }, out)
  handleTcp r data :=
    let (st, out) := A.handleTcp r.inner data
    ({ inner := st, received := r.received ++ [data], appended := r.appended ++ out }, out)

/-- **The log is exact.** Feeding slices to the recorded application logs those slices and
    the bytes the application appended for them, in order. -/
theorem Application.feed_recorded (A : Application σ) (r : Recorded σ)
    (xs : List (List UInt8)) :
    (A.recorded.feed r xs).1.received = r.received ++ xs ∧
      (A.recorded.feed r xs).1.appended = r.appended ++ (A.recorded.feed r xs).2 := by
  induction xs generalizing r with
  | nil => simp
  | cons x xs ih =>
    rw [feed_cons]
    obtain ⟨hrec, happ⟩ := ih (A.recorded.handleTcp r x).1
    simp only [hrec, happ]
    simp [recorded]

end Typenet
