import Typenet.Connection.Session

namespace Typenet

/-!
# Recording changes nothing

A map `f` between the states of two applications *observes* the first through the second
when their TCP hooks append the same bytes and `f` follows the states.  Every handler, and
so every step of a connection, commutes with an observation (`Observes.step`).  The recorded
application is observed by its `inner` state, so a session's history describes the very
steps that the application itself takes.
-/

variable {σ τ : Type}

/-- `f` follows the TCP hook of `B` in that of `A`. -/
structure Observes (f : τ → σ) (B : Application τ) (A : Application σ) : Prop where
  state : ∀ t data, f (B.handleTcp t data).1 = (A.handleTcp (f t) data).1
  output : ∀ t data, (B.handleTcp t data).2 = (A.handleTcp (f t) data).2

/-- The recorded application is observed by the state it wraps. -/
theorem observes_recorded (A : Application σ) : Observes Recorded.inner A.recorded A :=
  ⟨fun _ _ => rfl, fun _ _ => rfl⟩

namespace Observes

variable {f : τ → σ} {B : Application τ} {A : Application σ}

/-- An observed application is fed as the other is. -/
theorem feed (h : Observes f B A) (t : τ) (xs : List (List UInt8)) :
    A.feed (f t) xs = (f (B.feed t xs).1, (B.feed t xs).2) := by
  induction xs generalizing t with
  | nil => rfl
  | cons x xs ih =>
    rw [Application.feed_cons, Application.feed_cons, ← h.state, ← h.output, ih]

/-- What a handler leaves behind, seen through `f`. -/
def image (f : τ → σ) (out : Handled τ) : Handled σ := ⟨f out.app, out.conn, out.result⟩

/-- Delivering a payload commutes with the observation. -/
theorem deliverPayload (h : Observes f B A) (t : τ) (conn : ConnState)
    (p : Option TcpPayload) :
    SendInfo.deliverPayload A (f t) conn p = (f (SendInfo.deliverPayload B t conn p).1,
      (SendInfo.deliverPayload B t conn p).2) := by
  rw [SendInfo.deliverPayload_eq, SendInfo.deliverPayload_eq, h.feed]

/-- So does delivering from reassembly. -/
theorem deliverReassembled (h : Observes f B A) (t : τ) (conn : ConnState) :
    SendInfo.deliverReassembled A (f t) conn = (f (SendInfo.deliverReassembled B t conn).1,
      (SendInfo.deliverReassembled B t conn).2) := by
  rw [SendInfo.deliverReassembled_eq A (f t) conn rfl,
    SendInfo.deliverReassembled_eq B t conn rfl, h.feed]

/-- So does closing on a FIN in order. -/
theorem closeOnInOrderFin (h : Observes f B A) (t : τ) (seg : TcpSegment .In)
    (conn : ConnState) (p : Option TcpPayload) (est : SyncedState .Established) (now : Instant) :
    SendInfo.closeOnInOrderFin A (f t) seg conn p est now
      = image f (SendInfo.closeOnInOrderFin B t seg conn p est now) := by
  unfold SendInfo.closeOnInOrderFin
  rw [h.deliverPayload]; rfl

/-- The reply after a delivery only carries the application along. -/
theorem replyAfterDelivery (t : τ) (conn : ConnState) (est : SyncedState .Established)
    (now : Instant) :
    SendInfo.replyAfterDelivery (f t) conn est now
      = image f (SendInfo.replyAfterDelivery t conn est now) := by
  unfold SendInfo.replyAfterDelivery
  split
  · rfl
  · simp only
    split <;> rfl

/-- SYN-RECEIVED commutes with the observation. -/
theorem handleSynRcv (h : Observes f B A) (t : τ) (seg : TcpSegment .In) (conn : ConnState)
    (now : Instant) :
    SendInfo.handleSynRcv A (f t) seg conn now
      = image f (SendInfo.handleSynRcv B t seg conn now) := by
  unfold SendInfo.handleSynRcv
  simp only [h.deliverPayload, h.deliverReassembled, h.closeOnInOrderFin, replyAfterDelivery]
  split
  case h_2 => split <;> rfl
  all_goals rfl

/-- ESTABLISHED commutes with the observation. -/
theorem handleEstablished (h : Observes f B A) (t : τ) (seg : TcpSegment .In)
    (conn : ConnState) (est : SyncedState .Established) (now : Instant) :
    SendInfo.handleEstablished A (f t) seg conn est now
      = image f (SendInfo.handleEstablished B t seg conn est now) := by
  unfold SendInfo.handleEstablished
  simp only [h.deliverPayload, h.deliverReassembled, h.closeOnInOrderFin, replyAfterDelivery]
  split
  · rfl
  · split
    case h_1 => split <;> rfl
    case h_2 => split <;> rfl
    all_goals rfl

/-- **Every handler** commutes with the observation. -/
theorem handleKnownConn (h : Observes f B A) (t : τ) (seg : TcpSegment .In)
    (conn : ConnState) (now : Instant) :
    SendInfo.handleKnownConn A (f t) seg conn now
      = image f (SendInfo.handleKnownConn B t seg conn now) := by
  unfold SendInfo.handleKnownConn
  split
  case h_1 => exact h.handleSynRcv t seg conn now
  case h_2 est hst => exact h.handleEstablished t seg conn est now
  all_goals rfl

/-- **Every step commutes with an observation.** -/
theorem step (h : Observes f B A) (rto : RtoConfig) (maxRetries : UInt8) (t : τ)
    (conn : ConnState) (ev : ConnEvent) :
    conn.step A rto maxRetries (f t) ev
      = { app := f (conn.step B rto maxRetries t ev).app
          conn := (conn.step B rto maxRetries t ev).conn
          sent := (conn.step B rto maxRetries t ev).sent
          resent := (conn.step B rto maxRetries t ev).resent } := by
  cases ev with
  | segment seg now =>
    unfold ConnState.step
    simp only [h.handleKnownConn]; rfl
  | retransmit now late =>
    unfold ConnState.step
    simp only
    split <;> rfl
  | close now =>
    unfold ConnState.step
    simp only
    split <;> rfl

end Observes

end Typenet
