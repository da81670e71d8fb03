import Typenet.Connection.Session

namespace Typenet

/-!
# The range in flight

SND.UNA is overwritten with SEG.ACK behind two comparisons.  From SND.UNA they admit the
points up to SND.NXT, and one more: with nothing in flight the antipode of SND.NXT passes
both (`ConnState.ackedUna_cases`).  In ESTABLISHED a plain ACK is checked against SND.NXT
first, but the other arms that process an acknowledgment are not, so `Unambiguous` names the
one acknowledgment that must not arrive there.

Under that condition at most 65535 sequence numbers are in flight before our FIN and 65536
after it (`InFlightInv`), and no handler fails (`InFlightInv.handles`).
-/

variable {σ : Type} {A : Application σ} {rto : RtoConfig} {maxRetries : UInt8} {app : σ}
  {conn conn' : ConnState} {ev : ConnEvent} {seg : TcpSegment .In} {now : Instant}

/-! ### Moving SND.UNA -/

/-- The distance left in flight from a point `k` past SND.UNA. -/
theorem ConnState.dist_sndNxt (conn : ConnState) (una : SeqPoint .Out) :
    una.dist conn.sndNxt
      = (conn.inFlight + (2 ^ 32 - conn.sndUna.dist una)) % 2 ^ 32 :=
  SeqPoint.dist_eq _ _ _

/-- **What an acknowledgment does to SND.UNA** while less than half the circle is in flight:
    it moves forward inside the range in flight, unless nothing is in flight and SEG.ACK is
    the antipode of SND.NXT. -/
theorem ConnState.ackedUna_cases (ackNum : SeqPoint .Out) (hf : conn.inFlight < 2 ^ 31) :
    (conn.sndUna = conn.sndNxt ∧ ackNum = conn.sndNxt + 2 ^ 31) ∨
    (conn.sndUna.dist (conn.ackedUna ackNum) ≤ conn.inFlight ∧
      (conn.ackedUna ackNum).dist conn.sndNxt
        = conn.inFlight - conn.sndUna.dist (conn.ackedUna ackNum)) := by
  unfold ConnState.ackedUna
  split
  case isTrue h =>
    rw [Bool.and_eq_true, ConnState.ackInRange, Bool.and_eq_true, SeqPoint.precedesOrEq_iff,
      SeqPoint.precedesOrEq_iff, SeqPoint.precedes_iff] at h
    obtain ⟨⟨hle, hnxt⟩, hpos, -⟩ := h
    have hd := conn.dist_sndNxt ackNum
    by_cases hk : conn.sndUna.dist ackNum ≤ conn.inFlight
    · refine .inr ⟨hk, ?_⟩
      have hlt := SeqPoint.dist_lt conn.sndUna ackNum
      rw [hd]; omega
    · -- past SND.NXT only the antipode passes, and only with nothing in flight
      rw [hd] at hnxt
      have hzero : conn.inFlight = 0 := by omega
      have hund : conn.sndNxt = conn.sndUna := SeqPoint.dist_eq_zero.mp hzero
      refine .inl ⟨hund.symm, ?_⟩
      rw [hund, ← SeqPoint.dist_inj (a := conn.sndUna), SeqPoint.dist_self_add]
      omega
  case isFalse =>
    refine .inr ⟨by rw [SeqPoint.dist_self]; exact Nat.zero_le _, ?_⟩
    rw [SeqPoint.dist_self]; rfl

/-- The acknowledgment that completes a handshake is the one past the SYN. -/
theorem handshake_ack {una nxt ackNum : SeqPoint .Out} (hnxt : nxt = una + SYN_BYTE)
    (h1 : una.precedes ackNum = true) (h2 : ackNum.precedesOrEq nxt = true) : ackNum = nxt := by
  rw [SeqPoint.precedes_iff] at h1
  rw [SeqPoint.precedesOrEq_iff, SeqPoint.dist_eq una, hnxt, SeqPoint.dist_self_add] at h2
  rw [hnxt, ← SeqPoint.dist_inj (a := una), SeqPoint.dist_self_add]
  have hSYN : SYN_BYTE = 1 := rfl
  omega

/-! ### The invariant -/

/-- The range in flight, by the state of the connection. -/
structure InFlightInv (conn : ConnState) : Prop where
  handshake : conn.name = none → conn.sndNxt = conn.sndUna + SYN_BYTE
  sending : Sending conn.name → conn.inFlight ≤ 65535
  any : conn.inFlight ≤ 65536

/-- No acknowledgment that is processed is the antipode of SND.NXT while nothing is in
    flight. -/
def Unambiguous (conn : ConnState) (ev : ConnEvent) : Prop :=
  ∀ seg now, ev = .segment seg now →
    ¬ (conn.takesAck seg = true ∧ conn.sndUna = conn.sndNxt
      ∧ seg.ackNum = conn.sndNxt + 2 ^ 31)

/-- Taking an acknowledgment only shrinks the range in flight. -/
theorem InFlightInv.ack {una : SeqPoint .Out} {pend : List PendingSegment}
    (h : InFlightInv conn) (hg : Unambiguous conn (.segment seg now))
    (hack : AckStage seg conn una pend) : una.dist conn.sndNxt ≤ conn.inFlight := by
  cases hack with
  | update htakes =>
    have hlt : conn.inFlight < 2 ^ 31 := by have := h.any; omega
    rcases ConnState.ackedUna_cases seg.ackNum hlt with ⟨heq, hanti⟩ | ⟨-, hd⟩
    · exact absurd ⟨htakes, heq, hanti⟩ (hg seg now rfl)
    · omega
  | handshake hst h1 h2 =>
    have hnxt := h.handshake (ConnState.name_eq_none.mpr hst)
    rw [handshake_ack hnxt h1 h2, SeqPoint.dist_self]
    exact Nat.zero_le _

/-- Sending `n` sequence numbers widens the range in flight by `n`. -/
theorem dist_sndNxt_add {una nxt : SeqPoint .Out} {n : Nat} (h : una.dist nxt + n < 2 ^ 32) :
    una.dist (nxt + n) = una.dist nxt + n := by
  rw [SeqPoint.dist_add, Nat.mod_eq_of_lt h]

/-- What the window transmits stays inside the window. -/
theorem Transmits.le_window {w : WindowState} {una nxt : SeqPoint .Out} {buffer left : List UInt8}
    {p : Option TcpPayload} (h : Transmits w una nxt buffer p left) :
    una.dist nxt + TcpPayload.lenOrDefault p ≤ max (una.dist nxt) w.sndWnd.toNat := by
  rw [h.length]; omega

/-- **A step of the send side keeps the bounds.** -/
theorem InFlightInv.sendMove {extra : List UInt8} {reply : Option SendInfo}
    (h : InFlightInv conn) (hg : Unambiguous conn (.segment seg now))
    (hm : SendMove seg now conn extra conn' reply) : InFlightInv conn' := by
  cases hm with
  | idle hsame hextra hq =>
    have hname : conn'.name = conn.name := congrArg TcpState.name hsame.tcpState
    have hfl : conn'.inFlight = conn.inFlight := by
      unfold ConnState.inFlight; rw [hsame.sndUna, hsame.sndNxt]
    refine ⟨fun hn => ?_, fun hs => ?_, ?_⟩
    · rw [hsame.sndNxt, hsame.sndUna]; exact h.handshake (hname ▸ hn)
    · rw [hfl]; exact h.sending (hname ▸ hs)
    · rw [hfl]; exact h.any
  | resend hst hextra hinfo hst' hnxt huna =>
    have hnone : conn.name = none := ConnState.name_eq_none.mpr hst
    have hfl : conn'.inFlight = conn.inFlight := by unfold ConnState.inFlight; rw [huna, hnxt]
    refine ⟨fun _ => ?_, fun _ => ?_, ?_⟩
    · rw [hnxt, huna]; exact h.handshake hnone
    · rw [hfl]; exact h.sending (by rw [hnone]; decide)
    · rw [hfl]; exact h.any
  | ack hack hshift hsync hextra hcw hnxt hbuf hq =>
    have hle : conn'.inFlight ≤ conn.inFlight := by
      unfold ConnState.inFlight; rw [hnxt]; exact h.ack hg hack
    refine ⟨fun hn => absurd hn hsync, fun hs => ?_, le_trans hle h.any⟩
    refine le_trans hle (h.sending ?_)
    by_contra hns
    exact hshift.finSent_iff.mpr hns hs
  | @data w pend p info hack hsend hsilent hname hleft hwin htrans hinfo hnxt hpend =>
    have hle := le_trans (h.ack hg hack) (h.sending hsend)
    have hwnd := htrans.le_window
    have hw : w.sndWnd.toNat < 2 ^ 16 := w.sndWnd.toNat_lt
    have hfl : conn'.inFlight ≤ 65535 := by
      unfold ConnState.inFlight
      rw [hnxt, dist_sndNxt_add (by simp only [TcpPayload.lenOrDefault_some] at hwnd; omega)]
      simp only [TcpPayload.lenOrDefault_some] at hwnd
      omega
    refine ⟨fun hn => ?_, fun _ => hfl, by omega⟩
    rcases hname with h' | h' <;> rw [h'] at hn <;> cases hn
  | @fin w pend p info hack hsend hsilent hname hwin hempty htrans hinfo hnxt hpend =>
    have hle := le_trans (h.ack hg hack) (h.sending hsend)
    have hwnd := htrans.le_window
    have hw : w.sndWnd.toNat < 2 ^ 16 := w.sndWnd.toNat_lt
    have hFIN : FIN_BYTE = 1 := rfl
    have hfl : conn'.inFlight ≤ 65536 := by
      unfold ConnState.inFlight
      rw [hnxt, SeqPoint.add_assoc, dist_sndNxt_add (by omega)]
      omega
    refine ⟨fun hn => absurd (hname.symm.trans hn) nofun, fun hs => ?_, hfl⟩
    exact absurd hs (by rw [hname]; decide)

theorem InFlightInv.step (h : InFlightInv conn) (hg : Unambiguous conn ev)
    (hs : (conn.step A rto maxRetries app ev).conn = some conn') : InFlightInv conn' := by
  have hmove := ConnState.step_move hs
  generalize conn.step A rto maxRetries app ev = out at hmove
  cases hmove with
  | segment hfeed hsend hrecv => exact h.sendMove hg hsend
  | retransmit => exact ⟨h.handshake, h.sending, h.any⟩
  | close hst hinfo =>
    have hsend : Sending conn.name := by unfold ConnState.name; rw [hst]; exact .inl (.inr rfl)
    have hle := h.sending hsend
    have hfl : conn.sndUna.dist (conn.sndNxt + FIN_BYTE) ≤ 65536 := by
      have hFIN : FIN_BYTE = 1 := rfl
      unfold ConnState.inFlight at hle
      rw [dist_sndNxt_add (by omega)]
      omega
    exact ⟨nofun, fun hs => absurd hs (by decide : FinSent (some .FinWait1)), hfl⟩
  | closeIdle => exact h

theorem inFlightInv_opened (iss : SeqPoint .Out) (irs : SeqPoint .In) (t₀ : Instant) :
    InFlightInv (ConnState.opened iss irs t₀) := by
  have hfl : (ConnState.opened iss irs t₀).inFlight = 1 := SeqPoint.dist_self_add iss 1
  exact ⟨fun _ => rfl, fun _ => by omega, by omega⟩

/-- A handler fails only when at least half the circle is in flight. -/
theorem InFlightInv.handles (h : InFlightInv conn) (hg : Unambiguous conn (.segment seg now))
    (A : Application σ) (app : σ) (now : Instant) :
    failed (SendInfo.handleKnownConn A app seg conn now).result = false := by
  by_contra hf
  rcases SendInfo.handleKnownConn_moves A app seg conn now with ⟨reply, hres, -⟩ | ⟨-, hstuck, -⟩
  · rw [hres] at hf; exact hf rfl
  · obtain ⟨una, pend, hack, hsend, hge⟩ := hstuck (by simpa using hf)
    have hle := le_trans (h.ack hg hack) h.any
    omega

end Typenet
