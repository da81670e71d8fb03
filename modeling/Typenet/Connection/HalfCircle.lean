import Typenet.Connection.InFlight

namespace Typenet

/-!
# Half the circle in flight

Without any condition on the segments that arrive, an acknowledgment can leave exactly half
the circle in flight, and never more (`HalfInv`).  The conversion of the range in flight then
fails, in a handler that has already changed the connection.

`tears_of_failed` says which segments fail in such a connection, and `failed_unchanged_iff`
which of those have changed something by then.
-/

open SendInfo

variable {σ : Type} {A : Application σ} {rto : RtoConfig} {maxRetries : UInt8} {app : σ}
  {conn conn' : ConnState} {ev : ConnEvent} {seg : TcpSegment .In} {now : Instant}

/-! ### The invariant of all runs -/

/-- At most half the circle is in flight while data may still be sent. -/
structure HalfInv (conn : ConnState) : Prop where
  handshake : conn.name = none → conn.sndNxt = conn.sndUna + SYN_BYTE
  sending : Sending conn.name → conn.inFlight ≤ 2 ^ 31

/-- Taking an acknowledgment leaves at most half the circle in flight. -/
theorem HalfInv.ack {una : SeqPoint .Out} {pend : List PendingSegment} (h : HalfInv conn)
    (hsend : Sending conn.name) (hack : AckStage seg conn una pend) :
    una.dist conn.sndNxt ≤ 2 ^ 31 := by
  cases hack with
  | update htakes =>
    unfold ConnState.ackedUna
    split
    case isTrue hcond =>
      rw [Bool.and_eq_true, ConnState.ackInRange, Bool.and_eq_true] at hcond
      exact (SeqPoint.precedesOrEq_iff _ _).mp hcond.1.2
    case isFalse => exact h.sending hsend
  | handshake hst h1 h2 =>
    rw [handshake_ack (h.handshake (ConnState.name_eq_none.mpr hst)) h1 h2, SeqPoint.dist_self]
    exact Nat.zero_le _

theorem HalfInv.sendMove {extra : List UInt8} {reply : Option SendInfo} (h : HalfInv conn)
    (hm : SendMove seg now conn extra conn' reply) : HalfInv conn' := by
  cases hm with
  | idle hsame hextra hq =>
    have hname : conn'.name = conn.name := congrArg TcpState.name hsame.tcpState
    have hfl : conn'.inFlight = conn.inFlight := by
      unfold ConnState.inFlight; rw [hsame.sndUna, hsame.sndNxt]
    refine ⟨fun hn => ?_, fun hs => ?_⟩
    · rw [hsame.sndNxt, hsame.sndUna]; exact h.handshake (hname ▸ hn)
    · rw [hfl]; exact h.sending (hname ▸ hs)
  | resend hst hextra hinfo hst' hnxt huna =>
    have hnone : conn.name = none := ConnState.name_eq_none.mpr hst
    have hfl : conn'.inFlight = conn.inFlight := by unfold ConnState.inFlight; rw [huna, hnxt]
    refine ⟨fun _ => ?_, fun _ => ?_⟩
    · rw [hnxt, huna]; exact h.handshake hnone
    · rw [hfl]; exact h.sending (by rw [hnone]; decide)
  | ack hack hshift hsync hextra hcw hnxt hbuf hq =>
    refine ⟨fun hn => absurd hn hsync, fun hs => ?_⟩
    have hsend : Sending conn.name := by
      by_contra hns
      exact hshift.finSent_iff.mpr hns hs
    unfold ConnState.inFlight
    rw [hnxt]
    exact h.ack hsend hack
  | @data w pend p info hack hsend hsilent hname hleft hwin htrans hinfo hnxt hpend =>
    have hlt := htrans.inFlight
    have hwnd := htrans.le_window
    have hw : w.sndWnd.toNat < 2 ^ 16 := w.sndWnd.toNat_lt
    rw [TcpPayload.lenOrDefault_some] at hwnd
    refine ⟨fun hn => ?_, fun _ => ?_⟩
    · rcases hname with h' | h' <;> rw [h'] at hn <;> cases hn
    · unfold ConnState.inFlight
      rw [hnxt, dist_sndNxt_add (by omega)]
      omega
  | fin hack hsend hsilent hname =>
    exact ⟨fun hn => absurd (hname.symm.trans hn) nofun,
      fun hs => absurd hs (by rw [hname]; decide)⟩

/-- **Every step keeps the invariant.** -/
theorem HalfInv.step (h : HalfInv conn)
    (hs : (conn.step A rto maxRetries app ev).conn = some conn') : HalfInv conn' := by
  have hmove := ConnState.step_move hs
  generalize conn.step A rto maxRetries app ev = out at hmove
  cases hmove with
  | segment hfeed hsend hrecv => exact h.sendMove hsend
  | retransmit => exact ⟨h.handshake, h.sending⟩
  | close hst hinfo => exact ⟨nofun, fun hs => absurd hs (by decide : FinSent (some .FinWait1))⟩
  | closeIdle => exact h

theorem halfInv_opened (iss : SeqPoint .Out) (irs : SeqPoint .In) (t₀ : Instant) :
    HalfInv (ConnState.opened iss irs t₀) := by
  have hfl : (ConnState.opened iss irs t₀).inFlight = 1 := SeqPoint.dist_self_add iss 1
  exact ⟨fun _ => rfl, fun _ => by omega⟩

/-! ### Acknowledgments that leave half the circle in flight -/

/-- The acknowledgment is the antipode of SND.NXT while nothing is in flight. -/
def Antipodal (conn : ConnState) (ackNum : SeqPoint .Out) : Prop :=
  conn.sndUna = conn.sndNxt ∧ ackNum = conn.sndNxt + 2 ^ 31

/-- Half the circle is in flight already, and the acknowledgment does not move SND.UNA. -/
def StaysHalf (conn : ConnState) (ackNum : SeqPoint .Out) : Prop :=
  conn.sndUna.dist conn.sndNxt = 2 ^ 31 ∧ conn.sndUna.precedes ackNum = false

/-- The antipode of SND.NXT moves SND.UNA to half the circle before it. -/
theorem Antipodal.acked {ackNum : SeqPoint .Out} (h : Antipodal conn ackNum) :
    conn.ackedUna ackNum = ackNum ∧ ackNum.dist conn.sndNxt = 2 ^ 31 ∧ ackNum ≠ conn.sndUna := by
  obtain ⟨huna, rfl⟩ := h
  have hfwd : conn.sndNxt.dist (conn.sndNxt + 2 ^ 31) = 2 ^ 31 := SeqPoint.dist_self_add _ _
  have hback : (conn.sndNxt + 2 ^ 31).dist conn.sndNxt = 2 ^ 31 := by
    rw [SeqPoint.dist_eq conn.sndNxt, hfwd, SeqPoint.dist_self]
    rfl
  refine ⟨if_pos ?_, hback, ?_⟩
  · rw [Bool.and_eq_true, ConnState.ackInRange, Bool.and_eq_true, SeqPoint.precedesOrEq_iff,
      SeqPoint.precedesOrEq_iff, SeqPoint.precedes_iff, huna, hfwd, hback]
    omega
  · rw [huna]
    exact SeqPoint.add_ne _ (by omega) (by omega)

/-- An acknowledgment that does not move SND.UNA changes nothing. -/
theorem StaysHalf.acked {ackNum : SeqPoint .Out} (h : StaysHalf conn ackNum) :
    conn.acked ackNum = conn := by
  unfold ConnState.acked ConnState.ackedUna ConnState.ackedPending
  simp only [h.2, Bool.and_false]
  rfl

/-- **Which acknowledgments leave half the circle in flight.** -/
theorem ackedUna_half_iff {ackNum : SeqPoint .Out} (hle : conn.inFlight ≤ 2 ^ 31) :
    2 ^ 31 ≤ (conn.ackedUna ackNum).dist conn.sndNxt ↔
      Antipodal conn ackNum ∨ StaysHalf conn ackNum := by
  constructor
  · intro hge
    rcases Nat.lt_or_ge conn.inFlight (2 ^ 31) with hlt | hhalf
    · rcases ConnState.ackedUna_cases ackNum hlt with hanti | ⟨-, hd⟩
      · exact .inl hanti
      · omega
    · -- half the circle is in flight: an acknowledgment that precedes SND.NXT shrinks it
      have heq : conn.sndUna.dist conn.sndNxt = 2 ^ 31 := Nat.le_antisymm hle hhalf
      refine .inr ⟨heq, ?_⟩
      by_contra hprec
      rw [Bool.not_eq_false] at hprec
      have hpos := (SeqPoint.precedes_iff _ _).mp hprec
      have hd := conn.dist_sndNxt ackNum
      unfold ConnState.inFlight at hd
      have hmoved : conn.ackedUna ackNum = ackNum := if_pos (by
        rw [Bool.and_eq_true, ConnState.ackInRange, Bool.and_eq_true,
          SeqPoint.precedesOrEq_iff, SeqPoint.precedesOrEq_iff]
        exact ⟨⟨by omega, by omega⟩, hprec⟩)
      rw [hmoved] at hge
      omega
  · rintro (hanti | hstay)
    · obtain ⟨hacked, hd, -⟩ := hanti.acked
      rw [hacked]; omega
    · have hsame : conn.ackedUna ackNum = conn.sndUna := congrArg ConnState.sndUna hstay.acked
      rw [hsame]
      exact hstay.1.ge

/-! ### Which segments fail -/

/-- Passive close fails when half the circle is in flight, and leaves its connection alone. -/
theorem SendInfo.closeWaitOrLastAck_half {m : ConnState} (cw : SyncedState .CloseWait)
    (now : Instant) (h : 2 ^ 31 ≤ m.inFlight) :
    closeWaitOrLastAck m cw now = (.error .tryFromInt, m) := by
  have hclose := closeWaitOrLastAck_passiveClose m cw now
  generalize closeWaitOrLastAck m cw now = out at hclose ⊢
  cases hclose with
  | failed => rfl
  | fin hlt | data hlt | blocked hlt => omega

/-- A FIN in order whose acknowledgment leaves half the circle in flight. -/
structure TearsEstablished (seg : TcpSegment .In) (conn : ConnState) : Prop where
  name : conn.name = some .Established
  flags : seg.flags = .FinAck
  seqNum : seg.seqNum = conn.rcvNxt
  half : Antipodal conn seg.ackNum ∨ StaysHalf conn seg.ackNum

/-- A plain ACK in CLOSE-WAIT. -/
structure AcksCloseWait (seg : TcpSegment .In) (conn : ConnState) : Prop where
  name : conn.name = some .CloseWait
  flags : seg.flags = .Ack
  payload : seg.payload = none
  check : SeqCheck.check seg conn ≠ .Unacceptable

/-- The segment is refused after it has changed the connection. -/
def Torn (seg : TcpSegment .In) (conn : ConnState) : Prop :=
  TearsEstablished seg conn ∨ (AcksCloseWait seg conn ∧ Antipodal conn seg.ackNum)

/-- A FIN in order fails with RCV.NXT already advanced. -/
theorem TearsEstablished.handles (h : TearsEstablished seg conn) (hinv : HalfInv conn)
    (A : Application σ) (app : σ) (now : Instant) :
    (handleKnownConn A app seg conn now).result = .error .tryFromInt ∧
      (handleKnownConn A app seg conn now).conn ≠ conn := by
  obtain ⟨est, hst⟩ := ConnState.name_eq_established h.name
  have hle : conn.inFlight ≤ 2 ^ 31 := hinv.sending (by rw [h.name]; decide)
  have hhalf : 2 ^ 31 ≤ (conn.acked seg.ackNum).inFlight := (ackedUna_half_iff hle).mpr h.half
  have hfail : ∀ m : ConnState, m.inFlight = (conn.acked seg.ackNum).inFlight →
      ∀ cw, closeWaitOrLastAck m cw now = (.error .tryFromInt, m) :=
    fun m hm cw => closeWaitOrLastAck_half cw now (hm ▸ hhalf)
  have hcheck : SeqCheck.check seg conn = .InOrder := if_pos h.seqNum
  -- a FIN-ACK is not stopped by the guard, which looks at plain ACKs
  have hhandled : handleKnownConn A app seg conn now
      = closeOnInOrderFin A app seg conn seg.payload est now := by
    unfold handleKnownConn handleEstablished
    rw [hst]
    simp only [h.flags, hcheck]
    rw [if_neg (fun hc => by cases hc.1)]
  rw [hhandled]
  constructor
  · simp only [closeOnInOrderFin, deliverPayload_eq, SyncedState.incomingAckUpdate_eq]
    rw [hfail]
    · rfl
    · rfl
  · intro heq
    have hrcv := closeOnInOrderFin_rcvNxt A app seg conn seg.payload est now
    rw [heq] at hrcv
    exact add_fin_ne _ _ hrcv.symm

/-- A plain ACK in CLOSE-WAIT fails with its acknowledgment already taken. -/
theorem AcksCloseWait.handles (h : AcksCloseWait seg conn) (hinv : HalfInv conn)
    (hhalf : Antipodal conn seg.ackNum ∨ StaysHalf conn seg.ackNum) (A : Application σ) (app : σ)
    (now : Instant) :
    (handleKnownConn A app seg conn now).result = .error .tryFromInt ∧
      (handleKnownConn A app seg conn now).conn = conn.acked seg.ackNum := by
  have hle : conn.inFlight ≤ 2 ^ 31 := hinv.sending (by rw [h.name]; decide)
  have hge : 2 ^ 31 ≤ (conn.acked seg.ackNum).inFlight := (ackedUna_half_iff hle).mpr hhalf
  have hname := h.name
  unfold ConnState.name TcpState.name at hname
  unfold handleKnownConn
  cases hst : conn.tcpState with
  | CloseWait cw =>
    simp only [handleCloseWait, h.flags, h.payload, SyncedState.incomingAckUpdate_eq]
    cases hc : SeqCheck.check seg conn with
    | Unacceptable => exact absurd hc h.check
    | InOrder => rw [closeWaitOrLastAck_half _ _ hge]; exact ⟨rfl, rfl⟩
    | OutOfOrder => rw [closeWaitOrLastAck_half _ _ hge]; exact ⟨rfl, rfl⟩
  | _ => rw [hst] at hname; cases hname

/-- **Where a handler fails**: at a FIN in order in ESTABLISHED or a plain ACK in CLOSE-WAIT
    that leaves half the circle in flight. -/
theorem tears_of_failed (hinv : HalfInv conn)
    (hf : failed (handleKnownConn A app seg conn now).result = true) :
    TearsEstablished seg conn ∨ (AcksCloseWait seg conn ∧
      (Antipodal conn seg.ackNum ∨ StaysHalf conn seg.ackNum)) := by
  rcases handleKnownConn_moves A app seg conn now with ⟨reply, hres, -⟩ | ⟨-, hstuck, -⟩
  · rw [hres] at hf; cases hf
  obtain ⟨una, pend, hack, hsend, hge⟩ := hstuck hf
  have hle := hinv.sending hsend
  cases hack with
  -- the handshake leaves nothing in flight
  | handshake hst h1 h2 =>
    rw [handshake_ack (hinv.handshake (ConnState.name_eq_none.mpr hst)) h1 h2,
      SeqPoint.dist_self] at hge
    omega
  | update htakes =>
    have hhalf := (ackedUna_half_iff hle).mp hge
    have hname : conn.name = conn.tcpState.name := rfl
    unfold ConnState.takesAck at htakes
    cases hst : conn.tcpState with
    | Established est =>
      simp only [hst] at htakes
      cases hflags : seg.flags with
      | Ack =>
        -- a plain ACK beyond SND.NXT was refused before it could move SND.UNA
        simp only [hflags, Bool.and_eq_true, Bool.not_eq_true'] at htakes
        have hprec := htakes.2
        rw [← Bool.not_eq_true, SeqPoint.precedes_iff] at hprec
        exfalso
        rcases hhalf with ⟨-, heq⟩ | ⟨hd, hno⟩
        · rw [heq, SeqPoint.dist_self_add] at hprec
          omega
        · rw [← Bool.not_eq_true, SeqPoint.precedes_iff] at hno
          have hlt := SeqPoint.dist_lt conn.sndUna seg.ackNum
          rw [SeqPoint.dist_eq conn.sndUna, hd] at hprec
          omega
      | FinAck =>
        refine .inl ⟨by rw [hname, hst]; rfl, hflags, ?_, hhalf⟩
        -- a FIN out of order is only buffered
        by_contra hseq
        unfold handleKnownConn handleEstablished at hf
        simp only [hst, hflags] at hf htakes
        rw [if_neg (fun hc => by cases hc.1)] at hf
        cases hc : SeqCheck.check seg conn with
        | InOrder => exact hseq (SeqCheck.seqNum_eq hc)
        | OutOfOrder => rw [hc] at hf; cases hf
        | Unacceptable => rw [hc] at htakes; cases htakes
      | _ => simp only [hflags] at htakes; cases htakes
    | CloseWait cw =>
      simp only [hst] at htakes
      cases hflags : seg.flags with
      | Ack =>
        cases hpay : seg.payload with
        | none =>
          simp only [hflags, hpay] at htakes
          exact .inr ⟨⟨by rw [hname, hst]; rfl, hflags, hpay, by simpa using htakes⟩, hhalf⟩
        | some p => simp only [hflags, hpay] at htakes; cases htakes
      | _ => simp only [hflags] at htakes; cases htakes
    | SynReceived => simp only [hst] at htakes; cases htakes
    | _ => rw [hname, hst] at hsend; rcases hsend with (h | h) | h <;> cases h

/-- **Which failures change the connection.** -/
theorem failed_unchanged_iff (seg : TcpSegment .In) (hinv : HalfInv conn) (A : Application σ)
    (app : σ) (now : Instant) :
    (failed (handleKnownConn A app seg conn now).result = true →
        (handleKnownConn A app seg conn now).conn = conn) ↔ ¬ Torn seg conn := by
  constructor
  · rintro hsame (hest | ⟨hcw, hanti⟩)
    · obtain ⟨hres, hne⟩ := hest.handles hinv A app now
      exact hne (hsame (by rw [hres]; rfl))
    · obtain ⟨hres, hconn⟩ := hcw.handles hinv (.inl hanti) A app now
      have heq := hsame (by rw [hres]; rfl)
      rw [hconn] at heq
      obtain ⟨hacked, -, hne⟩ := hanti.acked
      exact hne (hacked.symm.trans (congrArg ConnState.sndUna heq))
  · intro hno hf
    rcases tears_of_failed hinv hf with hest | ⟨hcw, hhalf⟩
    · exact absurd (.inl hest) hno
    · rcases hhalf with hanti | hstay
      · exact absurd (.inr ⟨hcw, hanti⟩) hno
      · rw [(hcw.handles hinv (.inr hstay) A app now).2, hstay.acked]

end Typenet
