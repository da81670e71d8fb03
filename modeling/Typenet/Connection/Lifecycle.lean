import Typenet.Connection.HalfCircle

namespace Typenet

/-!
# The life of a connection

`Legal` lists the transitions of the state diagram that the code can take in one event: one
segment may establish a connection, consume the peer's FIN and send ours.  The two halves of a
connection then freeze one after the other.

* Once our FIN is out, SND.NXT stays and everything sent consumes no sequence number
  (`StepMove.finSent`).
* Once the peer's FIN is in, RCV.NXT stays and the application is not called
  (`ConnState.step_finReceived`).

No step of a connection needs to be excluded for this: a handler that fails leaves the state of
its connection where the acknowledgment has put it.
-/

open SendInfo

variable {σ : Type} {A : Application σ} {rto : RtoConfig} {maxRetries : UInt8} {app : σ}
  {conn conn' : ConnState} {ev : ConnEvent} {seg : TcpSegment .In} {now : Instant}

/-! ### The state diagram -/

/-- The transitions between the names of states; staying is always allowed. -/
def Legal (n n' : Option Synced) : Prop :=
  n' = n ∨
  match n with
  | none => n' = some .Established ∨ n' = some .CloseWait ∨ n' = some .LastAck
  | some .Established => n' = some .CloseWait ∨ n' = some .LastAck ∨ n' = some .FinWait1
  | some .CloseWait => n' = some .LastAck
  | some .FinWait1 => n' = some .FinWait2 ∨ n' = some .Closing
  | some .FinWait2 | some .Closing | some .LastAck => False

instance (n n' : Option Synced) : Decidable (Legal n n') := by
  unfold Legal
  cases n with
  | none => infer_instance
  | some s => cases s <;> infer_instance

/-- The peer's FIN has been consumed. -/
def FinReceived (n : Option Synced) : Prop :=
  n = some .CloseWait ∨ n = some .LastAck ∨ n = some .Closing

instance (n : Option Synced) : Decidable (FinReceived n) :=
  inferInstanceAs (Decidable (_ ∨ _ ∨ _))

/-- A legal move never takes our FIN back. -/
theorem Legal.finSent {n n' : Option Synced} (h : Legal n n') (hn : FinSent n) : FinSent n' := by
  rcases (finSent_iff n).mp hn with rfl | rfl | rfl | rfl <;> rcases h with rfl | h
  · exact hn
  · rcases h with rfl | rfl <;> decide
  · exact hn
  · exact h.elim
  · exact hn
  · exact h.elim
  · exact hn
  · exact h.elim

/-- FIN-WAIT-2 and CLOSING are entered from FIN-WAIT-1 only. -/
theorem Legal.of_finWait1 {n n' : Option Synced} (h : Legal n n') (hne : n ≠ n')
    (hn' : n' = some .FinWait2 ∨ n' = some .Closing) : n = some .FinWait1 := by
  rcases h with rfl | h
  · exact absurd rfl hne
  · rcases hn' with rfl | rfl <;> rcases n with _ | (_ | _ | _ | _ | _ | _)
    all_goals revert h; decide

/-- Nor the peer's. -/
theorem Legal.finReceived {n n' : Option Synced} (h : Legal n n') (hn : FinReceived n) :
    FinReceived n' := by
  rcases hn with rfl | rfl | rfl <;> rcases h with rfl | h
  · decide
  · exact .inr (.inl h)
  · decide
  · exact h.elim
  · decide
  · exact h.elim

/-- Data is received only from a state that receives. -/
theorem RecvMove.receiving {slices : List (List UInt8)} {failed : Bool}
    (h : RecvMove seg conn conn' slices failed) (hn : Receiving conn'.name) :
    Receiving conn.name := by
  cases h with
  | idle hrcv hre hrecv hpassive => exact hrecv hn ▸ hn
  | buffer hcheck hrecv => exact hrecv
  | data hseq hrecv => exact hrecv
  | fin hseq hrecv => exact hrecv
  | halfClosed hseq hns hp hr => exact absurd hn hr

/-- **One segment takes a legal transition.** -/
theorem SendMove.legal {extra : List UInt8} {reply : Option SendInfo}
    {slices : List (List UInt8)} {failed : Bool} (hsend : SendMove seg now conn extra conn' reply)
    (hrecv : RecvMove seg conn conn' slices failed) : Legal conn.name conn'.name := by
  cases hsend with
  | idle hsame => exact .inl (congrArg TcpState.name hsame.tcpState)
  | resend hst hextra hinfo hst' =>
    exact .inl ((ConnState.name_eq_none.mpr hst').trans (ConnState.name_eq_none.mpr hst).symm)
  | ack hack hshift =>
    generalize conn.name = n at hshift
    generalize conn'.name = n' at hshift
    cases hshift with
    | stay => exact .inl rfl
    | establish => decide
    | passive hr => rcases hr with rfl | rfl <;> decide
    | finAcked => decide
    | simultaneous => decide
  | data hack hs hsilent hname =>
    rcases hname with hn' | hn'
    · -- ESTABLISHED is entered from a receiving state only
      have hr := hrecv.receiving (by rw [hn']; decide)
      rw [hn']
      rcases hr with hn | hn <;> rw [hn] <;> decide
    · rw [hn']
      rcases hs with (hn | hn) | hn <;> rw [hn] <;> decide
  | fin hack hs hsilent hname =>
    rw [hname]
    rcases hs with (hn | hn) | hn <;> rw [hn] <;> decide

/-- Every move of a step is legal. -/
theorem StepMove.legal {out : Stepped σ} (h : StepMove A app conn ev out conn') :
    Legal conn.name conn'.name := by
  cases h with
  | segment hfeed hsend hrecv => exact hsend.legal hrecv
  | retransmit => exact .inl rfl
  | close hst =>
    have hname : conn.name = some .Established := by unfold ConnState.name; rw [hst]; rfl
    rw [hname]
    exact .inr (.inr (.inr rfl))
  | closeIdle => exact .inl rfl

/-- A state other than FIN-WAIT-1 is entered by a segment only. -/
theorem StepMove.entered_by_segment {out : Stepped σ} (h : StepMove A app conn ev out conn')
    (hne : conn'.name ≠ conn.name) (hfw : conn'.name ≠ some .FinWait1) :
    ∃ seg now, ev = .segment seg now := by
  cases h with
  | segment => exact ⟨_, _, rfl⟩
  | retransmit => exact absurd rfl hne
  | close => exact absurd rfl hfw
  | closeIdle => exact absurd rfl hne

/-! ### Synchronizing -/

/-- What a handshake is completed by: an ACK or FIN-ACK in the window that acknowledges exactly
    our SYN. -/
structure CompletesHandshake (seg : TcpSegment .In) (conn : ConnState) (iss : SeqPoint .Out) :
    Prop where
  flags : seg.flags = .Ack ∨ seg.flags = .FinAck
  inWindow : InReceiveWindow seg conn
  ackNum : seg.ackNum = iss + SYN_BYTE

/-- A segment that moves the receive side of a connection in SYN-RECEIVED is an ACK or FIN-ACK
    inside the window. -/
theorem RecvMove.synchronizes {slices : List (List UInt8)} {failed : Bool}
    (h : RecvMove seg conn conn' slices failed) (hn : conn.name = Option.none)
    (hn' : conn'.name ≠ Option.none) (hlegal : Legal conn.name conn'.name) :
    (seg.flags = .Ack ∨ seg.flags = .FinAck) ∧ InReceiveWindow seg conn := by
  have hcheck : SeqCheck.check seg conn ≠ .Unacceptable → InReceiveWindow seg conn := fun hc => by
    by_contra hout
    exact hc (SeqCheck.check_eq_unacceptable.mpr hout)
  have horder : seg.seqNum = conn.rcvNxt → InReceiveWindow seg conn := fun hseq =>
    hcheck (by rw [SeqCheck.check, if_pos hseq]; decide)
  cases h with
  | idle hrcv hre hrecv hpassive =>
    exfalso
    rw [hn] at hlegal hrecv hpassive
    rcases hlegal with h0 | h1 | h1 | h1
    · exact hn' h0
    · exact hn' (hrecv (.inr h1))
    · exact absurd (hpassive (.inl h1)) (by decide)
    · exact absurd (hpassive (.inr h1)) (by decide)
  | buffer hc hr hflags => exact ⟨hflags, hcheck (by rw [hc]; decide)⟩
  | data hseq hr hflags => exact ⟨.inl hflags, horder hseq⟩
  | fin hseq hr hflags => exact ⟨.inr hflags, horder hseq⟩
  | halfClosed hseq hns => exact absurd (.inl (.inl hn)) hns

/-- **How SYN-RECEIVED is left**: only by a segment that completes the handshake. -/
theorem StepMove.synchronizes {out : Stepped σ} (h : StepMove A app conn ev out conn')
    (hinv : HalfInv conn) (hn : conn.name = none) (hn' : conn'.name ≠ none) :
    ∃ seg now, ev = .segment seg now ∧ CompletesHandshake seg conn conn.sndUna := by
  have hlegal := h.legal
  cases h with
  | @segment seg now app' conn' slices extra reply failed hfeed hsend hrecv =>
    obtain ⟨hflags, hwin⟩ := hrecv.synchronizes hn hn' hlegal
    refine ⟨seg, now, rfl, hflags, hwin, ?_⟩
    -- the acknowledgment can only have been taken by the handshake
    have hstage : ∀ una pend, AckStage seg conn una pend → seg.ackNum = conn.sndUna + SYN_BYTE := by
      intro una pend hack
      cases hack with
      | update htakes =>
        rw [ConnState.takesAck, ConnState.name_eq_none.mp hn] at htakes
        cases htakes
      | handshake hst h1 h2 =>
        rw [handshake_ack (hinv.handshake hn) h1 h2]
        exact hinv.handshake hn
    cases hsend with
    | idle hsame => exact absurd ((congrArg TcpState.name hsame.tcpState).trans hn) hn'
    | resend hst hextra hinfo hst' => exact absurd (ConnState.name_eq_none.mpr hst') hn'
    | ack hack => exact hstage _ _ hack
    | data hack => exact hstage _ _ hack
    | fin hack => exact hstage _ _ hack
  | retransmit => exact absurd hn hn'
  | close hst =>
    have hname : conn.name = some .Established := by unfold ConnState.name; rw [hst]; rfl
    rw [hn] at hname
    cases hname
  | closeIdle => exact absurd hn hn'

/-! ### After our FIN -/

/-- A quiet reply consumes no sequence number. -/
theorem Quiet.consumed {reply : Option SendInfo} (h : Quiet reply) :
    ∀ info ∈ reply, info.consumed = 0 := by
  intro info hinfo
  obtain ⟨hpay, hflags⟩ := h info hinfo
  unfold SendInfo.consumed
  rw [hpay]
  rcases hflags with hf | hf <;> rw [hf] <;> rfl

/-- Our FIN is out, SND.NXT is at `nxt`, and whatever is pending was emitted in `sent`. -/
structure FinOut (nxt : SeqPoint .Out) (sent : List SendInfo) (conn : ConnState) : Prop where
  name : FinSent conn.name
  sndNxt : conn.sndNxt = nxt
  pending : ∀ p ∈ conn.pending, p.sendInfo ∈ sent

/-- **A step after our FIN** moves neither SND.NXT nor the data in the queue, and emits only
    segments without sequence numbers and copies. -/
theorem StepMove.finSent {out : Stepped σ} {nxt : SeqPoint .Out} {sent : List SendInfo}
    (h : StepMove A app conn ev out conn') (hout : FinOut nxt sent conn) :
    FinOut nxt sent conn' ∧ (∀ info ∈ out.sent, info.consumed = 0) ∧
      ∀ info ∈ out.resent, info ∈ sent := by
  have hname' := h.legal.finSent hout.name
  obtain ⟨hname, hnxt, hpend⟩ := hout
  cases h with
  | @segment seg now app' conn' slices extra reply failed hfeed hsend hrecv =>
    have hquiet : Quiet reply → ∀ info ∈ reply.toList, info.consumed = 0 := fun hq info hinfo =>
      hq.consumed info (Option.mem_toList.mp hinfo)
    cases hsend with
    | idle hsame hextra hq =>
      exact ⟨⟨hname', hsame.sndNxt.trans hnxt, by rw [hsame.pending]; exact hpend⟩, hquiet hq,
        nofun⟩
    | resend hst => exact absurd hname (by rw [ConnState.name_eq_none.mpr hst]; decide)
    | ack hack hshift hsync hextra hcw hnxt' hbuf hq =>
      exact ⟨⟨hname', hnxt'.trans hnxt, fun p hp => hpend p (hack.subset p hp)⟩, hquiet hq, nofun⟩
    | data hack hs => exact absurd hs hname
    | fin hack hs => exact absurd hs hname
  | retransmit hf hres =>
    refine ⟨⟨hname', hnxt, fun p hp => ?_⟩, nofun, fun info hinfo => ?_⟩
    · obtain ⟨q, hq, rfl⟩ := List.mem_map.mp hp
      rw [(hf q).1]
      exact hpend q hq
    · obtain ⟨p, hp, rfl⟩ := hres info hinfo
      exact hpend p hp
  | close hst =>
    have hest : conn.name = some .Established := by unfold ConnState.name; rw [hst]; rfl
    exact absurd hname (by rw [hest]; decide)
  | closeIdle => exact ⟨⟨hname', hnxt, hpend⟩, nofun, nofun⟩

/-- After our FIN, SND.NXT stays. -/
theorem StepMove.sndNxt_finSent {out : Stepped σ} (h : StepMove A app conn ev out conn')
    (hname : FinSent conn.name) : conn'.sndNxt = conn.sndNxt :=
  have hout : FinOut conn.sndNxt (conn.pending.map (·.sendInfo)) conn :=
    ⟨hname, rfl, fun _ hp => List.mem_map_of_mem hp⟩
  (h.finSent hout).1.sndNxt

/-! ### After the peer's FIN -/

/-- **A segment after the peer's FIN** leaves RCV.NXT and the application alone. -/
theorem handleKnownConn_finReceived (A : Application σ) (app : σ) (seg : TcpSegment .In)
    (now : Instant) (h : FinReceived conn.name) :
    (handleKnownConn A app seg conn now).app = app ∧
      (handleKnownConn A app seg conn now).conn.rcvNxt = conn.rcvNxt := by
  unfold ConnState.name at h
  unfold handleKnownConn
  cases hst : conn.tcpState with
  | CloseWait s =>
    refine ⟨rfl, ?_⟩
    show (handleCloseWait seg conn s now).2.rcvNxt = _
    unfold handleCloseWait
    simp only [SyncedState.incomingAckUpdate_eq]
    split
    · exact closeWaitOrLastAck_rcvNxt _ _ _
    · exact closeWaitOrLastAck_rcvNxt _ _ _
    · rfl
  | Closing s =>
    refine ⟨rfl, ?_⟩
    show (handleClosing seg conn s).2.rcvNxt = _
    unfold handleClosing
    simp only [SyncedState.incomingAckUpdate_eq]
    split <;> rfl
  | LastAck s =>
    refine ⟨rfl, ?_⟩
    show (handleLastAck seg conn s).2.rcvNxt = _
    unfold handleLastAck
    simp only [SyncedState.incomingAckUpdate_eq]
    split <;> rfl
  | _ => rw [hst] at h; rcases h with h | h | h <;> cases h

/-- **A step after the peer's FIN** leaves RCV.NXT and the application alone. -/
theorem ConnState.step_finReceived (h : FinReceived conn.name) :
    (conn.step A rto maxRetries app ev).app = app ∧
      ∀ conn', (conn.step A rto maxRetries app ev).conn = some conn' →
        FinReceived conn'.name ∧ conn'.rcvNxt = conn.rcvNxt := by
  have hname : ∀ conn', (conn.step A rto maxRetries app ev).conn = some conn' →
      FinReceived conn'.name := fun conn' hs => (ConnState.step_move hs).legal.finReceived h
  cases ev with
  | segment seg now =>
    obtain ⟨happ, hrcv⟩ := handleKnownConn_finReceived A app seg now h
    refine ⟨happ, fun conn' hs => ⟨hname conn' hs, ?_⟩⟩
    obtain ⟨-, rfl⟩ := ConnState.step_survives hs
    exact hrcv
  | retransmit now late =>
    unfold step at hname ⊢
    rcases conn.retransmit_cases rto maxRetries now late with hno | ⟨f, resent, hsome, -, -⟩
    · simp only [hno]
      exact ⟨trivial, nofun⟩
    · simp only [hsome] at hname ⊢
      refine ⟨trivial, fun conn' hs => ⟨hname conn' hs, ?_⟩⟩
      obtain rfl := Option.some.inj hs
      rfl
  | close now =>
    have hne : conn.name ≠ some .Established := by
      rcases h with hn | hn | hn <;> rw [hn] <;> decide
    unfold step
    simp only [ConnState.close_eq_none now hne]
    refine ⟨trivial, fun conn' hs => ?_⟩
    obtain rfl := Option.some.inj hs
    exact ⟨h, rfl⟩

/-! ### Whole sessions -/

/-- Whatever a move of the send side leaves pending was pending or is its reply. -/
theorem SendMove.pending_sent {extra : List UInt8} {reply : Option SendInfo}
    {sent : List SendInfo} (h : SendMove seg now conn extra conn' reply)
    (hpend : ∀ p ∈ conn.pending, p.sendInfo ∈ sent) :
    ∀ p ∈ conn'.pending, p.sendInfo ∈ sent ++ reply.toList := by
  have hnew : ∀ (pend : List PendingSegment) (info : SendInfo),
      (∀ p ∈ pend, p ∈ conn.pending) → ∀ p ∈ pend ++ [PendingSegment.new info now],
        p.sendInfo ∈ sent ++ [info] := by
    intro pend info hsub p hp
    rcases List.mem_append.mp hp with hp | hp
    · exact List.mem_append_left _ (hpend p (hsub p hp))
    · rw [List.mem_singleton.mp hp]
      exact List.mem_append_right _ List.mem_cons_self
  cases h with
  | idle hsame =>
    intro p hp
    rw [hsame.pending] at hp
    exact List.mem_append_left _ (hpend p hp)
  | resend hst hextra hinfo hst' hnxt huna hbuf hpend' =>
    rw [hpend']
    exact hnew _ _ fun p hp => hp
  | ack hack => exact fun p hp => List.mem_append_left _ (hpend p (hack.subset p hp))
  | data hack hs hsilent hname hleft hwin htrans hinfo hnxt hpend' =>
    rw [hpend']
    exact hnew _ _ hack.subset
  | fin hack hs hsilent hname hwin hempty htrans hinfo hnxt hpend' =>
    rw [hpend']
    exact hnew _ _ hack.subset

/-- The same for every step. -/
theorem StepMove.pending_sent {out : Stepped σ} {sent : List SendInfo}
    (h : StepMove A app conn ev out conn') (hpend : ∀ p ∈ conn.pending, p.sendInfo ∈ sent) :
    ∀ p ∈ conn'.pending, p.sendInfo ∈ sent ++ out.sent := by
  cases h with
  | segment hfeed hsend hrecv => exact hsend.pending_sent hpend
  | retransmit hf hres =>
    intro p hp
    obtain ⟨q, hq, rfl⟩ := List.mem_map.mp hp
    rw [(hf q).1]
    exact List.mem_append_left _ (hpend q hq)
  | close hst hinfo =>
    intro p hp
    rcases List.mem_append.mp hp with hp | hp
    · exact List.mem_append_left _ (hpend p hp)
    · rw [List.mem_singleton.mp hp]
      exact List.mem_append_right _ List.mem_cons_self
  | closeIdle => exact fun p hp => List.mem_append_left _ (hpend p hp)

/-- A connection stays in SYN-RECEIVED only by keeping SND.UNA. -/
theorem StepMove.sndUna_synReceived {out : Stepped σ} (h : StepMove A app conn ev out conn')
    (hn' : conn'.name = none) : conn.name = none ∧ conn'.sndUna = conn.sndUna := by
  cases h with
  | segment hfeed hsend hrecv =>
    cases hsend with
    | idle hsame => exact ⟨(congrArg TcpState.name hsame.tcpState).symm.trans hn', hsame.sndUna⟩
    | resend hst hextra hinfo hst' hnxt huna => exact ⟨ConnState.name_eq_none.mpr hst, huna⟩
    | ack hack hshift hsync => exact absurd hn' hsync
    | data hack hs hsilent hname =>
      rcases hname with h' | h' <;> rw [h'] at hn' <;> cases hn'
    | fin hack hs hsilent hname => rw [hname] at hn'; cases hn'
  | retransmit => exact ⟨hn', rfl⟩
  | close => cases hn'
  | closeIdle => exact ⟨hn', rfl⟩

namespace Session

/-- What holds of the connection of every session: whatever is pending was emitted, and in
    SYN-RECEIVED our SYN is unacknowledged. -/
structure LifeInv (iss : SeqPoint .Out) (sent : List SendInfo) (conn : ConnState) : Prop where
  half : HalfInv conn
  pending : ∀ p ∈ conn.pending, p.sendInfo ∈ sent
  iss : conn.name = none → conn.sndUna = iss

/-- **Every step keeps the invariant.** -/
theorem LifeInv.step {iss : SeqPoint .Out} {s : Session σ} {e : SessionEvent σ}
    (h : ∀ conn, s.conn = some conn → LifeInv iss s.sent conn) :
    ∀ conn', (s.step A rto maxRetries e).conn = some conn' →
      LifeInv iss (s.step A rto maxRetries e).sent conn' := by
  intro conn' hconn'
  cases e with
  | elsewhere app => exact h conn' hconn'
  | on ev =>
    cases hs : s.conn with
    | none => simp only [Session.step, hs] at hconn'; cases hconn'
    | some conn =>
      simp only [Session.step, hs] at hconn' ⊢
      obtain ⟨hhalf, hpend, hiss⟩ := h conn hs
      have hmove := ConnState.step_move hconn'
      refine ⟨hhalf.step hconn', hmove.pending_sent hpend, fun hn' => ?_⟩
      obtain ⟨hn, huna⟩ := hmove.sndUna_synReceived hn'
      exact huna.trans (hiss hn)

/-- The invariant holds throughout a session. -/
theorem lifeInv_run {iss : SeqPoint .Out} {irs : SeqPoint .In} {t₀ : Instant}
    {es : List (SessionEvent σ)} {s : Session σ} {ok : Session σ → SessionEvent σ → Prop}
    (hrun : Runs.Run (Session.step A rto maxRetries) ok (Session.opened app iss irs t₀) es s) :
    ∀ conn, s.conn = some conn → LifeInv iss s.sent conn := by
  refine hrun.state_invariant (I := fun s => ∀ conn, s.conn = some conn → LifeInv iss s.sent conn)
    ?_ fun s e ih _ => LifeInv.step ih
  intro conn hconn
  obtain rfl := Option.some.inj hconn
  refine ⟨halfInv_opened iss irs t₀, fun p hp => ?_, fun _ => rfl⟩
  rw [List.mem_singleton.mp hp]
  exact List.mem_singleton.mpr rfl

/-- What a session does after our FIN, seen from the session `s` in which it was out. -/
structure AfterOurFin (s : Session σ) (nxt : SeqPoint .Out) (s' : Session σ) : Prop where
  conn : ∀ conn', s'.conn = some conn' → FinOut nxt s.sent conn'
  sent : ∃ sent, s'.sent = s.sent ++ sent ∧ ∀ info ∈ sent, info.consumed = 0
  resent : ∃ resent, s'.resent = s.resent ++ resent ∧ ∀ info ∈ resent, info ∈ s.sent

/-- After our FIN, SND.NXT stays where it is. -/
theorem AfterOurFin.step {s s' : Session σ} {nxt : SeqPoint .Out} (h : AfterOurFin s nxt s')
    (e : SessionEvent σ) : AfterOurFin s nxt (s'.step A rto maxRetries e) := by
  obtain ⟨hconn, ⟨sent, hsent, hcons⟩, ⟨resent, hresent, hcopy⟩⟩ := h
  cases hnext : (s'.step A rto maxRetries e).conn with
  | none =>
    rcases step_gone hnext with ⟨hs, app, heq⟩ | ⟨conn, reply, hs, hq, heq⟩
    · rw [heq]
      exact ⟨hconn, ⟨sent, hsent, hcons⟩, ⟨resent, hresent, hcopy⟩⟩
    · rw [heq]
      refine ⟨nofun, ⟨sent ++ reply.toList, ?_, ?_⟩, ⟨resent, ?_, hcopy⟩⟩
      · show s'.sent ++ reply.toList = _
        rw [hsent, List.append_assoc]
      · intro info hinfo
        rcases List.mem_append.mp hinfo with hinfo | hinfo
        · exact hcons info hinfo
        · exact hq.consumed info (Option.mem_toList.mp hinfo)
      · exact (List.append_nil _).trans hresent
  | some conn' =>
    rcases step_cases hnext with ⟨app, rfl, hs⟩ | ⟨ev, conn, out, rfl, hs, hmove, heq⟩
    · exact ⟨hconn, ⟨sent, hsent, hcons⟩, ⟨resent, hresent, hcopy⟩⟩
    · obtain ⟨hfin, hquiet, hold⟩ := hmove.finSent (hconn conn hs)
      rw [heq]
      refine ⟨fun c hc => ?_, ⟨sent ++ out.sent, ?_, ?_⟩, ⟨resent ++ out.resent, ?_, ?_⟩⟩
      · rw [← Option.some.inj hc]; exact hfin
      · show s'.sent ++ out.sent = _
        rw [hsent, List.append_assoc]
      · intro info hinfo
        exact (List.mem_append.mp hinfo).elim (hcons info) (hquiet info)
      · show s'.resent ++ out.resent = _
        rw [hresent, List.append_assoc]
      · intro info hinfo
        exact (List.mem_append.mp hinfo).elim (hcopy info) (hold info)

/-- What a session does after the peer's FIN, seen from the session `s` in which it was in. -/
structure AfterPeerFin (s : Session σ) (nxt : SeqPoint .In) (s' : Session σ) : Prop where
  conn : ∀ conn', s'.conn = some conn' → FinReceived conn'.name ∧ conn'.rcvNxt = nxt
  received : s'.app.received = s.app.received

/-- After the peer's FIN, RCV.NXT stays where it is. -/
theorem AfterPeerFin.step {s s' : Session σ} {nxt : SeqPoint .In} (h : AfterPeerFin s nxt s')
    (e : SessionEvent σ) : AfterPeerFin s nxt (s'.step A rto maxRetries e) := by
  cases e with
  | elsewhere app => exact ⟨h.conn, h.received⟩
  | on ev =>
    cases hs : s'.conn with
    | none =>
      simp only [Session.step, hs]
      exact ⟨h.conn, h.received⟩
    | some conn =>
      simp only [Session.step, hs]
      obtain ⟨hname, hrcv⟩ := h.conn conn hs
      have hstep : (conn.step A.recorded rto maxRetries s'.app ev).app = s'.app ∧ _ :=
        ConnState.step_finReceived hname
      obtain ⟨happ, hkeep⟩ := hstep
      refine ⟨fun conn' hc => ?_, by rw [happ]; exact h.received⟩
      obtain ⟨hname', hrcv'⟩ := hkeep conn' hc
      exact ⟨hname', hrcv'.trans hrcv⟩

end Session

/-- **The legal lifecycle.** In every state of every session, each event takes a legal
    transition or removes the connection; SYN-RECEIVED is left only by a segment that completes
    the handshake; whatever happens after our FIN, SND.NXT stays and nothing new that consumes a
    sequence number is emitted; whatever happens after the peer's FIN, RCV.NXT stays and nothing
    is delivered. -/
theorem legal_lifecycle (A : Application σ) (rto : RtoConfig) (maxRetries : UInt8) (app : σ)
    (iss : SeqPoint .Out) (irs : SeqPoint .In) (t₀ : Instant) (es : List (SessionEvent σ))
    (s : Session σ) (conn : ConnState)
    (hrun : Runs.Run (Session.step A rto maxRetries) (fun _ _ => True)
      (Session.opened app iss irs t₀) es s)
    (hconn : s.conn = some conn) :
    (∀ e conn', (s.step A rto maxRetries e).conn = some conn' →
      Legal conn.name conn'.name ∧
      (conn.name = none → conn'.name ≠ none →
        ∃ seg now, e = .on (.segment seg now) ∧ CompletesHandshake seg conn iss)) ∧
    ∀ later s', Runs.Run (Session.step A rto maxRetries) (fun _ _ => True) s later s' →
      (FinSent conn.name →
        (∀ conn', s'.conn = some conn' → conn'.sndNxt = conn.sndNxt) ∧
        (∃ sent, s'.sent = s.sent ++ sent ∧ ∀ info ∈ sent, info.consumed = 0) ∧
        ∃ resent, s'.resent = s.resent ++ resent ∧ ∀ info ∈ resent, info ∈ s.sent) ∧
      (FinReceived conn.name →
        (∀ conn', s'.conn = some conn' → conn'.rcvNxt = conn.rcvNxt) ∧
        s'.app.received = s.app.received) := by
  have hinv := Session.lifeInv_run hrun conn hconn
  refine ⟨fun e conn' hs => ?_, fun later s' hlater => ⟨fun hfin => ?_, fun hfin => ?_⟩⟩
  · rcases Session.step_cases hs with ⟨app, rfl, hsame⟩ | ⟨ev, c, out, rfl, hc, hmove, -⟩
    · obtain rfl := Option.some.inj (hconn.symm.trans hsame)
      exact ⟨.inl rfl, fun hn hn' => absurd hn hn'⟩
    · obtain rfl := Option.some.inj (hconn.symm.trans hc)
      refine ⟨hmove.legal, fun hn hn' => ?_⟩
      obtain ⟨seg, now, rfl, hcomp⟩ := hmove.synchronizes hinv.half hn hn'
      rw [hinv.iss hn] at hcomp
      exact ⟨seg, now, rfl, hcomp⟩
  · have hafter : Session.AfterOurFin s conn.sndNxt s' := by
      refine hlater.state_invariant (I := Session.AfterOurFin s conn.sndNxt) ?_
        fun s' e h _ => h.step e
      refine ⟨fun c hc => ?_, ⟨[], by simp, nofun⟩, ⟨[], by simp, nofun⟩⟩
      obtain rfl := Option.some.inj (hconn.symm.trans hc)
      exact ⟨hfin, rfl, hinv.pending⟩
    exact ⟨fun conn' hc => (hafter.conn conn' hc).sndNxt, hafter.sent, hafter.resent⟩
  · have hafter : Session.AfterPeerFin s conn.rcvNxt s' := by
      refine hlater.state_invariant (I := Session.AfterPeerFin s conn.rcvNxt) ?_
        fun s' e h _ => h.step e
      refine ⟨fun c hc => ?_, rfl⟩
      obtain rfl := Option.some.inj (hconn.symm.trans hc)
      exact ⟨hfin, rfl⟩
    exact ⟨fun conn' hc => (hafter.conn conn' hc).2, hafter.received⟩

/-- The client that said "hi" and closed has its data delivered once and for all, whatever it
    sends next. -/
theorem legal_lifecycle_hi :
    (hiSession.step ServerApp.application (TcpConnections.new 0 3).rtoConfig 3
      (.on (.segment CLIENT_HI ⟨3⟩))).app.received = hiSession.app.received := by
  obtain ⟨conn, hconn, hname⟩ := hiSession_lastAck
  exact (((legal_lifecycle ServerApp.application (TcpConnections.new 0 3).rtoConfig 3 .Echo
    SERVER_ISN CLIENT_ISN ⟨0⟩ hiEvents hiSession conn (Runs.Run.of_foldl _ _) hconn).2 _ _
    (.snoc .nil trivial)).2 (by rw [hname]; decide)).2

end Typenet
