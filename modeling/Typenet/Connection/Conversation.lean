import Typenet.Connection.ReceiveStream
import Typenet.Connection.Recording
import Typenet.Connection.SendStream

namespace Typenet

/-!
# Answering a stream

Both directions of a connection together: the peer sends a stream `S`, and what goes back to it is
the application's answer to `S`.  `Heard` says so of a session's history, and holds of every session
that the peer feeds (`heard_of_run`).  As long as no closing sweep interferes, our FIN goes out only
behind the whole answer (`answered_of_run`).  What has been sent can be read off the segments it
has been sent in (`covered_of_run`).
-/

variable {rto : RtoConfig} {maxRetries : UInt8} {app : ServerApp} {S : List UInt8}
  {base : SeqPoint .In}

/-! ### The application's answer -/

/-- Answers are given byte by byte. -/
theorem ServerApp.answer_append (self : ServerApp) (xs ys : List UInt8) :
    self.answer (xs ++ ys) = self.answer xs ++ self.answer ys := by
  cases self with
  | Echo => rfl
  | Shout => exact List.map_append

/-- Feeding slices to the recorded application leaves its choice as it is. -/
theorem ServerApp.feed_recorded (r : Recorded ServerApp) (slices : List (List UInt8)) :
    (ServerApp.application.recorded.feed r slices).1.inner = r.inner ∧
      (ServerApp.application.recorded.feed r slices).2 = r.inner.answer slices.flatten := by
  have hfeed := (observes_recorded ServerApp.application).feed r slices
  rw [ServerApp.feed_eq] at hfeed
  obtain ⟨hinner, hout⟩ := Prod.mk.inj hfeed
  exact ⟨hinner.symm, hout.symm⟩

/-! ### What has been heard -/

/-- The session's peer sends `S`, and other traffic leaves the application as it is. -/
def Talks (S : List UInt8) (base : SeqPoint .In) (s : Session ServerApp)
    (e : SessionEvent ServerApp) : Prop :=
  FromPeer S base s e ∧ ∀ other, e = .elsewhere other → other = s.app.inner

/-- What the application of a session has heard is a front part of `S`, and it has answered just
    that. -/
structure Heard (app : ServerApp) (S : List UInt8) (s : Session ServerApp) : Prop where
  inner : s.app.inner = app
  received : s.app.received.flatten <+: S
  appended : s.app.appended = app.answer s.app.received.flatten

/-- Nothing is delivered once data is no more handed to the application. -/
theorem RecvMove.slices_eq_nil {seg : TcpSegment .In} {conn conn' : ConnState}
    {slices : List (List UInt8)} {failed : Bool} (h : RecvMove seg conn conn' slices failed)
    (hname : ¬ Delivering conn'.name) : slices = [] := by
  cases h with
  | idle | buffer | halfClosed => rfl
  | @data payloads reassembly rcvNxt _ hseq hrecv hflags hpay hdrain hre hnofin hfin =>
    exfalso
    cases hreached : reassembly.finReached rcvNxt with
    | false => exact hname (.inl (.inr (hnofin hreached).2))
    | true =>
      obtain ⟨-, hok, herr⟩ := hfin hreached
      cases failed with
      | false => exact hname (.inr (hok rfl))
      | true => exact hname (.inl (.inr (herr rfl)))
  | fin hseq hrecv hflags hrcv hre hok herr =>
    exfalso
    cases failed with
    | false => exact hname (.inr (hok rfl))
    | true => exact hname (.inl (.inr (herr rfl)))

/-- A move of the connection logs what it delivers and the answer to it. -/
theorem StepMove.logged {r : Recorded ServerApp} {conn conn' : ConnState} {ev : ConnEvent}
    {out : Stepped (Recorded ServerApp)}
    (h : StepMove ServerApp.application.recorded r conn ev out conn') :
    ∃ slices, out.app.inner = r.inner ∧ out.app.received = r.received ++ slices ∧
      out.app.appended = r.appended ++ r.inner.answer slices.flatten ∧
      (¬ Delivering conn'.name → slices = []) := by
  have hquiet : ∀ self : ServerApp, self.answer ([] : List (List UInt8)).flatten = [] := by
    intro self
    cases self <;> rfl
  cases h with
  | @segment seg now app' _ slices extra reply failed hfeed hsend hrecv =>
    obtain ⟨hrec, happ⟩ := Application.feed_recorded ServerApp.application r slices
    obtain ⟨hinner, hout⟩ := ServerApp.feed_recorded r slices
    rw [hout] at happ
    rw [hfeed] at hrec happ hinner
    exact ⟨slices, hinner, hrec, happ, hrecv.slices_eq_nil⟩
  | retransmit | close | closeIdle =>
    exact ⟨[], rfl, (List.append_nil _).symm, by rw [hquiet, List.append_nil], fun _ => rfl⟩

/-- **A session answers what it hears**, in every state of every session that the peer feeds. -/
theorem heard_of_run (hS : S.length < 2 ^ 31) {iss : SeqPoint .Out} {irs : SeqPoint .In}
    {t₀ : Instant} {es : List (SessionEvent ServerApp)} {s : Session ServerApp}
    (hrun : Runs.Run (Session.step ServerApp.application rto maxRetries)
      (Talks S (irs + SYN_BYTE)) (Session.opened app iss irs t₀) es s) : Heard app S s := by
  induction hrun with
  | nil => exact ⟨rfl, List.nil_prefix, by cases app <;> rfl⟩
  | @snoc es s e hprev hok ih =>
    have hpeer : Runs.Run (Session.step ServerApp.application rto maxRetries)
        (FromPeer S (irs + SYN_BYTE)) (Session.opened app iss irs t₀) (es ++ [e])
        (s.step ServerApp.application rto maxRetries e) :=
      (hprev.snoc hok).imp fun _ _ h => h.1
    cases hconn' : (s.step ServerApp.application rto maxRetries e).conn with
    | none =>
      rcases Session.step_gone hconn' with ⟨hnone, other, hstep⟩ | ⟨conn, reply, -, -, hstep⟩
      · rw [hstep]
        refine ⟨?_, ih.received, ih.appended⟩
        cases e with
        | on ev =>
          have hsame : s.step ServerApp.application rto maxRetries (.on ev) = s := by
            simp only [Session.step, hnone]
          exact (congrArg (·.app.inner) (hstep.symm.trans hsame)).trans ih.inner
        | elsewhere other' =>
          have hsame : other' = other := congrArg (·.app.inner) hstep
          rw [← hsame, hok.2 other' rfl]
          exact ih.inner
      · rw [hstep]
        exact ⟨ih.inner, ih.received, ih.appended⟩
    | some conn' =>
      rcases Session.step_cases hconn' with ⟨other, rfl, -⟩ | ⟨ev, conn, out, rfl, -, hmove, hstep⟩
      · refine ⟨?_, ih.received, ih.appended⟩
        rw [← ih.inner]
        exact hok.2 other rfl
      · obtain ⟨slices, hinner, hrec, happ, hnone⟩ := hmove.logged
        refine ⟨?_, ?_, ?_⟩
        · rw [hstep]
          exact hinner.trans ih.inner
        · by_cases hdel : Delivering conn'.name
          · -- while data is handed over, all of it is the stream up to RCV.NXT
            rw [(receiveInv_of_run hS hpeer conn' hconn' hdel).delivered]
            exact List.take_prefix _ _
          · rw [hstep]
            show out.app.received.flatten <+: S
            rw [hrec, hnone hdel, List.append_nil]
            exact ih.received
        · rw [hstep]
          show out.app.appended = app.answer out.app.received.flatten
          rw [happ, hrec, ih.appended, ih.inner, List.flatten_append, ServerApp.answer_append]

/-! ### The end of the answer -/

/-- No closing sweep comes to the session. -/
def Unclosed (e : SessionEvent ServerApp) : Prop := ∀ now, e ≠ .on (.close now)

/-- A session that is closed by its peer: its connection has been handing data over, with nothing
    left to send once its FIN is out; and a FIN has gone out only behind the answer to all of `S`. -/
structure Answered (S : List UInt8) (s : Session ServerApp) : Prop where
  delivering : ∀ conn, s.conn = some conn → Delivering conn.name
  flushed : ∀ conn, s.conn = some conn → FinSent conn.name → conn.sendBuffer = []
  fin : ∀ info ∈ s.sent ++ s.resent, info.flags = .FinAck →
    s.app.received.flatten = S ∧ s.app.appended = dataSent s.sent

/-- Without a closing sweep a connection goes on handing data over. -/
theorem StepMove.delivering {r : Recorded ServerApp} {conn conn' : ConnState} {ev : ConnEvent}
    {out : Stepped (Recorded ServerApp)}
    (h : StepMove ServerApp.application.recorded r conn ev out conn')
    (hev : ∀ now, ev ≠ .close now) (hname : Delivering conn.name) : Delivering conn'.name := by
  cases h with
  | segment hfeed hsend hrecv =>
    cases hsend with
    | idle hsame =>
      have heq : conn'.name = conn.name := congrArg TcpState.name hsame.tcpState
      rwa [heq]
    | resend hst hextra hinfo hst' => exact .inl (.inl (ConnState.name_eq_none.mpr hst'))
    | ack hack hshift =>
      generalize conn.name = n at hname hshift
      generalize conn'.name = n' at hshift
      cases hshift with
      | stay => exact hname
      | establish => decide
      | passive hr => decide
      | finAcked | simultaneous => exact absurd hname (by decide)
    | data hack hsend hsilent hcase =>
      rcases hcase with h' | h' <;> rw [h'] <;> decide
    | fin hack hsend hsilent hlast => rw [hlast]; decide
  | retransmit => exact hname
  | close => exact absurd rfl (hev _)
  | closeIdle => exact hname

/-- Once our FIN is out the send buffer stays empty. -/
theorem StepMove.flushed {r : Recorded ServerApp} {conn conn' : ConnState} {ev : ConnEvent}
    {out : Stepped (Recorded ServerApp)}
    (h : StepMove ServerApp.application.recorded r conn ev out conn')
    (hev : ∀ now, ev ≠ .close now) (hbuf : FinSent conn.name → conn.sendBuffer = [])
    (hsent : FinSent conn'.name) : conn'.sendBuffer = [] := by
  cases h with
  | segment hfeed hsend hrecv =>
    cases hsend with
    | idle hsame =>
      have heq : conn'.name = conn.name := congrArg TcpState.name hsame.tcpState
      rw [hsame.sendBuffer]
      exact hbuf (heq ▸ hsent)
    | resend hst hextra hinfo hst' =>
      rw [ConnState.name_eq_none.mpr hst'] at hsent
      exact absurd hsent (by decide)
    | ack hack hshift hsync hextra hcw hnxt hsb =>
      have hbefore := hshift.finSent_iff.mp hsent
      -- the application is handed nothing, so it says nothing
      have hsilent : conn.sendBuffer = [] := hbuf hbefore
      rw [hsb, hsilent, List.nil_append]
      by_contra hne
      exact hbefore (.inl (hextra hne))
    | data hack hsend hsilent hcase =>
      rcases hcase with h' | h' <;> rw [h'] at hsent <;> exact absurd hsent (by decide)
    | fin hack hsend hsilent hlast hwin hempty => exact hempty
  | retransmit => exact hbuf hsent
  | close => exact absurd rfl (hev _)
  | closeIdle => exact hbuf hsent

/-- In a state that our FIN has been sent in, the whole stream has been answered. -/
theorem Answered.of_conn {s : Session ServerApp} {iss : SeqPoint .Out} {conn : ConnState}
    {seen : Prop} (hconn : s.conn = some conn) (hdel : Delivering conn.name)
    (hflushed : FinSent conn.name → conn.sendBuffer = [])
    (hsend : SessionSendInv iss s)
    (hrecv : ReceiveInv S base s.app.received seen conn) : Answered S s where
  delivering c hc := by
    obtain rfl := Option.some.inj (hconn.symm.trans hc)
    exact hdel
  flushed c hc := by
    obtain rfl := Option.some.inj (hconn.symm.trans hc)
    exact hflushed
  fin info hinfo hflags := by
    have hinv := hsend.conn conn hconn
    have hsent : FinSent conn.name := hinv.fin info (List.mem_append_left _ hinfo) hflags
    -- the peer's FIN has been taken before ours goes out
    have hpassive : PassiveClosed conn.name := by
      rcases hdel with hr | hp
      · exact absurd (.inl hr) hsent
      · exact hp
    have hpast : S.length < base.dist conn.rcvNxt := hrecv.closed hpassive
    constructor
    · rw [hrecv.delivered, List.take_of_length_le (by omega)]
    · rw [hinv.split, hflushed hsent, List.append_nil]

/-- **Our FIN goes out behind the whole answer**, in every session that the peer feeds and no
    closing sweep comes to. -/
theorem answered_of_run (hS : S.length < 2 ^ 31) {iss : SeqPoint .Out} {irs : SeqPoint .In}
    {t₀ : Instant} {es : List (SessionEvent ServerApp)} {s : Session ServerApp}
    (hrun : Runs.Run (Session.step ServerApp.application rto maxRetries)
      (Talks S (irs + SYN_BYTE)) (Session.opened app iss irs t₀) es s)
    (hes : ∀ e ∈ es, Unclosed e) : Answered S s := by
  induction hrun with
  | nil =>
    have hopened : ∀ info ∈ (Session.opened app iss irs t₀).sent
        ++ (Session.opened app iss irs t₀).resent, info.flags ≠ .FinAck := by
      intro info hinfo
      rw [List.mem_singleton.mp hinfo]
      nofun
    refine ⟨?_, ?_, fun info hinfo hflags => absurd hflags (hopened info hinfo)⟩
    · rintro conn ⟨⟩
      exact .inl (.inl rfl)
    · rintro conn ⟨⟩ -
      rfl
  | @snoc es s e hprev hok ih =>
    have ih := ih fun e' he' => hes e' (List.mem_append_left _ he')
    have hev : Unclosed e := hes e (List.mem_append_right _ (List.mem_singleton.mpr rfl))
    have hpeer : Runs.Run (Session.step ServerApp.application rto maxRetries)
        (FromPeer S (irs + SYN_BYTE)) (Session.opened app iss irs t₀) (es ++ [e])
        (s.step ServerApp.application rto maxRetries e) :=
      (hprev.snoc hok).imp fun _ _ h => h.1
    have hsend : SessionSendInv (iss + SYN_BYTE)
        (s.step ServerApp.application rto maxRetries e) :=
      hpeer.state_invariant (sessionSendInv_opened app iss irs t₀) fun _ e hs _ => hs.step e
    cases hconn' : (s.step ServerApp.application rto maxRetries e).conn with
    | none =>
      rcases Session.step_gone hconn' with ⟨hnone, other, hstep⟩ | ⟨conn, reply, -, hq, hstep⟩
      · rw [hstep]
        exact ⟨ih.delivering, ih.flushed, ih.fin⟩
      · -- the last reply is neither data nor a FIN
        have hdata : dataSent (s.sent ++ reply.toList) = dataSent s.sent := by
          rw [dataSent_append, dataSent_bare fun info hi => (hq.bare info hi).1, List.append_nil]
        rw [hstep]
        refine ⟨nofun, nofun, fun info hinfo hflags => ?_⟩
        rw [List.append_nil] at hinfo
        show _ ∧ s.app.appended = dataSent (s.sent ++ reply.toList)
        rw [hdata]
        rcases List.mem_append.mp hinfo with hi | hi
        · rcases List.mem_append.mp hi with hi | hi
          · exact ih.fin info (List.mem_append_left _ hi) hflags
          · exact absurd hflags (hq.bare info hi).2
        · exact ih.fin info (List.mem_append_right _ hi) hflags
    | some conn' =>
      have hkept : Delivering conn'.name ∧ (FinSent conn'.name → conn'.sendBuffer = []) := by
        rcases Session.step_cases hconn' with ⟨other, rfl, hs⟩ | ⟨ev, conn, out, rfl, hs, hmove, -⟩
        · exact ⟨ih.delivering conn' hs, ih.flushed conn' hs⟩
        · have hne : ∀ now, ev ≠ .close now := fun now heq => hev now (congrArg _ heq)
          exact ⟨hmove.delivering hne (ih.delivering conn hs),
            hmove.flushed hne (ih.flushed conn hs)⟩
      exact .of_conn hconn' hkept.1 hkept.2 hsend (receiveInv_of_run hS hpeer conn' hconn' hkept.1)

/-! ### What has been sent can be read -/

section

variable {σ : Type} {A : Application σ} {iss : SeqPoint .Out} {irs : SeqPoint .In} {t₀ : Instant}
  {ok : Session σ → SessionEvent σ → Prop} {es : List (SessionEvent σ)} {s : Session σ}

/-- Every byte of the data sent is carried by a segment, at the position of the byte. -/
def Covered (base : SeqPoint .Out) (sent : List SendInfo) : Prop :=
  ∀ (k : Nat) (b : UInt8), (dataSent sent)[k]? = some b → ∃ info ∈ sent,
    ∃ (p : TcpPayload) (i : Nat), info.payload = some p ∧ p.data[i]? = some b ∧
      info.seqNum + i = base + k

/-- Segments without data change nothing. -/
theorem Covered.bare {base : SeqPoint .Out} {sent out : List SendInfo} (h : Covered base sent)
    (hout : ∀ info ∈ out, info.payload = none) : Covered base (sent ++ out) := by
  intro k b hb
  rw [dataSent_append, dataSent_bare hout, List.append_nil] at hb
  obtain ⟨info, hinfo, hcarries⟩ := h k b hb
  exact ⟨info, List.mem_append_left _ hinfo, hcarries⟩

/-- A segment that carries on where the data sent ends. -/
theorem Covered.next {base : SeqPoint .Out} {sent : List SendInfo} {info : SendInfo}
    (h : Covered base sent) (hseq : info.seqNum = base + (dataSent sent).length) :
    Covered base (sent ++ [info]) := by
  intro k b hb
  rw [dataSent_append, dataSent_singleton] at hb
  by_cases hk : k < (dataSent sent).length
  · rw [List.getElem?_append_left hk] at hb
    obtain ⟨old, hold, hcarries⟩ := h k b hb
    exact ⟨old, List.mem_append_left _ hold, hcarries⟩
  · rw [List.getElem?_append_right (Nat.not_lt.mp hk)] at hb
    cases hp : info.payload with
    | none =>
      rw [hp] at hb
      cases hb
    | some p =>
      rw [hp] at hb
      refine ⟨info, List.mem_append_right _ (List.mem_singleton.mpr rfl), p, _, hp, hb, ?_⟩
      rw [hseq, SeqPoint.add_assoc, Nat.add_sub_cancel' (Nat.not_lt.mp hk)]

/-- What a move sends for the first time carries no data, or starts at SND.NXT. -/
theorem StepMove.sent_at {app : σ} {conn conn' : ConnState} {ev : ConnEvent} {out : Stepped σ}
    (h : StepMove A app conn ev out conn') : (∀ info ∈ out.sent, info.payload = none) ∨
      ∃ info, out.sent = [info] ∧ info.seqNum = conn.sndNxt ∧ Sending conn.name := by
  cases h with
  | segment hfeed hsend hrecv =>
    cases hsend with
    | idle hsame hextra hq => exact .inl fun info hinfo => (hq.bare info hinfo).1
    | resend hst hextra hinfo =>
      refine .inl fun info hmem => ?_
      rw [List.mem_singleton.mp hmem, hinfo]
    | ack hack hshift hsync hextra hcw hnxt hbuf hq =>
      exact .inl fun info hinfo => (hq.bare info hinfo).1
    | data hack hsend hsilent hname hleft hwin htrans hinfo =>
      exact .inr ⟨_, rfl, by rw [hinfo], hsend⟩
    | fin hack hsend hsilent hname hwin hempty htrans hinfo =>
      exact .inr ⟨_, rfl, by rw [hinfo], hsend⟩
  | retransmit | closeIdle => exact .inl nofun
  | close hst hinfo =>
    refine .inl fun info hmem => ?_
    rw [List.mem_singleton.mp hmem, hinfo]

/-- **The data sent can be read off what has been sent**, in every session. -/
theorem covered_of_run {app : σ} (hrun : Runs.Run (Session.step A rto maxRetries) ok
    (Session.opened app iss irs t₀) es s) : Covered (iss + SYN_BYTE) s.sent := by
  refine (hrun.state_invariant
    (I := fun s => SessionSendInv (iss + SYN_BYTE) s ∧ Covered (iss + SYN_BYTE) s.sent)
    ⟨sessionSendInv_opened app iss irs t₀, nofun⟩ fun s e hs _ => ⟨hs.1.step e, ?_⟩).2
  obtain ⟨hsend, hcovered⟩ := hs
  cases hconn' : (s.step A rto maxRetries e).conn with
  | none =>
    rcases Session.step_gone hconn' with ⟨-, other, hstep⟩ | ⟨conn, reply, -, hq, hstep⟩
    · rw [hstep]
      exact hcovered
    · rw [hstep]
      exact hcovered.bare fun info hinfo => (hq.bare info hinfo).1
  | some conn' =>
    rcases Session.step_cases hconn' with ⟨other, rfl, -⟩ | ⟨ev, conn, out, rfl, hs, hmove, hstep⟩
    · exact hcovered
    · rw [hstep]
      rcases hmove.sent_at with hbare | ⟨info, hout, hseq, hsending⟩
      · exact hcovered.bare hbare
      · have hnxt := (hsend.conn conn hs).sndNxt
        rw [if_neg fun hfin => hfin hsending] at hnxt
        simp only [hout]
        exact hcovered.next (hseq.trans hnxt)

/-- A move to a state after our FIN sends the FIN. -/
theorem StepMove.fin_sent {app : σ} {conn conn' : ConnState} {ev : ConnEvent} {out : Stepped σ}
    (h : StepMove A app conn ev out conn') (hbefore : ¬ FinSent conn.name)
    (hafter : FinSent conn'.name) : ∃ info ∈ out.sent, info.flags = .FinAck := by
  cases h with
  | segment hfeed hsend hrecv =>
    cases hsend with
    | idle hsame =>
      have heq : conn'.name = conn.name := congrArg TcpState.name hsame.tcpState
      exact absurd (heq ▸ hafter) hbefore
    | resend hst hextra hinfo hst' =>
      rw [ConnState.name_eq_none.mpr hst'] at hafter
      exact absurd hafter (by decide)
    | ack hack hshift => exact absurd (hshift.finSent_iff.mp hafter) hbefore
    | data hack hsend hsilent hname =>
      rcases hname with h' | h' <;> rw [h'] at hafter <;> exact absurd hafter (by decide)
    | fin hack hsend hsilent hname hwin hempty htrans hinfo =>
      exact ⟨_, List.mem_singleton.mpr rfl, by rw [hinfo]⟩
  | retransmit => exact absurd hafter hbefore
  | close hst hinfo => exact ⟨_, List.mem_singleton.mpr rfl, by rw [hinfo]⟩
  | closeIdle => exact absurd hafter hbefore

/-- In the states after our FIN it has been sent, in every session. -/
theorem fin_of_run {app : σ} (hrun : Runs.Run (Session.step A rto maxRetries) ok
    (Session.opened app iss irs t₀) es s) :
    ∀ conn, s.conn = some conn → FinSent conn.name → ∃ info ∈ s.sent, info.flags = .FinAck := by
  refine hrun.state_invariant (I := fun s => ∀ conn, s.conn = some conn → FinSent conn.name →
    ∃ info ∈ s.sent, info.flags = .FinAck) ?_ ?_
  · rintro conn ⟨⟩ hfin
    exact absurd hfin (by decide : ¬ FinSent none)
  · intro s e ih _ conn' hconn' hfin
    rcases Session.step_cases hconn' with ⟨other, rfl, hs⟩ | ⟨ev, conn, out, rfl, hs, hmove, hstep⟩
    · exact ih conn' hs hfin
    · rw [hstep]
      by_cases hbefore : FinSent conn.name
      · obtain ⟨info, hinfo, hflags⟩ := ih conn hs hbefore
        exact ⟨info, List.mem_append_left _ hinfo, hflags⟩
      · obtain ⟨info, hinfo, hflags⟩ := hmove.fin_sent hbefore hfin
        exact ⟨info, List.mem_append_right _ hinfo, hflags⟩

end

end Typenet
