import Typenet.Connection.Arrivals
import Typenet.Table.AckCompleteness
import Typenet.Table.CloseState

namespace Typenet

/-!
# A FIN that arrived ahead of its turn

The position of a FIN that arrives out of order is recorded, and the FIN is consumed when
RCV.NXT gets there.  In ESTABLISHED every delivery checks for it.  FIN-WAIT-1 and FIN-WAIT-2
acknowledge in-order data without the check, so a FIN recorded before our own is passed by
(`ForgetsFin`); and where an in-order FIN fails to be answered, RCV.NXT has already moved.
-/

open SendInfo

variable {σ : Type} {A : Application σ} {rto : RtoConfig} {maxRetries : UInt8} {app : σ}
  {conn conn' : ConnState} {ev : ConnEvent} {seg : TcpSegment .In} {now : Instant}

/-- A recorded FIN lies strictly ahead of RCV.NXT, by less than half the circle. -/
def FinAhead (rcvNxt : SeqPoint .In) (finSeq : Option (SeqPoint .In)) : Prop :=
  ∀ fin, finSeq = some fin → 0 < rcvNxt.dist fin ∧ rcvNxt.dist fin < 2 ^ 31

/-- **The code's test**: a FIN that has not been reached is strictly ahead. -/
theorem finReached_eq_false {r : TcpReassembly} {rcvNxt : SeqPoint .In} :
    r.finReached rcvNxt = false ↔ FinAhead rcvNxt r.finSeq := by
  unfold TcpReassembly.finReached FinAhead
  cases r.finSeq with
  | none => exact ⟨fun _ => nofun, fun _ => rfl⟩
  | some fin =>
    have hlt := SeqPoint.dist_lt rcvNxt fin
    have hd := SeqPoint.dist_eq rcvNxt fin rcvNxt
    rw [SeqPoint.dist_self] at hd
    simp only
    rw [← Bool.not_eq_true, SeqPoint.precedesOrEq_iff]
    constructor
    · rintro hno _ ⟨⟩
      omega
    · intro h
      have := h fin rfl
      omega

/-- A segment that takes RCV.NXT to or past the recorded FIN without consuming it. -/
structure PassesFin (seg : TcpSegment .In) (conn : ConnState) : Prop where
  name : conn.name = some .FinWait1 ∨ conn.name = some .FinWait2
  flags : seg.flags = .Ack
  seqNum : seg.seqNum = conn.rcvNxt
  reached : ∃ p, seg.payload = some p ∧ conn.reassembly.finReached (conn.rcvNxt + p.len) = true

/-- A FIN in order that cannot be answered, at or past the recorded one. -/
structure TearsFin (seg : TcpSegment .In) (conn : ConnState) : Prop where
  tears : TearsEstablished seg conn
  reached : conn.reassembly.finReached
    (conn.rcvNxt + TcpPayload.lenOrDefault seg.payload + FIN_BYTE) = true

/-- No segment of the event passes the recorded FIN. -/
def HonoursFin (conn : ConnState) (ev : ConnEvent) : Prop :=
  ∀ seg now, ev = .segment seg now → ¬ PassesFin seg conn ∧ ¬ TearsFin seg conn

/-! ### One step -/

/-- A segment that FIN-WAIT-2 survives leaves what its handler left. -/
theorem ConnState.step_finWait2 (hname : conn.name = some .FinWait2)
    (hs : (conn.step A rto maxRetries app (.segment seg now)).conn = some conn') :
    ∃ s, conn.tcpState = .FinWait2 s ∧ (handleFinWait2 seg conn s).1.2 = false ∧
      conn' = (handleFinWait2 seg conn s).2 := by
  obtain ⟨hkept, hconn'⟩ := ConnState.step_survives hs
  unfold ConnState.name at hname
  unfold handleKnownConn at hkept hconn'
  cases hst : conn.tcpState with
  | FinWait2 s =>
    rw [hst] at hkept hconn'
    exact ⟨s, rfl, hkept, hconn'.symm⟩
  | _ => rw [hst] at hname; cases hname

/-- How a step moves RCV.NXT while the peer's FIN is awaited: not at all, or past the payload of
    in-order data. -/
def AdvancesByData (seg : TcpSegment .In) (conn conn' : ConnState) : Prop :=
  conn'.rcvNxt = conn.rcvNxt ∨ (seg.flags = .Ack ∧ seg.seqNum = conn.rcvNxt ∧
    ∃ p, seg.payload = some p ∧ conn'.rcvNxt = conn.rcvNxt + p.len)

/-- FIN-WAIT-1 moves RCV.NXT by the data of the segment, unless it takes a FIN. -/
theorem SendInfo.handleFinWait1_rcvNxt (seg : TcpSegment .In) (conn : ConnState)
    (s : SyncedState .FinWait1) :
    (handleFinWait1 seg conn s).1.2 = false →
    (handleFinWait1 seg conn s).2.name ≠ some .Closing →
    AdvancesByData seg conn (handleFinWait1 seg conn s).2 := by
  unfold handleFinWait1
  simp only [SyncedState.incomingAckUpdate_eq]
  split
  case h_1 p hflags hpay hcheck =>
    exact fun _ _ => .inr ⟨hflags, SeqCheck.seqNum_eq hcheck, p, hpay, rfl⟩
  case h_6 => exact nofun
  case h_7 => exact fun _ hn => absurd rfl hn
  all_goals exact fun _ _ => .inl rfl

/-- So does FIN-WAIT-2. -/
theorem SendInfo.handleFinWait2_rcvNxt (seg : TcpSegment .In) (conn : ConnState)
    (s : SyncedState .FinWait2) :
    (handleFinWait2 seg conn s).1.2 = false →
    AdvancesByData seg conn (handleFinWait2 seg conn s).2 := by
  unfold handleFinWait2
  simp only [SyncedState.incomingAckUpdate_eq]
  split
  case h_1 p hflags hpay hcheck =>
    exact fun _ => .inr ⟨hflags, SeqCheck.seqNum_eq hcheck, p, hpay, rfl⟩
  case h_4 => exact nofun
  all_goals exact fun _ => .inl rfl

/-- **After our FIN**, RCV.NXT moves past data only as long as the peer's FIN is awaited. -/
theorem halfClosed_advances (hname : conn.name = some .FinWait1 ∨ conn.name = some .FinWait2)
    (hs : (conn.step A rto maxRetries app (.segment seg now)).conn = some conn')
    (hname' : conn'.name ≠ some .Closing) : AdvancesByData seg conn conn' := by
  rcases hname with hname | hname
  · obtain ⟨s, -, hkept, rfl⟩ := ConnState.step_finWait1 hname hs
    exact handleFinWait1_rcvNxt seg conn s hkept hname'
  · obtain ⟨s, -, hkept, rfl⟩ := ConnState.step_finWait2 hname hs
    exact handleFinWait2_rcvNxt seg conn s hkept

/-- A FIN recorded from a segment in the window is strictly ahead. -/
theorem InReceiveWindow.fin_ahead (h : InReceiveWindow seg conn) (hne : seg.seqNum ≠ conn.rcvNxt) :
    0 < conn.rcvNxt.dist (seg.seqNum + TcpPayload.lenOrDefault seg.payload) ∧
      conn.rcvNxt.dist (seg.seqNum + TcpPayload.lenOrDefault seg.payload) < 2 ^ 31 := by
  have hpos : conn.rcvNxt.dist seg.seqNum ≠ 0 := fun h0 => hne (SeqPoint.dist_eq_zero.mp h0)
  have hlen := TcpPayload.lenOrDefault_lt seg.payload
  have hwnd : RCV_WND.toNat = 65535 := rfl
  unfold InReceiveWindow at h
  rw [SeqPoint.dist_add]
  omega

/-- The recorded FIN is ahead of RCV.NXT until the peer's FIN has been consumed. -/
def FinHonoured (conn : ConnState) : Prop :=
  ¬ FinReceived conn.name → FinAhead conn.rcvNxt conn.reassembly.finSeq

/-- A passive close comes of a FIN. -/
theorem passiveClosed_finReceived {n : Option Synced} (h : PassiveClosed n) : FinReceived n := by
  rcases h with rfl | rfl <;> decide

/-- A FIN that is recorded by a segment ahead of RCV.NXT is ahead of it. -/
theorem FinAhead.buffer (h : FinAhead conn.rcvNxt conn.reassembly.finSeq)
    (hcheck : SeqCheck.check seg conn = .OutOfOrder) :
    FinAhead conn.rcvNxt (if seg.flags = .FinAck then
      some (conn.reassembly.finSeq.getD (seg.seqNum + TcpPayload.lenOrDefault seg.payload))
      else conn.reassembly.finSeq) := by
  intro fin hf
  split at hf
  case isTrue =>
    -- the first recorded position is kept
    cases hrec : conn.reassembly.finSeq with
    | some old =>
      rw [hrec, Option.getD_some] at hf
      exact h fin (hrec.trans hf)
    | none =>
      rw [hrec, Option.getD_none] at hf
      rw [← Option.some.inj hf]
      apply InReceiveWindow.fin_ahead
      · by_contra hout
        rw [SeqCheck.check_eq_unacceptable.mpr hout] at hcheck
        cases hcheck
      · intro hseq
        rw [SeqCheck.check, if_pos hseq] at hcheck
        cases hcheck
  case isFalse => exact h fin hf

/-- **A segment keeps the recorded FIN ahead.** -/
theorem FinHonoured.segment (h : FinHonoured conn) (hinv : HalfInv conn)
    (hg : HonoursFin conn (.segment seg now))
    (hs : (conn.step A rto maxRetries app (.segment seg now)).conn = some conn') :
    FinHonoured conn' := by
  intro hnot
  have hlegal := (ConnState.step_move hs).legal
  have hold : FinAhead conn.rcvNxt conn.reassembly.finSeq :=
    h fun hr => hnot (hlegal.finReceived hr)
  -- needed in FIN-WAIT-1 and FIN-WAIT-2, where nothing is reassembled
  have hadv := fun hn => halfClosed_advances hn hs
  obtain ⟨-, slices, hrecv⟩ := ConnState.step_recvMove hs
  have htears : failed (handleKnownConn A app seg conn now).result = true → _ :=
    tears_of_failed hinv
  generalize failed (handleKnownConn A app seg conn now).result = f at hrecv htears
  cases hrecv with
  | idle hrcv hre => rw [hrcv, hre]; exact hold
  | buffer hcheck hr hflags hname hrcv hsegs hfin =>
    rw [hrcv, hfin]
    exact hold.buffer hcheck
  | @data payloads reassembly rcvNxt failed hseq hr hflags hpay hdrain hre hno hyes =>
    cases hreached : reassembly.finReached rcvNxt with
    | false =>
      rw [hre, (hno hreached).1]
      exact finReached_eq_false.mp hreached
    | true =>
      -- the FIN is consumed, and plain data in a receiving state never fails
      cases f with
      | false => exact absurd (passiveClosed_finReceived ((hyes hreached).2.1 rfl)) hnot
      | true =>
        exfalso
        rcases htears rfl with ht | ⟨hcw, -⟩
        · rw [ht.flags] at hflags; cases hflags
        · exact hr.ne_closeWait hcw.name
  | fin hseq hr hflags hrcv hre hok hfail =>
    cases f with
    | false => exact absurd (passiveClosed_finReceived (hok rfl)) hnot
    -- a FIN in order that fails has advanced RCV.NXT, which the condition on the step excludes
    | true =>
      rcases htears rfl with ht | ⟨hcw, -⟩
      · rw [hrcv, hre]
        apply finReached_eq_false.mp
        by_contra hreached
        exact (hg seg now rfl).2 ⟨ht, by simpa using hreached⟩
      · exact absurd hcw.name hr.ne_closeWait
  | halfClosed hseq hns hp hr hrcv hre =>
    -- in CLOSING and LAST-ACK the peer's FIN has been received
    have hname : conn.name = some .FinWait1 ∨ conn.name = some .FinWait2 := by
      rcases (finSent_iff _).mp hns with hn | hn | hn | hn
      · exact .inl hn
      · exact .inr hn
      · exact absurd (hlegal.finReceived (.inr (.inr hn))) hnot
      · exact absurd (hlegal.finReceived (.inr (.inl hn))) hnot
    rw [hre]
    rcases hadv hname (fun hn => hnot (.inr (.inr hn))) with heq | ⟨hflags, hseq, p, hpay, heq⟩
    · rw [heq]; exact hold
    · rw [heq]
      apply finReached_eq_false.mp
      by_contra hreached
      exact (hg seg now rfl).1 ⟨hname, hflags, hseq, p, hpay, by simpa using hreached⟩

/-- **Every step keeps the recorded FIN ahead.** -/
theorem FinHonoured.step (h : FinHonoured conn) (hinv : HalfInv conn) (hg : HonoursFin conn ev)
    (hs : (conn.step A rto maxRetries app ev).conn = some conn') : FinHonoured conn' := by
  cases ev with
  | segment seg now => exact h.segment hinv hg hs
  | retransmit now late =>
    have hmove := ConnState.step_move hs
    generalize conn.step A rto maxRetries app _ = out at hmove
    cases hmove with
    | retransmit => exact h
  | close now =>
    have hmove := ConnState.step_move hs
    generalize conn.step A rto maxRetries app _ = out at hmove
    cases hmove with
    | close hst =>
      refine fun _ => h ?_
      unfold ConnState.name
      rw [hst]
      rintro (hn | hn | hn) <;> cases hn
    | closeIdle => exact h

/-! ### The step that reaches the FIN -/

/-- A recorded position is kept. -/
theorem RecvMove.finSeq_kept {slices : List (List UInt8)} {failed : Bool} {fin : SeqPoint .In}
    (h : RecvMove seg conn conn' slices failed) (hfin : conn.reassembly.finSeq = some fin) :
    conn'.reassembly.finSeq = some fin := by
  cases h with
  | idle hrcv hre => rw [hre]; exact hfin
  | buffer hcheck hr hflags hname hrcv hsegs hrec =>
    rw [hrec, hfin, Option.getD_some]
    exact ite_self _
  | data hseq hr hflags hpay hdrain hre =>
    rw [hre, TcpReassembly.drainContiguous_finSeq hdrain]
    exact hfin
  | fin hseq hr hflags hrcv hre => rw [hre]; exact hfin
  | halfClosed hseq hns hp hr hrcv hre => rw [hre]; exact hfin

/-- A handler that fails with RCV.NXT advanced leaves the connection in ESTABLISHED. -/
theorem RecvMove.failed_name {slices : List (List UInt8)}
    (h : RecvMove seg conn conn' slices true) (hne : conn'.rcvNxt ≠ conn.rcvNxt) :
    conn'.name = some .Established := by
  cases h with
  | idle hrcv => exact absurd hrcv hne
  | @data payloads reassembly rcvNxt failed hseq hr hflags hpay hdrain hre hno hyes =>
    cases hreached : reassembly.finReached rcvNxt with
    | false => exact (hno hreached).2
    | true => exact (hyes hreached).2.2 rfl
  | fin hseq hr hflags hrcv hre hok hfail => exact hfail rfl

/-- **The FIN is consumed and acknowledged** by the segment that brings RCV.NXT to it. -/
theorem FinHonoured.consumes {fin : SeqPoint .In} (h : FinHonoured conn) (hinv : HalfInv conn)
    (hsyn : SynRcvInv conn) (hname : ¬ FinReceived conn.name) (hsync : conn.name ≠ none)
    (hg : HonoursFin conn (.segment seg now))
    (hs : (conn.step A rto maxRetries app (.segment seg now)).conn = some conn')
    (hfin : conn.reassembly.finSeq = some fin)
    (hreached : conn.reassembly.finReached conn'.rcvNxt = true) :
    FinReceived conn'.name ∧ ∃ info ∈ (conn.step A rto maxRetries app (.segment seg now)).sent,
      Acknowledges info conn'.rcvNxt := by
  have hne : conn'.rcvNxt ≠ conn.rcvNxt := by
    intro heq
    rw [heq, finReached_eq_false.mpr (h hname)] at hreached
    cases hreached
  have hnext := h.segment hinv hg hs
  have hno : ¬ SilentHandshake A app seg conn := fun hsilent => hsync hsilent.name
  obtain ⟨hconn', slices, hrecv⟩ := ConnState.step_recvMove hs
  have hreceived : FinReceived conn'.name := by
    by_contra hnot
    have hahead := hnext hnot
    rw [hrecv.finSeq_kept hfin, ← hfin] at hahead
    rw [finReached_eq_false.mpr hahead] at hreached
    cases hreached
  refine ⟨hreceived, ?_⟩
  rcases handleKnownConn_acks hsyn hno now with hsame | hacks
  · exact absurd (by rw [← hconn', hsame]) hne
  · cases hres : (handleKnownConn A app seg conn now).result with
    | error e =>
      rw [hres] at hrecv
      rw [hrecv.failed_name hne] at hreceived
      exact absurd hreceived (by decide)
    | ok v =>
      obtain ⟨r, removed⟩ := v
      obtain ⟨info, rfl, hinfo⟩ := hacks r removed hres
      refine ⟨info, ?_, by rw [← hconn']; exact hinfo⟩
      simp [ConnState.step, hres, replyOf]

/-! ### Every run -/

/-- A connection that is opened has recorded no FIN. -/
theorem finHonoured_opened (iss : SeqPoint .Out) (irs : SeqPoint .In) (t₀ : Instant) :
    FinHonoured (ConnState.opened iss irs t₀) := fun _ => nofun

/-- **A buffered FIN is never forgotten**, in every run in which no segment passes it in
    FIN-WAIT-1 or FIN-WAIT-2 and no FIN in order fails at or past it: until the peer's FIN has
    been consumed the recorded position is strictly ahead of RCV.NXT, and the segment that
    brings RCV.NXT there has the FIN consumed and acknowledged. -/
theorem buffered_fin_ahead (A : Application σ) (app : σ) (initialRto : Duration)
    (maxRetries : UInt8) (es : List (HostEvent σ)) (h : Host σ)
    (hrun : Runs.Run (Host.step A) (Host.Guard HonoursFin)
      (Host.new app initialRto maxRetries) es h)
    (key : ConnKey) (conn : ConnState) (hconn : h.get key = some conn)
    (hname : conn.name = some .Established ∨ conn.name = some .FinWait1
      ∨ conn.name = some .FinWait2) :
    FinAhead conn.rcvNxt conn.reassembly.finSeq ∧
      ∀ seg now conn' fin, HonoursFin conn (.segment seg now) →
        (conn.step A h.connections.rtoConfig h.connections.maxRetries h.app
          (.segment seg now)).conn = some conn' →
        conn.reassembly.finSeq = some fin → conn.reassembly.finReached conn'.rcvNxt = true →
        FinReceived conn'.name ∧
          ∃ info ∈ (conn.step A h.connections.rtoConfig h.connections.maxRetries h.app
            (.segment seg now)).sent, Acknowledges info conn'.rcvNxt := by
  obtain ⟨hinv, hsyn, hfin⟩ : HalfInv conn ∧ SynRcvInv conn ∧ FinHonoured conn :=
    Host.conn_invariant (P := fun conn => HalfInv conn ∧ SynRcvInv conn ∧ FinHonoured conn)
      (fun iss irs t₀ => ⟨halfInv_opened iss irs t₀, synRcvInv_opened iss irs t₀,
        finHonoured_opened iss irs t₀⟩)
      (fun _ _ _ _ _ _ hp hg hs => ⟨hp.1.step hs, hp.2.1.step hs, hp.2.2.step hp.1 hg hs⟩)
      hrun hconn
  have hnot : ¬ FinReceived conn.name := by
    rcases hname with hn | hn | hn <;> rw [hn] <;> decide
  have hsync : conn.name ≠ none := by
    rcases hname with hn | hn | hn <;> rw [hn] <;> nofun
  exact ⟨hfin hnot, fun seg now conn' fin hg hs hf hreached =>
    hfin.consumes hinv hsyn hnot hsync hg hs hf hreached⟩

/-- The FIN arrives before the two bytes that precede it. -/
def earlyFinEvents : List (HostEvent ServerApp) :=
  establishedEvents ++ [.segment CLIENT_EARLY_FIN (.ok 0) ⟨2⟩]

/-- In ESTABLISHED the early FIN is recorded two bytes ahead. -/
theorem buffered_fin_ahead_early :
    ∃ conn, (earlyFinEvents.foldl (Host.step ServerApp.application)
        (Host.new .Echo 1000000000 3)).get KEY = some conn ∧
      conn.reassembly.finSeq = some (CLIENT_ISN + 3) ∧
      FinAhead conn.rcvNxt conn.reassembly.finSeq := by
  have h : ((earlyFinEvents.foldl (Host.step ServerApp.application)
      (Host.new .Echo 1000000000 3)).get KEY).map
        (fun conn => (conn.name, conn.reassembly.finSeq))
        = some (some .Established, some (CLIENT_ISN + 3)) := by decide
  obtain ⟨conn, hconn, heq⟩ := Option.map_eq_some_iff.mp h
  obtain ⟨hname, hfin⟩ := Prod.mk.inj heq
  have hguard : ∀ n, ∀ seg t u, (∀ e ∈ ((earlyFinEvents.take n).foldl
      (Host.step ServerApp.application) (Host.new .Echo 1000000000 3)).connections.table.entries,
        e.2.reassembly.finSeq = none) →
      Host.Guard HonoursFin ((earlyFinEvents.take n).foldl (Host.step ServerApp.application)
        (Host.new .Echo 1000000000 3)) (.segment seg u t) := by
    intro n seg t u hall
    apply Host.guard_segment
    intro e he seg' now _
    have hno : ∀ r : SeqPoint .In, e.2.reassembly.finReached r = false := fun r => by
      rw [TcpReassembly.finReached, hall e he]
    constructor
    · intro hp
      obtain ⟨p, -, hr⟩ := hp.reached
      rw [hno] at hr
      cases hr
    · intro ht
      exact absurd ((hno _).symm.trans ht.reached) nofun
  have hrun := buffered_fin_ahead ServerApp.application .Echo 1000000000 3 earlyFinEvents _
    (.of_admits ⟨hguard 0 _ _ _ (by decide), hguard 1 _ _ _ (by decide),
      hguard 2 _ _ _ (by decide), trivial⟩) KEY conn hconn (.inl hname)
  exact ⟨conn, hconn, hfin, hrun.1⟩

/-- **FIN-WAIT-1 passes a buffered FIN by**: once the connection is closed from our side too,
    the two missing bytes bring RCV.NXT to the recorded FIN, which is not consumed. -/
theorem finWait1_forgets_fin :
    ∃ es h conn, Runs.Run (Host.step ServerApp.application) (fun _ _ => True)
        (Host.new .Echo 1000000000 3) es h ∧
      h.get KEY = some conn ∧ conn.name = some .FinWait1 ∧
      conn.reassembly.finSeq = some conn.rcvNxt ∧
      ¬ FinAhead conn.rcvNxt conn.reassembly.finSeq := by
  let es := earlyFinEvents ++ [HostEvent.close (fun _ => .ok ()) ⟨3⟩,
    .segment CLIENT_HI (.ok 0) ⟨4⟩]
  have h : ((es.foldl (Host.step ServerApp.application) (Host.new .Echo 1000000000 3)).get
      KEY).map (fun conn => (conn.name, decide (conn.reassembly.finSeq = some conn.rcvNxt)))
        = some (some .FinWait1, true) := by decide
  obtain ⟨conn, hconn, heq⟩ := Option.map_eq_some_iff.mp h
  obtain ⟨hname, hfin⟩ := Prod.mk.inj heq
  have hfin := of_decide_eq_true hfin
  refine ⟨es, _, conn, .of_foldl _ _, hconn, hname, hfin, fun hahead => ?_⟩
  have hpos := (hahead conn.rcvNxt hfin).1
  rw [SeqPoint.dist_self] at hpos
  omega

end Typenet
