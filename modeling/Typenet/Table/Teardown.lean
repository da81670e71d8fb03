import Typenet.Table.FinOrder
import Typenet.Table.BufferedFin
import Typenet.Table.Decisions

namespace Typenet

/-!
# Who ends a connection

A connection leaves the table by a RST at RCV.NXT, by exhausted retransmissions, or at the end of
the closing sequence.  In the last case both sides have been heard: our FIN is acknowledged and
the peer's FIN is accepted, by the removing segment or by one before it.

The past of a connection is kept in a history variable (`Traced`): the events it has met since it
was opened, each with the connection as it was then.  The peer's FIN need not be accepted where
RCV.NXT stands exactly: a FIN recorded ahead of its turn counts as reached once RCV.NXT is at or
past it, and data that overlaps it takes RCV.NXT past it.
-/

open SendInfo

variable {σ : Type} {A : Application σ} {rto : RtoConfig} {maxRetries : UInt8} {app : σ}
  {conn conn' : ConnState} {ev : ConnEvent} {seg : TcpSegment .In} {now : Instant}

/-! ### The removing step -/

/-- How a segment can remove a connection. -/
inductive Teardown (seg : TcpSegment .In) (conn : ConnState) : Prop
  /-- A RST at RCV.NXT. -/
  | reset : IsRst seg → seg.seqNum = conn.rcvNxt → Teardown seg conn
  /-- The peer's FIN in FIN-WAIT-1, acknowledging ours. -/
  | finWait1 : conn.name = some .FinWait1 → seg.flags = .FinAck → seg.seqNum = conn.rcvNxt →
      seg.ackNum = conn.sndNxt → Teardown seg conn
  /-- The peer's FIN in FIN-WAIT-2. -/
  | finWait2 : conn.name = some .FinWait2 → seg.flags = .FinAck → seg.seqNum = conn.rcvNxt →
      Teardown seg conn
  /-- The acknowledgment of our FIN in CLOSING and LAST-ACK. -/
  | final : conn.name = some .Closing ∨ conn.name = some .LastAck → seg.flags = .Ack →
      InReceiveWindow seg conn → seg.ackNum = conn.sndNxt → Teardown seg conn

/-- A segment that passes the check of SEG.SEQ is in the window. -/
theorem InReceiveWindow.of_check {c : SeqCheck} (h : SeqCheck.check seg conn = c)
    (hc : c ≠ .Unacceptable) : InReceiveWindow seg conn := by
  by_contra hout
  exact hc (h.symm.trans (SeqCheck.check_eq_unacceptable.mpr hout))

/-- **A segment removes a connection** only in these ways. -/
theorem handleKnownConn_removes
    (h : removes (handleKnownConn A app seg conn now).result = true) : Teardown seg conn := by
  have hname : conn.name = conn.tcpState.name := rfl
  rw [removes_handleKnownConn] at h
  unfold ConnState.removedBy at h
  simp only at h
  split at h
  case h_1 hflags => exact .reset (.inl hflags) (SeqCheck.seqNum_eq (beq_iff_eq.mp h))
  case h_2 hflags => exact .reset (.inr hflags) (SeqCheck.seqNum_eq (beq_iff_eq.mp h))
  case h_3 hst hflags =>
    rw [Bool.and_eq_true, beq_iff_eq, beq_iff_eq] at h
    exact .finWait1 (by rw [hname, hst]; rfl) hflags (SeqCheck.seqNum_eq h.1) h.2
  case h_4 hst hflags =>
    exact .finWait2 (by rw [hname, hst]; rfl) hflags (SeqCheck.seqNum_eq (beq_iff_eq.mp h))
  case h_5 hst hflags hpay =>
    rw [Bool.and_eq_true, bne_iff_ne, beq_iff_eq] at h
    exact .final (.inl (by rw [hname, hst]; rfl)) hflags (.of_check rfl h.1) h.2
  case h_6 hst hflags hpay =>
    rw [Bool.and_eq_true, bne_iff_ne, beq_iff_eq] at h
    exact .final (.inr (by rw [hname, hst]; rfl)) hflags (.of_check rfl h.1) h.2
  case h_7 => cases h

/-! ### The steps before it -/

/-- FIN-WAIT-1 becomes FIN-WAIT-2 by an acknowledgment of our FIN. -/
theorem SendInfo.handleFinWait1_finWait2 {s : SyncedState .FinWait1}
    (hst : conn.tcpState = .FinWait1 s)
    (h : (handleFinWait1 seg conn s).2.name = some .FinWait2) :
    InReceiveWindow seg conn ∧ seg.ackNum = conn.sndNxt := by
  have hstay : conn.name ≠ some .FinWait2 := by unfold ConnState.name; rw [hst]; nofun
  unfold handleFinWait1 at h
  simp only [SyncedState.incomingAckUpdate_eq] at h
  split at h
  case h_2 hflags hpay hcheck hacked | h_3 hflags hpay hcheck hacked =>
    exact ⟨.of_check hcheck (by decide), of_decide_eq_true hacked⟩
  case h_6 | h_8 => exact absurd h hstay
  all_goals cases h

/-- FIN-WAIT-1 becomes CLOSING by the peer's FIN. -/
theorem SendInfo.handleFinWait1_closing {s : SyncedState .FinWait1}
    (hst : conn.tcpState = .FinWait1 s)
    (h : (handleFinWait1 seg conn s).2.name = some .Closing) :
    seg.flags = .FinAck ∧ seg.seqNum = conn.rcvNxt ∧ (handleFinWait1 seg conn s).2.rcvNxt
      = conn.rcvNxt + TcpPayload.lenOrDefault seg.payload + FIN_BYTE := by
  have hstay : conn.name ≠ some .Closing := by unfold ConnState.name; rw [hst]; nofun
  unfold handleFinWait1 at h ⊢
  simp only [SyncedState.incomingAckUpdate_eq] at h ⊢
  split at h
  case h_7 hflags hcheck hacked =>
    exact ⟨hflags, SeqCheck.seqNum_eq hcheck, rfl⟩
  case h_6 | h_8 => exact absurd h hstay
  all_goals cases h

/-! ### The past of a connection -/

/-- An event that a connection has met, with the connection before and after it. -/
structure Meeting where
  before : ConnState
  event : ConnEvent
  after : Option ConnState

/-- A host with everything that the connection under one key has met since it was opened. -/
structure Traced (σ : Type) where
  host : Host σ
  met : List Meeting

namespace Traced

/-- A host with no connections. -/
def new (app : σ) (initialRto : Duration) (maxRetries : UInt8) : Traced σ :=
  ⟨Host.new app initialRto maxRetries, []⟩

/-- A step of the host; the past of the connection under `key` grows by its share of the event,
    and begins anew where there was no connection. -/
def step (A : Application σ) (key : ConnKey) (t : Traced σ) (e : HostEvent σ) : Traced σ where
  host := t.host.step A e
  met := match t.host.get key with
    | none => []
    | some conn => t.met ++ (e.at key).toList.map fun ev => ⟨conn, ev, (t.host.step A e).get key⟩

end Traced

/-- A segment in the window that acknowledges everything sent up to `nxt`, our FIN included. -/
def AcksOurFin (nxt : SeqPoint .Out) (m : Meeting) : Prop :=
  match m.event with
  | .segment seg _ => FinSent m.before.name ∧ InReceiveWindow seg m.before ∧
      seg.ackNum = m.before.sndNxt ∧ m.before.sndNxt = nxt
  | _ => False

/-- A segment in order that has the peer's FIN accepted.  The FIN is its own, or one recorded
    ahead of its turn, which stands in the relation `reached` to the RCV.NXT left behind. -/
def AcceptsFin (reached : SeqPoint .In → SeqPoint .In → Prop) (m : Meeting) : Prop :=
  match m.event with
  | .segment seg _ => seg.seqNum = m.before.rcvNxt ∧ ¬ FinReceived m.before.name ∧
      ((seg.flags = .FinAck ∧ ∀ c ∈ m.after, FinReceived c.name ∧
          c.rcvNxt = seg.seqNum + TcpPayload.lenOrDefault seg.payload + FIN_BYTE) ∨
        (seg.flags = .Ack ∧ ∃ fin ∈ m.before.reassembly.finSeq, ∃ c ∈ m.after,
          FinReceived c.name ∧ reached fin c.rcvNxt))
  | _ => False

/-- RCV.NXT is left right past a FIN at `fin`. -/
def ExactlyPast (fin rcvNxt : SeqPoint .In) : Prop := rcvNxt = fin + FIN_BYTE

/-- RCV.NXT is left past a FIN at `fin`, and possibly past more. -/
def AtLeastPast (fin rcvNxt : SeqPoint .In) : Prop :=
  (fin + FIN_BYTE).precedesOrEq rcvNxt = true

instance (fin rcvNxt : SeqPoint .In) : Decidable (ExactlyPast fin rcvNxt) :=
  inferInstanceAs (Decidable (_ = _))

instance (m : Meeting) : Decidable (AcceptsFin ExactlyPast m) :=
  match m with
  | ⟨_, .segment _ _, _⟩ => inferInstanceAs (Decidable (_ ∧ _ ∧ (_ ∨ _)))
  | ⟨_, .retransmit _ _, _⟩ => inferInstanceAs (Decidable False)
  | ⟨_, .close _, _⟩ => inferInstanceAs (Decidable False)

/-- A FIN reached at `r` has RCV.NXT left past it. -/
theorem atLeastPast_of_finReached {fin r : SeqPoint .In} (h : fin.precedesOrEq r = true) :
    AtLeastPast fin (r + FIN_BYTE) := by
  unfold AtLeastPast
  rw [SeqPoint.precedesOrEq_iff] at h ⊢
  have hFIN : FIN_BYTE = 1 := rfl
  have hd := SeqPoint.dist_eq fin (fin + FIN_BYTE) (r + FIN_BYTE)
  have hadd := SeqPoint.dist_add fin r FIN_BYTE
  rw [SeqPoint.dist_self_add] at hd
  omega

/-! ### What the past of a connection holds -/

/-- **The past explains the state**: where the peer's FIN has been received something had it
    accepted, and in FIN-WAIT-2 something has acknowledged our FIN. -/
structure PastInv (met : List Meeting) (conn : ConnState) : Prop where
  fin : FinReceived conn.name → ∃ m ∈ met, AcceptsFin AtLeastPast m
  acked : conn.name = some .FinWait2 → ∃ m ∈ met, AcksOurFin conn.sndNxt m

theorem PastInv.mono {met met' : List Meeting} (h : PastInv met conn)
    (hsub : ∀ m ∈ met, m ∈ met') : PastInv met' conn where
  fin hn := by
    obtain ⟨m, hm, hacc⟩ := h.fin hn
    exact ⟨m, hsub m hm, hacc⟩
  acked hn := by
    obtain ⟨m, hm, hack⟩ := h.acked hn
    exact ⟨m, hsub m hm, hack⟩

/-- The step that first has the peer's FIN received accepts it. -/
theorem acceptsFin_of_step
    (hs : (conn.step A rto maxRetries app ev).conn = some conn')
    (hold : ¬ FinReceived conn.name) (hnew : FinReceived conn'.name) :
    AcceptsFin AtLeastPast ⟨conn, ev, some conn'⟩ := by
  have hmove := ConnState.step_move hs
  have hlegal := hmove.legal
  obtain ⟨seg, now, rfl⟩ := hmove.entered_by_segment (fun heq => hold (heq ▸ hnew)) (by
    rintro heq
    rw [heq] at hnew
    exact absurd hnew (by decide))
  obtain ⟨-, slices, hrecv⟩ := ConnState.step_recvMove hs
  generalize failed (handleKnownConn A app seg conn now).result = f at hrecv
  -- CLOSING is entered by a FIN in order that does not acknowledge ours
  have hclosing : conn'.name = some .Closing → seg.flags = .FinAck ∧ seg.seqNum = conn.rcvNxt ∧
      conn'.rcvNxt = conn.rcvNxt + TcpPayload.lenOrDefault seg.payload + FIN_BYTE := by
    intro hn
    have hfw := hlegal.of_finWait1 (fun heq => hold (heq ▸ hnew)) (.inr hn)
    obtain ⟨s, hst, -, heq⟩ := ConnState.step_finWait1 hfw hs
    rw [heq] at hn ⊢
    exact handleFinWait1_closing hst hn
  have hfinack : seg.flags = .FinAck → seg.seqNum = conn.rcvNxt →
      conn'.rcvNxt = conn.rcvNxt + TcpPayload.lenOrDefault seg.payload + FIN_BYTE →
      AcceptsFin AtLeastPast ⟨conn, .segment seg now, some conn'⟩ := by
    intro hflags hseq hrcv
    refine ⟨hseq, hold, .inl ⟨hflags, ?_⟩⟩
    rintro c ⟨⟩
    exact ⟨hnew, by rw [hseq]; exact hrcv⟩
  by_cases hn : conn'.name = some .Closing
  · obtain ⟨hflags, hseq, hrcv⟩ := hclosing hn
    exact hfinack hflags hseq hrcv
  have hpassive : PassiveClosed conn'.name := by
    rcases hnew with h' | h' | h'
    · exact .inl h'
    · exact .inr h'
    · exact absurd h' hn
  have hne : conn'.name ≠ some .Established := by
    rcases hpassive with h' | h' <;> rw [h'] <;> decide
  cases hrecv with
  | idle hrcv hre hrecv hold' => exact absurd (passiveClosed_finReceived (hold' hpassive)) hold
  | buffer hcheck hr hflags hname => exact absurd hname hne
  | @data payloads reassembly rcvNxt failed hseq hr hflags hpay hdrain hre hno hyes =>
    cases hreached : reassembly.finReached rcvNxt with
    | false => exact absurd (hno hreached).2 hne
    | true =>
      have hkept := TcpReassembly.drainContiguous_finSeq hdrain
      unfold TcpReassembly.finReached at hreached
      rw [hkept] at hreached
      cases hfin : conn.reassembly.finSeq with
      | none => rw [hfin] at hreached; cases hreached
      | some fin =>
        rw [hfin] at hreached
        refine ⟨hseq, hold, .inr ⟨hflags, fin, hfin, conn', rfl, hnew, ?_⟩⟩
        rw [(hyes (by unfold TcpReassembly.finReached; rw [hkept, hfin]; exact hreached)).1]
        exact atLeastPast_of_finReached hreached
  | fin hseq hr hflags hrcv => exact hfinack hflags hseq hrcv
  | halfClosed hseq hns hp => exact absurd hpassive hp

/-- The step that enters FIN-WAIT-2 acknowledges our FIN. -/
theorem acksOurFin_of_step (hs : (conn.step A rto maxRetries app ev).conn = some conn')
    (hold : conn.name ≠ some .FinWait2) (hnew : conn'.name = some .FinWait2) :
    AcksOurFin conn'.sndNxt ⟨conn, ev, some conn'⟩ := by
  have hmove := ConnState.step_move hs
  have hne : conn'.name ≠ conn.name := fun heq => hold (heq.symm.trans hnew)
  have hfw := hmove.legal.of_finWait1 (Ne.symm hne) (.inl hnew)
  have hsent : FinSent conn.name := by rw [hfw]; decide
  obtain ⟨seg, now, rfl⟩ := hmove.entered_by_segment hne (by rw [hnew]; decide)
  obtain ⟨s, hst, -, heq⟩ := ConnState.step_finWait1 hfw hs
  rw [heq] at hnew
  obtain ⟨hwin, hack⟩ := handleFinWait1_finWait2 hst hnew
  exact ⟨hsent, hwin, hack, (hmove.sndNxt_finSent hsent).symm⟩

/-- **A step keeps the past in order.** -/
theorem PastInv.step {met : List Meeting} (h : PastInv met conn)
    (hs : (conn.step A rto maxRetries app ev).conn = some conn') :
    PastInv (met ++ [⟨conn, ev, some conn'⟩]) conn' where
  fin hnew := by
    by_cases hold : FinReceived conn.name
    · obtain ⟨m, hm, hacc⟩ := h.fin hold
      exact ⟨m, List.mem_append_left _ hm, hacc⟩
    · exact ⟨_, List.mem_append_right _ List.mem_cons_self, acceptsFin_of_step hs hold hnew⟩
  acked hnew := by
    by_cases hold : conn.name = some .FinWait2
    · obtain ⟨m, hm, hack⟩ := h.acked hold
      rw [(ConnState.step_move hs).sndNxt_finSent (by rw [hold]; decide)]
      exact ⟨m, List.mem_append_left _ hm, hack⟩
    · exact ⟨_, List.mem_append_right _ List.mem_cons_self, acksOurFin_of_step hs hold hnew⟩

/-- **Every connection of every host reached has such a past.** -/
theorem Traced.pastInv_run {key : ConnKey} {initialRto : Duration} {es : List (HostEvent σ)}
    {t : Traced σ}
    (hrun : Runs.Run (Traced.step A key) (fun _ _ => True) (Traced.new app initialRto maxRetries)
      es t) :
    ∀ conn, t.host.get key = some conn → PastInv t.met conn := by
  refine hrun.state_invariant
    (I := fun t => ∀ conn, t.host.get key = some conn → PastInv t.met conn)
    (fun conn h => by cases h) fun t e ih _ conn' hconn' => ?_
  have hentry := (t.host.step_get (A := A) e key).2 conn' hconn'
  simp only [Traced.step] at hconn' ⊢
  cases hentry with
  | unchanged hsame =>
    rw [hsame]
    exact (ih conn' hsame).mono fun m hm => List.mem_append_left _ hm
  | @stepped conn ev hget hev hs =>
    rw [hget, hev, hconn']
    exact (ih conn hget).step hs
  | @opened iss irs now hget heq =>
    rw [heq]
    exact ⟨fun h => absurd h (by decide : ¬ FinReceived none), nofun⟩

/-! ### No premature teardown -/

/-- **No premature teardown.** Whatever removes a connection is a RST at RCV.NXT, the sweep that
    finds a due segment out of retries, or a segment by which our FIN has been acknowledged and
    the peer's FIN accepted, RCV.NXT being left at or past it. -/
theorem no_premature_teardown (A : Application σ) (app : σ) (initialRto : Duration)
    (maxRetries : UInt8) (key : ConnKey) (es : List (HostEvent σ)) (t : Traced σ)
    (hrun : Runs.Run (Traced.step A key) (fun _ _ => True) (Traced.new app initialRto maxRetries)
      es t)
    (e : HostEvent σ) (conn : ConnState) (hconn : t.host.get key = some conn)
    (hgone : (t.step A key e).host.get key = none) :
    (∃ seg now, e.at key = some (.segment seg now) ∧ IsRst seg ∧ seg.seqNum = conn.rcvNxt) ∨
    (∃ now late, e.at key = some (.retransmit now late) ∧ ∃ p ∈ conn.pending,
      ConnState.isDue t.host.connections.rtoConfig now late p = true ∧
        p.exhaustedRetries t.host.connections.maxRetries = true) ∨
    (∃ seg now, e.at key = some (.segment seg now) ∧ ¬ IsRst seg ∧
      (∃ m ∈ (t.step A key e).met, AcksOurFin conn.sndNxt m) ∧
      ∃ m ∈ (t.step A key e).met, AcceptsFin AtLeastPast m) := by
  have hpast := Traced.pastInv_run hrun conn hconn
  obtain ⟨ev, hev, hstep⟩ := t.host.step_gone (A := A) e hconn hgone
  have hmet : (t.step A key e).met = t.met ++ [⟨conn, ev, none⟩] := by
    have hafter : (t.host.step A e).get key = none := hgone
    simp only [Traced.step, hconn, hev, hafter]
    rfl
  rw [hev, hmet]
  have hold : ∀ m ∈ t.met, m ∈ t.met ++ [⟨conn, ev, none⟩] := fun m => List.mem_append_left _
  have hnew : (⟨conn, ev, none⟩ : Meeting) ∈ t.met ++ [⟨conn, ev, none⟩] :=
    List.mem_append_right _ List.mem_cons_self
  cases ev with
  | segment seg now =>
    -- the segment removes the connection, so it is one of the four of `Teardown`
    have htear : Teardown seg conn := by
      have hrem : removes (handleKnownConn A t.host.app seg conn now).result = true := by
        by_contra hno
        simp only [ConnState.step] at hstep
        rw [if_neg hno] at hstep
        cases hstep
      exact handleKnownConn_removes hrem
    have hnotRst : seg.flags = .Ack ∨ seg.flags = .FinAck → ¬ IsRst seg := by
      rintro (hf | hf) (hr | hr) <;> rw [hf] at hr <;> cases hr
    have hinOrder : seg.seqNum = conn.rcvNxt → InReceiveWindow seg conn := fun hseq =>
      .of_check (if_pos hseq) (by decide)
    have haccepts : seg.flags = .FinAck → seg.seqNum = conn.rcvNxt → ¬ FinReceived conn.name →
        AcceptsFin AtLeastPast ⟨conn, .segment seg now, none⟩ := fun hflags hseq hnot =>
      ⟨hseq, hnot, .inl ⟨hflags, fun c hc => by cases hc⟩⟩
    cases htear with
    | reset hrst hseq => exact .inl ⟨seg, now, rfl, hrst, hseq⟩
    | finWait1 hname hflags hseq hack =>
      refine .inr (.inr ⟨seg, now, rfl, hnotRst (.inr hflags), ⟨_, hnew, ?_⟩, ⟨_, hnew, ?_⟩⟩)
      · exact ⟨by rw [hname]; decide, hinOrder hseq, hack, rfl⟩
      · exact haccepts hflags hseq (by rw [hname]; decide)
    -- our FIN was acknowledged when FIN-WAIT-2 was entered
    | finWait2 hname hflags hseq =>
      obtain ⟨m, hm, hack⟩ := hpast.acked hname
      refine .inr (.inr ⟨seg, now, rfl, hnotRst (.inr hflags), ⟨m, hold m hm, hack⟩,
        ⟨_, hnew, haccepts hflags hseq (by rw [hname]; decide)⟩⟩)
    | final hname hflags hwin hack =>
      have hsent : FinSent conn.name ∧ FinReceived conn.name := by
        rcases hname with hn | hn <;> rw [hn] <;> decide
      -- in CLOSING and LAST-ACK the peer's FIN came first
      obtain ⟨m, hm, hacc⟩ := hpast.fin hsent.2
      exact .inr (.inr ⟨seg, now, rfl, hnotRst (.inl hflags),
        ⟨_, hnew, hsent.1, hwin, hack, rfl⟩, ⟨m, hold m hm, hacc⟩⟩)
  | retransmit now late =>
    refine .inr (.inl ⟨now, late, rfl, ConnState.retransmit_eq_none.mp ?_⟩)
    cases hre : conn.retransmit t.host.connections.rtoConfig t.host.connections.maxRetries now
        late with
    | none => rfl
    | some kept =>
      simp only [ConnState.step, hre] at hstep
      cases hstep
  | close now =>
    simp only [ConnState.step] at hstep
    split at hstep <;> cases hstep

/-! ### Runs -/

/-- The client's final ACK, of two bytes and our FIN. -/
def CLIENT_FINAL_ACK : TcpSegment .In :=
  { CLIENT_PKT with seqNum := CLIENT_ISN + 4, ackNum := SERVER_ISN + 4 }

/-- The client says "hi", closes, and acknowledges everything. -/
def closedEvents : List (HostEvent ServerApp) :=
  [.segment CLIENT_SYN (.ok 400) ⟨0⟩, .segment CLIENT_HI (.ok 0) ⟨1⟩,
    .segment CLIENT_FIN (.ok 0) ⟨2⟩]

/-- A FIN behind one byte, recorded before two bytes arrive. -/
def overlappedEvents : List (HostEvent ServerApp) :=
  establishedEvents ++
    [.segment { CLIENT_ACK_COMPLETING_HANDSHAKE with
        seqNum := CLIENT_ISN + 2, flags := .FinAck } (.ok 0) ⟨2⟩,
      .segment CLIENT_HI (.ok 0) ⟨3⟩]

/-- The final ACK of an echoed connection removes it, and by then the peer's FIN had been
    accepted. -/
theorem no_premature_teardown_final :
    ∃ m ∈ ((closedEvents.foldl (Traced.step ServerApp.application KEY)
      (Traced.new .Echo 1000000000 3)).step ServerApp.application KEY
        (.segment CLIENT_FINAL_ACK (.ok 0) ⟨3⟩)).met, AcceptsFin AtLeastPast m := by
  have hsome : ((closedEvents.foldl (Traced.step ServerApp.application KEY)
      (Traced.new .Echo 1000000000 3)).host.get KEY).isSome = true := by decide
  obtain ⟨conn, hconn⟩ := Option.isSome_iff_exists.mp hsome
  rcases no_premature_teardown ServerApp.application .Echo 1000000000 3 KEY closedEvents _
    (.of_foldl _ _) (.segment CLIENT_FINAL_ACK (.ok 0) ⟨3⟩) conn hconn (by decide) with
    ⟨seg, now, hev, hrst, -⟩ | ⟨now, late, hev, -⟩ | ⟨seg, now, -, -, -, hfin⟩
  · exfalso
    have heq : some (ConnEvent.segment CLIENT_FINAL_ACK ⟨3⟩) = some (.segment seg now) := hev
    obtain ⟨rfl, -⟩ := ConnEvent.segment.inj (Option.some.inj heq)
    exact absurd hrst (by decide)
  · exfalso
    have heq : some (ConnEvent.segment CLIENT_FINAL_ACK ⟨3⟩) = some (.retransmit now late) := hev
    cases heq
  · exact hfin

/-- **The peer's FIN is not always accepted exactly at RCV.NXT**: where two bytes overlap a FIN
    recorded behind the first, a connection is torn down after RCV.NXT has passed the FIN. -/
theorem fin_accepted_past_rcvNxt :
    ∃ es t, Runs.Run (Traced.step ServerApp.application KEY) (fun _ _ => True)
        (Traced.new .Echo 1000000000 3) es t ∧ (t.host.get KEY).isSome = true ∧
      ¬ IsRst CLIENT_FINAL_ACK ∧
      (t.step ServerApp.application KEY (.segment CLIENT_FINAL_ACK (.ok 0) ⟨4⟩)).host.get KEY
        = none ∧
      ¬ ∃ m ∈ (t.step ServerApp.application KEY (.segment CLIENT_FINAL_ACK (.ok 0) ⟨4⟩)).met,
        AcceptsFin ExactlyPast m := by
  exact ⟨overlappedEvents, _, .of_foldl _ _, by decide, by decide, by decide, by decide⟩

end Typenet
