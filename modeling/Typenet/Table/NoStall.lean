import Typenet.Table.AckCompleteness
import Typenet.Table.InFlight
import Typenet.Table.Decisions

namespace Typenet

/-!
# Queued data does not stall

While data is queued in ESTABLISHED or CLOSE-WAIT, something has to be due from the peer: an
acknowledgment of what is in flight, or a window (`NoStall`).  Every arm that drains the send
buffer leaves its connection so, and whether the drain succeeds does not matter.  The arms that
buffer a segment out of order take its acknowledgment and its window but drain nothing; `Stalls`
says when that leaves a connection waiting for nobody, and `no_stall_iff` that nothing else does.
-/

open SendInfo

variable {σ : Type} {A : Application σ} {rto : RtoConfig} {maxRetries : UInt8} {app : σ}
  {conn conn' m : ConnState} {ev : ConnEvent} {seg : TcpSegment .In} {now : Instant}

/-- Queued data waits for the peer: something is in flight, or the window is closed. -/
def NoStall (conn : ConnState) : Prop :=
  conn.name = some .Established ∨ conn.name = some .CloseWait → conn.sendBuffer ≠ [] →
    conn.sndUna ≠ conn.sndNxt ∨ ∃ w, conn.tcpState.window = some w ∧ w.sndWnd = 0

/-- With something in flight nothing is stalled. -/
theorem NoStall.of_ne (h : conn.sndUna ≠ conn.sndNxt) : NoStall conn := fun _ _ => .inl h

/-- Nor with nothing queued. -/
theorem NoStall.of_empty (h : conn.sendBuffer = []) : NoStall conn := fun _ hbuf => absurd h hbuf

/-- Nothing is queued to be sent but in ESTABLISHED and CLOSE-WAIT. -/
theorem NoStall.of_name (hest : conn.name ≠ some .Established)
    (hcw : conn.name ≠ some .CloseWait) : NoStall conn := by
  rintro (h | h)
  · exact absurd h hest
  · exact absurd h hcw

/-! ### Draining -/

/-- Half the circle in flight is something in flight. -/
theorem ConnState.sndUna_ne_of_half (h : 2 ^ 31 ≤ conn.inFlight) : conn.sndUna ≠ conn.sndNxt := by
  intro heq
  unfold inFlight at h
  rw [heq, SeqPoint.dist_self] at h
  omega

/-- Data that has just been sent is in flight. -/
theorem NoStall.of_sent {p : TcpPayload} (h : conn.inFlight < 2 ^ 31)
    (huna : m.sndUna = conn.sndUna) (hnxt : m.sndNxt = conn.sndNxt + p.len) : NoStall m := by
  apply NoStall.of_ne
  rw [huna, hnxt]
  intro heq
  have hd := SeqPoint.dist_add conn.sndUna conn.sndNxt p.len
  have hpos := p.len_pos
  have hlen := p.len_lt
  unfold ConnState.inFlight at h
  rw [← heq, SeqPoint.dist_self] at hd
  omega

/-- Only a window that is used up lets nothing out of a queue. -/
theorem NoStall.of_nothing {w : WindowState} (hwin : m.tcpState.window = some w)
    (hzero : m.transmittable w = 0) : NoStall m := by
  intro _ hbuf
  -- with nothing in flight the window itself has to be closed
  by_cases hflight : m.sndUna = m.sndNxt
  · have hfull := (m.transmittable_eq_zero_iff w hbuf).mp hzero
    unfold ConnState.inFlight at hfull
    rw [hflight, SeqPoint.dist_self] at hfull
    exact .inr ⟨w, hwin, UInt16.toNat_inj.mp (Nat.le_zero.mp hfull)⟩
  · exact .inl hflight

/-- **Passive close never stalls**: it sends our FIN, drains, or fails with half the circle in
    flight. -/
theorem PassiveClose.noStall {cw : SyncedState .CloseWait}
    {out : TraceableResult SendInfo × ConnState} (h : PassiveClose conn cw now out) :
    NoStall out.2 := by
  cases h with
  | failed hge => exact .of_ne (ConnState.sndUna_ne_of_half hge)
  | fin => exact .of_name nofun nofun
  | data hlt => exact .of_sent hlt rfl rfl
  | blocked hlt hzero => exact .of_nothing rfl hzero

/-- **Draining in ESTABLISHED never stalls**, whatever is made of an empty drain. -/
theorem DrainReply.noStall {est : SyncedState .Established} {idle : Option SendInfo}
    {h : Handled σ} (hdrain : DrainReply app m est now idle h)
    (hm : m.tcpState = .Established est) : NoStall h.conn := by
  cases hdrain with
  | failed hge => exact .of_ne (ConnState.sndUna_ne_of_half hge)
  | nothing hlt hzero => exact .of_nothing (congrArg TcpState.window hm) hzero
  | data hlt => exact .of_sent hlt rfl rfl

/-- A FIN in order leaves nothing stalled. -/
theorem SendInfo.closeOnInOrderFin_noStall (A : Application σ) (app : σ) (seg : TcpSegment .In)
    (conn : ConnState) (p : Option TcpPayload) (est : SyncedState .Established) (now : Instant) :
    NoStall (closeOnInOrderFin A app seg conn p est now).conn :=
  (closeWaitOrLastAck_passiveClose _ _ now).noStall

/-- Nothing is stalled after a delivery. -/
theorem AfterDelivery.noStall {est : SyncedState .Established} {h : Handled σ}
    (hafter : AfterDelivery app m est now h) (hm : m.tcpState = .Established est) :
    NoStall h.conn := by
  cases hafter with
  | close hfin hclose => exact hclose.noStall
  | drain hfin hdrain => exact hdrain.noStall hm

/-! ### Buffering -/

/-- A segment out of order that finds data queued, acknowledges all that is in flight, and leaves
    a window open: its own if it is fresh, else the one known before. -/
structure Stalls (seg : TcpSegment .In) (conn : ConnState) : Prop where
  check : SeqCheck.check seg conn = .OutOfOrder
  flags : seg.flags = .FinAck ∨ seg.flags = .Ack ∧ seg.payload ≠ none
  sendBuffer : conn.sendBuffer ≠ []
  ackNum : seg.ackNum = conn.sndNxt
  window : ∃ est, conn.tcpState = .Established est ∧
    if est.windowState.staleGuard seg then seg.window ≠ 0 else est.windowState.sndWnd ≠ 0

/-- SND.NXT is in range while at most half the circle is in flight. -/
theorem ConnState.ackInRange_sndNxt (h : conn.inFlight ≤ 2 ^ 31) :
    conn.ackInRange conn.sndNxt = true := by
  rw [ackInRange, Bool.and_eq_true, SeqPoint.precedesOrEq_iff, SeqPoint.precedesOrEq_iff,
    SeqPoint.dist_self]
  exact ⟨h, Nat.zero_le _⟩

/-- Acknowledging SND.NXT leaves nothing in flight. -/
theorem ConnState.ackedUna_sndNxt (h : conn.inFlight ≤ 2 ^ 31) :
    conn.ackedUna conn.sndNxt = conn.sndNxt := by
  by_cases huna : conn.sndUna = conn.sndNxt
  · unfold ackedUna
    split
    · rfl
    · exact huna
  · apply if_pos
    rw [ackInRange_sndNxt h, Bool.true_and, SeqPoint.precedes_iff]
    refine ⟨Nat.pos_of_ne_zero fun hzero => huna ?_, h⟩
    exact (SeqPoint.dist_eq_zero.mp hzero).symm

/-- Nothing is left in flight by acknowledging SND.NXT, or because nothing was and the
    acknowledgment is ignored. -/
theorem ConnState.of_ackedUna_eq {ackNum : SeqPoint .Out}
    (h : conn.ackedUna ackNum = conn.sndNxt) :
    ackNum = conn.sndNxt ∨ conn.sndUna = conn.sndNxt ∧ conn.ackInRange ackNum = false := by
  unfold ackedUna at h
  split at h
  case isTrue => exact .inl h
  case isFalse hno =>
    cases hrange : conn.ackInRange ackNum with
    | false => exact .inr ⟨h, rfl⟩
    | true =>
      -- in range and not ahead of SND.UNA: it is SND.UNA
      have hprec : conn.sndUna.precedes ackNum = false := by simpa [hrange] using hno
      rw [ackInRange, Bool.and_eq_true, SeqPoint.precedesOrEq, hprec, Bool.or_false,
        beq_iff_eq] at hrange
      exact .inl (hrange.1.symm.trans h)

/-- The window after an acknowledgment in range. -/
theorem WindowState.updated_sndWnd {w : WindowState} (h : conn.ackInRange seg.ackNum = true) :
    (w.updated conn seg).sndWnd = if w.staleGuard seg then seg.window else w.sndWnd := by
  unfold updated
  rw [h, Bool.true_and]
  split <;> rfl

/-- **Buffering stalls** exactly when everything is acknowledged, data is queued and the window
    it leaves is open. -/
theorem NoStall.buffer_iff {est : SyncedState .Established} (h : NoStall conn) (hinv : HalfInv conn)
    (hst : conn.tcpState = .Established est)
    (hm : m.tcpState = .Established ⟨est.windowState.updated conn seg⟩)
    (huna : m.sndUna = conn.ackedUna seg.ackNum) (hnxt : m.sndNxt = conn.sndNxt)
    (hbuf : m.sendBuffer = conn.sendBuffer) :
    NoStall m ↔ ¬ (conn.sendBuffer ≠ [] ∧ seg.ackNum = conn.sndNxt ∧
      if est.windowState.staleGuard seg then seg.window ≠ 0 else est.windowState.sndWnd ≠ 0) := by
  have hname : conn.name = some .Established := by unfold ConnState.name; rw [hst]; rfl
  have hname' : m.name = some .Established := by unfold ConnState.name; rw [hm]; rfl
  have hle := hinv.sending (by rw [hname]; decide)
  have hrange : seg.ackNum = conn.sndNxt → conn.ackInRange seg.ackNum = true := fun hack => by
    rw [hack]; exact ConnState.ackInRange_sndNxt hle
  have hwin : m.tcpState.window = some (est.windowState.updated conn seg) := by rw [hm]; rfl
  constructor
  -- everything is acknowledged and the window is open: nothing is due from the peer
  · rintro hno ⟨hqueue, hack, hopen⟩
    rcases hno (.inl hname') (by rw [hbuf]; exact hqueue) with hne | ⟨w, hw, hzero⟩
    · apply hne
      rw [huna, hnxt, hack]
      exact ConnState.ackedUna_sndNxt hle
    · obtain rfl := Option.some.inj (hwin.symm.trans hw)
      rw [WindowState.updated_sndWnd (hrange hack)] at hzero
      split at hopen
      case isTrue hfresh => rw [if_pos hfresh] at hzero; exact hopen hzero
      case isFalse hfresh => rw [if_neg hfresh] at hzero; exact hopen hzero
  · intro hno _ hqueue
    rw [hbuf] at hqueue
    -- only where nothing is left in flight the window matters
    by_cases hall : conn.ackedUna seg.ackNum = conn.sndNxt
    case neg => exact .inl (by rw [huna, hnxt]; exact hall)
    case pos =>
      refine .inr ⟨_, hwin, ?_⟩
      rcases ConnState.of_ackedUna_eq hall with hack | ⟨hidle, hout⟩
      · rw [WindowState.updated_sndWnd (hrange hack)]
        by_contra hopen
        refine hno ⟨hqueue, hack, ?_⟩
        split
        case isTrue hfresh => rw [if_pos hfresh] at hopen; exact hopen
        case isFalse hfresh => rw [if_neg hfresh] at hopen; exact hopen
      · -- nothing was in flight before, so the window was closed, and it stays
        have hsame : est.windowState.updated conn seg = est.windowState := by
          unfold WindowState.updated
          rw [hout]
          rfl
        rcases h (.inl hname) hqueue with hne | ⟨w, hw, hzero⟩
        · exact absurd hidle hne
        · rw [hst] at hw
          obtain rfl := Option.some.inj hw
          rw [hsame]
          exact hzero

/-! ### The handlers -/

/-- SYN-RECEIVED leaves nothing stalled. -/
theorem SendInfo.handleSynRcv_noStall (hinv : SynRcvInv conn) (hst : conn.tcpState = .SynReceived)
    (A : Application σ) (app : σ) (seg : TcpSegment .In) (now : Instant) :
    NoStall (handleSynRcv A app seg conn now).conn := by
  have hname := ConnState.name_eq_none.mpr hst
  have hempty := hinv.sendBuffer hname
  -- SYN-RECEIVED queues nothing yet
  have hno : ∀ c : ConnState, c.tcpState = .SynReceived → NoStall c := fun c hc => by
    have hn := ConnState.name_eq_none.mpr hc
    exact .of_name (by rw [hn]; nofun) (by rw [hn]; nofun)
  have harm := handleSynRcv_arm hst A app seg now
  generalize handleSynRcv A app seg conn now = hd at harm ⊢
  cases harm with
  | resend | fallback => exact hno _ hst
  | silent hdone hflags hcheck hdel hnofin hbuf => exact .of_empty hbuf
  | data hdone hflags hcheck hdel hafter => exact hafter.noStall (deliver_frame hdel).1
  | fin => exact closeOnInOrderFin_noStall A app seg _ _ _ now
  | buffer => exact .of_empty hempty

/-- **In ESTABLISHED** only the arms that buffer a segment can stall. -/
theorem SendInfo.handleEstablished_noStall_iff {est : SyncedState .Established} (h : NoStall conn)
    (hinv : HalfInv conn) (hst : conn.tcpState = .Established est) (A : Application σ) (app : σ)
    (seg : TcpSegment .In) (now : Instant) :
    NoStall (handleEstablished A app seg conn est now).conn ↔ ¬ Stalls seg conn := by
  -- what the arm that buffers leaves, whatever it buffers
  have hstalls : ∀ m : ConnState, m.tcpState = .Established ⟨est.windowState.updated conn seg⟩ →
      m.sndUna = conn.ackedUna seg.ackNum → m.sndNxt = conn.sndNxt →
      m.sendBuffer = conn.sendBuffer → SeqCheck.check seg conn = .OutOfOrder →
      (seg.flags = .FinAck ∨ seg.flags = .Ack ∧ seg.payload ≠ none) →
      (NoStall m ↔ ¬ Stalls seg conn) := by
    intro m hm huna hnxt hbuf hcheck hflags
    rw [h.buffer_iff hinv hst hm huna hnxt hbuf]
    apply not_congr
    constructor
    · rintro ⟨hqueue, hack, hopen⟩
      exact ⟨hcheck, hflags, hqueue, hack, est, hst, hopen⟩
    · rintro ⟨-, -, hqueue, hack, est', hst', hopen⟩
      obtain rfl := TcpState.Established.inj (hst.symm.trans hst')
      exact ⟨hqueue, hack, hopen⟩
  have harm := handleEstablished_arm hst A app seg now
  generalize handleEstablished A app seg conn est now = hd at harm ⊢
  cases harm with
  | unsent hskips hflags hcheck hprec =>
    refine iff_of_true h fun hs => ?_
    rw [hs.ackNum, SeqPoint.precedes_irrefl] at hprec
    cases hprec
  | pureAck htakes hflags hpay hdrain =>
    refine iff_of_true (hdrain.noStall rfl) fun hs => ?_
    rcases hs.flags with hf | ⟨-, hp⟩
    · rw [hflags] at hf; cases hf
    · exact hp hpay
  | data htakes hflags hpay hcheck hdel hafter =>
    refine iff_of_true (hafter.noStall (deliver_frame hdel).1) fun hs => ?_
    rw [hs.check] at hcheck
    cases hcheck
  | buffer htakes hflags hcheck => exact hstalls _ rfl rfl rfl rfl hcheck hflags
  | fin htakes hflags hcheck =>
    refine iff_of_true (closeOnInOrderFin_noStall A app seg conn _ est now) fun hs => ?_
    rw [hs.check] at hcheck
    cases hcheck
  | fallback hskips hout =>
    refine iff_of_true h fun hs => ?_
    have hflags : seg.flags = .Ack ∨ seg.flags = .FinAck := hs.flags.symm.imp_left And.left
    exact absurd (hs.check.symm.trans (hout hflags)) (by decide)

/-- CLOSE-WAIT keeps the connection from stalling. -/
theorem SendInfo.handleCloseWait_noStall (h : NoStall conn) (seg : TcpSegment .In)
    (cw : SyncedState .CloseWait) (now : Instant) : NoStall (handleCloseWait seg conn cw now).2 := by
  unfold handleCloseWait
  split
  case h_1 | h_2 => exact (closeWaitOrLastAck_passiveClose _ _ now).noStall
  case h_3 => exact h

/-- **A segment stalls a connection** exactly when `Stalls` says so. -/
theorem SendInfo.handleKnownConn_noStall_iff (h : NoStall conn) (hhalf : HalfInv conn)
    (hsyn : SynRcvInv conn) (hsend : Sending conn.name) (A : Application σ) (app : σ)
    (seg : TcpSegment .In) (now : Instant) :
    NoStall (handleKnownConn A app seg conn now).conn ↔ ¬ Stalls seg conn := by
  have hno : (∀ est, conn.tcpState ≠ .Established est) → ¬ Stalls seg conn := fun hne hs => by
    obtain ⟨est, hst, -⟩ := hs.window
    exact hne est hst
  have hname : conn.name = conn.tcpState.name := rfl
  unfold handleKnownConn
  cases hst : conn.tcpState with
  | SynReceived =>
    exact iff_of_true (handleSynRcv_noStall hsyn hst A app seg now) (hno (by rw [hst]; nofun))
  | Established est => exact handleEstablished_noStall_iff h hhalf hst A app seg now
  | CloseWait cw =>
    exact iff_of_true (handleCloseWait_noStall h seg cw now) (hno (by rw [hst]; nofun))
  | FinWait1 s | FinWait2 s | Closing s | LastAck s =>
    rw [hname, hst] at hsend
    rcases hsend with (h | h) | h <;> cases h

/-! ### Every run -/

/-- The event does not leave the connection waiting for nobody. -/
def KeepsWaiting (conn : ConnState) (ev : ConnEvent) : Prop :=
  ∀ seg now, ev = .segment seg now → ¬ Stalls seg conn

/-- A segment that stalls a connection keeps it. -/
theorem Stalls.kept (h : Stalls seg conn) (app : σ) (now : Instant) :
    ∃ conn', (conn.step A rto maxRetries app (.segment seg now)).conn = some conn' := by
  obtain ⟨est, hst, -⟩ := h.window
  have hname : conn.name = some .Established := by unfold ConnState.name; rw [hst]; rfl
  refine ⟨_, if_neg ?_⟩
  rw [removes_handleKnownConn, ConnState.removedBy_sending (.inl (.inr hname)), h.check,
    Bool.not_eq_true]
  exact Bool.and_false _

/-- **One event of a connection** keeps queued data waiting for the peer exactly if it does not
    stall the connection. -/
theorem NoStall.step_iff (h : NoStall conn) (hhalf : HalfInv conn) (hsyn : SynRcvInv conn)
    (hs : (conn.step A rto maxRetries app ev).conn = some conn') :
    NoStall conn' ↔ KeepsWaiting conn ev := by
  have hmove := ConnState.step_move hs
  by_cases hsent : FinSent conn.name
  · have hsent' := hmove.legal.finSent hsent
    refine iff_of_true (.of_name ?_ ?_) fun seg now _ hstalls => ?_
    · rintro hn
      exact absurd hsent' (by rw [hn]; decide)
    · rintro hn
      exact absurd hsent' (by rw [hn]; decide)
    · obtain ⟨est, hst, -⟩ := hstalls.window
      exact absurd hsent (by unfold ConnState.name; rw [hst]; exact not_not.mpr (.inl (.inr rfl)))
  · cases ev with
    | segment seg now =>
      obtain ⟨rfl, -⟩ := ConnState.step_recvMove hs
      rw [handleKnownConn_noStall_iff h hhalf hsyn (not_not.mp hsent)]
      constructor
      · rintro hno _ _ ⟨⟩
        exact hno
      · exact fun hkeeps => hkeeps seg now rfl
    | retransmit now late =>
      obtain ⟨out, hout⟩ : ∃ out, conn.step A rto maxRetries app (.retransmit now late) = out :=
        ⟨_, rfl⟩
      rw [hout] at hmove
      cases hmove with
      | retransmit => exact iff_of_true h nofun
    | close now =>
      obtain ⟨out, hout⟩ : ∃ out, conn.step A rto maxRetries app (.close now) = out := ⟨_, rfl⟩
      rw [hout] at hmove
      cases hmove with
      | close => exact iff_of_true (.of_name nofun nofun) nofun
      | closeIdle => exact iff_of_true h nofun

/-- What every connection satisfies on the way. -/
structure Waits (conn : ConnState) : Prop where
  noStall : NoStall conn
  half : HalfInv conn
  synRcv : SynRcvInv conn

/-- A connection that is opened waits for its SYN-ACK. -/
theorem waits_opened (iss : SeqPoint .Out) (irs : SeqPoint .In) (t₀ : Instant) :
    Waits (ConnState.opened iss irs t₀) :=
  ⟨.of_empty rfl, halfInv_opened iss irs t₀, synRcvInv_opened iss irs t₀⟩

/-- A step keeps a connection waiting exactly under the condition. -/
theorem Waits.step_iff (h : Waits conn)
    (hs : (conn.step A rto maxRetries app ev).conn = some conn') :
    Waits conn' ↔ KeepsWaiting conn ev := by
  rw [← h.noStall.step_iff h.half h.synRcv hs]
  exact ⟨Waits.noStall, fun hno => ⟨hno, h.half.step hs, h.synRcv.step hs⟩⟩

/-- **No silent stall.** Throughout a run, queued data in ESTABLISHED and CLOSE-WAIT waits for an
    acknowledgment or for a window, if and only if no segment out of order acknowledges everything
    in flight while data is queued and leaves the window open. -/
theorem no_stall_iff (A : Application σ) (app : σ) (initialRto : Duration) (maxRetries : UInt8)
    (es : List (HostEvent σ)) :
    (∀ es', es' <+: es → ∀ key conn,
        (es'.foldl (Host.step A) (Host.new app initialRto maxRetries)).get key = some conn →
        conn.name = some .Established ∨ conn.name = some .CloseWait → conn.sendBuffer ≠ [] →
          conn.sndUna ≠ conn.sndNxt ∨ ∃ w, conn.tcpState.window = some w ∧ w.sndWnd = 0) ↔
      Runs.Admits (Host.step A) (Host.Guard KeepsWaiting) (Host.new app initialRto maxRetries)
        es := by
  let AllWait (h : Host σ) : Prop := ∀ key conn, h.get key = some conn → Waits conn
  have hreach : ∀ (es' : List (HostEvent σ)) key conn,
      (es'.foldl (Host.step A) (Host.new app initialRto maxRetries)).get key = some conn →
      HalfInv conn ∧ SynRcvInv conn := by
    intro es' key conn hconn
    have hrun : Runs.Run (Host.step A) (Host.Guard fun _ _ => True)
        (Host.new app initialRto maxRetries) es' _ :=
      (Runs.Run.of_foldl _ es').imp fun _ _ _ _ _ _ _ _ => trivial
    exact ⟨Host.conn_invariant halfInv_opened (fun _ _ _ _ _ _ hp _ hs => hp.step hs) hrun hconn,
      Host.conn_invariant synRcvInv_opened (fun _ _ _ _ _ _ hp _ hs => hp.step hs) hrun hconn⟩
  suffices hall : (∀ es', es' <+: es →
      AllWait (es'.foldl (Host.step A) (Host.new app initialRto maxRetries))) ↔
      Runs.Admits (Host.step A) (Host.Guard KeepsWaiting) (Host.new app initialRto maxRetries)
        es by
    rw [← hall]
    constructor
    · intro hno es' hpre key conn hconn
      obtain ⟨hhalf, hsyn⟩ := hreach es' key conn hconn
      exact ⟨hno es' hpre key conn hconn, hhalf, hsyn⟩
    · exact fun hwait es' hpre key conn hconn => (hwait es' hpre key conn hconn).noStall
  refine Runs.admits_iff_forall (I := AllWait) (fun key conn hconn => by cases hconn) ?_
    (fun h hI => hI) ?_
  · intro h e hI hok key conn' h'
    cases (h.step_get e key).2 conn' h' with
    | unchanged hsame => exact hI key conn' hsame
    | stepped hget hev hs happ => exact ((hI _ _ hget).step_iff hs).mpr (hok _ _ _ hget hev)
    | opened hget heq => rw [heq]; exact waits_opened _ _ _
  · rintro h e hI hnext key conn ev hget hev seg now rfl hstalls
    obtain ⟨randomU32, rfl, rfl⟩ := HostEvent.at_segment hev
    obtain ⟨-, -, hkeys⟩ := Host.segment_known hget A randomU32 now
    obtain ⟨conn', hs⟩ : ∃ conn', (conn.step A h.connections.rtoConfig
      h.connections.maxRetries h.app (.segment seg now)).conn = some conn' :=
      hstalls.kept h.app now
    have hwaits := hnext _ conn' (by rw [hkeys, if_pos rfl]; exact hs)
    exact ((hI _ _ hget).step_iff hs).mp hwaits seg now rfl hstalls

/-- No segment of the event is answered with an error. -/
def Host.Answers (A : Application σ) (h : Host σ) (e : HostEvent σ) : Prop :=
  ∀ seg randomU32 now, e = .segment seg randomU32 now →
    ∃ reply, (h.connections.createReply A h.app seg randomU32 now).1 = .ok reply

/-- The client says "hi" with a window of one byte, then acknowledges the byte it was answered
    with a segment that arrives ahead of its turn, with the same window. -/
def reorderedEvents : List (HostEvent ServerApp) :=
  [.segment CLIENT_SYN (.ok 400) ⟨0⟩,
    .segment { CLIENT_HI with window := 1 } (.ok 0) ⟨1⟩,
    .segment { CLIENT_HI with seqNum := CLIENT_ISN + 4, ackNum := SERVER_ISN + 2, window := 1 }
      (.ok 0) ⟨2⟩]

/-- **Reordered data stalls an echo server**: the byte in flight is acknowledged, the window has
    room for the next one, and yet it stays queued with nothing in flight. -/
theorem reordered_data_stalls :
    Runs.Admits (Host.step ServerApp.application) (Host.Answers ServerApp.application)
        (Host.new .Echo 1000000000 3) reorderedEvents ∧
      ¬ ∀ key conn, (reorderedEvents.foldl (Host.step ServerApp.application)
          (Host.new .Echo 1000000000 3)).get key = some conn →
        conn.name = some .Established ∨ conn.name = some .CloseWait → conn.sendBuffer ≠ [] →
          conn.sndUna ≠ conn.sndNxt ∨ ∃ w, conn.tcpState.window = some w ∧ w.sndWnd = 0 := by
  constructor
  · refine ⟨?_, ?_, ?_, trivial⟩
    all_goals
      rintro seg randomU32 now ⟨⟩
      exact ⟨_, rfl⟩
  · intro hno
    have hstalled : ((reorderedEvents.foldl (Host.step ServerApp.application)
        (Host.new .Echo 1000000000 3)).get KEY).map (fun conn => (conn.name, conn.sendBuffer,
          decide (conn.sndUna = conn.sndNxt), conn.tcpState.window.map (·.sndWnd)))
        = some (some .Established, [0x69], true, some 1) := by decide
    obtain ⟨conn, hconn, h⟩ := Option.map_eq_some_iff.mp hstalled
    obtain ⟨hname, hbuf, hidle, hwin⟩ : conn.name = some .Established ∧ conn.sendBuffer = [0x69] ∧
      decide (conn.sndUna = conn.sndNxt) = true ∧
      conn.tcpState.window.map (·.sndWnd) = some 1 := by simpa using h
    rcases hno KEY conn hconn (.inl hname) (by rw [hbuf]; nofun) with hne | ⟨w, hw, hzero⟩
    · exact hne (of_decide_eq_true hidle)
    · rw [hw, Option.map_some, hzero] at hwin
      cases hwin

end Typenet
