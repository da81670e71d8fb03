import Typenet.Table.Runs
import Typenet.Connection.Lifecycle

namespace Typenet

/-!
# What a segment decides

Three things about the connection a segment leaves behind can be read off the connection and the
segment before it is handled:

* `ConnState.removedBy` — whether the connection leaves the table;
* `ConnState.acceptsAck` — whether SND.UNA moves to SEG.ACK;
* `ConnState.beginsClosing` — whether the connection begins to close because the peer's FIN is
  reached.

Each is exact, in every state of the connection: `removes_handleKnownConn`,
`SendInfo.handleKnownConn_sndUna` and `SendInfo.handleKnownConn_receiving`.  Together they say
whether any connection of the table is mid-close after the segment (`Host.segment_closing`).
-/

open SendInfo

variable {σ : Type} {A : Application σ} {app : σ} {conn : ConnState} {seg : TcpSegment .In}
  {now : Instant}

namespace ConnState

/-- Whether `seg` removes the connection from the table. -/
def removedBy (conn : ConnState) (seg : TcpSegment .In) : Bool :=
  let check := SeqCheck.check seg conn
  match conn.tcpState, seg.flags, seg.payload with
  | _, .Rst, _ | _, .RstAck, _ => check == .InOrder
  | .FinWait1 _, .FinAck, _ => check == .InOrder && seg.ackNum == conn.sndNxt
  | .FinWait2 _, .FinAck, _ => check == .InOrder
  | .Closing _, .Ack, none | .LastAck _, .Ack, none =>
    check != .Unacceptable && seg.ackNum == conn.sndNxt
  | _, _, _ => false

/-- Whether `seg` acknowledges something for the first time. -/
def acceptsAck (conn : ConnState) (seg : TcpSegment .In) : Bool :=
  conn.completesHandshake seg || conn.takesAck seg && conn.ackInRange seg.ackNum
    && conn.sndUna.precedes seg.ackNum

/-- SND.UNA once `seg` has been handled. -/
def unaAfter (conn : ConnState) (seg : TcpSegment .In) : SeqPoint .Out :=
  if conn.acceptsAck seg then seg.ackNum else conn.sndUna

/-- Whether the peer's FIN is in order: the FIN of `seg` itself, or one recorded ahead of its turn
    that the data of `seg` leads up to. -/
def reachesFin (conn : ConnState) (seg : TcpSegment .In) : Bool :=
  SeqCheck.check seg conn == .InOrder &&
    match seg.flags with
    | .FinAck => true
    | .Ack =>
      let (_, reassembly, rcvNxt) :=
        conn.reassembly.drainContiguous (conn.rcvNxt + TcpPayload.lenOrDefault seg.payload)
      reassembly.finReached rcvNxt
    | _ => false

/-- Whether `seg` has the connection move on from SYN-RECEIVED or ESTABLISHED to CLOSE-WAIT or
    LAST-ACK.  It stays where it is if the range in flight cannot be converted. -/
def beginsClosing (conn : ConnState) (seg : TcpSegment .In) : Bool :=
  (conn.completesHandshake seg || decide (conn.name = some .Established) && conn.takesAck seg
      && (seg.flags == .FinAck || seg.payload.isSome))
    && conn.reachesFin seg && decide ((conn.unaAfter seg).dist conn.sndNxt < 2 ^ 31)

/-! ### Removal -/

/-- Nothing removes a connection before our FIN but a RST. -/
theorem removedBy_sending (h : Sending conn.name) : conn.removedBy seg
    = ((seg.flags == .Rst || seg.flags == .RstAck) && SeqCheck.check seg conn == .InOrder) := by
  have hname : conn.name = conn.tcpState.name := rfl
  rw [hname] at h
  unfold removedBy
  cases hst : conn.tcpState with
  | SynReceived | Established s | CloseWait s =>
    cases seg.flags <;> cases seg.payload <;> rfl
  | FinWait1 s | FinWait2 s | Closing s | LastAck s =>
    rw [hst] at h
    exact absurd h (by unfold TcpState.name; simp [Sending, Receiving])

end ConnState

/-- Sending something does not remove the connection. -/
theorem removes_map (r : TraceableResult SendInfo) :
    removes (r.map fun info => (some info, false)) = false := by
  cases r <;> rfl

/-- Nor does closing on a FIN in order. -/
theorem removes_closeOnInOrderFin (A : Application σ) (app : σ) (seg : TcpSegment .In)
    (conn : ConnState) (p : Option TcpPayload) (est : SyncedState .Established) (now : Instant) :
    removes (closeOnInOrderFin A app seg conn p est now).result = false :=
  removes_map _

/-- Nor does draining the send buffer. -/
theorem DrainReply.removes {m : ConnState} {est : SyncedState .Established}
    {idle : Option SendInfo} {h : Handled σ} (hdrain : DrainReply app m est now idle h) :
    Typenet.removes h.result = false := by
  cases hdrain <;> rfl

/-- Nor does what follows a delivery. -/
theorem AfterDelivery.removes {m : ConnState} {est : SyncedState .Established} {h : Handled σ}
    (hafter : AfterDelivery app m est now h) : Typenet.removes h.result = false := by
  cases hafter with
  | close => exact removes_map _
  | drain hfin hdrain => exact hdrain.removes

/-- The fallback removes a connection exactly for a RST at RCV.NXT. -/
theorem knownConnCommonFallback_removes_iff (seg : TcpSegment .In) (conn : ConnState) :
    (knownConnCommonFallback seg conn).2
      = ((seg.flags == .Rst || seg.flags == .RstAck) && SeqCheck.check seg conn == .InOrder) := by
  unfold knownConnCommonFallback
  cases seg.flags <;> cases SeqCheck.check seg conn <;> try rfl
  all_goals
    simp only
    split <;> rfl

/-- SYN-RECEIVED removes a connection exactly where the segment asks for it. -/
theorem removes_handleSynRcv (A : Application σ) (app : σ) (seg : TcpSegment .In)
    (conn : ConnState) (now : Instant) (hst : conn.tcpState = .SynReceived) :
    removes (handleSynRcv A app seg conn now).result = conn.removedBy seg := by
  rw [ConnState.removedBy_sending (.inl (.inl (ConnState.name_eq_none.mpr hst)))]
  have harm := handleSynRcv_arm hst A app seg now
  generalize handleSynRcv A app seg conn now = hd at harm ⊢
  cases harm with
  | resend hflags => rw [hflags]; rfl
  | silent hdone hflags => rw [hflags]; rfl
  | data hdone hflags hcheck hdel hafter => rw [hflags]; exact hafter.removes
  | fin hdone hflags => rw [hflags]; exact removes_closeOnInOrderFin A app seg _ _ _ now
  | buffer hdone hflags => rcases hflags with hflags | hflags <;> rw [hflags] <;> rfl
  | fallback => exact knownConnCommonFallback_removes_iff seg conn

/-- So does ESTABLISHED. -/
theorem removes_handleEstablished (A : Application σ) (app : σ) (seg : TcpSegment .In)
    (conn : ConnState) (now : Instant) {est : SyncedState .Established}
    (hst : conn.tcpState = .Established est) :
    removes (handleEstablished A app seg conn est now).result = conn.removedBy seg := by
  have hname : conn.name = some .Established := by unfold ConnState.name; rw [hst]; rfl
  rw [ConnState.removedBy_sending (.inl (.inr hname))]
  have harm := handleEstablished_arm hst A app seg now
  generalize handleEstablished A app seg conn est now = hd at harm ⊢
  cases harm with
  | unsent htakes hflags => rw [hflags]; rfl
  | pureAck htakes hflags hpay hdrain => rw [hflags]; exact hdrain.removes
  | data htakes hflags hpay hcheck hdel hafter => rw [hflags]; exact hafter.removes
  | buffer htakes hflags => rcases hflags with hflags | ⟨hflags, -⟩ <;> rw [hflags] <;> rfl
  | fin htakes hflags => rw [hflags]; exact removes_closeOnInOrderFin A app seg _ _ _ now
  | fallback => exact knownConnCommonFallback_removes_iff seg conn

/-- **A segment removes a connection** exactly when `removedBy` says so. -/
theorem removes_handleKnownConn (A : Application σ) (app : σ) (seg : TcpSegment .In)
    (conn : ConnState) (now : Instant) :
    removes (handleKnownConn A app seg conn now).result = conn.removedBy seg := by
  have hfallback := knownConnCommonFallback_removes_iff seg conn
  unfold handleKnownConn
  cases hst : conn.tcpState with
  | SynReceived => exact removes_handleSynRcv A app seg conn now hst
  | Established est => exact removes_handleEstablished A app seg conn now hst
  | FinWait1 s =>
    simp only [infallible, removes]
    unfold handleFinWait1 ConnState.removedBy
    grind
  | FinWait2 s =>
    simp only [infallible, removes]
    unfold handleFinWait2 ConnState.removedBy
    grind
  | CloseWait s =>
    have hname : conn.name = some .CloseWait := by unfold ConnState.name; rw [hst]; rfl
    rw [ConnState.removedBy_sending (.inr hname)]
    simp only
    unfold handleCloseWait
    split
    case h_1 hflags hpay hcheck | h_2 hflags hpay hcheck =>
      rw [hflags]
      exact removes_map _
    case h_3 => exact hfallback
  | Closing s =>
    simp only [infallible, removes]
    unfold handleClosing ConnState.removedBy
    cases hcheck : SeqCheck.check seg conn <;> grind
  | LastAck s =>
    simp only [infallible, removes]
    unfold handleLastAck ConnState.removedBy
    cases hcheck : SeqCheck.check seg conn <;> grind

/-! ### SND.UNA -/

/-- On a synchronized connection SND.UNA moves as `incomingAckUpdate` has it. -/
theorem ConnState.unaAfter_synced (h : conn.tcpState ≠ .SynReceived) :
    conn.unaAfter seg = if conn.takesAck seg then conn.ackedUna seg.ackNum else conn.sndUna := by
  have hno : conn.completesHandshake seg = false := by simp [completesHandshake, h]
  unfold unaAfter acceptsAck ackedUna
  rw [hno]
  cases conn.takesAck seg <;> rfl

/-- What is acknowledged for the first time is not SND.UNA. -/
theorem ConnState.acceptsAck_ne (h : conn.acceptsAck seg = true) : seg.ackNum ≠ conn.sndUna := by
  have hprec : conn.sndUna.precedes seg.ackNum = true := by
    unfold acceptsAck completesHandshake at h
    grind
  intro heq
  rw [heq, SeqPoint.precedes_iff, SeqPoint.dist_self] at hprec
  omega

/-- The passive close leaves SND.UNA alone. -/
theorem SendInfo.closeWaitOrLastAck_sndUna (conn : ConnState) (cw : SyncedState .CloseWait)
    (now : Instant) : (closeWaitOrLastAck conn cw now).2.sndUna = conn.sndUna :=
  (closeWaitOrLastAck_passiveClose conn cw now).frame.1

/-- A FIN in order moves SND.UNA by its acknowledgment only. -/
theorem SendInfo.closeOnInOrderFin_sndUna (A : Application σ) (app : σ) (seg : TcpSegment .In)
    (conn : ConnState) (p : Option TcpPayload) (est : SyncedState .Established) (now : Instant) :
    (closeOnInOrderFin A app seg conn p est now).conn.sndUna = conn.ackedUna seg.ackNum := by
  simp only [closeOnInOrderFin, deliverPayload_eq, SyncedState.incomingAckUpdate_eq]
  rw [closeWaitOrLastAck_sndUna]
  rfl

/-- Where SYN-RECEIVED leaves SND.UNA. -/
theorem SendInfo.handleSynRcv_sndUna (A : Application σ) (app : σ) (seg : TcpSegment .In)
    (conn : ConnState) (now : Instant) (hst : conn.tcpState = .SynReceived) :
    (handleSynRcv A app seg conn now).conn.sndUna = conn.unaAfter seg := by
  have hskips : conn.takesAck seg = false := by simp [ConnState.takesAck, hst]
  unfold ConnState.unaAfter ConnState.acceptsAck
  rw [hskips]
  have harm := handleSynRcv_arm hst A app seg now
  generalize handleSynRcv A app seg conn now = hd at harm ⊢
  cases harm with
  | resend hflags =>
    have hno : conn.completesHandshake seg = false := by
      simp [ConnState.completesHandshake, hflags]
    rw [hno]
    rfl
  | silent hdone hflags hcheck hdel => rw [hdone]; exact (deliver_frame hdel).2.2.1
  | data hdone hflags hcheck hdel hafter =>
    rw [hdone, hafter.sndUna]
    exact (deliver_frame hdel).2.2.1
  | fin hdone =>
    rw [hdone, closeOnInOrderFin_sndUna]
    exact (acked_completeHandshake seg conn).1
  | buffer hdone => rw [hdone]; rfl
  | fallback hno => rw [hno]; rfl

/-- Where ESTABLISHED leaves SND.UNA. -/
theorem SendInfo.handleEstablished_sndUna (A : Application σ) (app : σ) (seg : TcpSegment .In)
    (conn : ConnState) (now : Instant) {est : SyncedState .Established}
    (hst : conn.tcpState = .Established est) :
    (handleEstablished A app seg conn est now).conn.sndUna = conn.unaAfter seg := by
  rw [ConnState.unaAfter_synced (by simp [hst])]
  have harm := handleEstablished_arm hst A app seg now
  generalize handleEstablished A app seg conn est now = hd at harm ⊢
  cases harm with
  | unsent hskips => rw [hskips]; rfl
  | pureAck htakes hflags hpay hdrain => rw [if_pos htakes]; exact hdrain.frame.2.1
  | data htakes hflags hpay hcheck hdel hafter =>
    rw [if_pos htakes, hafter.sndUna]
    exact (deliver_frame hdel).2.2.1
  | buffer htakes => rw [if_pos htakes]; rfl
  | fin htakes => rw [if_pos htakes]; exact closeOnInOrderFin_sndUna A app seg conn _ est now
  | fallback hskips => rw [hskips]; rfl

/-- **What a segment acknowledges.** -/
theorem SendInfo.handleKnownConn_sndUna (A : Application σ) (app : σ) (seg : TcpSegment .In)
    (conn : ConnState) (now : Instant) :
    (handleKnownConn A app seg conn now).conn.sndUna = conn.unaAfter seg := by
  have hsynced : conn.tcpState ≠ .SynReceived → conn.unaAfter seg
      = if conn.takesAck seg then conn.ackedUna seg.ackNum else conn.sndUna :=
    ConnState.unaAfter_synced
  unfold handleKnownConn
  cases hst : conn.tcpState with
  | SynReceived => exact handleSynRcv_sndUna A app seg conn now hst
  | Established est => exact handleEstablished_sndUna A app seg conn now hst
  | FinWait1 s =>
    rw [hsynced (by simp [hst])]
    unfold handleFinWait1 ConnState.takesAck infallible
    simp only [SyncedState.incomingAckUpdate_eq, hst]
    by_cases hacked : seg.ackNum = conn.sndNxt <;> cases seg.flags <;> cases seg.payload <;>
      cases SeqCheck.check seg conn <;> simp [ConnState.acked, hacked]
    all_goals rfl
  | FinWait2 s =>
    rw [hsynced (by simp [hst])]
    unfold handleFinWait2 ConnState.takesAck infallible
    simp only [SyncedState.incomingAckUpdate_eq, hst]
    cases seg.flags <;> cases seg.payload <;> cases SeqCheck.check seg conn <;>
      simp [ConnState.acked]
    all_goals rfl
  | CloseWait s =>
    rw [hsynced (by simp [hst])]
    unfold handleCloseWait ConnState.takesAck
    simp only [SyncedState.incomingAckUpdate_eq, hst]
    cases seg.flags <;> cases seg.payload <;> cases SeqCheck.check seg conn <;>
      simp [ConnState.acked, closeWaitOrLastAck_sndUna]
  | Closing s =>
    rw [hsynced (by simp [hst])]
    unfold handleClosing ConnState.takesAck infallible
    simp only [SyncedState.incomingAckUpdate_eq, hst]
    by_cases hacked : seg.ackNum = conn.sndNxt <;> cases seg.flags <;> cases seg.payload <;>
      cases SeqCheck.check seg conn <;> simp [ConnState.acked, hacked]
  | LastAck s =>
    rw [hsynced (by simp [hst])]
    unfold handleLastAck ConnState.takesAck infallible
    simp only [SyncedState.incomingAckUpdate_eq, hst]
    by_cases hacked : seg.ackNum = conn.sndNxt <;> cases seg.flags <;> cases seg.payload <;>
      cases SeqCheck.check seg conn <;> simp [ConnState.acked, hacked]

/-! ### Closing -/

/-- Passive close begins unless the range in flight cannot be converted. -/
theorem PassiveClose.receiving {cw : SyncedState .CloseWait}
    {out : TraceableResult SendInfo × ConnState} (h : PassiveClose conn cw now out) :
    Receiving out.2.name ↔ Receiving conn.name ∧ 2 ^ 31 ≤ conn.inFlight := by
  cases h with
  | failed hge => exact (and_iff_left hge).symm
  | fin hlt => exact iff_of_false (by decide : ¬ Receiving (some .LastAck)) (by omega)
  | data hlt | blocked hlt =>
    exact iff_of_false (by decide : ¬ Receiving (some .CloseWait)) (by omega)

/-- A FIN in order ends receiving unless half the circle is in flight. -/
theorem SendInfo.closeOnInOrderFin_receiving (A : Application σ) (app : σ) (seg : TcpSegment .In)
    (conn : ConnState) (p : Option TcpPayload) (est : SyncedState .Established) (now : Instant) :
    Receiving (closeOnInOrderFin A app seg conn p est now).conn.name ↔
      Receiving conn.name ∧ 2 ^ 31 ≤ (conn.ackedUna seg.ackNum).dist conn.sndNxt := by
  simp only [closeOnInOrderFin, deliverPayload_eq, SyncedState.incomingAckUpdate_eq]
  rw [(closeWaitOrLastAck_passiveClose _ _ now).receiving]
  rfl

/-- After a delivery only a FIN that is reached ends receiving. -/
theorem AfterDelivery.receiving {m : ConnState} {est : SyncedState .Established} {h : Handled σ}
    (hafter : AfterDelivery app m est now h) : Receiving h.conn.name ↔ Receiving m.name ∧
      ¬ (m.reassembly.finReached m.rcvNxt = true ∧ m.inFlight < 2 ^ 31) := by
  cases hafter with
  | close hfin hclose =>
    simp only [hfin, true_and, not_lt]
    exact hclose.receiving
  | drain hfin hdrain =>
    have hname : h.conn.name = m.name := congrArg TcpState.name hdrain.frame.1
    rw [hname, hfin, and_iff_left (by simp)]

/-- Once the data of `seg` is delivered, the recorded FIN has been reached or not. -/
theorem SendInfo.deliver_reachesFin (A : Application σ) (app : σ) (conn c : ConnState)
    (hrcv : c.rcvNxt = conn.rcvNxt) (hre : c.reassembly = conn.reassembly)
    (hflags : seg.flags = .Ack) (hcheck : SeqCheck.check seg conn = .InOrder)
    {app' : σ} {m : ConnState}
    (hdel : deliverReassembled A (deliverPayload A app c seg.payload).1
      (deliverPayload A app c seg.payload).2 = (app', m)) :
    m.reassembly.finReached m.rcvNxt = conn.reachesFin seg := by
  obtain ⟨⟨payloads, reassembly, rcvNxt⟩, hdrain⟩ : ∃ r,
    conn.reassembly.drainContiguous (conn.rcvNxt + TcpPayload.lenOrDefault seg.payload) = r :=
    ⟨_, rfl⟩
  obtain ⟨⟨app'', extra⟩, hfeed⟩ : ∃ r,
    A.feed app (TcpPayload.slices seg.payload ++ payloads.map (·.data)) = r := ⟨_, rfl⟩
  rw [SendInfo.deliver_eq A app c seg.payload (by rw [hre, hrcv]; exact hdrain) hfeed] at hdel
  obtain ⟨-, rfl⟩ := Prod.mk.inj hdel
  unfold ConnState.reachesFin
  rw [hcheck, hflags]
  simp only [hdrain]
  rfl

/-- A FIN in order is reached. -/
theorem ConnState.reachesFin_finAck (hflags : seg.flags = .FinAck)
    (hcheck : SeqCheck.check seg conn = .InOrder) : conn.reachesFin seg = true := by
  unfold ConnState.reachesFin
  rw [hcheck, hflags]
  rfl

/-- Nothing out of order begins a close. -/
theorem ConnState.beginsClosing_not_inOrder (hcheck : SeqCheck.check seg conn ≠ .InOrder) :
    conn.beginsClosing seg = false := by
  simp [ConnState.beginsClosing, ConnState.reachesFin, hcheck]

/-- SYN-RECEIVED goes on receiving unless the segment begins a close. -/
theorem SendInfo.handleSynRcv_receiving (A : Application σ) (app : σ) (seg : TcpSegment .In)
    (conn : ConnState) (now : Instant) (hst : conn.tcpState = .SynReceived) :
    Receiving (handleSynRcv A app seg conn now).conn.name ↔ conn.beginsClosing seg = false := by
  have hname : conn.name = none := ConnState.name_eq_none.mpr hst
  have huna : conn.completesHandshake seg = true → conn.unaAfter seg = seg.ackNum := fun hdone =>
    if_pos (by simp [ConnState.acceptsAck, hdone])
  have harm := handleSynRcv_arm hst A app seg now
  generalize handleSynRcv A app seg conn now = hd at harm ⊢
  cases harm with
  | resend hflags =>
    apply iff_of_true (.inl hname)
    simp [ConnState.beginsClosing, ConnState.completesHandshake, hflags, hname]
  | silent hdone hflags hcheck hdel hno =>
    rw [deliver_reachesFin A app conn (completeHandshake seg conn).2 rfl rfl hflags hcheck
      hdel] at hno
    refine iff_of_true ?_ (by simp [ConnState.beginsClosing, hno])
    exact .inr (congrArg TcpState.name (deliver_frame hdel).1)
  | @data app' c hd hdone hflags hcheck hdel hafter =>
    obtain ⟨hst', hnxt, huna', -⟩ := deliver_frame hdel
    have hrecv : Receiving c.name := .inr (congrArg TcpState.name hst')
    have hfl : c.inFlight = seg.ackNum.dist conn.sndNxt := by
      unfold ConnState.inFlight; rw [hnxt, huna']; rfl
    rw [hafter.receiving, hfl, deliver_reachesFin A app conn (completeHandshake seg conn).2 rfl
      rfl hflags hcheck hdel, and_iff_right hrecv]
    simp [ConnState.beginsClosing, hdone, huna hdone]
  | fin hdone hflags hcheck =>
    rw [closeOnInOrderFin_receiving, (acked_completeHandshake seg conn).1,
      and_iff_right (.inr rfl)]
    simp [ConnState.beginsClosing, hdone, huna hdone, ConnState.reachesFin_finAck hflags hcheck]
    rfl
  | buffer hdone hflags hcheck =>
    exact iff_of_true (.inr rfl) (ConnState.beginsClosing_not_inOrder (by rw [hcheck]; decide))
  | fallback hno =>
    apply iff_of_true (.inl hname)
    simp [ConnState.beginsClosing, hno, hname]

/-- So does ESTABLISHED. -/
theorem SendInfo.handleEstablished_receiving (A : Application σ) (app : σ) (seg : TcpSegment .In)
    (conn : ConnState) (now : Instant) {est : SyncedState .Established}
    (hst : conn.tcpState = .Established est) :
    Receiving (handleEstablished A app seg conn est now).conn.name ↔
      conn.beginsClosing seg = false := by
  have hname : conn.name = some .Established := by unfold ConnState.name; rw [hst]; rfl
  have hno : conn.completesHandshake seg = false := by simp [ConnState.completesHandshake, hst]
  have huna : conn.takesAck seg = true → conn.unaAfter seg = conn.ackedUna seg.ackNum :=
    fun htakes => by rw [ConnState.unaAfter_synced (by simp [hst]), if_pos htakes]
  have harm := handleEstablished_arm hst A app seg now
  generalize handleEstablished A app seg conn est now = hd at harm ⊢
  cases harm with
  | unsent hskips | fallback hskips =>
    exact iff_of_true (.inr hname) (by simp [ConnState.beginsClosing, hno, hskips])
  | pureAck htakes hflags hpay hdrain =>
    -- an ACK without data reaches no FIN
    refine iff_of_true ?_ (by simp [ConnState.beginsClosing, hno, hflags, hpay])
    exact .inr (congrArg TcpState.name hdrain.frame.1)
  | @data p app' c hd htakes hflags hpay hcheck hdel hafter =>
    obtain ⟨hst', hnxt, huna', -⟩ := deliver_frame hdel
    have hrecv : Receiving c.name := .inr (congrArg TcpState.name hst')
    have hfl : c.inFlight = (conn.ackedUna seg.ackNum).dist conn.sndNxt := by
      unfold ConnState.inFlight; rw [hnxt, huna']; rfl
    rw [hafter.receiving, hfl, deliver_reachesFin A app conn (conn.tookAck est seg) rfl rfl hflags
      hcheck hdel, and_iff_right hrecv]
    simp [ConnState.beginsClosing, hno, hname, htakes, hpay, huna htakes]
  | buffer htakes hflags hcheck =>
    exact iff_of_true (.inr rfl) (ConnState.beginsClosing_not_inOrder (by rw [hcheck]; decide))
  | fin htakes hflags hcheck =>
    rw [closeOnInOrderFin_receiving, and_iff_right (.inr hname)]
    simp [ConnState.beginsClosing, hno, hname, htakes, hflags, huna htakes,
      ConnState.reachesFin_finAck hflags hcheck]

/-- **What a segment closes**: a connection that it does not remove stays in SYN-RECEIVED or
    ESTABLISHED exactly when it was there and the segment does not have it begin to close. -/
theorem SendInfo.handleKnownConn_receiving (A : Application σ) (app : σ)
    (now : Instant) (h : conn.removedBy seg = false) :
    Receiving (handleKnownConn A app seg conn now).conn.name ↔
      Receiving conn.name ∧ conn.beginsClosing seg = false := by
  -- past SYN-RECEIVED and ESTABLISHED there is no way back, so only the two matter
  by_cases hrecv : Receiving conn.name
  · rw [and_iff_right hrecv]
    have hname : conn.name = conn.tcpState.name := rfl
    rw [hname] at hrecv
    unfold handleKnownConn
    cases hst : conn.tcpState with
    | SynReceived => exact handleSynRcv_receiving A app seg conn now hst
    | Established est => exact handleEstablished_receiving A app seg conn now hst
    | FinWait1 s | FinWait2 s | CloseWait s | Closing s | LastAck s =>
      rw [hst] at hrecv
      exact absurd hrecv (by unfold TcpState.name; simp [Receiving])
  · refine iff_of_false ?_ (fun hboth => hrecv hboth.1)
    rcases handleKnownConn_moves A app seg conn now with
      ⟨reply, hres, -⟩ | ⟨-, -, slices, extra, -, -, hmove⟩
    · have hremoves := removes_handleKnownConn A app seg conn now
      rw [hres, h] at hremoves
      cases hremoves
    · exact fun hafter => hrecv (hmove.receiving hafter)

/-! ### The entry of a connection -/

/-- **A segment and one connection of the table.** -/
theorem Host.segment_entry {h : Host σ} {key : ConnKey} (hget : h.get key = some conn)
    (A : Application σ) (seg : TcpSegment .In) (randomU32 : TraceableResult UInt32)
    (now : Instant) :
    (h.step A (.segment seg randomU32 now)).get key = if ConnKey.ofSegment seg = key then
        if conn.removedBy seg then none else some (handleKnownConn A h.app seg conn now).conn
      else some conn := by
  by_cases hk : ConnKey.ofSegment seg = key
  · subst hk
    obtain ⟨-, -, hkeys⟩ := Host.segment_known hget A randomU32 now
    rw [hkeys, if_pos rfl, if_pos rfl, ← removes_handleKnownConn A h.app seg conn now]
    rfl
  · rw [if_neg hk, h.segment_other A randomU32 now hk, hget]

/-! ### Connections mid-close -/

/-- Closing is in progress while a connection no longer receives. -/
theorem TcpConnections.closingInProgress_iff (self : TcpConnections) :
    self.closingInProgress = true ↔
      ∃ key conn, self.get key = some conn ∧ ¬ Receiving conn.name := by
  unfold closingInProgress
  rw [List.any_eq_true]
  constructor
  · rintro ⟨⟨key, conn⟩, hmem, h⟩
    refine ⟨key, conn, AList.mem_lookup_iff.mpr hmem, ?_⟩
    unfold ConnState.name TcpState.name Receiving
    cases hst : conn.tcpState <;> simp [hst] at h ⊢
  · rintro ⟨key, conn, hget, h⟩
    refine ⟨⟨key, conn⟩, AList.mem_lookup_iff.mp hget, ?_⟩
    unfold ConnState.name TcpState.name Receiving at h
    cases hst : conn.tcpState <;> simp [hst] at h ⊢

/-- Whether the connection is still there and mid-close after `seg`, one of its own segments. -/
def ConnState.ClosesAfter (conn : ConnState) (seg : TcpSegment .In) : Prop :=
  if Receiving conn.name then conn.beginsClosing seg = true else conn.removedBy seg = false

/-- Whether any connection of the table is mid-close after `seg`. -/
def TcpConnections.ClosesAfter (self : TcpConnections) (seg : TcpSegment .In) : Prop :=
  ∃ key conn, self.get key = some conn ∧
    if ConnKey.ofSegment seg = key then conn.ClosesAfter seg else ¬ Receiving conn.name

/-- A segment that removes a connection does not have it begin to close. -/
theorem ConnState.removedBy_not_beginsClosing (hrecv : Receiving conn.name)
    (h : conn.removedBy seg = true) : conn.beginsClosing seg = false := by
  rw [removedBy_sending (.inl hrecv), Bool.and_eq_true, Bool.or_eq_true, beq_iff_eq,
    beq_iff_eq] at h
  unfold beginsClosing reachesFin
  rcases h.1 with hflags | hflags <;> simp [hflags]

/-- One of the connection's own segments leaves it mid-close exactly as `ClosesAfter` says. -/
theorem ConnState.closesAfter_iff (conn : ConnState) (A : Application σ) (app : σ)
    (seg : TcpSegment .In) (now : Instant) : conn.ClosesAfter seg ↔
      conn.removedBy seg = false ∧ ¬ Receiving (handleKnownConn A app seg conn now).conn.name := by
  unfold ClosesAfter
  cases hremoved : conn.removedBy seg with
  | true =>
    refine iff_of_false ?_ (fun h => absurd h.1 (by decide))
    split
    case isTrue hrecv => simp [removedBy_not_beginsClosing hrecv hremoved]
    case isFalse => decide
  | false =>
    rw [SendInfo.handleKnownConn_receiving A app now hremoved, and_iff_right rfl, not_and,
      Bool.not_eq_false]
    split
    case isTrue hrecv => exact ⟨fun hbegins _ => hbegins, fun hbegins => hbegins hrecv⟩
    case isFalse hrecv => exact iff_of_true rfl fun h => absurd h hrecv

/-- **What a segment leaves mid-close.** -/
theorem Host.segment_closing (h : Host σ) (A : Application σ) (seg : TcpSegment .In)
    (randomU32 : TraceableResult UInt32) (now : Instant) :
    (h.step A (.segment seg randomU32 now)).connections.closingInProgress = true ↔
      h.connections.ClosesAfter seg := by
  have hentry : ∀ key conn, h.get key = some conn →
      ((∃ conn', (h.step A (.segment seg randomU32 now)).get key = some conn' ∧
          ¬ Receiving conn'.name) ↔
        if ConnKey.ofSegment seg = key then conn.ClosesAfter seg else ¬ Receiving conn.name) := by
    intro key conn hget
    rw [Host.segment_entry hget A seg randomU32 now]
    by_cases hk : ConnKey.ofSegment seg = key
    · rw [if_pos hk, if_pos hk, conn.closesAfter_iff A h.app seg now]
      cases hremoved : conn.removedBy seg <;> simp
    · rw [if_neg hk, if_neg hk]
      simp
  rw [TcpConnections.closingInProgress_iff]
  constructor
  · rintro ⟨key, conn', hget', hclosing⟩
    -- a connection that has just been opened is in SYN-RECEIVED
    have hold : ∃ conn, h.get key = some conn := by
      cases (h.segment_get seg randomU32 now key).2 conn' hget' with
      | unchanged hget => exact ⟨conn', hget⟩
      | stepped hget => exact ⟨_, hget⟩
      | opened hget heq =>
        rw [heq] at hclosing
        exact absurd (.inl rfl) hclosing
    obtain ⟨conn, hget⟩ := hold
    exact ⟨key, conn, hget, (hentry key conn hget).mp ⟨conn', hget', hclosing⟩⟩
  · rintro ⟨key, conn, hget, h'⟩
    obtain ⟨conn', hget', hclosing⟩ := (hentry key conn hget).mpr h'
    exact ⟨key, conn', hget', hclosing⟩

end Typenet
