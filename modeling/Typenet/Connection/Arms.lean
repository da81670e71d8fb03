import Typenet.Connection.Moves

namespace Typenet

/-!
# The arms of the handlers

The tails that the handlers share, and the two handlers that deliver data, inverted once: what
each arm asks of the segment and the connection, and exactly what it leaves behind.

* `PassiveClose` — sending what is left and our FIN with it;
* `DrainReply` — sending what the window allows;
* `AfterDelivery` — the one or the other, once in-order data has been delivered;
* `EstablishedArm`, `SynRcvArm` — the arms of ESTABLISHED and SYN-RECEIVED.

What the handlers do to a connection is proved by cases on these, and no proof above this file
looks into the tails again.
-/

open SendInfo

variable {σ : Type} {A : Application σ} {app app' : σ} {seg : TcpSegment .In} {now : Instant}
  {conn m : ConnState}

/-! ### Deliveries as one feed -/

/-- What delivering a payload comes to. -/
theorem SendInfo.deliverPayload_eq (A : Application σ) (app : σ) (conn : ConnState)
    (p : Option TcpPayload) :
    deliverPayload A app conn p = ((A.feed app (TcpPayload.slices p)).1,
      { conn with
        rcvNxt := conn.rcvNxt + TcpPayload.lenOrDefault p
        sendBuffer := conn.sendBuffer ++ (A.feed app (TcpPayload.slices p)).2 }) := by
  cases p with
  | none => simp [deliverPayload, TcpPayload.slices]
  | some p => rfl

/-- What delivering from reassembly comes to: the contiguous payloads, in order. -/
theorem SendInfo.deliverReassembled_eq (A : Application σ) (app : σ) (conn : ConnState)
    {payloads : List TcpPayload} {reassembly : TcpReassembly} {rcvNxt : SeqPoint .In}
    (h : conn.reassembly.drainContiguous conn.rcvNxt = (payloads, reassembly, rcvNxt)) :
    deliverReassembled A app conn = ((A.feed app (payloads.map (·.data))).1,
      { conn with
        reassembly := reassembly
        rcvNxt := rcvNxt
        sendBuffer := conn.sendBuffer ++ (A.feed app (payloads.map (·.data))).2 }) := by
  rw [deliverReassembled, h]; rfl

/-- Deliveries leave the send side alone, but for what they append to the send buffer. -/
theorem SendInfo.deliver_frame {p : Option TcpPayload} {c : ConnState}
    (h : deliverReassembled A (deliverPayload A app conn p).1 (deliverPayload A app conn p).2
      = (app', c)) :
    c.tcpState = conn.tcpState ∧ c.sndNxt = conn.sndNxt ∧ c.sndUna = conn.sndUna ∧
      c.pending = conn.pending := by
  obtain ⟨-, rfl⟩ := Prod.mk.inj h
  cases p <;> exact ⟨rfl, rfl, rfl, rfl⟩

/-! ### Passive close -/

/-- **What passive close can do**: fail and leave the connection alone, send our FIN with all
    that is left, send what the window allows, or wait for the window. -/
inductive PassiveClose (conn : ConnState) (cw : SyncedState .CloseWait) (now : Instant) :
    TraceableResult SendInfo × ConnState → Prop
  | failed : 2 ^ 31 ≤ conn.inFlight → PassiveClose conn cw now (.error .tryFromInt, conn)
  | fin {p : Option TcpPayload} {info : SendInfo} : conn.inFlight < 2 ^ 31 →
      TcpPayload.lenOrDefault p = conn.transmittable cw.windowState →
      TcpPayload.bytes p ++ [] = conn.sendBuffer →
      info = ⟨conn.sndNxt, conn.rcvNxt, .FinAck, p⟩ →
      PassiveClose conn cw now (.ok info, { conn with
        tcpState := .LastAck cw.sendFin
        sndNxt := conn.sndNxt + TcpPayload.lenOrDefault p + FIN_BYTE
        pending := conn.pending ++ [PendingSegment.new info now]
        sendBuffer := [] })
  | data {p : TcpPayload} {left : List UInt8} {info : SendInfo} : conn.inFlight < 2 ^ 31 →
      p.len = conn.transmittable cw.windowState → p.data ++ left = conn.sendBuffer → left ≠ [] →
      info = ⟨conn.sndNxt, conn.rcvNxt, .Ack, some p⟩ →
      PassiveClose conn cw now (.ok info, { conn with
        tcpState := .CloseWait cw
        sndNxt := conn.sndNxt + p.len
        pending := conn.pending ++ [PendingSegment.new info now]
        sendBuffer := left })
  | blocked : conn.inFlight < 2 ^ 31 → conn.transmittable cw.windowState = 0 →
      conn.sendBuffer ≠ [] →
      PassiveClose conn cw now (.ok (pureAck conn), { conn with tcpState := .CloseWait cw })

/-- The passive close has one of its four outcomes. -/
theorem SendInfo.closeWaitOrLastAck_passiveClose (conn : ConnState)
    (cw : SyncedState .CloseWait) (now : Instant) :
    PassiveClose conn cw now (SendInfo.closeWaitOrLastAck conn cw now) := by
  have hdrained := cw.drainTransmittable_drained conn
  unfold SendInfo.closeWaitOrLastAck
  generalize cw.drainTransmittable conn = out at hdrained ⊢
  cases hdrained with
  | failed hge => exact .failed hge
  | nothing hlt hzero =>
    -- nothing goes out: our FIN goes alone if nothing is queued
    by_cases hempty : conn.sendBuffer = []
    · simp only [if_pos hempty]
      have hfin : PassiveClose conn cw now _ := .fin (p := none) hlt hzero.symm hempty.symm rfl
      rw [hempty]
      exact hfin
    · simp only [if_neg hempty]
      exact .blocked hlt hzero hempty
  | @data p left hlt hlen hsplit =>
    -- our FIN goes along if this was all that was queued
    by_cases hleft : left = []
    · simp only [if_pos hleft]
      subst hleft
      exact .fin hlt hlen hsplit rfl
    · simp only [if_neg hleft]
      exact .data hlt hlen hsplit hleft rfl

/-- Passive close acknowledges nothing and receives nothing. -/
theorem PassiveClose.frame {cw : SyncedState .CloseWait}
    {out : TraceableResult SendInfo × ConnState} (h : PassiveClose conn cw now out) :
    out.2.sndUna = conn.sndUna ∧ out.2.rcvNxt = conn.rcvNxt ∧
      out.2.reassembly = conn.reassembly := by
  cases h <;> exact ⟨rfl, rfl, rfl⟩

/-- A FIN in order: what comes with it is delivered, the acknowledgment is taken, and passive
    close follows. -/
theorem SendInfo.closeOnInOrderFin_passiveClose (A : Application σ) (app : σ)
    (seg : TcpSegment .In) (conn : ConnState) (p : Option TcpPayload)
    (est : SyncedState .Established) (now : Instant) :
    ∃ out, closeOnInOrderFin A app seg conn p est now = ⟨(A.feed app (TcpPayload.slices p)).1,
        out.2, out.1.map fun info => (some info, false)⟩ ∧
      PassiveClose { conn.acked seg.ackNum with
        rcvNxt := conn.rcvNxt + TcpPayload.lenOrDefault p + FIN_BYTE
        sendBuffer := conn.sendBuffer ++ (A.feed app (TcpPayload.slices p)).2 }
        ⟨est.windowState.updated conn seg⟩ now out := by
  refine ⟨_, ?_, closeWaitOrLastAck_passiveClose _ _ now⟩
  simp only [closeOnInOrderFin, deliverPayload_eq, SyncedState.incomingAckUpdate_eq]
  rfl

/-! ### Sending what the window allows -/

/-- **What sending what the window allows can do** to the connection `m`, with the reply `idle`
    where nothing goes out. -/
inductive DrainReply (app : σ) (m : ConnState) (est : SyncedState .Established) (now : Instant)
    (idle : Option SendInfo) : Handled σ → Prop
  | failed : 2 ^ 31 ≤ m.inFlight → DrainReply app m est now idle ⟨app, m, .error .tryFromInt⟩
  | nothing : m.inFlight < 2 ^ 31 → m.transmittable est.windowState = 0 →
      DrainReply app m est now idle ⟨app, m, .ok (idle, false)⟩
  | data {p : TcpPayload} {left : List UInt8} {info : SendInfo} : m.inFlight < 2 ^ 31 →
      p.len = m.transmittable est.windowState → p.data ++ left = m.sendBuffer →
      info = ⟨m.sndNxt, m.rcvNxt, .Ack, some p⟩ →
      DrainReply app m est now idle ⟨app, { m with
        sndNxt := m.sndNxt + p.len
        pending := m.pending ++ [PendingSegment.new info now]
        sendBuffer := left }, .ok (some info, false)⟩

/-- Draining the send buffer has one of its three outcomes. -/
theorem drainReply (app : σ) (m : ConnState) (est : SyncedState .Established) (now : Instant)
    (idle : ConnState → Option SendInfo) :
    DrainReply app m est now (idle m)
      (match est.drainTransmittable m with
      | (.error e, c) => ⟨app, c, .error e⟩
      | (.ok (some toSend), c) =>
        ⟨app, (dataPayload c toSend now).2, .ok (some (dataPayload c toSend now).1, false)⟩
      | (.ok none, c) => ⟨app, c, .ok (idle c, false)⟩) := by
  have hdrained := est.drainTransmittable_drained m
  generalize est.drainTransmittable m = out at hdrained ⊢
  cases hdrained with
  | failed hge => exact .failed hge
  | nothing hlt hzero => exact .nothing hlt hzero
  | data hlt hlen hsplit => exact .data hlt hlen hsplit rfl

/-- Sending acknowledges nothing and receives nothing. -/
theorem DrainReply.frame {est : SyncedState .Established} {idle : Option SendInfo}
    {h : Handled σ} (hdrain : DrainReply app m est now idle h) :
    h.conn.tcpState = m.tcpState ∧ h.conn.sndUna = m.sndUna ∧ h.conn.rcvNxt = m.rcvNxt ∧
      h.conn.reassembly = m.reassembly := by
  cases hdrain <;> exact ⟨rfl, rfl, rfl, rfl⟩

/-- What follows the delivery of in-order data to the connection `m`. -/
inductive AfterDelivery (app : σ) (m : ConnState) (est : SyncedState .Established)
    (now : Instant) : Handled σ → Prop
  /-- The peer's buffered FIN has been reached. -/
  | close {out : TraceableResult SendInfo × ConnState} :
      m.reassembly.finReached m.rcvNxt = true →
      PassiveClose { m with rcvNxt := m.rcvNxt + FIN_BYTE } est.rcvFin now out →
      AfterDelivery app m est now ⟨app, out.2, out.1.map fun info => (some info, false)⟩
  | drain {h : Handled σ} : m.reassembly.finReached m.rcvNxt = false →
      DrainReply app m est now (some (pureAck m)) h → AfterDelivery app m est now h

/-- What follows a delivery leaves SND.UNA alone. -/
theorem AfterDelivery.sndUna {est : SyncedState .Established} {h : Handled σ}
    (hafter : AfterDelivery app m est now h) : h.conn.sndUna = m.sndUna := by
  cases hafter with
  | close hfin hclose => exact hclose.frame.1
  | drain hfin hdrain => exact hdrain.frame.2.1

/-- The reply after a delivery is one of those that may follow it. -/
theorem SendInfo.replyAfterDelivery_afterDelivery (app : σ) (m : ConnState)
    (est : SyncedState .Established) (now : Instant) :
    AfterDelivery app m est now (replyAfterDelivery app m est now) := by
  unfold replyAfterDelivery
  split
  case isTrue hfin => exact .close hfin (closeWaitOrLastAck_passiveClose _ est.rcvFin now)
  case isFalse hfin =>
    exact .drain (Bool.not_eq_true _ ▸ hfin) (drainReply app m est now fun c => some (pureAck c))

/-! ### ESTABLISHED -/

/-- The connection in ESTABLISHED once the acknowledgment of `seg` has been taken. -/
def ConnState.tookAck (conn : ConnState) (est : SyncedState .Established)
    (seg : TcpSegment .In) : ConnState :=
  { conn.acked seg.ackNum with tcpState := .Established ⟨est.windowState.updated conn seg⟩ }

/-- ESTABLISHED takes the acknowledgment of ACKs and FIN-ACKs in the window only. -/
theorem ConnState.of_takesAck {est : SyncedState .Established}
    (hst : conn.tcpState = .Established est) (h : conn.takesAck seg = true) :
    (seg.flags = .Ack ∨ seg.flags = .FinAck) ∧ SeqCheck.check seg conn ≠ .Unacceptable := by
  unfold takesAck at h
  rw [hst] at h
  cases hf : seg.flags with
  | Ack =>
    rw [hf] at h
    exact ⟨.inl rfl, by simpa using (Bool.and_eq_true_iff.mp h).1⟩
  | FinAck =>
    rw [hf] at h
    exact ⟨.inr rfl, by simpa using h⟩
  | Syn | SynAck | Rst | RstAck => rw [hf] at h; cases h

/-- **The arms of ESTABLISHED.** -/
inductive EstablishedArm (A : Application σ) (app : σ) (seg : TcpSegment .In) (conn : ConnState)
    (est : SyncedState .Established) (now : Instant) : Handled σ → Prop
  /-- An acknowledgment of what has not been sent. -/
  | unsent : conn.takesAck seg = false → seg.flags = .Ack →
      SeqCheck.check seg conn ≠ .Unacceptable → conn.sndNxt.precedes seg.ackNum = true →
      EstablishedArm A app seg conn est now ⟨app, conn, .ok (some (pureAck conn), false)⟩
  | pureAck {h : Handled σ} : conn.takesAck seg = true → seg.flags = .Ack → seg.payload = none →
      DrainReply app (conn.tookAck est seg) ⟨est.windowState.updated conn seg⟩ now none h →
      EstablishedArm A app seg conn est now h
  | data {p : TcpPayload} {app' : σ} {c : ConnState} {h : Handled σ} :
      conn.takesAck seg = true → seg.flags = .Ack → seg.payload = some p →
      SeqCheck.check seg conn = .InOrder →
      deliverReassembled A (deliverPayload A app (conn.tookAck est seg) seg.payload).1
        (deliverPayload A app (conn.tookAck est seg) seg.payload).2 = (app', c) →
      AfterDelivery app' c ⟨est.windowState.updated conn seg⟩ now h →
      EstablishedArm A app seg conn est now h
  /-- Data or a FIN ahead of its turn. -/
  | buffer {re : TcpReassembly} : conn.takesAck seg = true →
      (seg.flags = .FinAck ∨ seg.flags = .Ack ∧ seg.payload ≠ none) →
      SeqCheck.check seg conn = .OutOfOrder →
      re.segments = (match seg.payload with
        | some p => TcpReassembly.insertSegment seg.seqNum p conn.reassembly.segments
        | none => conn.reassembly.segments) →
      re.finSeq = (if seg.flags = .FinAck then
        some (conn.reassembly.finSeq.getD (seg.seqNum + TcpPayload.lenOrDefault seg.payload))
        else conn.reassembly.finSeq) →
      EstablishedArm A app seg conn est now
        ⟨app, { conn.tookAck est seg with reassembly := re }, .ok (some (pureAck conn), false)⟩
  | fin : conn.takesAck seg = true → seg.flags = .FinAck → SeqCheck.check seg conn = .InOrder →
      EstablishedArm A app seg conn est now
        (closeOnInOrderFin A app seg conn seg.payload est now)
  | fallback : conn.takesAck seg = false →
      (seg.flags = .Ack ∨ seg.flags = .FinAck → SeqCheck.check seg conn = .Unacceptable) →
      EstablishedArm A app seg conn est now ⟨app, conn, .ok (knownConnCommonFallback seg conn)⟩

/-- **ESTABLISHED** takes one of its arms. -/
theorem SendInfo.handleEstablished_arm {est : SyncedState .Established}
    (hst : conn.tcpState = .Established est) (A : Application σ) (app : σ)
    (seg : TcpSegment .In) (now : Instant) :
    EstablishedArm A app seg conn est now (handleEstablished A app seg conn est now) := by
  unfold handleEstablished
  simp only [SyncedState.incomingAckUpdate_eq]
  split
  case isTrue h => exact .unsent (by simp [ConnState.takesAck, hst, h.1, h.2.2]) h.1 h.2.1 h.2.2
  case isFalse h =>
    have htakes := ConnState.takesAck_established hst h
    split
    -- in order or not, an ACK without data is treated alike
    case h_1 hflags hpay hcheck | h_2 hflags hpay hcheck =>
      exact .pureAck (htakes (.inl hflags) (by rw [hcheck]; decide)) hflags hpay
        (drainReply app (conn.tookAck est seg) _ now fun _ => none)
    case h_3 p hflags hpay hcheck =>
      refine .data (htakes (.inl hflags) (by rw [hcheck]; decide)) hflags hpay hcheck ?_
        (replyAfterDelivery_afterDelivery _ _ _ now)
      rw [hpay]
      rfl
    case h_4 p hflags hpay hcheck =>
      refine .buffer (htakes (.inl hflags) (by rw [hcheck]; decide)) (.inr ⟨hflags, ?_⟩) hcheck ?_ ?_
      · rw [hpay]; exact Option.some_ne_none p
      · rw [hpay]; rfl
      · rw [hflags]; rfl
    case h_5 hflags hcheck =>
      exact .fin (htakes (.inr hflags) (by rw [hcheck]; decide)) hflags hcheck
    case h_6 hflags hcheck =>
      refine .buffer (htakes (.inr hflags) (by rw [hcheck]; decide)) (.inl hflags) hcheck ?_ ?_
      · cases seg.payload <;> rfl
      · rw [hflags]; cases seg.payload <;> rfl
    case h_7 hfin hfin' hpure hpure' hdata hdata' =>
      -- what is left of ACKs and FIN-ACKs is outside the window
      have hout : seg.flags = .Ack ∨ seg.flags = .FinAck →
          SeqCheck.check seg conn = .Unacceptable := by
        intro hflags
        cases hc : SeqCheck.check seg conn with
        | Unacceptable => rfl
        | InOrder =>
          rcases hflags with hf | hf
          · cases hp : seg.payload with
            | none => exact (hpure hf hp hc).elim
            | some p => exact (hdata p hf hp hc).elim
          · exact (hfin hf hc).elim
        | OutOfOrder =>
          rcases hflags with hf | hf
          · cases hp : seg.payload with
            | none => exact (hpure' hf hp hc).elim
            | some p => exact (hdata' p hf hp hc).elim
          · exact (hfin' hf hc).elim
      refine .fallback ?_ hout
      by_contra ht
      obtain ⟨hflags, hcheck⟩ := ConnState.of_takesAck hst (by simpa using ht)
      exact hcheck (hout hflags)

/-! ### SYN-RECEIVED -/

/-- Whether `seg` completes the handshake. -/
def ConnState.completesHandshake (conn : ConnState) (seg : TcpSegment .In) : Bool :=
  conn.tcpState == .SynReceived && (seg.flags == .Ack || seg.flags == .FinAck)
    && SeqCheck.check seg conn != .Unacceptable
    && (conn.sndUna.precedes seg.ackNum && seg.ackNum.precedesOrEq conn.sndNxt)

/-- What completes a handshake, as conditions on the segment. -/
theorem ConnState.completesHandshake_iff : conn.completesHandshake seg = true ↔
    conn.tcpState = .SynReceived ∧ (seg.flags = .Ack ∨ seg.flags = .FinAck) ∧
      SeqCheck.check seg conn ≠ .Unacceptable ∧
      (conn.sndUna.precedes seg.ackNum && seg.ackNum.precedesOrEq conn.sndNxt) = true := by
  unfold completesHandshake
  rw [Bool.and_eq_true, Bool.and_eq_true, Bool.and_eq_true, beq_iff_eq, Bool.or_eq_true,
    beq_iff_eq, beq_iff_eq, bne_iff_ne, and_assoc, and_assoc]

/-- **The arms of SYN-RECEIVED.** -/
inductive SynRcvArm (A : Application σ) (app : σ) (seg : TcpSegment .In) (conn : ConnState)
    (now : Instant) : Handled σ → Prop
  /-- A duplicate SYN. -/
  | resend {info : SendInfo} : seg.flags = .Syn →
      info = ⟨conn.sndUna, seg.seqNum + SYN_BYTE, .SynAck, none⟩ →
      SynRcvArm A app seg conn now ⟨app,
        { conn with pending := conn.pending ++ [PendingSegment.new info now] },
        .ok (some info, false)⟩
  /-- The handshake is completed in order, with nothing to close and nothing to send. -/
  | silent {app' : σ} {c : ConnState} : conn.completesHandshake seg = true → seg.flags = .Ack →
      SeqCheck.check seg conn = .InOrder →
      deliverReassembled A (deliverPayload A app (completeHandshake seg conn).2 seg.payload).1
        (deliverPayload A app (completeHandshake seg conn).2 seg.payload).2 = (app', c) →
      c.reassembly.finReached c.rcvNxt = false → c.sendBuffer = [] →
      SynRcvArm A app seg conn now ⟨app', c, .ok (none, false)⟩
  | data {app' : σ} {c : ConnState} {h : Handled σ} : conn.completesHandshake seg = true →
      seg.flags = .Ack → SeqCheck.check seg conn = .InOrder →
      deliverReassembled A (deliverPayload A app (completeHandshake seg conn).2 seg.payload).1
        (deliverPayload A app (completeHandshake seg conn).2 seg.payload).2 = (app', c) →
      AfterDelivery app' c (establish seg) now h → SynRcvArm A app seg conn now h
  | fin : conn.completesHandshake seg = true → seg.flags = .FinAck →
      SeqCheck.check seg conn = .InOrder →
      SynRcvArm A app seg conn now (closeOnInOrderFin A app seg (completeHandshake seg conn).2
        seg.payload (establish seg) now)
  /-- The handshake is completed ahead of its turn. -/
  | buffer {re : TcpReassembly} : conn.completesHandshake seg = true →
      (seg.flags = .Ack ∨ seg.flags = .FinAck) → SeqCheck.check seg conn = .OutOfOrder →
      re.segments = (match seg.payload with
        | some p => TcpReassembly.insertSegment seg.seqNum p conn.reassembly.segments
        | none => conn.reassembly.segments) →
      re.finSeq = (if seg.flags = .FinAck then
        some (conn.reassembly.finSeq.getD (seg.seqNum + TcpPayload.lenOrDefault seg.payload))
        else conn.reassembly.finSeq) →
      SynRcvArm A app seg conn now ⟨app, { (completeHandshake seg conn).2 with reassembly := re },
        .ok (some (pureAck conn), false)⟩
  | fallback : conn.completesHandshake seg = false → seg.flags ≠ .Syn →
      SynRcvArm A app seg conn now ⟨app, conn, .ok (knownConnCommonFallback seg conn)⟩

/-- **SYN-RECEIVED** takes one of its arms. -/
theorem SendInfo.handleSynRcv_arm (hst : conn.tcpState = .SynReceived) (A : Application σ)
    (app : σ) (seg : TcpSegment .In) (now : Instant) :
    SynRcvArm A app seg conn now (handleSynRcv A app seg conn now) := by
  have hdone : ∀ check, (seg.flags = .Ack ∨ seg.flags = .FinAck) →
      SeqCheck.check seg conn = check → check ≠ .Unacceptable →
      (conn.sndUna.precedes seg.ackNum && seg.ackNum.precedesOrEq conn.sndNxt) = true →
      conn.completesHandshake seg = true := fun check hflags hcheck hne hack =>
    ConnState.completesHandshake_iff.mpr ⟨hst, hflags, by rw [hcheck]; exact hne, hack⟩
  unfold handleSynRcv
  simp only
  split
  case h_1 hflags => exact .resend hflags rfl
  case h_2 hflags hcheck hack =>
    have hdone := hdone _ (.inl hflags) hcheck (by decide) hack
    split
    case isTrue hquiet =>
      rw [Bool.and_eq_true, Bool.not_eq_true', List.isEmpty_iff] at hquiet
      exact .silent hdone hflags hcheck rfl hquiet.1 hquiet.2
    case isFalse =>
      exact .data hdone hflags hcheck rfl (replyAfterDelivery_afterDelivery _ _ _ now)
  case h_3 hflags hcheck hack =>
    exact .fin (hdone _ (.inr hflags) hcheck (by decide) hack) hflags hcheck
  case h_4 hflags hcheck hack =>
    refine .buffer (hdone _ (.inl hflags) hcheck (by decide) hack) (.inl hflags) hcheck ?_ ?_
    · rw [hflags]; cases seg.payload <;> rfl
    · rw [hflags]; cases seg.payload <;> rfl
  case h_5 hflags hcheck hack =>
    refine .buffer (hdone _ (.inr hflags) hcheck (by decide) hack) (.inr hflags) hcheck ?_ ?_
    · rw [hflags]; cases seg.payload <;> rfl
    · rw [hflags]; cases seg.payload <;> rfl
  case h_6 hsyn hdata hfin hbuf hbuf' =>
    refine .fallback ?_ hsyn
    -- a completing segment passes the check, and each of the two outcomes has its arm
    by_contra hcompletes
    obtain ⟨-, hflags, hcheck, hack⟩ :=
      ConnState.completesHandshake_iff.mp (Bool.of_not_eq_false hcompletes)
    cases hc : SeqCheck.check seg conn with
    | InOrder => exact hflags.elim (hdata · hc hack) (hfin · hc hack)
    | OutOfOrder => exact hflags.elim (hbuf · hc hack) (hbuf' · hc hack)
    | Unacceptable => exact hcheck hc

end Typenet
