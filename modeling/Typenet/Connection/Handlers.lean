import Typenet.Connection.Arms

namespace Typenet

/-!
# The handlers make the stated moves

`SendInfo.handleKnownConn_moves` shows that every arm of every handler is one of the moves
of `SendMove` and `RecvMove`.  The arms share three tails, each treated once:

* `Taken.passiveClose` — passive close, after the acknowledgment was taken;
* `Taken.drainReply` — sending what the window allows;
* `knownConnCommonFallback_moves` — the common fallback.

A handler reaches a tail through a connection `m` midway in the step; `Taken` says what is
true of the send side there.
-/

open SendInfo

variable {σ : Type} {A : Application σ} {app app' : σ} {seg : TcpSegment .In} {now : Instant}
  {conn m conn' : ConnState} {extra : List UInt8}

/-! ### Midway through a step -/

/-- The send side of the connection `m` once the acknowledgment has been taken and the
    application has appended `extra`, with nothing sent yet. -/
structure Taken (seg : TcpSegment .In) (conn : ConnState) (extra : List UInt8)
    (m : ConnState) : Prop where
  ack : AckStage seg conn m.sndUna m.pending
  sending : Sending conn.name
  silent : conn.name = some .CloseWait → extra = []
  sndNxt : m.sndNxt = conn.sndNxt
  sendBuffer : m.sendBuffer = conn.sendBuffer ++ extra

/-- A segment taken with half the circle in flight leaves the connection stuck. -/
theorem Taken.stuck (h : Taken seg conn extra m) (hge : 2 ^ 31 ≤ m.inFlight) :
    Stuck seg conn :=
  ⟨m.sndUna, m.pending, h.ack, h.sending, by rw [← h.sndNxt]; exact hge⟩

/-- The payload drained from the send buffer of `m` is what the window transmits. -/
theorem Taken.transmits {w : WindowState} {p : Option TcpPayload} {left : List UInt8}
    (h : Taken seg conn extra m) (hlt : m.inFlight < 2 ^ 31)
    (hlen : TcpPayload.lenOrDefault p = m.transmittable w)
    (hsplit : TcpPayload.bytes p ++ left = m.sendBuffer) :
    Transmits w m.sndUna conn.sndNxt (conn.sendBuffer ++ extra) p left := by
  rw [← h.sendBuffer, ← h.sndNxt]
  exact ⟨hlt, hsplit, hlen⟩

/-- Taking the acknowledgment and sending nothing is a move. -/
theorem Taken.quiet (now : Instant) {reply : Option SendInfo} (h : Taken seg conn extra m)
    (hshift : Shift conn.name m.name) (hsync : m.name ≠ none)
    (hcw : m.name = some .CloseWait → conn.name = some .CloseWait ∨ m.sendBuffer ≠ [])
    (hq : Quiet reply) : SendMove seg now conn extra m reply :=
  .ack h.ack hshift hsync (fun hne => h.sending.resolve_right fun hc => hne (h.silent hc)) hcw
    h.sndNxt h.sendBuffer hq

/-- No reply is quiet. -/
theorem quiet_none : Quiet none := nofun

/-- A pure ACK is quiet. -/
theorem quiet_pureAck (conn : ConnState) : Quiet (some (pureAck conn)) := by
  rintro info ⟨⟩; exact ⟨rfl, .inl rfl⟩

/-- So is a reset. -/
theorem quiet_rst (seg : TcpSegment .In) : Quiet (some (SendInfo.rst seg)) := by
  rintro info ⟨⟩; exact ⟨rfl, .inr rfl⟩

@[simp] theorem failed_map {α β : Type} (f : α → β) (r : TraceableResult α) :
    failed (r.map f) = failed r := by
  cases r <;> rfl

/-- A handler that only sends does not remove the connection. -/
theorem map_ne_removed (r : TraceableResult SendInfo) (reply : Option SendInfo) :
    (r.map fun info => (some info, false)) ≠ .ok (reply, true) := by
  cases r <;> simp [Except.map]

/-! ### Passive close -/

/-- **Passive close.** The tail shared by every way of consuming the peer's FIN and by
    CLOSE-WAIT: it fails and leaves `m` alone, or ends in CLOSE-WAIT or LAST-ACK. -/
theorem Taken.passiveClose {cw : SyncedState .CloseWait}
    {out : TraceableResult SendInfo × ConnState} (h : Taken seg conn extra m)
    (hm : Shift conn.name m.name) (hsync : m.name ≠ none)
    (hname : m.name = some .CloseWait → conn.name = some .CloseWait)
    (hclose : PassiveClose m cw now out) :
    SendMove seg now conn extra out.2 (replyOf (out.1.map fun info => (some info, false))) ∧
      out.2.rcvNxt = m.rcvNxt ∧ out.2.reassembly = m.reassembly ∧
      (failed out.1 = true → out.2 = m ∧ Stuck seg conn) ∧
      (failed out.1 = false → PassiveClosed out.2.name) := by
  cases hclose with
  | failed hge =>
    exact ⟨h.quiet now hm hsync (fun hc => .inl (hname hc)) quiet_none, rfl, rfl,
      fun _ => ⟨rfl, h.stuck hge⟩, nofun⟩
  | fin hlt hlen hsplit hinfo =>
    rw [h.sndNxt] at hinfo
    exact ⟨.fin h.ack h.sending h.silent rfl rfl rfl (h.transmits hlt hlen hsplit) hinfo
      (by rw [← h.sndNxt]) rfl, rfl, rfl, nofun, fun _ => .inr rfl⟩
  | data hlt hlen hsplit hleft hinfo =>
    rw [h.sndNxt] at hinfo
    exact ⟨.data h.ack h.sending h.silent (.inr rfl) (fun _ => hleft) rfl
      (h.transmits hlt hlen hsplit) hinfo (by rw [← h.sndNxt]) rfl, rfl, rfl, nofun,
      fun _ => .inl rfl⟩
  | blocked hlt hzero hqueue =>
    have hshift : Shift conn.name (some .CloseWait) := by
      rcases h.sending with hr | hc
      · exact .passive hr
      · rw [hc]; exact .stay _
    have htaken : Taken seg conn extra { m with tcpState := .CloseWait cw } := { h with }
    exact ⟨htaken.quiet now hshift nofun (fun _ => .inr hqueue) (quiet_pureAck _), rfl, rfl,
      nofun, fun _ => .inl rfl⟩

/-! ### Sending what the window allows -/

/-- **Draining in ESTABLISHED.** Data goes out as a move; otherwise `m` is left alone, with a
    quiet reply. -/
theorem Taken.drainReply {est : SyncedState .Established} {idle : Option SendInfo}
    {hd : Handled σ} (h : Taken seg conn extra m) (hm : m.tcpState = .Established est)
    (hshift : Shift conn.name (some .Established)) (hq : Quiet idle)
    (hdrain : DrainReply app m est now idle hd) :
    hd.app = app ∧ (∀ reply, hd.result ≠ .ok (reply, true)) ∧
      (failed hd.result = true → Stuck seg conn) ∧
      SendMove seg now conn extra hd.conn (replyOf hd.result) ∧
      hd.conn.rcvNxt = m.rcvNxt ∧ hd.conn.reassembly = m.reassembly ∧
      hd.conn.name = some .Established := by
  have hname : m.name = some .Established := by unfold ConnState.name; rw [hm]; rfl
  have hquiet : ∀ reply, Quiet reply → SendMove seg now conn extra m reply := fun reply hr =>
    h.quiet now (by rw [hname]; exact hshift) (by rw [hname]; nofun)
      (fun hc => absurd (hname.symm.trans hc) (by decide)) hr
  cases hdrain with
  | failed hge => exact ⟨rfl, by simp, fun _ => h.stuck hge, hquiet _ quiet_none, rfl, rfl, hname⟩
  | nothing => exact ⟨rfl, by simp, nofun, hquiet _ hq, rfl, rfl, hname⟩
  | data hlt hlen hsplit hinfo =>
    rw [h.sndNxt] at hinfo
    refine ⟨rfl, by simp, nofun, ?_, rfl, rfl, hname⟩
    refine .data h.ack h.sending h.silent (.inl hname) ?_ ?_ (h.transmits hlt hlen hsplit) hinfo
      (by rw [← h.sndNxt]) rfl
    · exact fun hc => absurd (hname.symm.trans hc) (by decide)
    · show m.tcpState.window = _
      rw [hm]; rfl

/-- **After a delivery.** From ESTABLISHED at `m`, the reply is a move that consumes a
    buffered FIN exactly when it has been reached. -/
theorem Taken.afterDelivery {est : SyncedState .Established} {hd : Handled σ}
    (h : Taken seg conn extra m) (hm : m.tcpState = .Established est)
    (hshift : Shift conn.name (some .Established)) (hafter : AfterDelivery app m est now hd) :
    hd.app = app ∧ (∀ reply, hd.result ≠ .ok (reply, true)) ∧
      (failed hd.result = true → Stuck seg conn) ∧
      SendMove seg now conn extra hd.conn (replyOf hd.result) ∧
      hd.conn.reassembly = m.reassembly ∧
      (m.reassembly.finReached m.rcvNxt = false →
        hd.conn.rcvNxt = m.rcvNxt ∧ hd.conn.name = some .Established) ∧
      (m.reassembly.finReached m.rcvNxt = true → hd.conn.rcvNxt = m.rcvNxt + FIN_BYTE ∧
        (failed hd.result = false → PassiveClosed hd.conn.name) ∧
        (failed hd.result = true → hd.conn.name = some .Established)) := by
  have hname : m.name = some .Established := by unfold ConnState.name; rw [hm]; rfl
  cases hafter with
  | @close out hfin hclose =>
    have htaken : Taken seg conn extra { m with rcvNxt := m.rcvNxt + FIN_BYTE } := { h with }
    have hname' : ({ m with rcvNxt := m.rcvNxt + FIN_BYTE } : ConnState).name
        = some .Established := hname
    obtain ⟨hmove, hrcv, hre, herr, hok⟩ := htaken.passiveClose (by rw [hname']; exact hshift)
      (by rw [hname']; nofun) (fun hc => absurd (hname'.symm.trans hc) (by decide)) hclose
    refine ⟨rfl, map_ne_removed out.1, fun hf => (herr (by simpa using hf)).2, hmove, hre,
      fun hno => absurd hfin (by simp [hno]),
      fun _ => ⟨hrcv, fun hf => hok (by simpa using hf), fun hf => ?_⟩⟩
    show out.2.name = _
    rw [(herr (by simpa using hf)).1]
    exact hname
  | drain hfin hdrain =>
    obtain ⟨happ, hrem, hstuck, hmove, hrcv, hre, hn⟩ :=
      h.drainReply hm hshift (quiet_pureAck m) hdrain
    exact ⟨happ, hrem, hstuck, hmove, hre, fun _ => ⟨hrcv, hn⟩, fun hf => by simp [hfin] at hf⟩

/-! ### The common fallback -/

/-- What the common fallback answers: a quiet reply, and removal for a RST at RCV.NXT. -/
theorem knownConnCommonFallback_cases (seg : TcpSegment .In) (conn : ConnState) :
    (∃ reply, knownConnCommonFallback seg conn = (reply, false) ∧ Quiet reply) ∨
      knownConnCommonFallback seg conn = (none, true) := by
  unfold knownConnCommonFallback
  split <;> try split
  all_goals first
    | exact .inr rfl
    | exact .inl ⟨_, rfl, quiet_none⟩
    | exact .inl ⟨_, rfl, quiet_pureAck _⟩
    | exact .inl ⟨_, rfl, quiet_rst _⟩

/-- An outcome that leaves the connection alone is a move. -/
theorem Moves.still {reply : Option SendInfo} (hq : Quiet reply) :
    Moves A app seg now conn ⟨app, conn, .ok (reply, false)⟩ :=
  .inr ⟨by simp, nofun, [], [], rfl, .idle ⟨rfl, rfl, rfl, rfl, rfl⟩ rfl hq,
    .idle rfl rfl (fun _ => rfl) id⟩

/-- Removing a connection is a move. -/
theorem Moves.removed {reply : Option SendInfo} (hq : Quiet reply) :
    Moves A app seg now conn ⟨app, conn', .ok (reply, true)⟩ :=
  .inl ⟨reply, rfl, hq, rfl⟩

/-- The common fallback is a move. -/
theorem Moves.fallback :
    Moves A app seg now conn ⟨app, conn, .ok (knownConnCommonFallback seg conn)⟩ := by
  rcases knownConnCommonFallback_cases seg conn with ⟨reply, heq, hq⟩ | heq
  · rw [heq]; exact .still hq
  · rw [heq]; exact .removed quiet_none

/-! ### RCV.NXT after passive close -/

/-- The passive close leaves RCV.NXT alone. -/
theorem SendInfo.closeWaitOrLastAck_rcvNxt (conn : ConnState) (cw : SyncedState .CloseWait)
    (now : Instant) : (closeWaitOrLastAck conn cw now).2.rcvNxt = conn.rcvNxt :=
  (closeWaitOrLastAck_passiveClose conn cw now).frame.2.1

/-- A FIN in order is consumed. -/
theorem SendInfo.closeOnInOrderFin_rcvNxt (A : Application σ) (app : σ) (seg : TcpSegment .In)
    (conn : ConnState) (p : Option TcpPayload) (est : SyncedState .Established) (now : Instant) :
    (closeOnInOrderFin A app seg conn p est now).conn.rcvNxt
      = conn.rcvNxt + (TcpPayload.lenOrDefault p + FIN_BYTE) := by
  simp only [closeOnInOrderFin, deliverPayload_eq, SyncedState.incomingAckUpdate_eq]
  rw [closeWaitOrLastAck_rcvNxt, ← SeqPoint.add_assoc]
  rfl

/-- A FIN moves RCV.NXT. -/
theorem add_fin_ne (a : SeqPoint .In) (p : Option TcpPayload) :
    a + (TcpPayload.lenOrDefault p + FIN_BYTE) ≠ a := by
  have hlen := TcpPayload.lenOrDefault_lt p
  have hFIN : FIN_BYTE = 1 := rfl
  exact SeqPoint.add_ne a (by omega) (by omega)

/-! ### SYN-RECEIVED and ESTABLISHED -/

/-- **A FIN in order.** `c` is the connection the handler starts from: `conn` itself, or
    `conn` with its handshake just completed. -/
theorem Moves.closeOnInOrderFin (c : ConnState) {est : SyncedState .Established}
    (hflags : seg.flags = .FinAck) (hseq : seg.seqNum = conn.rcvNxt)
    (hrecv : Receiving conn.name) (hshift : Shift conn.name (some .Established))
    (hack : AckStage seg conn (c.ackedUna seg.ackNum) (c.ackedPending seg.ackNum))
    (hname : c.name = some .Established) (hnxt : c.sndNxt = conn.sndNxt)
    (hbuf : c.sendBuffer = conn.sendBuffer) (hrcv : c.rcvNxt = conn.rcvNxt)
    (hre : c.reassembly = conn.reassembly) :
    Moves A app seg now conn
      (SendInfo.closeOnInOrderFin A app seg c seg.payload est now) := by
  obtain ⟨⟨app', extra⟩, hfeed⟩ : ∃ r, A.feed app (TcpPayload.slices seg.payload) = r := ⟨_, rfl⟩
  let m : ConnState := { c.acked seg.ackNum with
    rcvNxt := c.rcvNxt + TcpPayload.lenOrDefault seg.payload + FIN_BYTE
    sendBuffer := c.sendBuffer ++ extra }
  have hcw := hrecv.ne_closeWait
  have htaken : Taken seg conn extra m :=
    ⟨hack, .inl hrecv, fun hc => absurd hc hcw, hnxt, by rw [← hbuf]⟩
  have hm : m.name = some .Established := hname
  have hclose := closeWaitOrLastAck_passiveClose m
    (SyncedState.rcvFin ⟨est.windowState.updated c seg⟩) now
  obtain ⟨out, hout⟩ : ∃ out, SendInfo.closeWaitOrLastAck m
    (SyncedState.rcvFin ⟨est.windowState.updated c seg⟩) now = out := ⟨_, rfl⟩
  rw [hout] at hclose
  obtain ⟨hmove, hrcv', hre', herr, hok⟩ := htaken.passiveClose (by rw [hm]; exact hshift)
    (by rw [hm]; nofun) (fun hc => absurd (hm.symm.trans hc) (by decide)) hclose
  have heq : SendInfo.closeOnInOrderFin A app seg c seg.payload est now
      = ⟨app', out.2, out.1.map fun info => (some info, false)⟩ := by
    simp only [SendInfo.closeOnInOrderFin, SendInfo.deliverPayload_eq, hfeed,
      SyncedState.incomingAckUpdate_eq]
    exact congrArg (fun rc : TraceableResult SendInfo × ConnState =>
      (⟨app', rc.2, rc.1.map fun info => (some info, false)⟩ : Handled σ)) hout
  rw [heq]
  refine .inr ⟨map_ne_removed out.1, fun hf => (herr (by simpa using hf)).2, _, extra, hfeed,
    hmove, .fin hseq hrecv hflags ?_ ?_ ?_ ?_⟩
  · rw [← hrcv]; exact hrcv'
  · rw [← hre]; exact hre'
  · intro hf; exact hok (by simpa using hf)
  · intro hf
    show out.2.name = _
    rw [(herr (by simpa using hf)).1]
    exact hm

/-- The two deliveries of in-order data, as one feed. -/
theorem SendInfo.deliver_eq (A : Application σ) (app : σ) (c : ConnState)
    (p : Option TcpPayload) {payloads : List TcpPayload} {reassembly : TcpReassembly}
    {rcvNxt : SeqPoint .In} {extra : List UInt8}
    (hdrain : c.reassembly.drainContiguous (c.rcvNxt + TcpPayload.lenOrDefault p)
      = (payloads, reassembly, rcvNxt))
    (hfeed : A.feed app (TcpPayload.slices p ++ payloads.map (·.data)) = (app', extra)) :
    deliverReassembled A (deliverPayload A app c p).1 (deliverPayload A app c p).2
      = (app', { c with
          reassembly := reassembly
          rcvNxt := rcvNxt
          sendBuffer := c.sendBuffer ++ extra }) := by
  rw [Application.feed_append] at hfeed
  obtain ⟨rfl, rfl⟩ := Prod.mk.inj hfeed
  rw [deliverPayload_eq, deliverReassembled_eq A _ _ hdrain, List.append_assoc]

/-- **Data in order**, from `c`, in ESTABLISHED with the acknowledgment already taken: the
    handler replies after the delivery, or stays silent where no FIN has been reached. -/
theorem Moves.data (c : ConnState) {est : SyncedState .Established} {hd : Handled σ}
    (hflags : seg.flags = .Ack) (hseq : seg.seqNum = conn.rcvNxt)
    (hrecv : Receiving conn.name) (hshift : Shift conn.name (some .Established))
    (hpay : conn.name = some .Established → seg.payload ≠ none)
    (hack : AckStage seg conn c.sndUna c.pending)
    (hst : c.tcpState = .Established est) (hnxt : c.sndNxt = conn.sndNxt)
    (hbuf : c.sendBuffer = conn.sendBuffer) (hrcv : c.rcvNxt = conn.rcvNxt)
    (hre : c.reassembly = conn.reassembly)
    (heq : ∀ app' m,
      deliverReassembled A (deliverPayload A app c seg.payload).1
        (deliverPayload A app c seg.payload).2 = (app', m) →
      AfterDelivery app' m est now hd ∨
        m.reassembly.finReached m.rcvNxt = false ∧ hd = ⟨app', m, .ok (none, false)⟩) :
    Moves A app seg now conn hd := by
  obtain ⟨⟨payloads, reassembly, rcvNxt⟩, hdrain⟩ : ∃ r,
    conn.reassembly.drainContiguous (conn.rcvNxt + TcpPayload.lenOrDefault seg.payload) = r :=
    ⟨_, rfl⟩
  obtain ⟨⟨app', extra⟩, hfeed⟩ : ∃ r,
    A.feed app (TcpPayload.slices seg.payload ++ payloads.map (·.data)) = r := ⟨_, rfl⟩
  have hdel := SendInfo.deliver_eq A app c seg.payload (by rw [hre, hrcv]; exact hdrain) hfeed
  have hcw := hrecv.ne_closeWait
  let m : ConnState := { c with
    reassembly := reassembly
    rcvNxt := rcvNxt
    sendBuffer := c.sendBuffer ++ extra }
  have htaken : Taken seg conn extra m :=
    ⟨hack, .inl hrecv, fun hc => absurd hc hcw, hnxt, by rw [← hbuf]⟩
  have hm : m.tcpState = .Established est := hst
  have hname : m.name = some .Established := by unfold ConnState.name; rw [hm]; rfl
  rcases heq app' m hdel with hafter | ⟨hno, rfl⟩
  · obtain ⟨happ, hrem, hstuck, hmove, hre', hnofin, hfin⟩ :=
      htaken.afterDelivery hm hshift hafter
    rw [← happ] at hfeed
    exact .inr ⟨hrem, hstuck, _, extra, hfeed, hmove,
      .data hseq hrecv hflags hpay hdrain hre' hnofin hfin⟩
  · have hq := htaken.quiet now (by rw [hname]; exact hshift)
      (by rw [hname]; nofun) (fun hc => absurd (hname.symm.trans hc) (by decide)) quiet_none
    exact .inr ⟨by simp, nofun, _, extra, hfeed, hq, .data hseq hrecv hflags hpay hdrain rfl
      (fun _ => ⟨rfl, hname⟩) (fun hf => absurd hf (by simpa using hno))⟩

/-- In order means at RCV.NXT. -/
theorem SeqCheck.seqNum_eq (h : SeqCheck.check seg conn = .InOrder) :
    seg.seqNum = conn.rcvNxt := by
  unfold SeqCheck.check at h
  split at h
  case isTrue heq => exact heq
  case isFalse => split at h <;> cases h

/-- SEG.SEQ is in [RCV.NXT, RCV.NXT + RCV.WND). -/
def InReceiveWindow (seg : TcpSegment .In) (conn : ConnState) : Prop :=
  conn.rcvNxt.dist seg.seqNum < RCV_WND.toNat

instance (seg : TcpSegment .In) (conn : ConnState) : Decidable (InReceiveWindow seg conn) :=
  inferInstanceAs (Decidable (_ < _))

/-- **The check of SEG.SEQ** fails exactly outside the window. -/
theorem SeqCheck.check_eq_unacceptable :
    SeqCheck.check seg conn = .Unacceptable ↔ ¬ InReceiveWindow seg conn := by
  have hwin : seg.seqNum.inWindow conn.rcvNxt RCV_WND.toNat = true
      ↔ conn.rcvNxt.dist seg.seqNum < RCV_WND.toNat :=
    SeqPoint.inWindow_iff _ _ (by decide) (by decide)
  unfold check InReceiveWindow
  rw [← hwin]
  by_cases heq : seg.seqNum = conn.rcvNxt
  · -- RCV.NXT itself is in the window
    rw [if_pos heq, hwin, heq, SeqPoint.dist_self]
    decide
  · rw [if_neg heq]
    by_cases hin : seg.seqNum.inWindow conn.rcvNxt RCV_WND.toNat = true
    · simp [hin]
    · simp [hin]

/-- Right after a handshake the segment's acknowledgment changes nothing more. -/
theorem acked_completeHandshake (seg : TcpSegment .In) (conn : ConnState) :
    ((completeHandshake seg conn).2.ackedUna seg.ackNum = seg.ackNum) ∧
      (completeHandshake seg conn).2.ackedPending seg.ackNum = [] := by
  have hself : seg.ackNum.precedes seg.ackNum = false := by
    rw [← Bool.not_eq_true, SeqPoint.precedes_iff, SeqPoint.dist_self]; omega
  constructor
  · unfold ConnState.ackedUna
    show (if _ && seg.ackNum.precedes seg.ackNum then _ else seg.ackNum) = _
    rw [hself, Bool.and_false, if_neg (by decide)]
  · unfold ConnState.ackedPending
    show (if _ && seg.ackNum.precedes seg.ackNum then _ else []) = _
    rw [hself, Bool.and_false, if_neg (by decide)]

/-- **A segment ahead of RCV.NXT** is buffered; `c` has its acknowledgment taken. -/
theorem Moves.buffer {c : ConnState} (hrecv : Receiving conn.name)
    (hflags : seg.flags = .Ack ∨ seg.flags = .FinAck)
    (hcheck : SeqCheck.check seg conn = .OutOfOrder) (hshift : Shift conn.name c.name)
    (hack : AckStage seg conn c.sndUna c.pending) (hname : c.name = some .Established)
    (hnxt : c.sndNxt = conn.sndNxt) (hbuf : c.sendBuffer = conn.sendBuffer)
    (hrcv : c.rcvNxt = conn.rcvNxt)
    (hsegs : c.reassembly.segments = match seg.payload with
      | some p => TcpReassembly.insertSegment seg.seqNum p conn.reassembly.segments
      | none => conn.reassembly.segments)
    (hfin : c.reassembly.finSeq = if seg.flags = .FinAck then
        some (conn.reassembly.finSeq.getD
          (seg.seqNum + TcpPayload.lenOrDefault seg.payload))
      else conn.reassembly.finSeq) :
    Moves A app seg now conn ⟨app, c, .ok (some (pureAck c), false)⟩ :=
  .inr ⟨by simp, nofun, [], [], rfl,
    .ack hack hshift (by rw [hname]; nofun) nofun
      (fun hc => absurd (hname.symm.trans hc) (by decide)) hnxt
      (by rw [hbuf, List.append_nil]) (quiet_pureAck c),
    .buffer hcheck hrecv hflags hname hrcv hsegs hfin⟩

/-- SYN-RECEIVED makes one of the moves. -/
theorem SendInfo.handleSynRcv_moves (hst : conn.tcpState = .SynReceived) :
    Moves A app seg now conn (handleSynRcv A app seg conn now) := by
  have hname : conn.name = none := ConnState.name_eq_none.mpr hst
  have hrecv : Receiving conn.name := .inl hname
  have hshift : Shift conn.name (some .Established) := by rw [hname]; exact .establish
  -- every arm that completes the handshake takes the acknowledgment the same way
  have hhandshake : conn.completesHandshake seg = true →
      AckStage seg conn (completeHandshake seg conn).2.sndUna
        (completeHandshake seg conn).2.pending := fun hdone => by
    obtain ⟨-, -, -, hack⟩ := ConnState.completesHandshake_iff.mp hdone
    rw [Bool.and_eq_true] at hack
    exact .handshake hst hack.1 hack.2
  have harm := handleSynRcv_arm hst A app seg now
  generalize handleSynRcv A app seg conn now = hd at harm ⊢
  cases harm with
  | resend hflags hinfo =>
    subst hinfo
    exact .inr ⟨by simp, nofun, [], [], rfl, .resend hst rfl rfl hst rfl rfl rfl rfl,
      .idle rfl rfl (fun _ => rfl) id⟩
  | silent hdone hflags hcheck hdel hno =>
    refine .data (completeHandshake seg conn).2 hflags (SeqCheck.seqNum_eq hcheck) hrecv hshift
      (fun hc => absurd (hname.symm.trans hc) (by decide)) (hhandshake hdone) rfl rfl rfl rfl
      rfl ?_
    intro app' m hdel'
    obtain ⟨rfl, rfl⟩ := Prod.mk.inj (hdel.symm.trans hdel')
    exact .inr ⟨hno, rfl⟩
  | data hdone hflags hcheck hdel hafter =>
    refine .data (completeHandshake seg conn).2 hflags (SeqCheck.seqNum_eq hcheck) hrecv hshift
      (fun hc => absurd (hname.symm.trans hc) (by decide)) (hhandshake hdone) rfl rfl rfl rfl
      rfl ?_
    intro app' m hdel'
    obtain ⟨rfl, rfl⟩ := Prod.mk.inj (hdel.symm.trans hdel')
    exact .inl hafter
  | fin hdone hflags hcheck =>
    obtain ⟨huna, hpend⟩ := acked_completeHandshake seg conn
    refine .closeOnInOrderFin (completeHandshake seg conn).2 hflags (SeqCheck.seqNum_eq hcheck)
      hrecv hshift ?_ rfl rfl rfl rfl rfl
    rw [huna, hpend]
    exact hhandshake hdone
  | buffer hdone hflags hcheck hsegs hfin =>
    exact .buffer hrecv hflags hcheck hshift (hhandshake hdone) rfl rfl rfl rfl hsegs hfin
  | fallback => exact .fallback

/-- The connection whose acknowledgment was taken, still in a state where data may go out. -/
theorem Taken.acked (w : TcpState) (htakes : conn.takesAck seg = true)
    (hsend : Sending conn.name) :
    Taken seg conn [] { conn.acked seg.ackNum with tcpState := w } :=
  ⟨.update htakes, hsend, fun _ => rfl, rfl, (List.append_nil _).symm⟩

/-- **A pure ACK in ESTABLISHED**, from `m` with the acknowledgment taken: what the window
    allows goes out, and there is no reply when that is nothing. -/
theorem Moves.drain {est : SyncedState .Established} {hd : Handled σ}
    (htaken : Taken seg conn [] m) (hm : m.tcpState = .Established est)
    (hname : conn.name = some .Established) (hrcv : m.rcvNxt = conn.rcvNxt)
    (hre : m.reassembly = conn.reassembly) (hdrain : DrainReply app m est now none hd) :
    Moves A app seg now conn hd := by
  obtain ⟨happ, hrem, hstuck, hmove, hrcv', hre', hname'⟩ :=
    htaken.drainReply hm (by rw [hname]; exact .stay _) quiet_none hdrain
  refine .inr ⟨hrem, hstuck, [], [], by rw [happ]; rfl, hmove,
    .idle (hrcv'.trans hrcv) (hre'.trans hre) (fun _ => hname'.trans hname.symm) ?_⟩
  rw [hname']
  exact fun hp => absurd hp (by decide)

/-- ESTABLISHED makes one of the moves. -/
theorem SendInfo.handleEstablished_moves {est : SyncedState .Established}
    (hst : conn.tcpState = .Established est) :
    Moves A app seg now conn (handleEstablished A app seg conn est now) := by
  have hname : conn.name = some .Established := by unfold ConnState.name; rw [hst]; rfl
  have hrecv : Receiving conn.name := .inr hname
  have hshift : Shift conn.name (some .Established) := by rw [hname]; exact .stay _
  have harm := handleEstablished_arm hst A app seg now
  generalize handleEstablished A app seg conn est now = hd at harm ⊢
  cases harm with
  | unsent => exact .still (quiet_pureAck conn)
  | pureAck htakes hflags hpay hdrain =>
    exact .drain (.acked _ htakes (.inl hrecv)) rfl hname rfl rfl hdrain
  | data htakes hflags hpay hcheck hdel hafter =>
    refine .data (conn.tookAck est seg) hflags (SeqCheck.seqNum_eq hcheck) hrecv hshift
      (fun _ => by rw [hpay]; exact Option.some_ne_none _) (.update htakes) rfl rfl rfl rfl rfl ?_
    intro app' m hdel'
    obtain ⟨rfl, rfl⟩ := Prod.mk.inj (hdel.symm.trans hdel')
    exact .inl hafter
  | buffer htakes hflags hcheck hsegs hfin =>
    have hflags' : seg.flags = .Ack ∨ seg.flags = .FinAck := hflags.symm.imp_left And.left
    exact .buffer hrecv hflags' hcheck hshift (.update htakes) rfl rfl rfl rfl hsegs hfin
  | fin htakes hflags hcheck =>
    exact .closeOnInOrderFin conn hflags (SeqCheck.seqNum_eq hcheck) hrecv hshift
      (.update htakes) hname rfl rfl rfl rfl
  | fallback => exact .fallback

/-! ### The states after our FIN, and CLOSE-WAIT -/

/-- Only the acknowledgment is taken, with a quiet reply, after our FIN was sent. -/
theorem Moves.ackOnly {c : ConnState} {reply : Option SendInfo}
    (htakes : conn.takesAck seg = true) (hns : ¬ Sending conn.name)
    (hshift : Shift conn.name c.name) (hnxt : c.sndNxt = conn.sndNxt)
    (huna : c.sndUna = conn.ackedUna seg.ackNum)
    (hpend : c.pending = conn.ackedPending seg.ackNum)
    (hbuf : c.sendBuffer = conn.sendBuffer) (hq : Quiet reply)
    (hrecv : RecvMove seg conn c [] false) :
    Moves A app seg now conn ⟨app, c, .ok (reply, false)⟩ := by
  refine .inr ⟨by simp, nofun, [], [], rfl, .ack ?_ hshift ?_ nofun ?_ hnxt ?_ hq, hrecv⟩
  · rw [huna, hpend]; exact .update htakes
  · intro hno
    exact hshift.finSent_iff.mpr hns (by rw [hno]; decide)
  · intro hc
    rw [hc] at hshift
    generalize conn.name = n at hshift hns
    cases hshift with
    | stay => exact .inl rfl
    | passive hr => exact absurd (.inl hr) hns
  · rw [hbuf, List.append_nil]

/-- Nothing is received by a connection that ends up in `n`, after our FIN. -/
theorem RecvMove.none {c : ConnState} (n : Synced) (hn : c.name = some n)
    (hr : ¬ Receiving (some n)) (hp : ¬ PassiveClosed (some n)) (hrcv : c.rcvNxt = conn.rcvNxt)
    (hre : c.reassembly = conn.reassembly) : RecvMove seg conn c [] false :=
  .idle hrcv hre (fun h => absurd (by rw [← hn]; exact h) hr)
    (fun h => absurd (by rw [← hn]; exact h) hp)

/-- In-order data is skipped by a connection that ends up in `n`, after our FIN. -/
theorem RecvMove.skip {c : ConnState} (n : Synced) {k : Nat} (hn : c.name = some n)
    (hr : ¬ Receiving (some n)) (hp : ¬ PassiveClosed (some n)) (hns : ¬ Sending conn.name)
    (hcheck : SeqCheck.check seg conn = .InOrder) (hrcv : c.rcvNxt = conn.rcvNxt + k)
    (hre : c.reassembly = conn.reassembly) : RecvMove seg conn c [] false :=
  .halfClosed (SeqCheck.seqNum_eq hcheck) hns (by rw [hn]; exact hp) (by rw [hn]; exact hr)
    hrcv hre

/-- FIN-WAIT-1 makes one of the moves. -/
theorem SendInfo.handleFinWait1_moves {s : SyncedState .FinWait1}
    (hst : conn.tcpState = .FinWait1 s) :
    Moves A app seg now conn (infallible app (handleFinWait1 seg conn s)) := by
  have hname : conn.name = some .FinWait1 := by unfold ConnState.name; rw [hst]; rfl
  have hns : ¬ Sending conn.name := by rw [hname]; decide
  unfold handleFinWait1 infallible
  simp only [SyncedState.incomingAckUpdate_eq]
  split
  case h_1 p hflags hpay hcheck =>
    refine .ackOnly ?_ hns ?_ rfl rfl rfl rfl (quiet_pureAck _)
      (.skip .FinWait1 rfl (by decide) (by decide) hns hcheck rfl rfl)
    · simp [ConnState.takesAck, hst, hflags, hpay, hcheck]
    · rw [hname]; exact .stay _
  case h_2 hflags hpay hcheck hacked =>
    refine .ackOnly ?_ hns ?_ rfl rfl rfl rfl quiet_none
      (.none .FinWait2 rfl (by decide) (by decide) rfl rfl)
    · simp [ConnState.takesAck, hst, hflags, hpay, hcheck]
    · rw [hname]; exact .finAcked
  case h_3 hflags hpay hcheck hacked =>
    refine .ackOnly ?_ hns ?_ rfl rfl rfl rfl quiet_none
      (.none .FinWait2 rfl (by decide) (by decide) rfl rfl)
    · simp [ConnState.takesAck, hst, hflags, hpay, hcheck]
    · rw [hname]; exact .finAcked
  case h_4 hflags hpay hcheck hacked =>
    refine .ackOnly ?_ hns ?_ rfl rfl rfl rfl quiet_none
      (.none .FinWait1 rfl (by decide) (by decide) rfl rfl)
    · simp [ConnState.takesAck, hst, hflags, hpay, hcheck]
    · rw [hname]; exact .stay _
  case h_5 hflags hpay hcheck hacked =>
    refine .ackOnly ?_ hns ?_ rfl rfl rfl rfl quiet_none
      (.none .FinWait1 rfl (by decide) (by decide) rfl rfl)
    · simp [ConnState.takesAck, hst, hflags, hpay, hcheck]
    · rw [hname]; exact .stay _
  case h_6 => exact .removed (quiet_pureAck _)
  case h_7 hflags hcheck hacked =>
    refine .ackOnly ?_ hns ?_ rfl rfl rfl rfl (quiet_pureAck _)
      (.skip .Closing rfl (by decide) (by decide) hns hcheck (SeqPoint.add_assoc _ _ _) rfl)
    · simpa [ConnState.takesAck, hst, hflags, hcheck] using hacked
    · rw [hname]; exact .simultaneous
  case h_8 => exact .fallback

/-- FIN-WAIT-2 makes one of the moves. -/
theorem SendInfo.handleFinWait2_moves {s : SyncedState .FinWait2}
    (hst : conn.tcpState = .FinWait2 s) :
    Moves A app seg now conn (infallible app (handleFinWait2 seg conn s)) := by
  have hname : conn.name = some .FinWait2 := by unfold ConnState.name; rw [hst]; rfl
  have hns : ¬ Sending conn.name := by rw [hname]; decide
  have hstay : Shift conn.name (some .FinWait2) := by rw [hname]; exact .stay _
  unfold handleFinWait2 infallible
  simp only [SyncedState.incomingAckUpdate_eq]
  split
  case h_1 p hflags hpay hcheck =>
    refine .ackOnly ?_ hns hstay rfl rfl rfl rfl (quiet_pureAck _)
      (.skip .FinWait2 rfl (by decide) (by decide) hns hcheck rfl rfl)
    simp [ConnState.takesAck, hst, hflags, hpay, hcheck]
  case h_2 hflags hpay hcheck =>
    refine .ackOnly ?_ hns hstay rfl rfl rfl rfl quiet_none
      (.none .FinWait2 rfl (by decide) (by decide) rfl rfl)
    simp [ConnState.takesAck, hst, hflags, hpay, hcheck]
  case h_3 hflags hpay hcheck =>
    refine .ackOnly ?_ hns hstay rfl rfl rfl rfl quiet_none
      (.none .FinWait2 rfl (by decide) (by decide) rfl rfl)
    simp [ConnState.takesAck, hst, hflags, hpay, hcheck]
  case h_4 => exact .removed (quiet_pureAck _)
  case h_5 => exact .fallback

/-- CLOSING makes one of the moves. -/
theorem SendInfo.handleClosing_moves {s : SyncedState .Closing}
    (hst : conn.tcpState = .Closing s) :
    Moves A app seg now conn (infallible app (handleClosing seg conn s)) := by
  have hname : conn.name = some .Closing := by unfold ConnState.name; rw [hst]; rfl
  have hns : ¬ Sending conn.name := by rw [hname]; decide
  have hstay : Shift conn.name (some .Closing) := by rw [hname]; exact .stay _
  unfold handleClosing infallible
  simp only [SyncedState.incomingAckUpdate_eq]
  split
  case h_1 => exact .removed quiet_none
  case h_2 => exact .removed quiet_none
  case h_3 hflags hpay hcheck hacked =>
    refine .ackOnly ?_ hns hstay rfl rfl rfl rfl quiet_none
      (.none .Closing rfl (by decide) (by decide) rfl rfl)
    simpa [ConnState.takesAck, hst, hflags, hpay, hcheck] using hacked
  case h_4 hflags hpay hcheck hacked =>
    refine .ackOnly ?_ hns hstay rfl rfl rfl rfl quiet_none
      (.none .Closing rfl (by decide) (by decide) rfl rfl)
    simpa [ConnState.takesAck, hst, hflags, hpay, hcheck] using hacked
  case h_5 => exact .fallback

/-- LAST-ACK makes one of the moves. -/
theorem SendInfo.handleLastAck_moves {s : SyncedState .LastAck}
    (hst : conn.tcpState = .LastAck s) :
    Moves A app seg now conn (infallible app (handleLastAck seg conn s)) := by
  have hname : conn.name = some .LastAck := by unfold ConnState.name; rw [hst]; rfl
  have hns : ¬ Sending conn.name := by rw [hname]; decide
  have hstay : Shift conn.name (some .LastAck) := by rw [hname]; exact .stay _
  have hpassive : PassiveClosed conn.name := .inr hname
  unfold handleLastAck infallible
  simp only [SyncedState.incomingAckUpdate_eq]
  split
  case h_1 hflags hpay hcheck hacked =>
    refine .ackOnly ?_ hns hstay rfl rfl rfl rfl quiet_none
      (.idle rfl rfl (fun _ => hname.symm) fun _ => hpassive)
    simpa [ConnState.takesAck, hst, hflags, hpay, hcheck] using hacked
  case h_2 hflags hpay hcheck hacked =>
    refine .ackOnly ?_ hns hstay rfl rfl rfl rfl quiet_none
      (.idle rfl rfl (fun _ => hname.symm) fun _ => hpassive)
    simpa [ConnState.takesAck, hst, hflags, hpay, hcheck] using hacked
  case h_3 => exact .removed quiet_none
  case h_4 => exact .removed quiet_none
  case h_5 => exact .fallback

/-- A pure ACK in CLOSE-WAIT drains further. -/
theorem Moves.closeWait {s : SyncedState .CloseWait}
    {out : TraceableResult SendInfo × ConnState} (hst : conn.tcpState = .CloseWait s)
    (htakes : conn.takesAck seg = true)
    (hclose : PassiveClose (conn.acked seg.ackNum) ⟨s.windowState.updated conn seg⟩ now out) :
    Moves A app seg now conn ⟨app, out.2, out.1.map fun info => (some info, false)⟩ := by
  have hname : conn.name = some .CloseWait := by unfold ConnState.name; rw [hst]; rfl
  have htaken : Taken seg conn [] (conn.acked seg.ackNum) := .acked _ htakes (.inr hname)
  obtain ⟨hmove, hrcv, hre, herr, hok⟩ :=
    htaken.passiveClose (.stay _) (hname ▸ nofun) (fun _ => hname) hclose
  refine .inr ⟨map_ne_removed out.1, fun hf => (herr (by simpa using hf)).2, [], [], rfl, hmove,
    .idle hrcv hre ?_ fun _ => .inl hname⟩
  intro hr
  cases hres : out.1 with
  | ok info => exact absurd hr (hok (by rw [hres]; rfl)).not_receiving
  | error e => rw [(herr (by rw [hres]; rfl)).1]; rfl

/-- CLOSE-WAIT makes one of the moves. -/
theorem SendInfo.handleCloseWait_moves {s : SyncedState .CloseWait}
    (hst : conn.tcpState = .CloseWait s) :
    Moves A app seg now conn ⟨app, (handleCloseWait seg conn s now).2,
      (handleCloseWait seg conn s now).1⟩ := by
  unfold handleCloseWait
  simp only [SyncedState.incomingAckUpdate_eq]
  split
  case h_1 hflags hpay hcheck =>
    exact .closeWait hst (by simp [ConnState.takesAck, hst, hflags, hpay, hcheck])
      (closeWaitOrLastAck_passiveClose _ _ now)
  case h_2 hflags hpay hcheck =>
    exact .closeWait hst (by simp [ConnState.takesAck, hst, hflags, hpay, hcheck])
      (closeWaitOrLastAck_passiveClose _ _ now)
  case h_3 => exact .fallback

/-- **Every segment makes a move**, in every state of the connection. -/
theorem SendInfo.handleKnownConn_moves (A : Application σ) (app : σ) (seg : TcpSegment .In)
    (conn : ConnState) (now : Instant) :
    Moves A app seg now conn (handleKnownConn A app seg conn now) := by
  unfold handleKnownConn
  cases hst : conn.tcpState with
  | SynReceived => exact handleSynRcv_moves hst
  | Established est => exact handleEstablished_moves hst
  | FinWait1 s => exact handleFinWait1_moves hst
  | FinWait2 s => exact handleFinWait2_moves hst
  | CloseWait s => exact handleCloseWait_moves hst
  | Closing s => exact handleClosing_moves hst
  | LastAck s => exact handleLastAck_moves hst

end Typenet
