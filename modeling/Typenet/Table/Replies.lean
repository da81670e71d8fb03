import Typenet.Table.FinOrder

namespace Typenet

/-!
# Answers to acceptable segments

What a synchronized connection answers to an ACK or FIN-ACK inside the receive window.

* A reset is answered exactly where the arms of FIN-WAIT-1 and FIN-WAIT-2 leave something to
  the common fallback: to data or a FIN out of order.  In ESTABLISHED nothing is left over.
* An acknowledgment of unsent data is dropped by the arm of ESTABLISHED written for it, which
  looks at plain ACKs only.  Elsewhere it is inert where everything the segment carries
  happens to be ignored anyway (`UnsentAckIgnored`).
-/

open SendInfo

variable {σ : Type} {A : Application σ} {app : σ} {conn : ConnState} {seg : TcpSegment .In}
  {now : Instant}

/-- An ACK or FIN-ACK with SEG.SEQ in [RCV.NXT, RCV.NXT + RCV.WND). -/
structure Acceptable (seg : TcpSegment .In) (conn : ConnState) : Prop where
  flags : seg.flags = .Ack ∨ seg.flags = .FinAck
  inWindow : conn.rcvNxt.dist seg.seqNum < RCV_WND.toNat

/-- The check of SEG.SEQ for a segment inside the window. -/
theorem SeqCheck.check_inWindow (h : conn.rcvNxt.dist seg.seqNum < RCV_WND.toNat) :
    SeqCheck.check seg conn = if seg.seqNum = conn.rcvNxt then .InOrder else .OutOfOrder := by
  have hin : seg.seqNum.inWindow conn.rcvNxt RCV_WND.toNat = true :=
    (SeqPoint.inWindow_iff _ _ (by decide) (by decide)).mpr h
  rw [check, hin]
  rfl

/-- An acceptable segment is in order or out of order, by its number. -/
theorem Acceptable.check_cases (h : Acceptable seg conn) :
    (seg.seqNum = conn.rcvNxt ∧ SeqCheck.check seg conn = .InOrder) ∨
      (seg.seqNum ≠ conn.rcvNxt ∧ SeqCheck.check seg conn = .OutOfOrder) := by
  rw [SeqCheck.check_inWindow h.inWindow]
  by_cases heq : seg.seqNum = conn.rcvNxt
  · exact .inl ⟨heq, if_pos heq⟩
  · exact .inr ⟨heq, if_neg heq⟩

/-- An acceptable segment passes the sequence check. -/
theorem Acceptable.check_ne (h : Acceptable seg conn) :
    SeqCheck.check seg conn ≠ .Unacceptable := by
  rcases h.check_cases with ⟨-, hc⟩ | ⟨-, hc⟩ <;> rw [hc] <;> decide

/-- The common fallback resets whatever acceptable segment is left to it. -/
theorem Acceptable.fallback (h : Acceptable seg conn) :
    knownConnCommonFallback seg conn = (some (SendInfo.rst seg), false) := by
  have hne := h.check_ne
  unfold knownConnCommonFallback
  rcases h.flags with hf | hf <;> rw [hf] <;> cases hc : SeqCheck.check seg conn <;>
    first | rfl | exact absurd hc hne

/-! ### Replies that acknowledge -/

/-- The reply, if any, is an ACK or a FIN-ACK. -/
def RepliesAck (reply : Option SendInfo) : Prop :=
  ∀ info ∈ reply, info.flags = .Ack ∨ info.flags = .FinAck

/-- No reply needs no flag. -/
theorem repliesAck_none : RepliesAck none := nofun

/-- A pure ACK acknowledges. -/
theorem RepliesAck.of_ack {info : SendInfo} (h : info.flags = .Ack) : RepliesAck (some info) := by
  rintro _ ⟨⟩
  exact .inl h

/-- So does a FIN. -/
theorem RepliesAck.of_finAck {info : SendInfo} (h : info.flags = .FinAck) :
    RepliesAck (some info) := by
  rintro _ ⟨⟩
  exact .inr h

/-- Passive close answers with an ACK or a FIN-ACK. -/
theorem PassiveClose.repliesAck {cw : SyncedState .CloseWait}
    {out : TraceableResult SendInfo × ConnState} (h : PassiveClose conn cw now out) :
    RepliesAck (replyOf (out.1.map fun info => (some info, false))) := by
  cases h with
  | failed => exact repliesAck_none
  | fin hlt hlen hsplit hinfo => exact .of_finAck (by rw [hinfo])
  | data hlt hlen hsplit hleft hinfo => exact .of_ack (by rw [hinfo])
  | blocked => exact .of_ack rfl

/-- Sending what the window allows answers with an ACK. -/
theorem DrainReply.repliesAck {m : ConnState} {est : SyncedState .Established}
    {idle : Option SendInfo} {h : Handled σ} (hdrain : DrainReply app m est now idle h)
    (hidle : RepliesAck idle) : RepliesAck (replyOf h.result) := by
  cases hdrain with
  | failed => exact repliesAck_none
  | nothing => exact hidle
  | data hlt hlen hsplit hinfo => exact .of_ack (by rw [hinfo])

/-- Whatever follows a delivery acknowledges. -/
theorem AfterDelivery.repliesAck {m : ConnState} {est : SyncedState .Established} {h : Handled σ}
    (hafter : AfterDelivery app m est now h) : RepliesAck (replyOf h.result) := by
  cases hafter with
  | close hfin hclose => exact hclose.repliesAck
  | drain hfin hdrain => exact hdrain.repliesAck (.of_ack rfl)

/-! ### Resets -/

/-- The reply is a RST. -/
def IsReset (reply : Option SendInfo) : Prop :=
  ∃ info, reply = some info ∧ (info.flags = .Rst ∨ info.flags = .RstAck)

/-- No reply is no reset. -/
theorem not_isReset_none : ¬ IsReset none := nofun

/-- What acknowledges is no reset. -/
theorem RepliesAck.not_isReset {reply : Option SendInfo} (h : RepliesAck reply) :
    ¬ IsReset reply := by
  rintro ⟨info, rfl, hr⟩
  rcases h info rfl with hf | hf <;> rw [hf] at hr <;> rcases hr with hr | hr <;> cases hr

/-- A pure ACK is no reset. -/
theorem not_isReset_pureAck (conn : ConnState) : ¬ IsReset (some (pureAck conn)) :=
  (RepliesAck.of_ack rfl).not_isReset

/-- A reset is one. -/
theorem isReset_rst (seg : TcpSegment .In) : IsReset (some (SendInfo.rst seg)) :=
  ⟨_, rfl, .inl rfl⟩

/-- **ESTABLISHED never resets** an acceptable segment. -/
theorem not_isReset_handleEstablished {est : SyncedState .Established} (h : Acceptable seg conn)
    (hst : conn.tcpState = .Established est) (A : Application σ) (app : σ) (now : Instant) :
    ¬ IsReset (replyOf (handleEstablished A app seg conn est now).result) := by
  have harm := handleEstablished_arm hst A app seg now
  generalize handleEstablished A app seg conn est now = hd at harm ⊢
  cases harm with
  | unsent | buffer => exact not_isReset_pureAck _
  | pureAck htakes hflags hpay hdrain => exact (hdrain.repliesAck repliesAck_none).not_isReset
  | data htakes hflags hpay hcheck hdel hafter => exact hafter.repliesAck.not_isReset
  | fin => exact (closeWaitOrLastAck_passiveClose _ _ now).repliesAck.not_isReset
  | fallback hskips hout => exact absurd (hout h.flags) h.check_ne

/-- Reordered data or a reordered FIN, the combinations missing in FIN-WAIT-1 and
    FIN-WAIT-2. -/
def ReorderedStream (seg : TcpSegment .In) (conn : ConnState) : Prop :=
  seg.seqNum ≠ conn.rcvNxt ∧ (seg.flags = .FinAck ∨ seg.payload ≠ none)

/-- What is in order is not reordered. -/
theorem not_reorderedStream_inOrder (h : SeqCheck.check seg conn = .InOrder) :
    ¬ ReorderedStream seg conn := fun hr => hr.1 (SeqCheck.seqNum_eq h)

/-- A bare acknowledgment is no part of the stream. -/
theorem not_reorderedStream_ack (hf : seg.flags = .Ack) (hp : seg.payload = none) :
    ¬ ReorderedStream seg conn := by
  rintro ⟨-, hfin | hpay⟩
  · rw [hf] at hfin; cases hfin
  · exact hpay hp

/-- What no arm of FIN-WAIT-1 or FIN-WAIT-2 takes is reordered. -/
theorem Acceptable.reorderedStream (h : Acceptable seg conn)
    (hfin : seg.flags = .FinAck → SeqCheck.check seg conn = .InOrder → False)
    (hdata : ∀ p, seg.flags = .Ack → seg.payload = some p →
      SeqCheck.check seg conn = .InOrder → False)
    (hack : seg.flags = .Ack → seg.payload = none → False) : ReorderedStream seg conn := by
  refine ⟨fun heq => ?_, ?_⟩
  · have hc : SeqCheck.check seg conn = .InOrder := by
      rw [SeqCheck.check, if_pos heq]
    rcases h.flags with hf | hf
    · cases hp : seg.payload with
      | none => exact hack hf hp
      | some p => exact hdata p hf hp hc
    · exact hfin hf hc
  · rcases h.flags with hf | hf
    · exact .inr fun hp => hack hf hp
    · exact .inl hf

/-- FIN-WAIT-1 resets exactly for reordered data or FINs. -/
theorem isReset_handleFinWait1_iff (h : Acceptable seg conn) (fw : SyncedState .FinWait1) :
    IsReset (handleFinWait1 seg conn fw).1.1 ↔ ReorderedStream seg conn := by
  unfold handleFinWait1
  simp only
  split
  case h_1 p hf hp hc =>
    exact iff_of_false (not_isReset_pureAck _) (not_reorderedStream_inOrder hc)
  case h_2 hf hp hc hacked | h_3 hf hp hc hacked | h_4 hf hp hc hacked | h_5 hf hp hc hacked =>
    exact iff_of_false not_isReset_none (not_reorderedStream_ack hf hp)
  case h_6 hf hc hacked | h_7 hf hc hacked =>
    exact iff_of_false (not_isReset_pureAck _) (not_reorderedStream_inOrder hc)
  case h_8 hdata hfin hfin' hackIn hackOut hackIn' hackOut' =>
    rw [h.fallback]
    refine iff_of_true (isReset_rst seg) (h.reorderedStream ?_ hdata ?_)
    · intro hf hc
      cases ha : decide (seg.ackNum = conn.sndNxt)
      · exact hfin' hf hc ha
      · exact hfin hf hc ha
    · intro hf hp
      rcases h.check_cases with ⟨-, hc⟩ | ⟨-, hc⟩ <;>
        cases ha : decide (seg.ackNum = conn.sndNxt)
      · exact hackIn' hf hp hc ha
      · exact hackIn hf hp hc ha
      · exact hackOut' hf hp hc ha
      · exact hackOut hf hp hc ha

/-- So does FIN-WAIT-2. -/
theorem isReset_handleFinWait2_iff (h : Acceptable seg conn) (fw : SyncedState .FinWait2) :
    IsReset (handleFinWait2 seg conn fw).1.1 ↔ ReorderedStream seg conn := by
  unfold handleFinWait2
  split
  case h_1 hf hp hc =>
    exact iff_of_false (not_isReset_pureAck _) (not_reorderedStream_inOrder hc)
  case h_2 hf hp hc | h_3 hf hp hc =>
    exact iff_of_false not_isReset_none (not_reorderedStream_ack hf hp)
  case h_4 hf hc =>
    exact iff_of_false (not_isReset_pureAck _) (not_reorderedStream_inOrder hc)
  case h_5 hfin hdata hackIn hackOut =>
    rw [h.fallback]
    refine iff_of_true (isReset_rst seg) (h.reorderedStream hfin hdata fun hf hp => ?_)
    rcases h.check_cases with ⟨-, hc⟩ | ⟨-, hc⟩
    · exact hackIn hf hp hc
    · exact hackOut hf hp hc

/-- The segment sent in reply is a RST. -/
def AnswersReset (reply : TraceableResult (Option (TcpSegment .Out))) : Prop :=
  ∃ out, reply = .ok (some out) ∧ (out.flags = .Rst ∨ out.flags = .RstAck)

/-- The reply to a segment of a known connection is what its handler decides on. -/
theorem TcpConnections.createReply_known {self : TcpConnections}
    {randomU32 : TraceableResult UInt32} (hget : self.get (ConnKey.ofSegment seg) = some conn) :
    (self.createReply A app seg randomU32 now).1
      = (handleKnownConn A app seg conn now).result.map fun reply => reply.1.map
          (TcpSegment.fromPairsAndInfo seg.ipPair.swapped seg.ports.swapped) := by
  unfold createReply decideReply
  simp only [hget]
  cases (handleKnownConn A app seg conn now).result <;> rfl

/-- The table answers a known connection as its handler does. -/
theorem answersReset_iff {self : TcpConnections} {randomU32 : TraceableResult UInt32}
    (hget : self.get (ConnKey.ofSegment seg) = some conn) :
    AnswersReset (self.createReply A app seg randomU32 now).1
      ↔ IsReset (replyOf (handleKnownConn A app seg conn now).result) := by
  rw [TcpConnections.createReply_known hget]
  rcases (handleKnownConn A app seg conn now).result with e | ⟨_ | info, removed⟩
  · exact iff_of_false nofun nofun
  · exact iff_of_false nofun nofun
  · constructor
    · rintro ⟨_, ⟨⟩, hr⟩; exact ⟨info, rfl, hr⟩
    · rintro ⟨_, ⟨⟩, hr⟩; exact ⟨_, rfl, hr⟩

/-- **When a conforming peer is not reset**: in ESTABLISHED always, and in FIN-WAIT-1 and
    FIN-WAIT-2 exactly by segments in order and by plain ACKs without data. -/
theorem conforming_not_reset_iff (A : Application σ) (h : Host σ) (seg : TcpSegment .In)
    (randomU32 : TraceableResult UInt32) (now : Instant) (conn : ConnState)
    (hconn : h.get (ConnKey.ofSegment seg) = some conn)
    (hname : conn.name = some .Established ∨ conn.name = some .FinWait1
      ∨ conn.name = some .FinWait2)
    (hacc : Acceptable seg conn) :
    ¬ AnswersReset (h.connections.createReply A h.app seg randomU32 now).1 ↔
      conn.name = some .Established ∨ seg.seqNum = conn.rcvNxt
        ∨ (seg.flags = .Ack ∧ seg.payload = none) := by
  rw [answersReset_iff hconn]
  have hfinWait : ¬ ReorderedStream seg conn ↔
      seg.seqNum = conn.rcvNxt ∨ (seg.flags = .Ack ∧ seg.payload = none) := by
    unfold ReorderedStream
    rcases hacc.flags with hf | hf <;> simp [hf, or_iff_not_imp_left]
  unfold ConnState.name at hname ⊢
  unfold handleKnownConn
  cases hst : conn.tcpState with
  | Established est =>
    exact iff_of_true (not_isReset_handleEstablished hacc hst A h.app now) (.inl rfl)
  | FinWait1 fw =>
    simp only [infallible, replyOf, isReset_handleFinWait1_iff hacc, hfinWait, TcpState.name]
    simp
  | FinWait2 fw =>
    simp only [infallible, replyOf, isReset_handleFinWait2_iff hacc, hfinWait, TcpState.name]
    simp
  | _ => rw [hst] at hname; rcases hname with hn | hn | hn <;> cases hn

/-- A connection is established and closed by the server. -/
def finWaitEvents : List (HostEvent ServerApp) :=
  [.segment CLIENT_SYN (.ok 400) ⟨0⟩, .segment CLIENT_ACK_COMPLETING_HANDSHAKE (.ok 0) ⟨1⟩,
    .close (fun _ => .ok ()) ⟨2⟩]

/-- Two bytes that arrive ahead of the two bytes before them. -/
def CLIENT_REORDERED : TcpSegment .In :=
  { CLIENT_ACK_COMPLETING_HANDSHAKE with seqNum := CLIENT_ISN + 3, payload := some HI }

/-- The connection of `finWaitEvents`. -/
theorem finWaitEvents_get :
    ∃ conn, (finWaitEvents.foldl (Host.step ServerApp.application)
        (Host.new .Echo 1000000000 3)).get KEY = some conn ∧
      conn.name = some .FinWait1 ∧ conn.rcvNxt = CLIENT_ISN + 1 ∧
      conn.sndUna = SERVER_ISN + 1 ∧ conn.sndNxt = SERVER_ISN + 2 := by
  have h : ((finWaitEvents.foldl (Host.step ServerApp.application)
      (Host.new .Echo 1000000000 3)).get KEY).map
        (fun c => (c.name, c.rcvNxt, c.sndUna, c.sndNxt))
      = some (some .FinWait1, CLIENT_ISN + 1, SERVER_ISN + 1, SERVER_ISN + 2) := by decide
  obtain ⟨conn, hconn, heq⟩ := Option.map_eq_some_iff.mp h
  simp only [Prod.mk.injEq] at heq
  exact ⟨conn, hconn, heq⟩

/-- A plain ACK is not reset in FIN-WAIT-1. -/
theorem conforming_not_reset_finWait :
    ¬ AnswersReset ((finWaitEvents.foldl (Host.step ServerApp.application)
      (Host.new .Echo 1000000000 3)).connections.createReply ServerApp.application .Echo
        CLIENT_ACK_COMPLETING_HANDSHAKE (.ok 0) ⟨3⟩).1 := by
  obtain ⟨conn, hconn, hname, hrcv, -⟩ := finWaitEvents_get
  exact (conforming_not_reset_iff ServerApp.application _ CLIENT_ACK_COMPLETING_HANDSHAKE (.ok 0)
    ⟨3⟩ conn hconn (.inr (.inl hname)) ⟨.inl rfl, by rw [hrcv]; decide⟩).mpr
      (.inr (.inr ⟨rfl, rfl⟩))

/-- **Reordered data is reset in FIN-WAIT-1**, in the window and with SEG.ACK in range. -/
theorem reordered_data_reset :
    ∃ es h conn seg now, Runs.Run (Host.step ServerApp.application) (fun _ _ => True)
        (Host.new .Echo 1000000000 3) es h ∧
      h.get (ConnKey.ofSegment seg) = some conn ∧ conn.name = some .FinWait1 ∧
      Acceptable seg conn ∧ conn.sndUna.dist seg.ackNum ≤ conn.sndUna.dist conn.sndNxt ∧
      AnswersReset (h.connections.createReply ServerApp.application h.app seg (.ok 0) now).1 := by
  obtain ⟨conn, hconn, hname, hrcv, huna, hnxt⟩ := finWaitEvents_get
  have hacc : Acceptable CLIENT_REORDERED conn := ⟨.inl rfl, by rw [hrcv]; decide⟩
  have hreset : ∀ app, IsReset (replyOf (handleKnownConn ServerApp.application app
      CLIENT_REORDERED conn ⟨3⟩).result) := by
    intro app
    unfold ConnState.name TcpState.name at hname
    unfold handleKnownConn
    cases hst : conn.tcpState with
    | FinWait1 fw =>
      exact (isReset_handleFinWait1_iff hacc fw).mpr ⟨by rw [hrcv]; decide, .inr nofun⟩
    | _ => rw [hst] at hname; cases hname
  refine ⟨finWaitEvents, _, conn, CLIENT_REORDERED, ⟨3⟩, .of_foldl _ _, hconn, hname, hacc, ?_, ?_⟩
  · rw [huna, hnxt]; decide
  · have hget : Host.get _ (ConnKey.ofSegment CLIENT_REORDERED) = some conn := hconn
    exact (answersReset_iff hget).mpr (hreset _)

end Typenet
