import Typenet.Table.Replies
import Typenet.Table.InFlight

namespace Typenet

/-!
# Acknowledgments of unsent data

A segment whose SEG.ACK is past SND.NXT should be dropped and answered with the current
state.  In ESTABLISHED an arm of its own does so for plain ACKs.  All other arms process the
segment, and the result is the same only where everything the segment carries happens to be
ignored: `UnsentAckIgnored` is that condition, state by state, and `unsent_ack_inert_iff` says
that it is exact.
-/

open SendInfo

variable {σ : Type} {A : Application σ} {conn : ConnState} {seg : TcpSegment .In}
  {now : Instant} {w : WindowState}

/-- The segment is dropped: nothing reaches the application, the connection is unchanged, and
    the reply is <SEQ=SND.NXT, ACK=RCV.NXT, CTL=ACK>. -/
def Inert (A : Application σ) (r : Recorded σ) (seg : TcpSegment .In) (conn : ConnState)
    (now : Instant) : Prop :=
  handleKnownConn A.recorded r seg conn now = ⟨r, conn, .ok (some (pureAck conn), false)⟩

/-! ### When each part of a segment is ignored -/

/-- SEG.ACK and SEG.WND are ignored: SEG.ACK is outside the range in flight, or it is a
    duplicate and the window it comes with is stale or the one in use. -/
def AckIgnored (conn : ConnState) (w : WindowState) (seg : TcpSegment .In) : Prop :=
  conn.ackInRange seg.ackNum = false ∨
    (conn.sndUna.precedes seg.ackNum = false ∧
      (w.staleGuard seg = false ∨ WindowState.ofSegment seg = w))

/-- The payload and the FIN are ignored: a FIN position is known already, and at the start
    of the payload another one of at least its length is buffered. -/
def AlreadyHeld (reassembly : TcpReassembly) (seg : TcpSegment .In) : Prop :=
  reassembly.finSeq ≠ none ∧ ∀ p ∈ seg.payload, ∃ e,
    reassembly.segments.find? (fun e => e.1 == seg.seqNum) = some e ∧ p.len ≤ e.2.len

/-- Everything in the segment is ignored anyway, or it meets the arm written for it. -/
def UnsentAckIgnored (seg : TcpSegment .In) (conn : ConnState) : Prop :=
  match conn.tcpState with
  | .Established est => seg.flags = .Ack ∨ (seg.seqNum ≠ conn.rcvNxt
      ∧ AlreadyHeld conn.reassembly seg ∧ AckIgnored conn est.windowState seg)
  | .CloseWait cw => seg.flags = .Ack ∧ seg.payload = none
      ∧ AckIgnored conn cw.windowState seg
      ∧ cw.windowState.sndWnd.toNat ≤ conn.inFlight ∧ conn.inFlight < 2 ^ 31
  | _ => False

/-- An acknowledgment is ignored where it would change neither the connection nor the window. -/
theorem ackIgnored_iff :
    AckIgnored conn w seg ↔ conn.acked seg.ackNum = conn ∧ w.updated conn seg = w := by
  unfold AckIgnored ConnState.acked ConnState.ackedUna ConnState.ackedPending
    WindowState.updated
  cases hin : conn.ackInRange seg.ackNum with
  | false => simp
  | true =>
    cases hpre : conn.sndUna.precedes seg.ackNum with
    | false => cases w.staleGuard seg <;> simp
    | true =>
      -- SND.UNA would move
      apply iff_of_false (by simp)
      intro h
      have huna : seg.ackNum = conn.sndUna := congrArg ConnState.sndUna h.1
      rw [huna, SeqPoint.precedes_irrefl] at hpre
      cases hpre

/-- Only SND.UNA and the queue can move. -/
theorem ConnState.acked_eq_iff {ackNum : SeqPoint .Out} : conn.acked ackNum = conn ↔
    conn.ackedUna ackNum = conn.sndUna ∧ conn.ackedPending ackNum = conn.pending := by
  constructor
  · intro h
    exact ⟨congrArg ConnState.sndUna h, congrArg ConnState.pending h⟩
  · rintro ⟨huna, hpend⟩
    rw [ConnState.acked, huna, hpend]

/-- An insertion changes nothing exactly when a longer payload is held there. -/
theorem TcpReassembly.insertSegment_eq_self_iff {seq : SeqPoint .In} {p : TcpPayload}
    {segments : List (SeqPoint .In × TcpPayload)} :
    insertSegment seq p segments = segments ↔
      ∃ e, segments.find? (fun e => e.1 == seq) = some e ∧ p.len ≤ e.2.len := by
  induction segments with
  | nil => exact iff_of_false nofun nofun
  | cons e rest ih =>
    obtain ⟨start, existing⟩ := e
    unfold insertSegment
    split
    case isTrue heq =>
      rw [List.find?_cons_of_pos (by simpa using heq)]
      split
      case isTrue hlong =>
        refine iff_of_false (fun h => ?_) ?_
        · injection h with h
          obtain rfl := (Prod.mk.inj h).2
          exact lt_irrefl _ hlong
        · rintro ⟨_, ⟨⟩, hle⟩
          exact absurd hlong (not_lt.mpr hle)
      case isFalse hshort => exact iff_of_true rfl ⟨_, rfl, not_lt.mp hshort⟩
    case isFalse hne =>
      rw [List.find?_cons_of_neg (by simpa using hne), ← ih]
      simp

/-- A segment is held already where recording it changes nothing. -/
theorem alreadyHeld_iff (reassembly : TcpReassembly) (seq : SeqPoint .In) :
    AlreadyHeld reassembly seg ↔
      (match seg.payload with
        | some p => reassembly.insert seg.seqNum p
        | none => reassembly).markFin seq = reassembly := by
  obtain ⟨segments, finSeq⟩ := reassembly
  unfold AlreadyHeld TcpReassembly.markFin
  cases hp : seg.payload with
  | none => cases finSeq <;> simp
  | some p =>
    simp only [TcpReassembly.insert, TcpReassembly.mk.injEq,
      TcpReassembly.insertSegment_eq_self_iff]
    cases finSeq <;> simp

/-! ### State by state -/

/-- A handler that moves RCV.NXT is not inert. -/
theorem not_inert_of_rcvNxt {h : Handled (Recorded σ)} {r : Recorded σ}
    (hne : h.conn.rcvNxt ≠ conn.rcvNxt) :
    h ≠ ⟨r, conn, .ok (some (pureAck conn), false)⟩ := fun heq =>
  hne (congrArg (fun h => h.conn.rcvNxt) heq)

/-- A handler whose reply is not a pure ACK is not inert. -/
theorem not_inert_of_reply {h : Handled (Recorded σ)} {r : Recorded σ}
    (hne : replyOf h.result ≠ some (pureAck conn)) :
    h ≠ ⟨r, conn, .ok (some (pureAck conn), false)⟩ := fun heq =>
  hne (congrArg (fun h => replyOf h.result) heq)

/-- A reset is no pure ACK. -/
theorem rst_ne_pureAck : some (SendInfo.rst seg) ≠ some (pureAck conn) := fun heq => by
  cases congrArg SendInfo.flags (Option.some.inj heq)

/-- **ESTABLISHED** is inert exactly for these segments. -/
theorem inert_handleEstablished_iff (hacc : Acceptable seg conn)
    (hack : conn.sndNxt.precedes seg.ackNum = true) {est : SyncedState .Established}
    (hst : conn.tcpState = .Established est) (A : Application σ) (r : Recorded σ) (now : Instant) :
    handleEstablished A.recorded r seg conn est now
        = ⟨r, conn, .ok (some (pureAck conn), false)⟩ ↔
      seg.flags = .Ack ∨ (seg.seqNum ≠ conn.rcvNxt
        ∧ AlreadyHeld conn.reassembly seg ∧ AckIgnored conn est.windowState seg) := by
  rcases hacc.flags with hf | hf
  · -- the arm for acknowledgments of unsent data
    refine iff_of_true ?_ (.inl hf)
    rw [handleEstablished, if_pos ⟨hf, hacc.check_ne, hack⟩]
  · have hskip : ¬ (seg.flags = .Ack ∧ SeqCheck.check seg conn ≠ .Unacceptable
        ∧ conn.sndNxt.precedes seg.ackNum = true) := by rw [hf]; rintro ⟨⟨⟩, -⟩
    rw [handleEstablished, if_neg hskip]
    rcases hacc.check_cases with ⟨heq, hc⟩ | ⟨hne, hc⟩
    · simp only [hf, hc]
      refine iff_of_false (not_inert_of_rcvNxt ?_) (by simp [heq])
      rw [closeOnInOrderFin_rcvNxt]
      exact add_fin_ne _ _
    · simp only [hf, hc, SyncedState.incomingAckUpdate_eq]
      rw [ackIgnored_iff, alreadyHeld_iff conn.reassembly
        (seg.seqNum + TcpPayload.lenOrDefault seg.payload)]
      constructor
      · intro heq
        have hconn := congrArg Handled.conn heq
        have hsame : conn.acked seg.ackNum = conn := ConnState.acked_eq_iff.mpr
          ⟨congrArg ConnState.sndUna hconn, congrArg ConnState.pending hconn⟩
        have hst' := (congrArg ConnState.tcpState hconn).trans hst
        injection hst' with hst'
        exact .inr ⟨hne, congrArg ConnState.reassembly hconn, hsame,
          congrArg SyncedState.windowState hst'⟩
      · rintro (⟨⟨⟩⟩ | ⟨-, hheld, hsame, hwin⟩)
        have hest : TcpState.Established ⟨est.windowState.updated conn seg⟩ = conn.tcpState := by
          rw [hst, hwin]
        rw [hest, hsame]
        exact congrArg (fun re => (⟨r, { conn with reassembly := re },
          .ok (some (pureAck { conn with reassembly := re }), false)⟩ : Handled (Recorded σ))) hheld

/-- **Passive close** leaves a connection alone only when the window lets nothing out. -/
theorem inert_closeWaitOrLastAck_iff {m : ConnState} {cw : SyncedState .CloseWait}
    (hbuf : m.sendBuffer ≠ []) (hname : conn.name = some .CloseWait)
    (hnxt : m.sndNxt = conn.sndNxt) (hrcv : m.rcvNxt = conn.rcvNxt) :
    closeWaitOrLastAck m cw now = (.ok (pureAck conn), conn) ↔
      { m with tcpState := .CloseWait cw } = conn ∧
        cw.windowState.sndWnd.toNat ≤ m.inFlight ∧ m.inFlight < 2 ^ 31 := by
  have hfull := m.transmittable_eq_zero_iff cw.windowState hbuf
  have hclose := closeWaitOrLastAck_passiveClose m cw now
  generalize closeWaitOrLastAck m cw now = out at hclose ⊢
  cases hclose with
  | failed hge => exact iff_of_false (fun heq => by cases heq) fun h => by omega
  | @fin p info hlt hlen hsplit =>
    -- our FIN goes out, with everything that was queued
    refine iff_of_false (fun heq => ?_) fun h => ?_
    · rw [← (Prod.mk.inj heq).2] at hname; cases hname
    · rw [hfull.mpr h.2.1] at hlen
      cases p with
      | none => exact hbuf hsplit.symm
      | some p => exact absurd hlen p.len_pos.ne'
  | @data p left info hlt hlen =>
    -- data goes out
    have hpos := p.len_pos
    have hlen' := p.len_lt
    refine iff_of_false (fun heq => ?_) fun h => ?_
    · have hmoved := congrArg ConnState.sndNxt (Prod.mk.inj heq).2
      exact SeqPoint.add_ne m.sndNxt hpos (by omega) (hmoved.trans hnxt.symm)
    · rw [hfull.mpr h.2.1] at hlen
      omega
  | blocked hlt hzero =>
    have hack : pureAck conn = pureAck m := by rw [pureAck, pureAck, hnxt, hrcv]
    rw [hack]
    exact ⟨fun heq => ⟨(Prod.mk.inj heq).2, hfull.mp hzero, hlt⟩, fun h => Prod.ext rfl h.1⟩

/-- CLOSE-WAIT is inert only for bare acknowledgments that are ignored. -/
theorem inert_handleCloseWait_iff (hacc : Acceptable seg conn) {cw : SyncedState .CloseWait}
    (hst : conn.tcpState = .CloseWait cw) (hbuf : conn.sendBuffer ≠ []) (now : Instant) :
    handleCloseWait seg conn cw now = (.ok (some (pureAck conn), false), conn) ↔
      seg.flags = .Ack ∧ seg.payload = none ∧ AckIgnored conn cw.windowState seg
        ∧ cw.windowState.sndWnd.toNat ≤ conn.inFlight ∧ conn.inFlight < 2 ^ 31 := by
  have hname : conn.name = some .CloseWait := by rw [ConnState.name, hst]; rfl
  have htail : ∀ m cw', closeWaitOrLastAck m cw' now = (.ok (pureAck conn), conn) ↔
      ((closeWaitOrLastAck m cw' now).1.map fun info => (some info, false),
        (closeWaitOrLastAck m cw' now).2) = (.ok (some (pureAck conn), false), conn) := by
    intro m cw'
    rcases closeWaitOrLastAck m cw' now with ⟨_ | info, c⟩ <;> simp [Except.map]
  rw [ackIgnored_iff]
  unfold handleCloseWait
  split
  case h_1 hf hp hc | h_2 hf hp hc =>
    simp only [SyncedState.incomingAckUpdate_eq]
    rw [← htail, inert_closeWaitOrLastAck_iff (m := conn.acked seg.ackNum) hbuf hname rfl rfl]
    constructor
    · rintro ⟨hconn, hfull, hlt⟩
      have hsame : conn.acked seg.ackNum = conn := ConnState.acked_eq_iff.mpr
        ⟨congrArg ConnState.sndUna hconn, congrArg ConnState.pending hconn⟩
      have hst' := (congrArg ConnState.tcpState hconn).trans hst
      injection hst' with hst'
      have hwin : cw.windowState.updated conn seg = cw.windowState :=
        congrArg SyncedState.windowState hst'
      rw [hwin, hsame] at hfull
      rw [hsame] at hlt
      exact ⟨hf, hp, ⟨hsame, hwin⟩, hfull, hlt⟩
    · rintro ⟨-, -, ⟨hsame, hwin⟩, hfull⟩
      have hcw : TcpState.CloseWait ⟨cw.windowState.updated conn seg⟩ = conn.tcpState := by
        rw [hst, hwin]
      rw [hcw, hwin, hsame]
      exact ⟨rfl, hfull⟩
  case h_3 hno hno' =>
    rw [hacc.fallback]
    refine iff_of_false (fun heq => ?_) fun h => ?_
    · have hresult := congrArg Prod.fst heq
      exact rst_ne_pureAck (congrArg replyOf hresult)
    · rcases hacc.check_cases with ⟨-, hc⟩ | ⟨-, hc⟩
      · exact hno h.1 h.2.1 hc
      · exact hno' h.1 h.2.1 hc

/-- FIN-WAIT-1 consumes data and a FIN in order, is silent on plain ACKs and resets the rest. -/
theorem not_inert_handleFinWait1 (hacc : Acceptable seg conn) (fw : SyncedState .FinWait1)
    (r : Recorded σ) :
    infallible r (handleFinWait1 seg conn fw) ≠ ⟨r, conn, .ok (some (pureAck conn), false)⟩ := by
  unfold handleFinWait1
  simp only [SyncedState.incomingAckUpdate_eq]
  split
  case h_1 p hf hp hc =>
    have hlen := p.len_lt
    exact not_inert_of_rcvNxt (SeqPoint.add_ne _ p.len_pos (by omega))
  case h_2 | h_3 | h_4 | h_5 => exact not_inert_of_reply nofun
  case h_6 | h_7 =>
    apply not_inert_of_rcvNxt
    show conn.rcvNxt + _ + _ ≠ _
    rw [SeqPoint.add_assoc]
    exact add_fin_ne _ _
  case h_8 =>
    rw [hacc.fallback]
    exact not_inert_of_reply rst_ne_pureAck

/-- FIN-WAIT-2 is inert for no acceptable segment. -/
theorem not_inert_handleFinWait2 (hacc : Acceptable seg conn) (fw : SyncedState .FinWait2)
    (r : Recorded σ) :
    infallible r (handleFinWait2 seg conn fw) ≠ ⟨r, conn, .ok (some (pureAck conn), false)⟩ := by
  unfold handleFinWait2
  simp only [SyncedState.incomingAckUpdate_eq]
  split
  case h_1 p hf hp hc =>
    have hlen := p.len_lt
    exact not_inert_of_rcvNxt (SeqPoint.add_ne _ p.len_pos (by omega))
  case h_2 | h_3 => exact not_inert_of_reply nofun
  case h_4 =>
    apply not_inert_of_rcvNxt
    show conn.rcvNxt + _ + _ ≠ _
    rw [SeqPoint.add_assoc]
    exact add_fin_ne _ _
  case h_5 =>
    rw [hacc.fallback]
    exact not_inert_of_reply rst_ne_pureAck

/-- CLOSING and LAST-ACK are silent on plain ACKs and reset the rest. -/
theorem not_inert_handleClosing (hacc : Acceptable seg conn) (cl : SyncedState .Closing)
    (r : Recorded σ) :
    infallible r (handleClosing seg conn cl) ≠ ⟨r, conn, .ok (some (pureAck conn), false)⟩ := by
  unfold handleClosing
  simp only [SyncedState.incomingAckUpdate_eq]
  split
  case h_1 | h_2 | h_3 | h_4 => exact not_inert_of_reply nofun
  case h_5 =>
    rw [hacc.fallback]
    exact not_inert_of_reply rst_ne_pureAck

/-- LAST-ACK is inert for no acceptable segment. -/
theorem not_inert_handleLastAck (hacc : Acceptable seg conn) (la : SyncedState .LastAck)
    (r : Recorded σ) :
    infallible r (handleLastAck seg conn la) ≠ ⟨r, conn, .ok (some (pureAck conn), false)⟩ := by
  unfold handleLastAck
  simp only [SyncedState.incomingAckUpdate_eq]
  split
  case h_1 | h_2 | h_3 | h_4 => exact not_inert_of_reply nofun
  case h_5 =>
    rw [hacc.fallback]
    exact not_inert_of_reply rst_ne_pureAck

/-! ### Every reachable connection -/

/-- **When an acknowledgment of unsent data is inert**, for every connection of every run in a
    synchronized state and every ACK or FIN-ACK in the receive window. -/
theorem unsent_ack_inert_iff (A : Application σ) (app : σ) (initialRto : Duration)
    (maxRetries : UInt8) (es : List (HostEvent σ)) (h : Host σ)
    (hrun : Runs.Run (Host.step A) (fun _ _ => True) (Host.new app initialRto maxRetries) es h)
    (key : ConnKey) (conn : ConnState) (hconn : h.get key = some conn)
    (hsync : conn.tcpState ≠ .SynReceived) (seg : TcpSegment .In) (hacc : Acceptable seg conn)
    (hack : conn.sndNxt.precedes seg.ackNum = true) (r : Recorded σ) (now : Instant) :
    Inert A r seg conn now ↔ UnsentAckIgnored seg conn := by
  have hpend : CloseWaitPending conn := closeWait_pending (G := fun _ _ => True)
    (hrun.imp fun _ _ _ _ _ _ _ _ => trivial) hconn
  unfold Inert UnsentAckIgnored handleKnownConn
  cases hst : conn.tcpState with
  | SynReceived => exact absurd hst hsync
  | Established est => exact inert_handleEstablished_iff hacc hack hst A r now
  | FinWait1 fw => exact iff_of_false (not_inert_handleFinWait1 hacc fw r) id
  | FinWait2 fw => exact iff_of_false (not_inert_handleFinWait2 hacc fw r) id
  | Closing cl => exact iff_of_false (not_inert_handleClosing hacc cl r) id
  | LastAck la => exact iff_of_false (not_inert_handleLastAck hacc la r) id
  | CloseWait cw =>
    have hbuf : conn.sendBuffer ≠ [] := hpend (by rw [ConnState.name, hst]; rfl)
    refine Iff.trans ?_ (inert_handleCloseWait_iff hacc hst hbuf now)
    simp only [Handled.mk.injEq, Prod.ext_iff, true_and]
    exact and_comm

/-- The connection of `establishedEvents`. -/
theorem establishedEvents_get :
    ∃ conn est, (establishedEvents.foldl (Host.step ServerApp.application)
        (Host.new .Echo 1000000000 3)).get KEY = some conn ∧
      conn.tcpState = .Established est ∧ conn.rcvNxt = CLIENT_ISN + 1 ∧
      conn.sndNxt = SERVER_ISN + 1 := by
  have h : ((establishedEvents.foldl (Host.step ServerApp.application)
      (Host.new .Echo 1000000000 3)).get KEY).map (fun c => (c.tcpState, c.rcvNxt, c.sndNxt))
      = some (.Established ⟨65535, CLIENT_ISN + 1, SERVER_ISN + 1⟩, CLIENT_ISN + 1,
        SERVER_ISN + 1) := by decide
  obtain ⟨conn, hconn, heq⟩ := Option.map_eq_some_iff.mp h
  simp only [Prod.mk.injEq] at heq
  exact ⟨conn, _, hconn, heq⟩

/-- A plain ACK of unsent data is inert in ESTABLISHED. -/
theorem unsent_ack_inert_established :
    ∃ conn, (establishedEvents.foldl (Host.step ServerApp.application)
        (Host.new .Echo 1000000000 3)).get KEY = some conn ∧
      Inert ServerApp.application { inner := .Echo }
        { CLIENT_ACK_COMPLETING_HANDSHAKE with ackNum := SERVER_ISN + 2 } conn ⟨2⟩ := by
  obtain ⟨conn, est, hconn, hst, hrcv, hnxt⟩ := establishedEvents_get
  refine ⟨conn, hconn, (unsent_ack_inert_iff ServerApp.application .Echo 1000000000 3
    establishedEvents _ (.of_foldl _ _) KEY conn hconn (by rw [hst]; nofun) _
    ⟨.inl rfl, by rw [hrcv]; decide⟩ (by rw [hnxt]; decide) _ _).mpr ?_⟩
  rw [UnsentAckIgnored, hst]
  exact .inl rfl

/-- **A FIN-ACK of unsent data closes the connection** when it is in order. -/
theorem unsent_fin_ack_obeyed :
    ∃ es h conn seg now, Runs.Run (Host.step ServerApp.application) (fun _ _ => True)
        (Host.new .Echo 1000000000 3) es h ∧
      h.get (ConnKey.ofSegment seg) = some conn ∧ conn.tcpState ≠ .SynReceived ∧
      Acceptable seg conn ∧ conn.sndNxt.precedes seg.ackNum = true ∧
      (handleKnownConn ServerApp.application h.app seg conn now).conn ≠ conn := by
  obtain ⟨conn, est, hconn, hst, hrcv, hnxt⟩ := establishedEvents_get
  refine ⟨establishedEvents, _, conn, { CLIENT_FIN with
    seqNum := CLIENT_ISN + 1, ackNum := SERVER_ISN + 2 }, ⟨2⟩, .of_foldl _ _, hconn,
    by rw [hst]; nofun, ⟨.inr rfl, by rw [hrcv]; decide⟩, by rw [hnxt]; decide, fun heq => ?_⟩
  have hmoved := congrArg ConnState.rcvNxt heq
  have hc : ∀ seg : TcpSegment .In, seg.seqNum = CLIENT_ISN + 1 →
      SeqCheck.check seg conn = .InOrder := by
    intro seg hseg
    rw [SeqCheck.check, hrcv, if_pos hseg]
  simp only [handleKnownConn, hst, handleEstablished, hc] at hmoved
  rw [if_neg (by rintro ⟨⟨⟩, -⟩)] at hmoved
  exact add_fin_ne _ _ ((closeOnInOrderFin_rcvNxt _ _ _ _ _ _ _).symm.trans hmoved)

end Typenet
