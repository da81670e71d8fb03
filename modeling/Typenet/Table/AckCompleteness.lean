import Typenet.Connection.Lifecycle
import Typenet.Table.BlindSegments

namespace Typenet

/-!
# Progress is acknowledged

RCV.NXT advances in arms of four handlers.  Each answers with a segment whose SEG.ACK is the
RCV.NXT it leaves, except one: data that completes the handshake is answered by whatever the
application says to it, and by nothing if it says nothing (`SilentHandshake`).
-/

open SendInfo

variable {σ : Type} {A : Application σ} {rto : RtoConfig} {maxRetries : UInt8} {app : σ}
  {conn conn' : ConnState} {ev : ConnEvent} {seg : TcpSegment .In} {now : Instant}

/-! ### Replies that acknowledge -/

/-- The ACK bit is set. -/
def TcpFlags.hasAck : TcpFlags → Bool
  | .SynAck | .Ack | .FinAck | .RstAck => true
  | .Syn | .Rst => false

/-- The segment acknowledges everything before `rcvNxt`. -/
structure Acknowledges (info : SendInfo) (rcvNxt : SeqPoint .In) : Prop where
  flags : info.flags.hasAck = true
  ackNum : info.ackNum = rcvNxt

/-- A pure ACK acknowledges up to RCV.NXT. -/
theorem acknowledges_pureAck (conn : ConnState) : Acknowledges (pureAck conn) conn.rcvNxt :=
  ⟨rfl, rfl⟩

/-- The handler, unless it fails, replies with a segment that acknowledges its RCV.NXT. -/
def RepliesWithAck (h : Handled σ) : Prop :=
  ∀ reply removed, h.result = .ok (reply, removed) →
    ∃ info, reply = some info ∧ Acknowledges info h.conn.rcvNxt

/-- A reply that acknowledges is enough. -/
theorem RepliesWithAck.of_some {app : σ} {info : SendInfo} {removed : Bool}
    (h : Acknowledges info conn.rcvNxt) :
    RepliesWithAck ⟨app, conn, .ok (some info, removed)⟩ := by
  intro reply removed' heq
  obtain ⟨rfl, -⟩ := Prod.mk.inj (Except.ok.inj heq)
  exact ⟨info, rfl, h⟩

/-- **Passive close acknowledges.** -/
theorem PassiveClose.acknowledges {cw : SyncedState .CloseWait}
    {out : TraceableResult SendInfo × ConnState} (h : PassiveClose conn cw now out) (app : σ) :
    RepliesWithAck ⟨app, out.2, out.1.map fun info => (some info, false)⟩ := by
  cases h with
  | failed => intro reply removed heq; cases heq
  | fin hlt hlen hsplit hinfo => subst hinfo; exact .of_some ⟨rfl, rfl⟩
  | data hlt hlen hsplit hleft hinfo => subst hinfo; exact .of_some ⟨rfl, rfl⟩
  | blocked => exact .of_some (acknowledges_pureAck conn)

/-- A FIN in order is acknowledged. -/
theorem SendInfo.closeOnInOrderFin_acknowledges (A : Application σ) (app : σ)
    (seg : TcpSegment .In) (conn : ConnState) (p : Option TcpPayload)
    (est : SyncedState .Established) (now : Instant) :
    RepliesWithAck (closeOnInOrderFin A app seg conn p est now) :=
  (closeWaitOrLastAck_passiveClose _ _ now).acknowledges _

/-- Delivered data is acknowledged. -/
theorem AfterDelivery.acknowledges {m : ConnState} {est : SyncedState .Established}
    {h : Handled σ} (hafter : AfterDelivery app m est now h) : RepliesWithAck h := by
  cases hafter with
  | close hfin hclose => exact hclose.acknowledges app
  | drain hfin hdrain =>
    cases hdrain with
    | failed => intro reply removed heq; cases heq
    | nothing => exact .of_some (acknowledges_pureAck m)
    | data hlt hlen hsplit hinfo => subst hinfo; exact .of_some ⟨rfl, rfl⟩

/-! ### Every handler -/

/-- The handler leaves RCV.NXT where it was in `conn`, or acknowledges. -/
def KeepsOrAcks (conn : ConnState) (h : Handled σ) : Prop :=
  h.conn.rcvNxt = conn.rcvNxt ∨ RepliesWithAck h

/-- ESTABLISHED acknowledges whatever moves RCV.NXT. -/
theorem SendInfo.handleEstablished_acks {est : SyncedState .Established}
    (hst : conn.tcpState = .Established est) (A : Application σ) (app : σ)
    (seg : TcpSegment .In) (now : Instant) :
    KeepsOrAcks conn (handleEstablished A app seg conn est now) := by
  have harm := handleEstablished_arm hst A app seg now
  generalize handleEstablished A app seg conn est now = hd at harm ⊢
  cases harm with
  | pureAck htakes hflags hpay hdrain => exact .inl hdrain.frame.2.2.1
  | data htakes hflags hpay hcheck hdel hafter => exact .inr hafter.acknowledges
  | fin => exact .inr (closeOnInOrderFin_acknowledges A app seg conn _ est now)
  | unsent | buffer | fallback => exact .inl rfl

/-- So does FIN-WAIT-1. -/
theorem SendInfo.handleFinWait1_acks (app : σ) (seg : TcpSegment .In) (conn : ConnState)
    (s : SyncedState .FinWait1) :
    KeepsOrAcks conn (infallible app (handleFinWait1 seg conn s)) := by
  unfold handleFinWait1 infallible
  simp only [SyncedState.incomingAckUpdate_eq]
  split
  case h_1 | h_6 | h_7 => exact .inr (.of_some ⟨rfl, rfl⟩)
  all_goals exact .inl rfl

/-- So does FIN-WAIT-2. -/
theorem SendInfo.handleFinWait2_acks (app : σ) (seg : TcpSegment .In) (conn : ConnState)
    (s : SyncedState .FinWait2) :
    KeepsOrAcks conn (infallible app (handleFinWait2 seg conn s)) := by
  unfold handleFinWait2 infallible
  simp only [SyncedState.incomingAckUpdate_eq]
  split
  case h_1 | h_4 => exact .inr (.of_some ⟨rfl, rfl⟩)
  all_goals exact .inl rfl

/-! ### The handshake -/

/-- Data completes the handshake, and the application says nothing to it. -/
structure SilentHandshake (A : Application σ) (app : σ) (seg : TcpSegment .In) (conn : ConnState) :
    Prop where
  name : conn.name = none
  flags : seg.flags = .Ack
  seqNum : seg.seqNum = conn.rcvNxt
  ackNum : seg.ackNum = conn.sndNxt
  silent : ∃ p, seg.payload = some p ∧ (A.handleTcp app p.data).2 = []

/-- What SYN-RECEIVED still has to do is all to come. -/
structure SynRcvInv (conn : ConnState) : Prop where
  sndNxt : conn.name = none → conn.sndNxt = conn.sndUna + SYN_BYTE
  sendBuffer : conn.name = none → conn.sendBuffer = []
  reassembly : conn.name = none → conn.reassembly = TcpReassembly.new

/-- Nothing is drained from an empty buffer. -/
theorem TcpReassembly.drainContiguous_new (rcvNxt : SeqPoint .In) :
    new.drainContiguous rcvNxt = ([], new, rcvNxt) := rfl

/-- **The handshake-completing ACK**: what comes with it is delivered, and what the application
    says is sent, with a reply only if it says something. -/
theorem SendInfo.handleSynRcv_handshake (hinv : SynRcvInv conn) (hst : conn.tcpState = .SynReceived)
    (hflags : seg.flags = .Ack) (hseq : seg.seqNum = conn.rcvNxt) (hack : seg.ackNum = conn.sndNxt)
    (A : Application σ) (app : σ) (now : Instant) :
    ∃ c, c.rcvNxt = conn.rcvNxt + TcpPayload.lenOrDefault seg.payload ∧
      handleSynRcv A app seg conn now
        = if (A.feed app (TcpPayload.slices seg.payload)).2 = [] then
            ⟨(A.feed app (TcpPayload.slices seg.payload)).1, c, .ok (none, false)⟩
          else replyAfterDelivery (A.feed app (TcpPayload.slices seg.payload)).1 c
            (establish seg) now := by
  have hname : conn.name = none := ConnState.name_eq_none.mpr hst
  have hcheck : SeqCheck.check seg conn = .InOrder := if_pos hseq
  have hacceptable : (conn.sndUna.precedes seg.ackNum
      && seg.ackNum.precedesOrEq conn.sndNxt) = true := by
    rw [hack, hinv.sndNxt hname, Bool.and_eq_true, SeqPoint.precedes_iff,
      SeqPoint.precedesOrEq_iff, SeqPoint.dist_self, SeqPoint.dist_self_add]
    decide
  generalize hfeed : A.feed app (TcpPayload.slices seg.payload) = fed
  obtain ⟨app', out⟩ := fed
  have hdrain : (completeHandshake seg conn).2.reassembly.drainContiguous
      ((completeHandshake seg conn).2.rcvNxt + TcpPayload.lenOrDefault seg.payload)
        = ([], TcpReassembly.new, conn.rcvNxt + TcpPayload.lenOrDefault seg.payload) := by
    have hnew : (completeHandshake seg conn).2.reassembly = TcpReassembly.new :=
      hinv.reassembly hname
    rw [hnew]
    exact TcpReassembly.drainContiguous_new _
  have hfeed' : A.feed app (TcpPayload.slices seg.payload ++ ([] : List TcpPayload).map (·.data))
      = (app', out) := by
    rw [List.map_nil, List.append_nil]
    exact hfeed
  have hdeliver := SendInfo.deliver_eq A app _ seg.payload hdrain hfeed'
  refine ⟨{ (completeHandshake seg conn).2 with
    reassembly := TcpReassembly.new
    rcvNxt := conn.rcvNxt + TcpPayload.lenOrDefault seg.payload
    sendBuffer := out }, rfl, ?_⟩
  unfold handleSynRcv
  simp only [hflags, hcheck, hacceptable]
  rw [hdeliver]
  have hbuf : (completeHandshake seg conn).2.sendBuffer = [] := hinv.sendBuffer hname
  simp only [hbuf, List.nil_append]
  cases out with
  | nil => rfl
  | cons b bs => rfl

/-- Without a silent handshake SYN-RECEIVED acknowledges what it receives. -/
theorem SendInfo.handleSynRcv_acks (hinv : SynRcvInv conn) (hst : conn.tcpState = .SynReceived)
    (hno : ¬ SilentHandshake A app seg conn) (now : Instant) :
    KeepsOrAcks conn (handleSynRcv A app seg conn now) := by
  have hname : conn.name = none := ConnState.name_eq_none.mpr hst
  by_cases hcomplete : seg.flags = .Ack ∧ seg.seqNum = conn.rcvNxt ∧ seg.ackNum = conn.sndNxt
  · obtain ⟨hflags, hseq, hack⟩ := hcomplete
    obtain ⟨c, hrcv, heq⟩ := handleSynRcv_handshake hinv hst hflags hseq hack A app now
    rw [heq]
    by_cases hquiet : (A.feed app (TcpPayload.slices seg.payload)).2 = []
    · rw [if_pos hquiet]
      cases hpay : seg.payload with
      | none =>
        rw [hpay] at hrcv
        exact .inl (hrcv.trans (SeqPoint.add_zero _))
      | some p =>
        rw [hpay] at hquiet
        refine absurd ⟨hname, hflags, hseq, hack, p, hpay, ?_⟩ hno
        simpa [TcpPayload.slices, Application.feed_cons] using hquiet
    · rw [if_neg hquiet]
      exact .inr (replyAfterDelivery_afterDelivery _ _ _ now).acknowledges
  · have harm := handleSynRcv_arm hst A app seg now
    generalize handleSynRcv A app seg conn now = hd at harm ⊢
    cases harm with
    | silent hdone hflags hcheck | data hdone hflags hcheck =>
      -- the one acknowledgment that completes the handshake is SND.NXT
      obtain ⟨-, -, -, hack⟩ := ConnState.completesHandshake_iff.mp hdone
      rw [Bool.and_eq_true] at hack
      exact absurd ⟨hflags, SeqCheck.seqNum_eq hcheck,
        handshake_ack (hinv.sndNxt hname) hack.1 hack.2⟩ hcomplete
    | fin => exact .inr (closeOnInOrderFin_acknowledges A app seg _ _ _ now)
    | resend | buffer | fallback => exact .inl rfl

/-- **Every handler acknowledges** what it receives, unless the handshake is silent. -/
theorem SendInfo.handleKnownConn_acks (hinv : SynRcvInv conn)
    (hno : ¬ SilentHandshake A app seg conn) (now : Instant) :
    KeepsOrAcks conn (handleKnownConn A app seg conn now) := by
  unfold handleKnownConn
  cases hst : conn.tcpState with
  | SynReceived => exact handleSynRcv_acks hinv hst hno now
  | Established est => exact handleEstablished_acks hst A app seg now
  | FinWait1 s => exact handleFinWait1_acks app seg conn s
  | FinWait2 s => exact handleFinWait2_acks app seg conn s
  | CloseWait s | Closing s | LastAck s =>
    left
    have h := (handleKnownConn_finReceived A app seg now (show FinReceived conn.name by
      unfold ConnState.name
      rw [hst]
      simp [FinReceived, TcpState.name])).2
    unfold handleKnownConn at h
    rw [hst] at h
    exact h

/-! ### Every reachable connection -/

/-- A connection that is opened meets the invariant of SYN-RECEIVED. -/
theorem synRcvInv_opened (iss : SeqPoint .Out) (irs : SeqPoint .In) (t₀ : Instant) :
    SynRcvInv (ConnState.opened iss irs t₀) := ⟨fun _ => rfl, fun _ => rfl, fun _ => rfl⟩

/-- A connection that stays in SYN-RECEIVED has received and queued nothing. -/
theorem SynRcvInv.step (h : SynRcvInv conn)
    (hs : (conn.step A rto maxRetries app ev).conn = some conn') : SynRcvInv conn' := by
  suffices hsame : conn'.name = none → conn.name = none ∧ conn'.sndUna = conn.sndUna ∧
      conn'.sndNxt = conn.sndNxt ∧ conn'.sendBuffer = conn.sendBuffer ∧
      conn'.reassembly = conn.reassembly by
    refine ⟨fun hn => ?_, fun hn => ?_, fun hn => ?_⟩
    · obtain ⟨hold, huna, hnxt, -, -⟩ := hsame hn
      rw [hnxt, huna]; exact h.sndNxt hold
    · obtain ⟨hold, -, -, hbuf, -⟩ := hsame hn
      rw [hbuf]; exact h.sendBuffer hold
    · obtain ⟨hold, -, -, -, hre⟩ := hsame hn
      rw [hre]; exact h.reassembly hold
  intro hn
  have hmove := ConnState.step_move hs
  obtain ⟨hold, huna⟩ := hmove.sndUna_synReceived hn
  refine ⟨hold, huna, ?_⟩
  generalize conn.step A rto maxRetries app ev = out at hmove
  cases hmove with
  | @segment seg now app' conn' slices extra reply failed hfeed hsend hrecv =>
    have hre : conn'.reassembly = conn.reassembly := by
      cases hrecv with
      | idle hrcv hre => exact hre
      | buffer hcheck hr hflags hname => exact absurd (hname.symm.trans hn) nofun
      | @data payloads reassembly rcvNxt failed hseq hr hflags hpay hdrain hre hno hyes =>
        exfalso
        cases hreached : reassembly.finReached rcvNxt with
        | false => exact absurd ((hno hreached).2.symm.trans hn) nofun
        | true =>
          cases failed with
          | false => exact absurd ((hyes hreached).2.1 rfl) (by rw [hn]; decide)
          | true => exact absurd (((hyes hreached).2.2 rfl).symm.trans hn) nofun
      | fin hseq hr hflags hrcv hre => exact hre
      | halfClosed hseq hns hp hr hrcv hre => exact hre
    cases hsend with
    | idle hsame => exact ⟨hsame.sndNxt, hsame.sendBuffer, hre⟩
    | resend hst hextra hinfo hst' hnxt huna hbuf => exact ⟨hnxt, hbuf, hre⟩
    | ack hack hshift hsync => exact absurd hn hsync
    | data hack hs hsilent hname => rcases hname with h' | h' <;> rw [h'] at hn <;> cases hn
    | fin hack hs hsilent hname => rw [hname] at hn; cases hn
  | retransmit => exact ⟨rfl, rfl, rfl⟩
  | close => cases hn
  | closeIdle => exact ⟨rfl, rfl, rfl⟩

/-- A silent handshake advances RCV.NXT without a reply. -/
theorem SilentHandshake.handles (h : SilentHandshake A app seg conn) (hinv : SynRcvInv conn)
    (now : Instant) :
    (∃ removed, (handleKnownConn A app seg conn now).result = .ok (none, removed)) ∧
      (handleKnownConn A app seg conn now).conn.rcvNxt ≠ conn.rcvNxt := by
  have hst := ConnState.name_eq_none.mp h.name
  obtain ⟨p, hpay, hsilent⟩ := h.silent
  obtain ⟨c, hrcv, heq⟩ := handleSynRcv_handshake hinv hst h.flags h.seqNum h.ackNum A app now
  have hquiet : (A.feed app (TcpPayload.slices seg.payload)).2 = [] := by
    rw [hpay]
    simpa [TcpPayload.slices, Application.feed_cons] using hsilent
  rw [if_pos hquiet] at heq
  have hhandled : handleKnownConn A app seg conn now = handleSynRcv A app seg conn now := by
    unfold handleKnownConn
    rw [hst]
  rw [hhandled, heq]
  refine ⟨⟨false, rfl⟩, fun hsame => ?_⟩
  have hlen := TcpPayload.lenOrDefault_lt seg.payload
  have hpos := p.len_pos
  rw [hpay, TcpPayload.lenOrDefault_some] at hlen hrcv
  exact SeqPoint.add_ne conn.rcvNxt hpos (by omega) (hrcv.symm.trans hsame)

/-- Processing `seg` advances RCV.NXT only with a reply that acknowledges all of it. -/
def AcksProgress (A : Application σ) (h : Host σ) (seg : TcpSegment .In)
    (randomU32 : TraceableResult UInt32) (now : Instant) (conn : ConnState) : Prop :=
  ∀ reply, (h.connections.createReply A h.app seg randomU32 now).1 = .ok reply →
    (handleKnownConn A h.app seg conn now).conn.rcvNxt ≠ conn.rcvNxt →
    ∃ out, reply = some out ∧ out.flags.hasAck = true ∧
      out.ackNum = (handleKnownConn A h.app seg conn now).conn.rcvNxt

/-- **When progress is acknowledged**: on every reachable connection and for every segment,
    except where data completes the handshake and the application says nothing. -/
theorem ack_completeness_iff (A : Application σ) (app : σ) (initialRto : Duration)
    (maxRetries : UInt8) (es : List (HostEvent σ)) (h : Host σ)
    (hrun : Runs.Run (Host.step A) (fun _ _ => True) (Host.new app initialRto maxRetries) es h)
    (seg : TcpSegment .In) (randomU32 : TraceableResult UInt32) (now : Instant)
    (conn : ConnState) (hconn : h.get (ConnKey.ofSegment seg) = some conn) :
    AcksProgress A h seg randomU32 now conn ↔ ¬ SilentHandshake A h.app seg conn := by
  have hinv : SynRcvInv conn := Host.conn_invariant (G := fun _ _ => True) synRcvInv_opened
    (fun _ _ _ _ _ _ hp _ hs => hp.step hs)
    (hrun.imp fun _ _ _ _ _ _ _ _ => trivial) hconn
  unfold AcksProgress
  rw [TcpConnections.createReply_known hconn]
  constructor
  · intro hprog hsilent
    obtain ⟨⟨removed, hres⟩, hne⟩ := hsilent.handles hinv now
    obtain ⟨out, hout, -⟩ := hprog none (by rw [hres]; rfl) hne
    cases hout
  · intro hno reply hreply hne
    rcases handleKnownConn_acks hinv hno now with hsame | hacks
    · exact absurd hsame hne
    · cases hres : (handleKnownConn A h.app seg conn now).result with
      | error e => rw [hres] at hreply; cases hreply
      | ok v =>
        obtain ⟨r, removed⟩ := v
        rw [hres] at hreply
        obtain ⟨info, rfl, hinfo⟩ := hacks r removed hres
        exact ⟨_, (Except.ok.inj hreply).symm, hinfo.flags, hinfo.ackNum⟩

/-- A SYN has arrived. -/
def synEvents {σ : Type} : List (HostEvent σ) := [.segment CLIENT_SYN (.ok 400) ⟨0⟩]

/-- An echo server acknowledges the data that completes the handshake. -/
theorem ack_completeness_echo :
    ∃ conn, ((synEvents.foldl (Host.step ServerApp.application)
        (Host.new .Echo 1000000000 3)).get KEY = some conn ∧
      AcksProgress ServerApp.application (synEvents.foldl (Host.step ServerApp.application)
        (Host.new .Echo 1000000000 3)) CLIENT_HI (.ok 0) ⟨1⟩ conn) := by
  have hsome : ((synEvents.foldl (Host.step ServerApp.application)
      (Host.new .Echo 1000000000 3)).get KEY).isSome = true := by decide
  obtain ⟨conn, hconn⟩ := Option.isSome_iff_exists.mp hsome
  refine ⟨conn, hconn, (ack_completeness_iff ServerApp.application .Echo 1000000000 3 synEvents _
    (.of_foldl _ _) CLIENT_HI (.ok 0) ⟨1⟩ conn hconn).mpr ?_⟩
  rintro ⟨-, -, -, -, p, hpay, hsilent⟩
  obtain rfl := Option.some.inj hpay
  exact absurd hsilent (by decide)

/-- An application that listens and never answers. -/
def listener : Application Unit where
  handleUdp _ _ := ((), [])
  handleTcp _ _ := ((), [])

/-- **A silent handshake is not acknowledged**: the bytes are delivered and RCV.NXT moves past
    them, but nothing is sent. -/
theorem silent_handshake_unacknowledged :
    ∃ es h conn, Runs.Run (Host.step listener) (fun _ _ => True) (Host.new () 1000000000 3) es h ∧
      h.get KEY = some conn ∧
      (h.connections.createReply listener h.app CLIENT_HI (.ok 0) ⟨1⟩).1 = .ok none ∧
      (handleKnownConn listener h.app CLIENT_HI conn ⟨1⟩).conn.rcvNxt = conn.rcvNxt + 2 ∧
      ¬ AcksProgress listener h CLIENT_HI (.ok 0) ⟨1⟩ conn := by
  let h := synEvents.foldl (Host.step listener) (Host.new () 1000000000 3)
  have hdec : (h.get KEY).map (fun conn => decide ((handleKnownConn listener h.app CLIENT_HI conn
      ⟨1⟩).conn.rcvNxt = conn.rcvNxt + 2)) = some true := by decide
  have hreply : (h.connections.createReply listener h.app CLIENT_HI (.ok 0) ⟨1⟩).1 = .ok none := by
    decide
  obtain ⟨conn, hconn, hrcv⟩ := Option.map_eq_some_iff.mp hdec
  have hrcv := of_decide_eq_true hrcv
  refine ⟨synEvents, h, conn, .of_foldl _ _, hconn, hreply, hrcv, fun hprog => ?_⟩
  obtain ⟨out, hout, -⟩ := hprog none hreply
    (by rw [hrcv]; exact SeqPoint.add_ne _ (by decide) (by decide))
  cases hout

end Typenet
