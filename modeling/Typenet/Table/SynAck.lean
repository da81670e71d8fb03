import Typenet.Connection.Lifecycle
import Typenet.Table.Replies

namespace Typenet

/-!
# The SYN-ACK of a connection

A repeated SYN is answered from the incoming segment, not from what was stored: the answer
acknowledges its own SEG.SEQ, and it is queued a second time.  So the SYN-ACKs of a connection
are all the same exactly when every repeated SYN carries the SEG.SEQ of the first
(`synAck_same_iff`), and one of them is pending exactly when no SYN is repeated
(`synAck_idempotent_iff`).
-/

open SendInfo

variable {σ : Type} {A : Application σ} {rto : RtoConfig} {maxRetries : UInt8} {app : σ}
  {conn conn' : ConnState} {ev : ConnEvent} {seg : TcpSegment .In} {now : Instant}
  {iss : SeqPoint .Out} {irs : SeqPoint .In}

/-! ### Which segments are answered by a SYN-ACK -/

/-- A reply without the SYN flag. -/
def NoSyn (reply : Option SendInfo) : Prop := ∀ info ∈ reply, info.flags ≠ .SynAck

/-- No reply carries no SYN. -/
theorem noSyn_none : NoSyn none := nofun

/-- What acknowledges carries no SYN. -/
theorem RepliesAck.noSyn {reply : Option SendInfo} (h : RepliesAck reply) : NoSyn reply := by
  intro info hinfo
  rcases h info hinfo with hf | hf <;> rw [hf] <;> decide

/-- Nor does a quiet reply. -/
theorem Quiet.noSyn {reply : Option SendInfo} (h : Quiet reply) : NoSyn reply := by
  intro info hinfo
  rcases (h info hinfo).2 with hf | hf <;> rw [hf] <;> decide

/-- **In SYN-RECEIVED** nothing but a SYN is answered by a SYN-ACK. -/
theorem noSyn_handleSynRcv (hst : conn.tcpState = .SynReceived) (A : Application σ) (app : σ)
    (now : Instant) (hflags : seg.flags ≠ .Syn) :
    NoSyn (replyOf (handleSynRcv A app seg conn now).result) := by
  have harm := handleSynRcv_arm hst A app seg now
  generalize handleSynRcv A app seg conn now = hd at harm ⊢
  cases harm with
  | resend hsyn => exact absurd hsyn hflags
  | silent => exact noSyn_none
  | data hdone hack hcheck hdel hafter => exact hafter.repliesAck.noSyn
  | fin => exact (closeWaitOrLastAck_passiveClose _ _ now).repliesAck.noSyn
  | buffer => exact (quiet_pureAck _).noSyn
  | fallback =>
    rcases knownConnCommonFallback_cases seg conn with ⟨reply, heq, hq⟩ | heq
    · rw [heq]; exact hq.noSyn
    · rw [heq]; exact noSyn_none

/-- A repeated SYN: the answer acknowledges its own SEG.SEQ, and is queued again. -/
theorem SendInfo.handleKnownConn_syn (A : Application σ) (app : σ) (now : Instant)
    (hst : conn.tcpState = .SynReceived) (hflags : seg.flags = .Syn) :
    handleKnownConn A app seg conn now = ⟨app,
      { conn with pending := conn.pending
          ++ [PendingSegment.new (synAck conn.sndUna seg.seqNum) now] },
      .ok (some (synAck conn.sndUna seg.seqNum), false)⟩ := by
  unfold handleKnownConn handleSynRcv
  rw [hst]
  simp only [hflags]
  rfl

/-- A connection that answers with a SYN-ACK is in SYN-RECEIVED, and answers a SYN. -/
theorem SendInfo.handleKnownConn_synAck {info : SendInfo}
    (h : info ∈ replyOf (handleKnownConn A app seg conn now).result)
    (hflags : info.flags = .SynAck) : conn.tcpState = .SynReceived ∧ seg.flags = .Syn := by
  have hst : conn.tcpState = .SynReceived := by
    rcases handleKnownConn_moves A app seg conn now with ⟨reply, hres, hq, -⟩ |
      ⟨-, -, slices, extra, -, hsend, -⟩
    · rw [hres] at h
      exact absurd hflags (hq.noSyn info h)
    · obtain ⟨reply, hreply⟩ : ∃ reply, replyOf (handleKnownConn A app seg conn now).result
          = reply := ⟨_, rfl⟩
      rw [hreply] at h hsend
      cases hsend with
      | idle hsame hextra hq => exact absurd hflags (hq.noSyn info h)
      | resend hst => exact hst
      | ack hack hshift hsync hextra hcw hnxt hbuf hq => exact absurd hflags (hq.noSyn info h)
      | data hack hsend hsilent hname hleft hwin htrans hinfo =>
        exact absurd hflags ((RepliesAck.of_ack (by rw [hinfo])).noSyn info h)
      | fin hack hsend hsilent hname hwin hempty htrans hinfo =>
        exact absurd hflags ((RepliesAck.of_finAck (by rw [hinfo])).noSyn info h)
  refine ⟨hst, ?_⟩
  by_contra hno
  rw [handleKnownConn, hst] at h
  exact noSyn_handleSynRcv hst A app now hno info h hflags

/-! ### One step -/

/-- A connection stays in SYN-RECEIVED only by keeping RCV.NXT. -/
theorem RecvMove.rcvNxt_synReceived {slices : List (List UInt8)} {failed : Bool}
    (h : RecvMove seg conn conn' slices failed) (hst' : conn'.tcpState = .SynReceived) :
    conn'.rcvNxt = conn.rcvNxt := by
  have hn' := ConnState.name_eq_none.mpr hst'
  have hpassive : ¬ PassiveClosed conn'.name := by rw [hn']; decide
  have hest : conn'.name ≠ some .Established := by rw [hn']; nofun
  cases h with
  | idle hrcv => exact hrcv
  | buffer hcheck hrecv hflags hname => exact absurd hname hest
  | @data payloads reassembly rcvNxt failed hseq hrecv hflags hpay hdrain hre hno hyes =>
    exfalso
    cases hfin : reassembly.finReached rcvNxt with
    | false => exact hest (hno hfin).2
    | true =>
      obtain ⟨-, hok, hfail⟩ := hyes hfin
      cases failed with
      | false => exact hpassive (hok rfl)
      | true => exact hest (hfail rfl)
  | @fin failed hseq hrecv hflags hrcv hre hok hfail =>
    exfalso
    cases failed with
    | false => exact hpassive (hok rfl)
    | true => exact hest (hfail rfl)
  | halfClosed hseq hns hp hr => exact absurd (.inl hn') hr

/-- What a step leaves of a connection that is still in SYN-RECEIVED: the connection was there
    before, and only a repeated SYN adds to what is pending. -/
structure KeepsSynReceived (conn : ConnState) (ev : ConnEvent) (conn' : ConnState) : Prop where
  tcpState : conn.tcpState = .SynReceived
  sndUna : conn'.sndUna = conn.sndUna
  rcvNxt : conn'.rcvNxt = conn.rcvNxt
  pending : (∀ seg now, ev = .segment seg now → seg.flags ≠ .Syn) →
    conn'.pending.map (·.sendInfo) = conn.pending.map (·.sendInfo)

/-- A connection that stays in SYN-RECEIVED keeps its numbers. -/
theorem keepsSynReceived (h : (conn.step A rto maxRetries app ev).conn = some conn')
    (hst' : conn'.tcpState = .SynReceived) : KeepsSynReceived conn ev conn' := by
  have hn' := ConnState.name_eq_none.mpr hst'
  have hmove := ConnState.step_move h
  obtain ⟨hn, huna⟩ := hmove.sndUna_synReceived hn'
  have hst := ConnState.name_eq_none.mp hn
  obtain ⟨out, hout⟩ : ∃ out, conn.step A rto maxRetries app ev = out := ⟨_, rfl⟩
  rw [hout] at hmove
  cases ev with
  | segment seg now =>
    obtain ⟨hkept, -⟩ := ConnState.step_survives h
    obtain ⟨rfl, slices, hrecv⟩ := ConnState.step_recvMove h
    refine ⟨hst, huna, hrecv.rcvNxt_synReceived hst', fun hno => ?_⟩
    rcases handleKnownConn_moves A app seg conn now with ⟨reply, hres, -⟩ |
      ⟨-, -, slices', extra, -, hsend, -⟩
    · rw [hres] at hkept
      cases hkept
    · obtain ⟨reply, hreply⟩ : ∃ reply, replyOf (handleKnownConn A app seg conn now).result
          = reply := ⟨_, rfl⟩
      rw [hreply] at hsend
      cases hsend with
      | idle hsame => rw [hsame.pending]
      | resend hst₀ hextra hinfo =>
        -- only a SYN is answered so
        rw [hinfo] at hreply
        exact absurd (handleKnownConn_synAck (by rw [hreply]; rfl) rfl).2 (hno seg now rfl)
      | ack hack hshift hsync => exact absurd hn' hsync
      | data hack hs hsilent hname =>
        rw [hn'] at hname
        rcases hname with h' | h' <;> cases h'
      | fin hack hs hsilent hname => rw [hn'] at hname; cases hname
  | retransmit now late =>
    -- resending keeps what is pending
    cases hmove with
    | retransmit hf hres =>
      refine ⟨hst, rfl, rfl, fun _ => ?_⟩
      rw [List.map_map]
      exact List.map_congr_left fun p _ => (hf p).1
  | close now =>
    cases hmove with
    | close hest => rw [hst] at hest; cases hest
    | closeIdle => exact ⟨hst, rfl, rfl, fun _ => rfl⟩

/-- What a step sends with both flags answers a repeated SYN. -/
theorem ConnState.step_sent_synAck {info : SendInfo}
    (h : info ∈ (conn.step A rto maxRetries app ev).sent) (hflags : info.flags = .SynAck) :
    conn.tcpState = .SynReceived ∧ ∃ seg now, ev = .segment seg now ∧ seg.flags = .Syn ∧
      info = synAck conn.sndUna seg.seqNum := by
  cases ev with
  | segment seg now =>
    have hmem := Option.mem_toList.mp h
    obtain ⟨hst, hsyn⟩ := handleKnownConn_synAck hmem hflags
    rw [handleKnownConn_syn A app now hst hsyn] at hmem
    exact ⟨hst, seg, now, rfl, hsyn, (Option.some.inj hmem).symm⟩
  | retransmit now late =>
    exfalso
    simp only [ConnState.step] at h
    split at h <;> cases h
  | close now =>
    exfalso
    simp only [ConnState.step, ConnState.close] at h
    split at h
    · cases h
    case h_2 hclose =>
      split at hclose
      · obtain ⟨rfl, rfl⟩ := Prod.mk.inj (Option.some.inj hclose)
        rw [List.mem_singleton.mp h] at hflags
        cases hflags
      · cases hclose

/-- What a step sends again was pending. -/
theorem ConnState.step_resent {info : SendInfo}
    (h : info ∈ (conn.step A rto maxRetries app ev).resent) :
    ∃ p ∈ conn.pending, p.sendInfo = info := by
  cases ev with
  | segment seg now => cases h
  | retransmit now late =>
    simp only [ConnState.step] at h
    rcases conn.retransmit_cases rto maxRetries now late with hno | ⟨f, resent, hsome, -, hres⟩
    · simp only [hno] at h
      cases h
    · simp only [hsome] at h
      exact hres info h
  | close now =>
    simp only [ConnState.step] at h
    split at h <;> cases h

/-! ### Sessions -/

/-- The SYN-ACKs of a session: all that were emitted equal the first one, and while the handshake
    is not complete, that one carries the stored ISN and RCV.NXT and is all that is pending. -/
structure Idempotent (iss : SeqPoint .Out) (irs : SeqPoint .In) (s : Session σ) : Prop where
  emitted : ∀ info ∈ s.sent ++ s.resent, info.flags = .SynAck → info = synAck iss irs
  numbers : ∀ conn, s.conn = some conn → conn.tcpState = .SynReceived →
    synAck iss irs = ⟨conn.sndUna, conn.rcvNxt, .SynAck, none⟩
  pending : ∀ conn, s.conn = some conn → conn.tcpState = .SynReceived →
    conn.pending.map (·.sendInfo) = [synAck iss irs]

/-- No SYN arrives while the connection waits for the handshake to complete. -/
def NoRepeatedSyn (conn : ConnState) (ev : ConnEvent) : Prop :=
  ∀ seg now, ev = .segment seg now → conn.tcpState = .SynReceived → seg.flags ≠ .Syn

/-- Every SYN that arrives while the connection waits for the handshake to complete carries the
    SEG.SEQ of the first. -/
def SameSyn (irs : SeqPoint .In) (conn : ConnState) (ev : ConnEvent) : Prop :=
  ∀ seg now, ev = .segment seg now → conn.tcpState = .SynReceived → seg.flags = .Syn →
    seg.seqNum = irs

/-- Without a repeated SYN every SYN is the same. -/
theorem NoRepeatedSyn.sameSyn (h : NoRepeatedSyn conn ev) : SameSyn irs conn ev :=
  fun seg now hev hst hflags => absurd hflags (h seg now hev hst)

/-- Every SYN-ACK emitted or pending equals the first one. -/
structure SameSynAck (iss : SeqPoint .Out) (irs : SeqPoint .In) (s : Session σ) : Prop where
  emitted : ∀ info ∈ s.sent ++ s.resent, info.flags = .SynAck → info = synAck iss irs
  pending : ∀ conn, s.conn = some conn → ∀ p ∈ conn.pending, p.sendInfo.flags = .SynAck →
    p.sendInfo = synAck iss irs
  sndUna : ∀ conn, s.conn = some conn → conn.tcpState = .SynReceived → conn.sndUna = iss
  rcvNxt : ∀ conn, s.conn = some conn → conn.tcpState = .SynReceived →
    conn.rcvNxt = irs + SYN_BYTE

/-- A session begins with its one SYN-ACK. -/
theorem sameSynAck_opened (app : σ) (t₀ : Instant) :
    SameSynAck iss irs (Session.opened app iss irs t₀) := by
  constructor
  case emitted => exact fun info hinfo _ => List.mem_singleton.mp hinfo
  all_goals
    intro conn hconn
    obtain rfl := Option.some.inj hconn
  case pending =>
    intro p hp _
    rw [List.mem_singleton.mp hp]
    rfl
  case sndUna => exact fun _ => rfl
  case rcvNxt => exact fun _ => rfl

/-- **Contents.** A step keeps every SYN-ACK equal to the first one if a SYN that it takes carries
    the SEG.SEQ of the first. -/
theorem SameSynAck.step {s : Session σ} {e : SessionEvent σ} (h : SameSynAck iss irs s)
    (hg : Session.Guard (SameSyn irs) s e) : SameSynAck iss irs (s.step A rto maxRetries e) := by
  cases e with
  | elsewhere app => exact ⟨h.emitted, h.pending, h.sndUna, h.rcvNxt⟩
  | on ev =>
    cases hs : s.conn with
    | none =>
      simp only [Session.step, hs]
      exact h
    | some conn =>
      simp only [Session.step, hs]
      obtain ⟨out, hout⟩ : ∃ out, conn.step A.recorded rto maxRetries s.app ev = out := ⟨_, rfl⟩
      have hsent : ∀ info ∈ out.sent, info.flags = .SynAck → info = synAck iss irs := by
        intro info hinfo hflags
        rw [← hout] at hinfo
        obtain ⟨hst, seg, now, hev, hsyn, rfl⟩ := ConnState.step_sent_synAck hinfo hflags
        rw [h.sndUna conn hs hst, hg conn ev hs rfl seg now hev hst hsyn]
      constructor
      case emitted =>
        intro info hinfo hflags
        rw [hout] at hinfo
        rcases List.mem_append.mp hinfo with hinfo | hinfo
        · rcases List.mem_append.mp hinfo with hold | hnew
          · exact h.emitted info (List.mem_append_left _ hold) hflags
          · exact hsent info hnew hflags
        · rcases List.mem_append.mp hinfo with hold | hnew
          · exact h.emitted info (List.mem_append_right _ hold) hflags
          · rw [← hout] at hnew
            obtain ⟨p, hp, rfl⟩ := ConnState.step_resent hnew
            exact h.pending conn hs p hp hflags
      all_goals
        intro conn' hconn'
      case pending =>
        intro p hp hflags
        have hold : ∀ q ∈ conn.pending, q.sendInfo ∈ conn.pending.map (·.sendInfo) :=
          fun q hq => List.mem_map_of_mem hq
        have hmem := (ConnState.step_move hconn').pending_sent hold p hp
        rcases List.mem_append.mp hmem with hold | hnew
        · obtain ⟨q, hq, heq⟩ := List.mem_map.mp hold
          rw [← heq] at hflags ⊢
          exact h.pending conn hs q hq hflags
        · rw [hout] at hnew
          exact hsent _ hnew hflags
      case sndUna =>
        intro hst'
        have hk := keepsSynReceived hconn' hst'
        exact hk.sndUna.trans (h.sndUna conn hs hk.tcpState)
      case rcvNxt =>
        intro hst'
        have hk := keepsSynReceived hconn' hst'
        exact hk.rcvNxt.trans (h.rcvNxt conn hs hk.tcpState)

/-- What a repeated SYN makes of a session. -/
theorem Session.step_repeatedSyn {s : Session σ} (hs : s.conn = some conn)
    (hst : conn.tcpState = .SynReceived) (hflags : seg.flags = .Syn) (A : Application σ)
    (rto : RtoConfig) (maxRetries : UInt8) (now : Instant) :
    (s.step A rto maxRetries (.on (.segment seg now))).conn
        = some { conn with pending := conn.pending
          ++ [PendingSegment.new (synAck conn.sndUna seg.seqNum) now] } ∧
      (s.step A rto maxRetries (.on (.segment seg now))).sent
        = s.sent ++ [synAck conn.sndUna seg.seqNum] := by
  have hstep : conn.step A.recorded rto maxRetries s.app (.segment seg now)
      = ⟨s.app, some { conn with pending := conn.pending
          ++ [PendingSegment.new (synAck conn.sndUna seg.seqNum) now] },
        [synAck conn.sndUna seg.seqNum], []⟩ := by
    rw [ConnState.step, handleKnownConn_syn A.recorded s.app now hst hflags]
    rfl
  simp only [Session.step, hs, hstep]
  exact ⟨trivial, trivial⟩

/-- The SYN-ACKs of two SYNs are equal only if their sequence numbers are. -/
theorem synAck_inj {a b : SeqPoint .Out} {m n : SeqPoint .In} (h : synAck a m = synAck b n) :
    m = n := by
  have hack : m + SYN_BYTE = n + SYN_BYTE := congrArg SendInfo.ackNum h
  have hd := congrArg (SeqPoint.dist m) hack
  have hlt := SeqPoint.dist_lt m n
  rw [SeqPoint.dist_self_add, SeqPoint.dist_add] at hd
  have hone : SYN_BYTE = 1 := rfl
  exact (SeqPoint.dist_eq_zero.mp (by omega)).symm

/-- **When all SYN-ACKs are the same**: exactly if every repeated SYN carries the SEG.SEQ of the
    first. -/
theorem synAck_same_iff (A : Application σ) (rto : RtoConfig) (maxRetries : UInt8) (app : σ)
    (iss : SeqPoint .Out) (irs : SeqPoint .In) (t₀ : Instant) (es : List (SessionEvent σ)) :
    (∀ es', es' <+: es → ∀ info ∈ (es'.foldl (Session.step A rto maxRetries)
          (Session.opened app iss irs t₀)).sent ++ (es'.foldl (Session.step A rto maxRetries)
          (Session.opened app iss irs t₀)).resent,
        info.flags = .SynAck → info = synAck iss irs) ↔
      Runs.Admits (Session.step A rto maxRetries) (Session.Guard (SameSyn irs))
        (Session.opened app iss irs t₀) es := by
  refine Runs.admits_iff_forall (I := SameSynAck iss irs) (sameSynAck_opened app t₀)
    (fun s e h hg => h.step hg) (fun s h => h.emitted)
    (J := fun s => ∀ info ∈ s.sent ++ s.resent, info.flags = .SynAck → info = synAck iss irs) ?_
  rintro s e - hnext conn _ hs rfl seg now rfl hst hflags
  obtain ⟨-, hsent⟩ :=
    Session.step_repeatedSyn hs hst hflags A rto maxRetries now
  refine synAck_inj (hnext (synAck conn.sndUna seg.seqNum) ?_ rfl)
  rw [hsent]
  exact List.mem_append_left _ (List.mem_append_right _ List.mem_cons_self)

/-- **SYN-ACK idempotence.** Throughout the events of a session every SYN-ACK equals the first
    one, and exactly one is pending until the handshake completes, if and only if no SYN is
    repeated before that. -/
theorem synAck_idempotent_iff (A : Application σ) (rto : RtoConfig) (maxRetries : UInt8) (app : σ)
    (iss : SeqPoint .Out) (irs : SeqPoint .In) (t₀ : Instant) (es : List (SessionEvent σ)) :
    (∀ es', es' <+: es → Idempotent iss irs
        (es'.foldl (Session.step A rto maxRetries) (Session.opened app iss irs t₀))) ↔
      Runs.Admits (Session.step A rto maxRetries) (Session.Guard NoRepeatedSyn)
        (Session.opened app iss irs t₀) es := by
  let OnePending (s : Session σ) : Prop := ∀ conn, s.conn = some conn →
    conn.tcpState = .SynReceived → conn.pending.map (·.sendInfo) = [synAck iss irs]
  refine Runs.admits_iff_forall (I := fun s => SameSynAck iss irs s ∧ OnePending s)
    ⟨sameSynAck_opened app t₀, ?_⟩ ?_ ?_ ?_
  · intro conn hconn _
    obtain rfl := Option.some.inj hconn
    rfl
  · rintro s e ⟨hsame, hone⟩ hg
    refine ⟨hsame.step fun conn ev hs hev => (hg conn ev hs hev).sameSyn, ?_⟩
    intro conn' hconn' hst'
    cases e with
    | elsewhere app => exact hone conn' hconn' hst'
    | on ev =>
      cases hs : s.conn with
      | none => simp only [Session.step, hs] at hconn'; cases hconn'
      | some conn =>
        simp only [Session.step, hs] at hconn'
        have hk := keepsSynReceived hconn' hst'
        rw [hk.pending fun seg now hev => hg conn ev hs rfl seg now hev hk.tcpState]
        exact hone conn hs hk.tcpState
  · rintro s ⟨hsame, hone⟩
    refine ⟨hsame.emitted, fun conn hs hst => ?_, hone⟩
    rw [hsame.sndUna conn hs hst, hsame.rcvNxt conn hs hst]
    rfl
  · rintro s e hbefore hafter conn _ hs rfl seg now rfl hst hflags
    obtain ⟨hconn', -⟩ := Session.step_repeatedSyn hs hst hflags A rto maxRetries now
    have htwo := hafter.pending _ hconn' hst
    rw [List.map_append, hbefore.pending conn hs hst] at htwo
    cases htwo

/-- **A repeated SYN breaks both halves**: the client's own SYN again leaves two SYN-ACKs
    pending, and one that carries another SEG.SEQ is answered by another SYN-ACK. -/
theorem repeated_syn_not_idempotent :
    (¬ Idempotent SERVER_ISN CLIENT_ISN
      ([SessionEvent.on (.segment CLIENT_SYN ⟨1⟩)].foldl (Session.step ServerApp.application
        (TcpConnections.new 0 3).rtoConfig 3) (Session.opened .Echo SERVER_ISN CLIENT_ISN ⟨0⟩))) ∧
    ¬ ∀ info ∈ ([SessionEvent.on (.segment { CLIENT_SYN with seqNum := CLIENT_ISN + 100 } ⟨1⟩)].foldl
        (Session.step ServerApp.application (TcpConnections.new 0 3).rtoConfig 3)
        (Session.opened .Echo SERVER_ISN CLIENT_ISN ⟨0⟩)).sent,
      info.flags = .SynAck → info = synAck SERVER_ISN CLIENT_ISN := by
  constructor
  · intro h
    have htwo := h.pending _ rfl rfl
    revert htwo
    decide
  · decide

end Typenet
