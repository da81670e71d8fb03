import Typenet.Table.FinOrder
import Typenet.Table.Queue
import Typenet.Connection.Lifecycle

namespace Typenet

/-!
# The state of closing and the acknowledgment of our FIN

Whether our FIN has been acknowledged is recorded twice: in the name of the state, and in
SND.UNA with the retransmission queue.  Every arm of the closing handlers moves both together
but one: in FIN-WAIT-1, in-order data whose SEG.ACK covers our FIN moves SND.UNA only
(`AcksFinWithData`), and no later acknowledgment makes up for it.

The other condition is the one under which SND.UNA stays in the range in flight at all.
-/

open SendInfo

variable {σ : Type} {A : Application σ} {rto : RtoConfig} {maxRetries : UInt8} {app : σ}
  {conn conn' : ConnState} {ev : ConnEvent} {seg : TcpSegment .In} {now : Instant}

/-! ### The two records agree -/

/-- The states in which our FIN has been sent and awaits its acknowledgment. -/
def AwaitsFinAck (n : Option Synced) : Prop :=
  n = some .FinWait1 ∨ n = some .Closing ∨ n = some .LastAck

instance (n : Option Synced) : Decidable (AwaitsFinAck n) :=
  inferInstanceAs (Decidable (_ ∨ _ ∨ _))

/-- **The claim of the states' names**: our FIN is the last pending segment and SND.UNA is
    behind SND.NXT, or it is acknowledged and nothing is pending. -/
structure CloseAgrees (conn : ConnState) : Prop where
  awaits : AwaitsFinAck conn.name → conn.sndUna ≠ conn.sndNxt ∧
    ∃ fin, conn.pending.getLast? = some fin ∧ fin.sendInfo.flags = .FinAck ∧
      fin.endSeq = conn.sndNxt
  acked : conn.name = some .FinWait2 → conn.sndUna = conn.sndNxt ∧ conn.pending = []

/-- In-order data in FIN-WAIT-1 that acknowledges our FIN. -/
structure AcksFinWithData (seg : TcpSegment .In) (conn : ConnState) : Prop where
  name : conn.name = some .FinWait1
  flags : seg.flags = .Ack
  payload : seg.payload ≠ none
  seqNum : seg.seqNum = conn.rcvNxt
  ackNum : seg.ackNum = conn.sndNxt

/-- No acknowledgment is antipodal with nothing in flight, and our FIN is not acknowledged by
    a segment with data in FIN-WAIT-1. -/
structure AcksVisibly (conn : ConnState) (ev : ConnEvent) : Prop where
  unambiguous : Unambiguous conn ev
  noData : ∀ seg now, ev = .segment seg now → ¬ AcksFinWithData seg conn

/-- A segment that FIN-WAIT-1 survives leaves what its handler left. -/
theorem ConnState.step_finWait1 (hname : conn.name = some .FinWait1)
    (hs : (conn.step A rto maxRetries app (.segment seg now)).conn = some conn') :
    ∃ s, conn.tcpState = .FinWait1 s ∧ (handleFinWait1 seg conn s).1.2 = false ∧
      conn' = (handleFinWait1 seg conn s).2 := by
  obtain ⟨hkept, hconn'⟩ := ConnState.step_survives hs
  unfold ConnState.name at hname
  unfold handleKnownConn at hkept hconn'
  cases hst : conn.tcpState with
  | FinWait1 s =>
    rw [hst] at hkept hconn'
    exact ⟨s, rfl, hkept, hconn'.symm⟩
  | _ => rw [hst] at hname; cases hname

/-! ### SND.UNA and the name of the state -/

/-- What the name of the state says about SND.UNA once our FIN is out. -/
structure UnaAgrees (conn : ConnState) : Prop where
  awaits : AwaitsFinAck conn.name → conn.sndUna ≠ conn.sndNxt
  acked : conn.name = some .FinWait2 → conn.sndUna = conn.sndNxt

/-- **FIN-WAIT-1 becomes FIN-WAIT-2** exactly when SND.NXT is acknowledged, unless data comes
    with the acknowledgment. -/
theorem SendInfo.handleFinWait1_name_iff {s : SyncedState .FinWait1}
    (hst : conn.tcpState = .FinWait1 s) (htakes : conn.takesAck seg = true)
    (hno : ¬ AcksFinWithData seg conn) :
    (handleFinWait1 seg conn s).2.name = some .FinWait2 ↔ seg.ackNum = conn.sndNxt := by
  have hname : conn.name = some .FinWait1 := by unfold ConnState.name; rw [hst]; rfl
  have hstay : conn.name ≠ some .FinWait2 := by rw [hname]; decide
  unfold ConnState.takesAck at htakes
  rw [hst] at htakes
  unfold handleFinWait1
  simp only [SyncedState.incomingAckUpdate_eq]
  split
  case h_1 p hflags hpay hcheck =>
    -- data is acknowledged, and with it at most what precedes our FIN
    refine ⟨nofun, fun hack => absurd ⟨hname, hflags, ?_, SeqCheck.seqNum_eq hcheck, hack⟩ hno⟩
    rw [hpay]
    nofun
  case h_2 hflags hpay hcheck hacked | h_3 hflags hpay hcheck hacked =>
    exact ⟨fun _ => of_decide_eq_true hacked, fun _ => rfl⟩
  case h_4 hflags hpay hcheck hacked | h_5 hflags hpay hcheck hacked =>
    exact ⟨nofun, fun hack => absurd hack (of_decide_eq_false hacked)⟩
  case h_6 hflags hcheck hacked =>
    refine ⟨fun h => absurd h hstay, fun hack => ?_⟩
    simp only [hflags, hcheck, hack, bne_self_eq_false, Bool.and_false] at htakes
    cases htakes
  case h_7 hflags hcheck hacked =>
    exact ⟨nofun, fun hack => absurd hack (of_decide_eq_false hacked)⟩
  case h_8 hdata hfin hfin' hin hout hin' hout' =>
    -- no arm is left for an acknowledgment that is taken
    refine ⟨fun h => absurd h hstay, fun hack => ?_⟩
    have hdec := decide_eq_true hack
    exfalso
    cases hflags : seg.flags with
    | Ack =>
      cases hpay : seg.payload with
      | none =>
        cases hcheck : SeqCheck.check seg conn with
        | InOrder => exact hin hflags hpay hcheck hdec
        | OutOfOrder => exact hout hflags hpay hcheck hdec
        | Unacceptable => simp [hflags, hpay, hcheck] at htakes
      | some p =>
        cases hcheck : SeqCheck.check seg conn with
        | InOrder => exact hdata p hflags hpay hcheck
        | _ => simp [hflags, hpay, hcheck] at htakes
    | FinAck => simp [hflags, hack] at htakes
    | _ => simp [hflags] at htakes

/-- An acknowledgment of everything in flight moves SND.UNA to SND.NXT. -/
theorem ackedUna_sndNxt (hfl : conn.inFlight ≤ 65536) :
    conn.ackedUna conn.sndNxt = conn.sndNxt := by
  unfold ConnState.ackedUna
  split
  · rfl
  case isFalse hno =>
    by_contra hne
    unfold ConnState.inFlight at hfl
    apply hno
    have hpos : conn.sndUna.dist conn.sndNxt ≠ 0 := fun h => hne (SeqPoint.dist_eq_zero.mp h).symm
    rw [Bool.and_eq_true, ConnState.ackInRange, Bool.and_eq_true, SeqPoint.precedesOrEq_iff,
      SeqPoint.precedesOrEq_iff, SeqPoint.precedes_iff, SeqPoint.dist_self]
    omega

/-- An acknowledgment of less than everything leaves SND.UNA behind SND.NXT. -/
theorem ackedUna_ne {ackNum : SeqPoint .Out} (hne : conn.sndUna ≠ conn.sndNxt)
    (hack : ackNum ≠ conn.sndNxt) : conn.ackedUna ackNum ≠ conn.sndNxt := by
  unfold ConnState.ackedUna
  split
  · exact hack
  · exact hne

/-- With nothing in flight no acknowledgment moves SND.UNA but the antipodal one. -/
theorem ackedUna_of_eq {ackNum : SeqPoint .Out} (heq : conn.sndUna = conn.sndNxt)
    (hanti : ackNum ≠ conn.sndNxt + 2 ^ 31) : conn.ackedUna ackNum = conn.sndNxt := by
  have hzero : conn.inFlight = 0 := by
    unfold ConnState.inFlight
    rw [heq, SeqPoint.dist_self]
  rcases conn.ackedUna_cases ackNum (by omega) with ⟨-, h⟩ | ⟨hd, -⟩
  · exact absurd h hanti
  · rw [hzero, Nat.le_zero, SeqPoint.dist_eq_zero] at hd
    exact hd.trans heq

/-- A synchronized connection takes acknowledgments through `incomingAckUpdate`. -/
theorem AckStage.of_synced {una : SeqPoint .Out} {pend : List PendingSegment}
    (h : AckStage seg conn una pend) (hname : conn.name ≠ none) :
    conn.takesAck seg = true ∧ una = conn.ackedUna seg.ackNum
      ∧ pend = conn.ackedPending seg.ackNum := by
  cases h with
  | update htakes => exact ⟨htakes, rfl, rfl⟩
  | handshake hst => exact absurd (ConnState.name_eq_none.mpr hst) hname

/-- CLOSING and LAST-ACK take only acknowledgments that do not cover our FIN. -/
theorem ConnState.takesAck_ne (htakes : conn.takesAck seg = true)
    (hname : conn.name = some .Closing ∨ conn.name = some .LastAck) :
    seg.ackNum ≠ conn.sndNxt := by
  intro hack
  unfold ConnState.takesAck at htakes
  unfold ConnState.name at hname
  cases hst : conn.tcpState with
  | Closing s | LastAck s =>
    simp only [hst, hack, bne_self_eq_false, Bool.and_false] at htakes
    split at htakes <;> simp_all
  | _ => rw [hst] at hname; rcases hname with h | h <;> cases h

/-- Once our FIN is out, an acknowledgment moves SND.UNA as the name of the state says. -/
theorem UnaAgrees.ack (h : UnaAgrees conn) (hfl : InFlightInv conn)
    (hg : AcksVisibly conn (.segment seg now))
    (hs : (conn.step A rto maxRetries app (.segment seg now)).conn = some conn')
    (hsent : FinSent conn.name) (htakes : conn.takesAck seg = true)
    (hshift : Shift conn.name conn'.name) :
    (AwaitsFinAck conn'.name → conn.ackedUna seg.ackNum ≠ conn.sndNxt) ∧
      (conn'.name = some .FinWait2 → conn.ackedUna seg.ackNum = conn.sndNxt) := by
  have hanti : conn.sndUna = conn.sndNxt → seg.ackNum ≠ conn.sndNxt + 2 ^ 31 :=
    fun heq h' => hg.unambiguous seg now rfl ⟨htakes, heq, h'⟩
  by_cases hfw : conn.name = some .FinWait1
  · -- FIN-WAIT-1 is left for FIN-WAIT-2 by the acknowledgment of everything
    obtain ⟨s, hst, -, hconn'⟩ := ConnState.step_finWait1 hfw hs
    have hiff := handleFinWait1_name_iff hst htakes (hg.noData seg now rfl)
    rw [← hconn'] at hiff
    -- everything is acknowledged, and the state moves on, or less is, and it stays
    by_cases hack : seg.ackNum = conn.sndNxt
    · rw [hack, ackedUna_sndNxt hfl.any]
      exact ⟨fun hn => absurd hn (by rw [hiff.mpr hack]; decide), fun _ => rfl⟩
    · have hne := ackedUna_ne (h.awaits (.inl hfw)) hack
      exact ⟨fun _ => hne, fun hn => absurd (hiff.mp hn) hack⟩
  · have hname := hshift.eq_of_finSent hsent hfw
    rw [hname]
    by_cases hfw2 : conn.name = some .FinWait2
    · have heq := h.acked hfw2
      exact ⟨fun hn => absurd hn (by rw [hfw2]; decide), fun _ => ackedUna_of_eq heq (hanti heq)⟩
    · refine ⟨fun hn => ?_, fun hn => absurd hn hfw2⟩
      have hlast := hn.resolve_left hfw
      exact ackedUna_ne (h.awaits hn) (ConnState.takesAck_ne htakes hlast)

/-- **A segment keeps the two records in step.** -/
theorem UnaAgrees.segment (h : UnaAgrees conn) (hfl : InFlightInv conn)
    (hg : AcksVisibly conn (.segment seg now))
    (hs : (conn.step A rto maxRetries app (.segment seg now)).conn = some conn')
    (hpend : conn'.pending ≠ [] → conn'.sndUna ≠ conn'.sndNxt) : UnaAgrees conn' := by
  have hmove := ConnState.step_move hs
  generalize hout : conn.step A rto maxRetries app (.segment seg now) = out at hmove
  cases hmove with
  | segment hfeed hsend hrecv =>
    cases hsend with
    | idle hsame =>
      have hname : conn'.name = conn.name := congrArg TcpState.name hsame.tcpState
      refine ⟨fun hn => ?_, fun hn => ?_⟩
      · rw [hsame.sndUna, hsame.sndNxt]; exact h.awaits (hname ▸ hn)
      · rw [hsame.sndUna, hsame.sndNxt]; exact h.acked (hname ▸ hn)
    | resend hst hextra hinfo hst' =>
      have hnone := ConnState.name_eq_none.mpr hst'
      exact ⟨fun hn => absurd hn (by rw [hnone]; decide),
        fun hn => absurd (hnone.symm.trans hn) nofun⟩
    -- data goes out in ESTABLISHED and CLOSE-WAIT only
    | data hack hsend hsilent hname =>
      refine ⟨fun hn => ?_, fun hn => ?_⟩
      · rcases hname with h' | h' <;> rw [h'] at hn <;> exact absurd hn (by decide)
      · rcases hname with h' | h' <;> rw [h'] at hn <;> cases hn
    | fin hack hsend hsilent hname hwin hempty htrans hinfo hnxt hpend' =>
      -- our FIN has just gone out, so something is pending
      refine ⟨fun _ => hpend ?_, fun hn => absurd (hname.symm.trans hn) (by decide)⟩
      rw [hpend']
      exact List.append_ne_nil_of_right_ne_nil _ (List.cons_ne_nil _ _)
    | ack hack hshift hsync hextra hcw hnxt =>
      by_cases hsending : Sending conn.name
      · -- our FIN is not out, and taking an acknowledgment does not send it
        have hno : ¬ FinSent conn'.name := fun hf => hshift.finSent_iff.mp hf hsending
        refine ⟨fun hn => absurd ((finSent_iff _).mpr ?_) hno,
          fun hn => absurd ((finSent_iff _).mpr (.inr (.inl hn))) hno⟩
        rcases hn with hn | hn | hn
        · exact .inl hn
        · exact .inr (.inr (.inl hn))
        · exact .inr (.inr (.inr hn))
      -- our FIN was out before
      · have hsynced : conn.name ≠ Option.none := fun hn => hsending (.inl (.inl hn))
        obtain ⟨htakes, huna, -⟩ := hack.of_synced hsynced
        obtain ⟨hawaits, hacked⟩ := h.ack hfl hg hs hsending htakes hshift
        refine ⟨fun hn => ?_, fun hn => ?_⟩
        · rw [huna, hnxt]; exact hawaits hn
        · rw [huna, hnxt]; exact hacked hn

/-! ### The last pending segment -/

/-- Once our FIN is out, it is the last pending segment. -/
def FinPending (conn : ConnState) : Prop :=
  FinSent conn.name → ∀ p ∈ conn.pending.getLast?, p.sendInfo.flags = .FinAck

/-- An acknowledgment leaves the last pending segment where it is, or nothing pending. -/
theorem ackedPending_getLast {ackNum : SeqPoint .Out}
    (hlast : ∀ p ∈ conn.pending.getLast?, p.endSeq = conn.sndNxt)
    (hnil : conn.ackedUna ackNum = conn.sndNxt → conn.ackedPending ackNum = [])
    (hfl : (conn.ackedUna ackNum).dist conn.sndNxt ≤ 65536) :
    ∀ p ∈ (conn.ackedPending ackNum).getLast?, p ∈ conn.pending.getLast? := by
  intro p hp
  -- an acknowledgment that is ignored prunes nothing
  by_cases hcond : (conn.ackInRange ackNum && conn.sndUna.precedes ackNum) = true
  · have huna : conn.ackedUna ackNum = ackNum := if_pos hcond
    have hpend : conn.ackedPending ackNum = conn.pending.filter fun p => !p.isCoveredBy ackNum :=
      if_pos hcond
    rcases List.eq_nil_or_concat' conn.pending with hempty | ⟨front, fin, heq⟩
    · rw [hpend, hempty] at hp
      cases hp
    · rw [heq, List.getLast?_concat] at hlast ⊢
      rw [hpend, heq, List.filter_append] at hp
      by_cases hcov : fin.isCoveredBy ackNum = true
      · -- the last segment is covered, so everything is acknowledged
        have hend := (SeqPoint.precedesOrEq_iff _ _).mp hcov
        rw [hlast fin rfl, SeqPoint.dist_eq ackNum, SeqPoint.dist_self] at hend
        rw [huna] at hfl hnil
        have hzero : ackNum.dist conn.sndNxt = 0 := by omega
        rw [← List.filter_append, ← heq, ← hpend,
          hnil (SeqPoint.dist_eq_zero.mp hzero).symm] at hp
        cases hp
      · rw [List.filter_cons_of_pos (by simpa using hcov), List.filter_nil,
          List.getLast?_concat] at hp
        exact hp
  · have hpend : conn.ackedPending ackNum = conn.pending := if_neg hcond
    rw [hpend] at hp
    exact hp

/-- **A segment leaves our FIN at the end of the queue.** -/
theorem FinPending.sendMove {extra : List UInt8} {reply : Option SendInfo} (h : FinPending conn)
    (hfl : InFlightInv conn) (hg : Unambiguous conn (.segment seg now))
    (hcov : conn.name ≠ none → Covers conn.sndUna conn.sndNxt conn.pending)
    (hcov' : conn'.name ≠ none → Covers conn'.sndUna conn'.sndNxt conn'.pending)
    (hm : SendMove seg now conn extra conn' reply) : FinPending conn' := by
  intro hfin p hp
  cases hm with
  | idle hsame =>
    have hname : conn'.name = conn.name := congrArg TcpState.name hsame.tcpState
    rw [hsame.pending] at hp
    exact h (hname ▸ hfin) p hp
  | resend hst hextra hinfo hst' =>
    exact absurd hfin (by rw [ConnState.name_eq_none.mpr hst']; decide)
  | data hack hsend hsilent hname =>
    rcases hname with h' | h' <;> rw [h'] at hfin <;> exact absurd hfin (by decide)
  | fin hack hsend hsilent hname hwin hempty htrans hinfo hnxt hpend =>
    rw [hpend, List.getLast?_concat] at hp
    rw [← Option.some.inj hp, PendingSegment.new_sendInfo, hinfo]
  | ack hack hshift hsync hextra hcw hnxt =>
    have hold := hshift.finSent_iff.mp hfin
    have hsynced : conn.name ≠ Option.none := fun hn => hold (.inl (.inl hn))
    have hcovers := hcov' hsync
    have hle := hfl.ack hg hack
    have hany := hfl.any
    obtain ⟨-, huna, hpend⟩ := hack.of_synced hsynced
    rw [huna] at hle
    rw [huna, hnxt, hpend] at hcovers
    rw [hpend] at hp
    exact h hold p (ackedPending_getLast (hcov hsynced).last hcovers.nil_iff.mpr
      (by omega) p hp)

/-! ### Every run -/

/-- What every step keeps. -/
structure CloseInv (conn : ConnState) : Prop where
  inFlight : InFlightInv conn
  queue : QueueInv conn
  una : UnaAgrees conn
  fin : FinPending conn

theorem QueueInv.covers (h : QueueInv conn) (hname : conn.name ≠ none) :
    Covers conn.sndUna conn.sndNxt conn.pending := by
  obtain ⟨base, x, b, z, hq, hle⟩ := h hname
  exact hq.covers hle

/-- **Every step keeps the two records in step.** -/
theorem CloseInv.step (h : CloseInv conn) (hg : AcksVisibly conn ev)
    (hs : (conn.step A rto maxRetries app ev).conn = some conn') : CloseInv conn' := by
  have hfl' := h.inFlight.step hg.unambiguous hs
  have hq' := h.queue.step h.inFlight hg.unambiguous hs
  have hpend : conn'.name ≠ none → conn'.pending ≠ [] → conn'.sndUna ≠ conn'.sndNxt :=
    fun hn hne heq => hne ((hq'.covers hn).nil_iff.mpr heq)
  have hmove := ConnState.step_move hs
  refine ⟨hfl', hq', ?_, ?_⟩
  · cases ev with
    | segment seg now =>
      by_cases hn : conn'.name = none
      · exact ⟨fun h' => absurd h' (by rw [hn]; decide), fun h' => absurd (hn.symm.trans h') nofun⟩
      · exact h.una.segment h.inFlight hg hs (hpend hn)
    | retransmit now late =>
      generalize conn.step A rto maxRetries app _ = out at hmove
      cases hmove with
      | retransmit => exact ⟨h.una.awaits, h.una.acked⟩
    | close now =>
      generalize conn.step A rto maxRetries app _ = out at hmove
      cases hmove with
      | close =>
        refine ⟨fun _ => hpend nofun ?_, nofun⟩
        exact List.append_ne_nil_of_right_ne_nil _ (List.cons_ne_nil _ _)
      | closeIdle => exact h.una
  · generalize conn.step A rto maxRetries app ev = out at hmove
    cases hmove with
    | segment hfeed hsend hrecv =>
      exact h.fin.sendMove h.inFlight hg.unambiguous h.queue.covers hq'.covers hsend
    | retransmit hf =>
      intro hfin p hp
      rw [List.getLast?_map] at hp
      obtain ⟨q, hq, rfl⟩ := Option.map_eq_some_iff.mp hp
      rw [(hf q).1]
      exact h.fin hfin q hq
    | close hst hinfo =>
      intro _ p hp
      rw [List.getLast?_concat] at hp
      rw [← Option.some.inj hp, PendingSegment.new_sendInfo, hinfo]
    | closeIdle => exact h.fin

theorem closeInv_opened (iss : SeqPoint .Out) (irs : SeqPoint .In) (t₀ : Instant) :
    CloseInv (ConnState.opened iss irs t₀) :=
  ⟨inFlightInv_opened iss irs t₀, fun h => absurd rfl h,
    ⟨fun h => absurd h (by decide : ¬ AwaitsFinAck none), nofun⟩,
    fun h => absurd h (by decide : ¬ FinSent none)⟩

/-- The invariant says what the names of the states claim. -/
theorem CloseInv.agrees (h : CloseInv conn) : CloseAgrees conn := by
  constructor
  · intro hn
    have hne := h.una.awaits hn
    have hsync : conn.name ≠ none := by rcases hn with hn | hn | hn <;> rw [hn] <;> nofun
    have hcov := h.queue.covers hsync
    have hfin : FinSent conn.name := by rcases hn with hn | hn | hn <;> rw [hn] <;> decide
    refine ⟨hne, ?_⟩
    rcases List.eq_nil_or_concat' conn.pending with hempty | ⟨front, fin, heq⟩
    · exact absurd (hcov.nil_iff.mp hempty) hne
    · have hlast : conn.pending.getLast? = some fin := by rw [heq, List.getLast?_concat]
      exact ⟨fin, hlast, h.fin hfin fin hlast, hcov.last fin hlast⟩
  · intro hn
    have heq := h.una.acked hn
    exact ⟨heq, (h.queue.covers (by rw [hn]; nofun)).nil_iff.mpr heq⟩

/-- **The state of closing agrees with the acknowledgment of our FIN**, in every run in which
    no acknowledgment is antipodal with nothing in flight and none that covers our FIN comes
    with data in FIN-WAIT-1. -/
theorem close_state_agrees (A : Application σ) (app : σ) (initialRto : Duration)
    (maxRetries : UInt8) (es : List (HostEvent σ)) (h : Host σ)
    (hrun : Runs.Run (Host.step A) (Host.Guard AcksVisibly)
      (Host.new app initialRto maxRetries) es h)
    (key : ConnKey) (conn : ConnState) (hconn : h.get key = some conn) : CloseAgrees conn := by
  have hinv : CloseInv conn := Host.conn_invariant closeInv_opened
    (fun _ _ _ _ _ _ hp hg hs => hp.step hg hs) hrun hconn
  exact hinv.agrees

/-- The condition asks nothing of a segment that meets no connection or one in SYN-RECEIVED. -/
theorem acksVisibly_handshake {h : Host σ} {seg : TcpSegment .In}
    {randomU32 : TraceableResult UInt32} {now : Instant}
    (hall : ∀ e ∈ h.connections.table.entries, e.2.tcpState = .SynReceived) :
    Host.Guard AcksVisibly h (.segment seg randomU32 now) := by
  refine Host.guard_segment fun e he => ⟨fun seg' now' _ hc => ?_, fun seg' now' _ hc => ?_⟩
  · rw [ConnState.takesAck, hall e he] at hc
    cases hc.1
  · have hname := hc.name
    rw [ConnState.name_eq_none.mpr (hall e he)] at hname
    cases hname

/-- After data is answered and the connection closed, our FIN is out and unacknowledged. -/
theorem close_state_agrees_closed :
    ∃ conn, (answeredThenClosed.foldl (Host.step ServerApp.application)
        (Host.new .Echo 1000000000 3)).get KEY = some conn ∧
      conn.name = some .FinWait1 ∧ conn.sndUna ≠ conn.sndNxt := by
  have hname : ((answeredThenClosed.foldl (Host.step ServerApp.application)
      (Host.new .Echo 1000000000 3)).get KEY).map ConnState.name = some (some .FinWait1) := by
    decide
  obtain ⟨conn, hconn, hname⟩ := Option.map_eq_some_iff.mp hname
  have hclose : Host.Guard AcksVisibly ((answeredThenClosed.take 2).foldl
      (Host.step ServerApp.application) (Host.new .Echo 1000000000 3))
      (.close (fun _ => .ok ()) ⟨2⟩) := by
    rintro key conn ev - hev
    obtain rfl := Option.some.inj hev
    exact ⟨nofun, nofun⟩
  have h := close_state_agrees ServerApp.application .Echo 1000000000 3 answeredThenClosed _
    (.of_admits ⟨acksVisibly_handshake nofun, acksVisibly_handshake (by decide), hclose, trivial⟩)
    KEY conn hconn
  exact ⟨conn, hconn, hname, (h.awaits (.inl hname)).1⟩

/-- In-order data that acknowledges the FIN of a server which has sent nothing else. -/
def CLIENT_HI_ACKING_FIN : TcpSegment .In := { CLIENT_HI with ackNum := SERVER_ISN + 2 }

/-- **FIN-WAIT-1 can outlive the acknowledgment of our FIN**: data that acknowledges it leaves
    nothing in flight and nothing pending, but the state as it was. -/
theorem finWait1_after_fin_acked :
    ∃ es h conn, Runs.Run (Host.step ServerApp.application) (fun _ _ => True)
        (Host.new .Echo 1000000000 3) es h ∧
      h.get KEY = some conn ∧ conn.name = some .FinWait1 ∧ conn.sndUna = conn.sndNxt ∧
      conn.pending = [] ∧ ¬ CloseAgrees conn := by
  let es := establishedEvents ++ [HostEvent.close (fun _ => .ok ()) ⟨2⟩,
    .segment CLIENT_HI_ACKING_FIN (.ok 0) ⟨3⟩]
  have h : ((es.foldl (Host.step ServerApp.application) (Host.new .Echo 1000000000 3)).get
      KEY).map (fun conn => (conn.name, decide (conn.sndUna = conn.sndNxt), conn.pending))
        = some (some .FinWait1, true, []) := by decide
  obtain ⟨conn, hconn, heq⟩ := Option.map_eq_some_iff.mp h
  obtain ⟨hname, hrest⟩ := Prod.mk.inj heq
  obtain ⟨huna, hpend⟩ := Prod.mk.inj hrest
  have huna := of_decide_eq_true huna
  exact ⟨es, _, conn, .of_foldl _ _, hconn, hname, huna, hpend,
    fun hagree => (hagree.awaits (.inl hname)).1 huna⟩

end Typenet
