import Typenet.Connection.HalfCircle
import Typenet.Table.Decisions
import Typenet.Table.FinOrder
import Typenet.Table.NoStall

namespace Typenet

/-!
# Closing comes to an end

A connection mid-close waits for segments of its peer: for acknowledgments while it has data or a
FIN in flight, and for the peer's FIN if that has not been received.  `Awaited` says which segments
these are, and `ConnState.toGo` how many of them are left to come.  Nothing else sets a connection
back, so once they have come it has left the table, whatever comes in between
(`closing_completes`).
-/

open SendInfo

variable {σ : Type} {A : Application σ} {rto : RtoConfig} {maxRetries : UInt8} {app : σ}
  {conn conn' : ConnState} {ev : ConnEvent} {seg : TcpSegment .In} {now : Instant} {w m : Nat}

/-! ### What is waited for -/

/-- A pure ACK in the window that acknowledges all that has been sent. -/
structure AcksAll (seg : TcpSegment .In) (conn : ConnState) : Prop where
  flags : seg.flags = .Ack
  payload : seg.payload = none
  window : InReceiveWindow seg conn
  ackNum : seg.ackNum = conn.sndNxt

/-- The peer's FIN in order. -/
structure BringsFin (seg : TcpSegment .In) (conn : ConnState) : Prop where
  flags : seg.flags = .FinAck
  seqNum : seg.seqNum = conn.rcvNxt

/-- **What a connection mid-close waits for.**  While data is queued, the acknowledgment has to
    leave a window of `w` bytes. -/
def Awaited (w : Nat) (seg : TcpSegment .In) (conn : ConnState) : Prop :=
  match conn.tcpState with
  | .SynReceived | .Established _ => False
  | .FinWait1 _ => AcksAll seg conn ∨ BringsFin seg conn
  | .FinWait2 _ => BringsFin seg conn
  | .CloseWait s => AcksAll seg conn ∧ w ≤ (s.windowState.updated conn seg).sndWnd.toNat
  | .Closing _ | .LastAck _ => AcksAll seg conn

instance (seg : TcpSegment .In) (conn : ConnState) : Decidable (AcksAll seg conn) :=
  decidable_of_iff (seg.flags = .Ack ∧ seg.payload = none ∧ InReceiveWindow seg conn ∧
      seg.ackNum = conn.sndNxt)
    ⟨fun ⟨hflags, hpay, hwin, hack⟩ => ⟨hflags, hpay, hwin, hack⟩,
      fun h => ⟨h.flags, h.payload, h.window, h.ackNum⟩⟩

instance (seg : TcpSegment .In) (conn : ConnState) : Decidable (BringsFin seg conn) :=
  decidable_of_iff (seg.flags = .FinAck ∧ seg.seqNum = conn.rcvNxt)
    ⟨fun ⟨hflags, hseq⟩ => ⟨hflags, hseq⟩, fun h => ⟨h.flags, h.seqNum⟩⟩

instance (w : Nat) (seg : TcpSegment .In) (conn : ConnState) : Decidable (Awaited w seg conn) := by
  unfold Awaited
  cases conn.tcpState <;> infer_instance

/-- How many segments a connection mid-close has to wait for, if each lets `m` bytes out. -/
def ConnState.toGo (m : Nat) (conn : ConnState) : Nat :=
  match conn.name with
  | none | some .Established => 0
  | some .FinWait1 => 2
  | some .CloseWait => (conn.sendBuffer.length + m - 1) / m + 1
  | some .FinWait2 | some .Closing | some .LastAck => 1

/-- A connection that is mid-close has some way to go. -/
theorem ConnState.toGo_pos (m : Nat) (h : ¬ Receiving conn.name) : 0 < conn.toGo m := by
  unfold toGo
  rcases hn : conn.name with _ | (_ | _ | _ | _ | _ | _)
  · exact absurd (.inl hn) h
  · exact absurd (.inr hn) h
  all_goals simp

/-! ### Nothing sets a connection back -/

/-- In CLOSE-WAIT nothing is queued any more. -/
theorem SendMove.sendBuffer_le {extra : List UInt8} {reply : Option SendInfo}
    (h : SendMove seg now conn extra conn' reply) (hname : conn.name = some .CloseWait)
    (hname' : conn'.name = some .CloseWait) :
    conn'.sendBuffer.length ≤ conn.sendBuffer.length := by
  cases h with
  | idle hsame => rw [hsame.sendBuffer]
  | resend hst => exact absurd (hname.symm.trans (ConnState.name_eq_none.mpr hst)) (by decide)
  | ack hack hshift hsync hextra hcw hnxt hbuf =>
    have hsilent : extra = [] := by
      by_contra hne
      exact absurd (hname ▸ hextra hne) (by decide)
    rw [hbuf, hsilent, List.append_nil]
  | @data w pend p info hack hsend hsilent hname' hleft hwin htrans =>
    have hsplit := congrArg List.length htrans.split
    rw [hsilent hname, List.append_nil, List.length_append] at hsplit
    omega
  | fin hack hsend hsilent hlast => exact absurd (hname'.symm.trans hlast) (by decide)

/-- In CLOSE-WAIT the send buffer never grows. -/
theorem ConnState.step_sendBuffer_le (hname : conn.name = some .CloseWait)
    (hs : (conn.step A rto maxRetries app ev).conn = some conn')
    (hname' : conn'.name = some .CloseWait) :
    conn'.sendBuffer.length ≤ conn.sendBuffer.length := by
  have hmove := ConnState.step_move hs
  generalize conn.step A rto maxRetries app ev = out at hmove
  cases hmove with
  | segment hfeed hsend hrecv => exact hsend.sendBuffer_le hname hname'
  | retransmit => exact Nat.le_refl _
  | close => cases hname'
  | closeIdle => exact Nat.le_refl _

/-- **Every event** leaves a connection mid-close where it was or nearer to its end. -/
theorem ConnState.toGo_step (h : ¬ Receiving conn.name)
    (hs : (conn.step A rto maxRetries app ev).conn = some conn') :
    ¬ Receiving conn'.name ∧ conn'.toGo m ≤ conn.toGo m := by
  have hlegal := (ConnState.step_move hs).legal
  rcases hlegal with hstay | hmoved
  · refine ⟨hstay ▸ h, ?_⟩
    unfold toGo
    rw [hstay]
    split
    case h_4 hcw =>
      -- the buffer is all that can have changed
      have hbuf := ConnState.step_sendBuffer_le hcw hs (hstay.trans hcw)
      have hdiv := Nat.div_le_div_right (c := m)
        (show conn'.sendBuffer.length + m - 1 ≤ conn.sendBuffer.length + m - 1 by omega)
      omega
    all_goals exact Nat.le_refl _
  · unfold toGo
    rcases hn : conn.name with _ | (_ | _ | _ | _ | _ | _) <;> rw [hn] at hmoved
    · exact absurd (.inl hn) h
    · exact absurd (.inr hn) h
    · rcases hmoved with hn' | hn' <;> rw [hn'] <;> exact ⟨by decide, by simp⟩
    · exact hmoved.elim
    · have hn' : conn'.name = some .LastAck := hmoved
      rw [hn']
      exact ⟨by decide, Nat.le_add_left 1 _⟩
    · exact hmoved.elim
    · exact hmoved.elim

/-! ### What is waited for helps -/

/-- A pure ACK in the window passes the check of SEG.SEQ. -/
theorem AcksAll.check (h : AcksAll seg conn) : SeqCheck.check seg conn ≠ .Unacceptable :=
  fun hun => SeqCheck.check_eq_unacceptable.mp hun h.window

/-- A FIN that is brought comes in order. -/
theorem BringsFin.check (h : BringsFin seg conn) : SeqCheck.check seg conn = .InOrder :=
  if_pos h.seqNum

/-- The acknowledgment of our FIN takes FIN-WAIT-1 to FIN-WAIT-2. -/
theorem AcksAll.finWait1 (h : AcksAll seg conn) (hname : conn.name = some .FinWait1) :
    (handleKnownConn A app seg conn now).conn.name = some .FinWait2 := by
  have hcheck := h.check
  unfold ConnState.name TcpState.name at hname
  unfold handleKnownConn
  cases hst : conn.tcpState with
  | FinWait1 s =>
    simp only [infallible, handleFinWait1, h.flags, h.payload, h.ackNum,
      SyncedState.incomingAckUpdate_eq]
    cases hseq : SeqCheck.check seg conn with
    | InOrder | OutOfOrder => simp [ConnState.name, TcpState.name]
    | Unacceptable => exact absurd hseq hcheck
  | _ => rw [hst] at hname; cases hname

/-- The peer's FIN takes FIN-WAIT-1 to CLOSING, unless it acknowledges ours. -/
theorem BringsFin.finWait1 (h : BringsFin seg conn) (hname : conn.name = some .FinWait1)
    (hack : seg.ackNum ≠ conn.sndNxt) :
    (handleKnownConn A app seg conn now).conn.name = some .Closing := by
  unfold ConnState.name TcpState.name at hname
  unfold handleKnownConn
  cases hst : conn.tcpState with
  | FinWait1 s =>
    simp [infallible, handleFinWait1, h.flags, h.check, hack, SyncedState.incomingAckUpdate_eq,
      ConnState.name, TcpState.name]
  | _ => rw [hst] at hname; cases hname

/-- What passive close makes of a window of `w` bytes with nothing in flight. -/
theorem PassiveClose.progress {cw : SyncedState .CloseWait}
    {out : TraceableResult SendInfo × ConnState} (h : PassiveClose conn cw now out)
    (hflight : conn.inFlight = 0) (hbuf : conn.sendBuffer ≠ []) (hw : 0 < w)
    (hwin : w ≤ cw.windowState.sndWnd.toNat) :
    out.2.name = some .LastAck ∨ (out.2.name = some .CloseWait ∧ out.2.sendBuffer ≠ [] ∧
      out.2.sendBuffer.length + min w SyncedState.MAX_PAYLOAD_LEN ≤ conn.sendBuffer.length) := by
  cases h with
  | failed hge => omega
  | fin => exact .inl rfl
  | blocked hlt hzero =>
    have hfull := (conn.transmittable_eq_zero_iff cw.windowState hbuf).mp hzero
    omega
  | @data p left info hlt hlen hsplit hleft =>
    have hlength := congrArg List.length hsplit
    have hpos := List.length_pos_iff.mpr hleft
    have hp : p.data.length = p.len := rfl
    rw [List.length_append, hp, hlen] at hlength
    refine .inr ⟨rfl, hleft, ?_⟩
    show left.length + _ ≤ _
    unfold ConnState.transmittable at hlength
    omega

/-- An acknowledgment of everything that leaves a window lets CLOSE-WAIT send on. -/
theorem AcksAll.closeWait {s : SyncedState .CloseWait} (h : AcksAll seg conn)
    (hst : conn.tcpState = .CloseWait s) (hinv : HalfInv conn) (hbuf : conn.sendBuffer ≠ [])
    (hw : 0 < w) (hwin : w ≤ (s.windowState.updated conn seg).sndWnd.toNat) :
    (handleKnownConn A app seg conn now).conn.name = some .LastAck ∨
      ((handleKnownConn A app seg conn now).conn.name = some .CloseWait ∧
        (handleKnownConn A app seg conn now).conn.sendBuffer.length
          + min w SyncedState.MAX_PAYLOAD_LEN ≤ conn.sendBuffer.length) := by
  have hname : conn.name = some .CloseWait := by unfold ConnState.name; rw [hst]; rfl
  have hflight : (conn.acked seg.ackNum).inFlight = 0 := by
    show (conn.ackedUna seg.ackNum).dist conn.sndNxt = 0
    rw [h.ackNum, ConnState.ackedUna_sndNxt (hinv.sending (by rw [hname]; decide)),
      SeqPoint.dist_self]
  have hclose := closeWaitOrLastAck_passiveClose (conn.acked seg.ackNum)
    ⟨s.windowState.updated conn seg⟩ now
  have hhandled : (handleKnownConn A app seg conn now).conn
      = (closeWaitOrLastAck (conn.acked seg.ackNum) ⟨s.windowState.updated conn seg⟩ now).2 := by
    unfold handleKnownConn
    simp only [hst, handleCloseWait, h.flags, h.payload, SyncedState.incomingAckUpdate_eq]
    cases hseq : SeqCheck.check seg conn with
    | InOrder | OutOfOrder => rfl
    | Unacceptable => exact absurd hseq h.check
  rw [hhandled]
  rcases hclose.progress hflight hbuf hw hwin with hlast | ⟨hstay, -, hle⟩
  · exact .inl hlast
  · exact .inr ⟨hstay, hle⟩

/-- The final acknowledgment removes a connection. -/
theorem AcksAll.removes (h : AcksAll seg conn)
    (hname : conn.name = some .Closing ∨ conn.name = some .LastAck) :
    conn.removedBy seg = true := by
  have hcheck := h.check
  unfold ConnState.name TcpState.name at hname
  unfold ConnState.removedBy
  cases hst : conn.tcpState with
  | Closing s | LastAck s => simp [h.flags, h.payload, h.ackNum, hcheck]
  | _ => rw [hst] at hname; rcases hname with hname | hname <;> cases hname

/-- The peer's FIN removes a connection whose own FIN has been acknowledged by then. -/
theorem BringsFin.removes (h : BringsFin seg conn) (hname : conn.name = some .FinWait2 ∨
    (conn.name = some .FinWait1 ∧ seg.ackNum = conn.sndNxt)) : conn.removedBy seg = true := by
  unfold ConnState.name TcpState.name at hname
  unfold ConnState.removedBy
  cases hst : conn.tcpState with
  | FinWait1 s =>
    rw [hst] at hname
    simp [h.flags, h.check, (hname.resolve_left nofun).2]
  | FinWait2 s => simp [h.flags, h.check]
  | _ => rw [hst] at hname; rcases hname with hname | ⟨hname, -⟩ <;> cases hname

/-- **A segment that is waited for** removes the connection or brings it nearer to its end. -/
theorem Awaited.progress (h : Awaited w seg conn) (hw : 0 < w) (hinv : HalfInv conn)
    (hpend : CloseWaitPending conn) : conn.removedBy seg = true ∨
      (handleKnownConn A app seg conn now).conn.toGo (min w SyncedState.MAX_PAYLOAD_LEN)
        < conn.toGo (min w SyncedState.MAX_PAYLOAD_LEN) := by
  have hname : conn.name = conn.tcpState.name := rfl
  unfold Awaited at h
  unfold ConnState.toGo
  cases hst : conn.tcpState with
  | SynReceived | Established s => rw [hst] at h; exact h.elim
  | FinWait1 s =>
    rw [hst] at h hname
    rcases h with hacks | hfin
    · right
      rw [hname, hacks.finWait1 hname]
      exact Nat.one_lt_two
    · by_cases hack : seg.ackNum = conn.sndNxt
      · exact .inl (hfin.removes (.inr ⟨hname, hack⟩))
      · right
        rw [hname, hfin.finWait1 hname hack]
        exact Nat.one_lt_two
  | FinWait2 s =>
    rw [hst] at h hname
    exact .inl (h.removes (.inl hname))
  | CloseWait s =>
    rw [hst] at h hname
    right
    rw [hname]
    rcases h.1.closeWait hst hinv (hpend hname) hw h.2 with hlast | ⟨hstay, hle⟩
    · -- our FIN is out, and it takes its acknowledgment only
      have hlen := List.length_pos_iff.mpr (hpend hname)
      have hm : 0 < min w SyncedState.MAX_PAYLOAD_LEN := Nat.lt_min.mpr ⟨hw, by decide⟩
      have hdiv := Nat.div_pos (show min w SyncedState.MAX_PAYLOAD_LEN
        ≤ conn.sendBuffer.length + min w SyncedState.MAX_PAYLOAD_LEN - 1 by omega) hm
      rw [hlast]
      show 1 < _ + 1
      omega
    · have hm : 0 < min w SyncedState.MAX_PAYLOAD_LEN := Nat.lt_min.mpr ⟨hw, by decide⟩
      rw [hstay]
      generalize min w SyncedState.MAX_PAYLOAD_LEN = m at hm hle
      generalize (handleKnownConn A app seg conn now).conn.sendBuffer.length = n at hle
      show (n + m - 1) / m + 1 < (conn.sendBuffer.length + m - 1) / m + 1
      have hone := Nat.add_div_right (n + m - 1) hm
      have hdiv := Nat.div_le_div_right (c := m)
        (show n + m - 1 + m ≤ conn.sendBuffer.length + m - 1 by omega)
      omega
  | Closing s | LastAck s =>
    rw [hst] at h hname
    exact .inl (h.removes (by rw [hname]; simp [TcpState.name]))

/-! ### Runs -/

/-- The event is a segment that the connection of `key` waits for, if it is still there. -/
def Host.Awaits (w : Nat) (key : ConnKey) (h : Host σ) (e : HostEvent σ) : Prop :=
  ∀ conn, h.get key = some conn →
    ∃ seg now, e.at key = some (.segment seg now) ∧ Awaited w seg conn

/-- A connection that is mid-close, with what every run keeps of it. -/
structure MidClose (conn : ConnState) : Prop where
  closing : ¬ Receiving conn.name
  half : HalfInv conn
  pending : CloseWaitPending conn

/-- A step keeps a connection mid-close. -/
theorem MidClose.step (h : MidClose conn)
    (hs : (conn.step A rto maxRetries app ev).conn = some conn') : MidClose conn' :=
  ⟨(ConnState.toGo_step (m := 0) h.closing hs).1, h.half.step hs, h.pending.step hs⟩

/-- **Closing comes to an end.**  In any run, a connection that is mid-close has left the table once
    as many segments that it waits for have come as it has to go, if not before, whatever has come in
    between.  Each acknowledgment leaves a window of `w` bytes. -/
theorem closing_completes (A : Application σ) (app : σ) (initialRto : Duration)
    (maxRetries : UInt8) (es es' : List (HostEvent σ)) (key : ConnKey) (conn : ConnState)
    (hconn : (es.foldl (Host.step A) (Host.new app initialRto maxRetries)).get key = some conn)
    (hclosing : ¬ Receiving conn.name) (w : Nat) (hw : 0 < w)
    (hpeer : Runs.AtLeast (Host.step A) (Host.Awaits w key)
      (conn.toGo (min w SyncedState.MAX_PAYLOAD_LEN))
      (es.foldl (Host.step A) (Host.new app initialRto maxRetries)) es') :
    ∃ front, front <+: es' ∧ ((es ++ front).foldl (Host.step A)
      (Host.new app initialRto maxRetries)).get key = none := by
  have hrun : Runs.Run (Host.step A) (Host.Guard fun _ _ => True)
      (Host.new app initialRto maxRetries) es _ :=
    (Runs.Run.of_foldl _ es).imp fun _ _ _ _ _ _ _ _ => trivial
  have hhalf : HalfInv conn := Host.conn_invariant halfInv_opened
    (fun _ _ _ _ _ _ hp _ hs => hp.step hs) hrun hconn
  have hmid : MidClose conn := ⟨hclosing, hhalf, closeWait_pending hrun hconn⟩
  simp only [List.foldl_append]
  generalize es.foldl (Host.step A) (Host.new app initialRto maxRetries) = h at hconn hpeer
  refine hpeer.reaches (I := fun h => ∃ conn, h.get key = some conn ∧ MidClose conn)
    (μ := fun h => ((h.get key).map (ConnState.toGo (min w SyncedState.MAX_PAYLOAD_LEN))).getD 0)
    (J := fun h => h.get key = none) (Runs.admits_true _ _) ⟨conn, hconn, hmid⟩ (by simp [hconn])
    ?_ ?_ ?_
  · rintro h ⟨conn, hget, hmid⟩
    simp only [hget, Option.map_some, Option.getD_some]
    exact ConnState.toGo_pos _ hmid.closing
  · -- an event leaves the entry alone, or the connection takes its share of it
    rintro h e ⟨conn, hget, hmid⟩ -
    cases hget' : (h.step A e).get key with
    | none => exact .inl rfl
    | some conn' =>
      simp only [hget, Option.map_some, Option.getD_some]
      right
      cases (h.step_get e key).2 conn' hget' with
      | unchanged hsame =>
        obtain rfl := Option.some.inj (hget.symm.trans hsame)
        exact ⟨⟨conn, rfl, hmid⟩, Nat.le_refl _⟩
      | stepped hold hev hs =>
        obtain rfl := Option.some.inj (hget.symm.trans hold)
        exact ⟨⟨conn', rfl, hmid.step hs⟩, (ConnState.toGo_step hmid.closing hs).2⟩
      | opened hnone => cases hget.symm.trans hnone
  · rintro h e ⟨conn, hget, hmid⟩ - hawaits
    obtain ⟨seg, now, hat, hawaited⟩ := hawaits conn hget
    obtain ⟨randomU32, rfl, hkey⟩ := HostEvent.at_segment hat
    have hentry := Host.segment_entry hget A seg randomU32 now
    rw [if_pos hkey] at hentry
    have hprogress : conn.removedBy seg = true ∨ (handleKnownConn A h.app seg conn now).conn.toGo
        (min w SyncedState.MAX_PAYLOAD_LEN) < conn.toGo (min w SyncedState.MAX_PAYLOAD_LEN) :=
      hawaited.progress hw hmid.half hmid.pending
    rcases hprogress with hremoved | hless
    · left
      rw [hentry, if_pos hremoved]
    · by_cases hremoved : conn.removedBy seg = true
      · left
        rw [hentry, if_pos hremoved]
      · right
        simp only [hentry, if_neg hremoved, hget, Option.map_some, Option.getD_some]
        exact hless

/-- A segment of a connection that waits for it. -/
theorem Host.awaits_segment {h : Host σ} {key : ConnKey} {randomU32 : TraceableResult UInt32}
    (hkey : ConnKey.ofSegment seg = key)
    (hall : (h.get key).all (fun conn => decide (Awaited w seg conn)) = true) :
    h.Awaits w key (.segment seg randomU32 now) := by
  intro conn hget
  rw [hget] at hall
  exact ⟨seg, now, if_pos hkey, of_decide_eq_true hall⟩

/-- A client that says "hi" and half-closes behind a closed window. -/
def BLOCKED_EVENTS : List (HostEvent ServerApp) :=
  [.segment CLIENT_SYN (.ok 400) ⟨0⟩, .segment { CLIENT_HI with window := 0 } (.ok 0) ⟨1⟩,
    .segment { CLIENT_FIN with ackNum := SERVER_ISN + SYN_BYTE, window := 0 } (.ok 0) ⟨2⟩]

/-- The client takes one byte of the answer at a time. -/
def BYTEWISE_EVENTS : List (HostEvent ServerApp) :=
  [1, 2, 4].map fun n => .segment { CLIENT_PKT with
    seqNum := CLIENT_ISN + 4, ackNum := SERVER_ISN + n, window := 1 } (.ok 0) ⟨3⟩

/-- The answer of two bytes is sent, then our FIN is acknowledged. -/
theorem closing_completes_bytewise : ∃ front, front <+: BYTEWISE_EVENTS ∧
    ((BLOCKED_EVENTS ++ front).foldl (Host.step ServerApp.application)
      (Host.new .Echo 1000000000 3)).get KEY = none := by
  have hwaiting : ((BLOCKED_EVENTS.foldl (Host.step ServerApp.application)
      (Host.new .Echo 1000000000 3)).get KEY).map (fun conn => (conn.name, conn.toGo 1))
        = some (some .CloseWait, 3) := by decide
  obtain ⟨conn, hconn, hname⟩ := Option.map_eq_some_iff.mp hwaiting
  obtain ⟨hname, htogo⟩ := Prod.mk.inj hname
  refine closing_completes ServerApp.application .Echo 1000000000 3 BLOCKED_EVENTS BYTEWISE_EVENTS
    KEY conn hconn (by rw [hname]; decide) 1 (by decide) ?_
  have hmin : conn.toGo (min 1 SyncedState.MAX_PAYLOAD_LEN) = 3 := htogo
  rw [hmin]
  refine .here (Host.awaits_segment rfl ?_) (.here (Host.awaits_segment rfl ?_)
    (.here (Host.awaits_segment rfl ?_) .zero)) <;> decide

end Typenet
