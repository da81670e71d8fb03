import Typenet.Table.InFlight
import Typenet.Table.Replies

namespace Typenet

/-!
# Blind segments

An attacker who does not see a connection has to guess its sequence numbers.  What such a
segment can do is decided by the common fallback, and only by it: no arm of a handler takes a
segment that is neither an ACK nor a FIN-ACK, and none takes one outside the receive window
(`handleKnownConn_fallback`).  A duplicate SYN in SYN-RECEIVED is the one exception.
-/

open SendInfo

variable {σ : Type} {A : Application σ} {app : σ} {conn : ConnState} {seg : TcpSegment .In}
  {now : Instant}

/-! ### Kinds of segments -/

/-- A RST or RST-ACK. -/
def IsRst (seg : TcpSegment .In) : Prop := seg.flags = .Rst ∨ seg.flags = .RstAck

/-- A SYN or SYN-ACK. -/
def IsSyn (seg : TcpSegment .In) : Prop := seg.flags = .Syn ∨ seg.flags = .SynAck

instance (seg : TcpSegment .In) : Decidable (IsRst seg) := inferInstanceAs (Decidable (_ ∨ _))

/-! ### Only the fallback takes them -/

/-- No arm of a handler is written for the segment: it is neither an ACK nor a FIN-ACK, or it
    is outside the window, and it is no duplicate SYN. -/
structure LeftOver (seg : TcpSegment .In) (conn : ConnState) : Prop where
  arms : (seg.flags ≠ .Ack ∧ seg.flags ≠ .FinAck) ∨ SeqCheck.check seg conn = .Unacceptable
  syn : conn.name = none → seg.flags ≠ .Syn

/-- An arm for ACKs or FIN-ACKs that pass the check does not take the segment. -/
theorem LeftOver.absurd {P : Prop} (h : LeftOver seg conn)
    (hflags : seg.flags = .Ack ∨ seg.flags = .FinAck)
    (hcheck : SeqCheck.check seg conn ≠ .Unacceptable) : P := by
  exfalso
  -- either the flags or the check keep the segment out of the arm
  rcases h.arms with ⟨hack, hfin⟩ | hun
  · exact hflags.elim hack hfin
  · exact hcheck hun

theorem SendInfo.handleSynRcv_fallback (h : LeftOver seg conn)
    (hst : conn.tcpState = .SynReceived) (A : Application σ) (app : σ) (now : Instant) :
    handleSynRcv A app seg conn now = ⟨app, conn, .ok (knownConnCommonFallback seg conn)⟩ := by
  have hsyn := h.syn (ConnState.name_eq_none.mpr hst)
  have hdone : conn.completesHandshake seg = true → False := fun hdone => by
    obtain ⟨-, hflags, hcheck, -⟩ := ConnState.completesHandshake_iff.mp hdone
    exact h.absurd hflags hcheck
  have harm := handleSynRcv_arm hst A app seg now
  generalize handleSynRcv A app seg conn now = hd at harm ⊢
  cases harm with
  | resend hflags => exact absurd hflags hsyn
  | silent hd | data hd | fin hd | buffer hd => exact (hdone hd).elim
  | fallback => rfl

theorem SendInfo.handleEstablished_fallback {est : SyncedState .Established}
    (h : LeftOver seg conn) (hst : conn.tcpState = .Established est) (A : Application σ)
    (app : σ) (now : Instant) :
    handleEstablished A app seg conn est now
      = ⟨app, conn, .ok (knownConnCommonFallback seg conn)⟩ := by
  have htakes : conn.takesAck seg = true → False := fun htakes => by
    obtain ⟨hflags, hcheck⟩ := ConnState.of_takesAck hst htakes
    exact h.absurd hflags hcheck
  have harm := handleEstablished_arm hst A app seg now
  generalize handleEstablished A app seg conn est now = hd at harm ⊢
  cases harm with
  | unsent hskips hflags hcheck => exact h.absurd (.inl hflags) hcheck
  | pureAck ht | data ht | buffer ht | fin ht => exact (htakes ht).elim
  | fallback => rfl

/-- **Every handler leaves such a segment to the fallback.** -/
theorem handleKnownConn_fallback (h : LeftOver seg conn) (A : Application σ) (app : σ)
    (now : Instant) :
    handleKnownConn A app seg conn now
      = ⟨app, conn, .ok (knownConnCommonFallback seg conn)⟩ := by
  unfold handleKnownConn
  cases hst : conn.tcpState with
  | SynReceived => exact handleSynRcv_fallback h hst A app now
  | Established est => exact handleEstablished_fallback h hst A app now
  | FinWait1 s =>
    show infallible app (handleFinWait1 seg conn s) = _
    unfold handleFinWait1 infallible
    simp only
    split
    case h_6 hflags hcheck hacked | h_7 hflags hcheck hacked =>
      exact h.absurd (.inr hflags) (by rw [hcheck]; decide)
    case h_8 => rfl
    all_goals exact h.absurd (.inl ‹_›) (by simp [*])
  | FinWait2 s =>
    show infallible app (handleFinWait2 seg conn s) = _
    unfold handleFinWait2 infallible
    simp only
    split
    case h_4 hflags hcheck => exact h.absurd (.inr hflags) (by rw [hcheck]; decide)
    case h_5 => rfl
    all_goals exact h.absurd (.inl ‹_›) (by simp [*])
  | CloseWait s =>
    show (⟨app, (handleCloseWait seg conn s now).2, (handleCloseWait seg conn s now).1⟩ :
      Handled σ) = _
    unfold handleCloseWait
    split
    case h_3 => rfl
    all_goals exact h.absurd (.inl ‹_›) (by simp [*])
  | Closing s =>
    show infallible app (handleClosing seg conn s) = _
    unfold handleClosing infallible
    simp only
    split
    case h_5 => rfl
    all_goals exact h.absurd (.inl ‹_›) (by simp [*])
  | LastAck s =>
    show infallible app (handleLastAck seg conn s) = _
    unfold handleLastAck infallible
    simp only
    split
    case h_5 => rfl
    all_goals exact h.absurd (.inl ‹_›) (by simp [*])

/-! ### What the fallback does -/

/-- A segment that is left to the fallback leaves the application and the connection alone, and
    removes the connection where the fallback says so. -/
theorem Host.segment_leftOver {h : Host σ} (A : Application σ)
    (randomU32 : TraceableResult UInt32) (now : Instant)
    (hconn : h.get (ConnKey.ofSegment seg) = some conn) (hleft : LeftOver seg conn) :
    (h.connections.createReply A h.app seg randomU32 now).1
        = .ok ((knownConnCommonFallback seg conn).1.map
          (TcpSegment.fromPairsAndInfo seg.ipPair.swapped seg.ports.swapped)) ∧
      (h.step A (.segment seg randomU32 now)).app = h.app ∧
      ∀ key, (h.step A (.segment seg randomU32 now)).get key
        = if key = ConnKey.ofSegment seg ∧ (knownConnCommonFallback seg conn).2 = true then none
          else h.get key := by
  have hget : h.connections.get (ConnKey.ofSegment seg) = some conn := hconn
  have hknown := handleKnownConn_fallback hleft A h.app now
  refine ⟨by rw [TcpConnections.createReply_known hget, hknown]; rfl, ?_, fun key => ?_⟩
  · simp only [Host.step, TcpConnections.createReply, TcpConnections.decideReply, hget, hknown]
  · have hstep : (h.step A (.segment seg randomU32 now)).connections
        = if (knownConnCommonFallback seg conn).2
          then (h.connections.set (ConnKey.ofSegment seg) conn).remove (ConnKey.ofSegment seg)
          else h.connections.set (ConnKey.ofSegment seg) conn := by
      simp only [Host.step, TcpConnections.createReply, TcpConnections.decideReply, hget, hknown]
    show (h.step A (.segment seg randomU32 now)).connections.get key = _
    rw [hstep]
    by_cases hkey : key = ConnKey.ofSegment seg
    · by_cases hrem : (knownConnCommonFallback seg conn).2 = true
      · rw [if_pos hrem, if_pos ⟨hkey, hrem⟩, hkey, TcpConnections.get_remove_self]
      · rw [if_neg hrem, if_neg fun hc => hrem hc.2, hkey, TcpConnections.get_set_self]
        exact hconn.symm
    · have hother : ¬ (key = ConnKey.ofSegment seg ∧ (knownConnCommonFallback seg conn).2 = true) :=
        fun hc => hkey hc.1
      rw [if_neg hother]
      split
      · rw [TcpConnections.get_remove_ne _ hkey, TcpConnections.get_set_ne _ _ hkey]; rfl
      · rw [TcpConnections.get_set_ne _ _ hkey]; rfl

/-- The fallback obeys a RST at RCV.NXT. -/
theorem knownConnCommonFallback_reset (hrst : IsRst seg) (hseq : seg.seqNum = conn.rcvNxt) :
    knownConnCommonFallback seg conn = (none, true) := by
  have hcheck : SeqCheck.check seg conn = .InOrder := if_pos hseq
  unfold knownConnCommonFallback
  rcases hrst with hf | hf
  · rw [hf, hcheck]
  · rw [hf, hcheck]

/-- The fallback drops a RST outside the window and challenges anything else there. -/
theorem knownConnCommonFallback_outside (h : ¬ InReceiveWindow seg conn) :
    knownConnCommonFallback seg conn
      = (if IsRst seg then none else some (pureAck conn), false) := by
  have hcheck := SeqCheck.check_eq_unacceptable.mpr h
  unfold knownConnCommonFallback
  rw [hcheck]
  cases hf : seg.flags <;> simp [IsRst, hf]

/-- The fallback challenges a RST in the window that is not at RCV.NXT. -/
theorem knownConnCommonFallback_rst (hrst : IsRst seg) (hwin : InReceiveWindow seg conn)
    (hne : seg.seqNum ≠ conn.rcvNxt) :
    knownConnCommonFallback seg conn = (some (pureAck conn), false) := by
  have hcheck : SeqCheck.check seg conn = .OutOfOrder :=
    (SeqCheck.check_inWindow hwin).trans (if_neg hne)
  unfold knownConnCommonFallback
  rw [hcheck]
  rcases hrst with hf | hf
  · rw [hf]
  · rw [hf]

/-- The fallback challenges a SYN or SYN-ACK on a synchronized connection. -/
theorem knownConnCommonFallback_syn (hsyn : IsSyn seg) (hsync : conn.name ≠ none) :
    knownConnCommonFallback seg conn = (some (pureAck conn), false) := by
  have hst : conn.tcpState ≠ .SynReceived := fun h => hsync (ConnState.name_eq_none.mpr h)
  unfold knownConnCommonFallback
  rcases hsyn with hf | hf
  · rw [hf]
    cases SeqCheck.check seg conn <;> simp [hst]
  · rw [hf]
    cases SeqCheck.check seg conn <;> simp [hst]

/-! ### Protection -/

/-- The reply <SEQ=SND.NXT, ACK=RCV.NXT, CTL=ACK> to `seg`. -/
def challengeAck (seg : TcpSegment .In) (conn : ConnState) : TcpSegment .Out :=
  TcpSegment.fromPairsAndInfo seg.ipPair.swapped seg.ports.swapped (pureAck conn)

/-- **Blind segments are harmless.** A segment outside the receive window, a SYN or SYN-ACK, and
    a RST that is not at RCV.NXT leave the application and the whole table alone and are
    answered with the challenge ACK, or not at all for a RST outside the window; a RST at RCV.NXT
    removes its connection and no other.  This holds of every synchronized connection, and in
    SYN-RECEIVED of every RST and of every segment outside the window but a SYN. -/
theorem blind_segment_protection (A : Application σ) (h : Host σ) (seg : TcpSegment .In)
    (randomU32 : TraceableResult UInt32) (now : Instant) (conn : ConnState)
    (hconn : h.get (ConnKey.ofSegment seg) = some conn)
    (hstate : conn.name ≠ none ∨ IsRst seg
      ∨ (¬ InReceiveWindow seg conn ∧ seg.flags ≠ .Syn)) :
    (¬ InReceiveWindow seg conn ∨ IsSyn seg ∨ (IsRst seg ∧ seg.seqNum ≠ conn.rcvNxt) →
      (h.connections.createReply A h.app seg randomU32 now).1
          = .ok (if IsRst seg ∧ ¬ InReceiveWindow seg conn then none
            else some (challengeAck seg conn)) ∧
        (h.step A (.segment seg randomU32 now)).app = h.app ∧
        ∀ key, (h.step A (.segment seg randomU32 now)).get key = h.get key) ∧
    (IsRst seg ∧ seg.seqNum = conn.rcvNxt →
      (h.connections.createReply A h.app seg randomU32 now).1 = .ok none ∧
        (h.step A (.segment seg randomU32 now)).app = h.app ∧
        ∀ key, (h.step A (.segment seg randomU32 now)).get key
          = if key = ConnKey.ofSegment seg then none else h.get key) := by
  have hsyn : conn.name = none → seg.flags ≠ .Syn := by
    intro hnone hf
    rcases hstate with hsync | (hr | hr) | ⟨-, hne⟩
    · exact hsync hnone
    · rw [hf] at hr; cases hr
    · rw [hf] at hr; cases hr
    · exact hne hf
  have hflags : IsRst seg ∨ IsSyn seg → seg.flags ≠ .Ack ∧ seg.flags ≠ .FinAck := by
    rintro ((hf | hf) | (hf | hf)) <;> rw [hf] <;> decide
  constructor
  · intro hblind
    have hleft : LeftOver seg conn := by
      refine ⟨?_, hsyn⟩
      rcases hblind with hout | hs | ⟨hr, -⟩
      · exact .inr (SeqCheck.check_eq_unacceptable.mpr hout)
      · exact .inl (hflags (.inr hs))
      · exact .inl (hflags (.inl hr))
    have hfall : knownConnCommonFallback seg conn
        = (if IsRst seg ∧ ¬ InReceiveWindow seg conn then none else some (pureAck conn),
            false) := by
      by_cases hwin : InReceiveWindow seg conn
      · rw [if_neg fun hc => hc.2 hwin]
        rcases hblind with hout | hs | ⟨hr, hne⟩
        · exact absurd hwin hout
        · apply knownConnCommonFallback_syn hs
          rcases hstate with hsync | hr | ⟨hout, -⟩
          · exact hsync
          · rcases hs with hf | hf <;> rcases hr with hr | hr <;> rw [hf] at hr <;> cases hr
          · exact absurd hwin hout
        · exact knownConnCommonFallback_rst hr hwin hne
      · rw [knownConnCommonFallback_outside hwin]
        simp [hwin]
    obtain ⟨hreply, happ, hget⟩ := h.segment_leftOver A randomU32 now hconn hleft
    rw [hfall] at hreply hget
    refine ⟨?_, happ, fun key => ?_⟩
    · rw [hreply]
      by_cases hdrop : IsRst seg ∧ ¬ InReceiveWindow seg conn
      · rw [if_pos hdrop, if_pos hdrop]; rfl
      · rw [if_neg hdrop, if_neg hdrop]; rfl
    · rw [hget, if_neg fun hc => by cases hc.2]
  · rintro ⟨hr, hseq⟩
    have hfall := knownConnCommonFallback_reset hr hseq
    obtain ⟨hreply, happ, hget⟩ := h.segment_leftOver A randomU32 now hconn
      ⟨.inl (hflags (.inl hr)), hsyn⟩
    rw [hfall] at hreply hget
    refine ⟨hreply, happ, fun key => ?_⟩
    rw [hget]
    simp

/-- A RST that guesses a number inside the window. -/
def CLIENT_BLIND_RST : TcpSegment .In :=
  { CLIENT_PKT with seqNum := CLIENT_ISN + 6, flags := .Rst }

/-- The guess is challenged, and the connection survives. -/
theorem blind_segment_protection_rst :
    ∃ conn, (establishedEvents.foldl (Host.step ServerApp.application)
        (Host.new .Echo 1000000000 3)).get KEY = some conn ∧
      ((establishedEvents.foldl (Host.step ServerApp.application)
        (Host.new .Echo 1000000000 3)).step ServerApp.application
          (.segment CLIENT_BLIND_RST (.ok 0) ⟨2⟩)).get KEY = some conn := by
  have h : ((establishedEvents.foldl (Host.step ServerApp.application)
      (Host.new .Echo 1000000000 3)).get KEY).map (fun c => (c.name, c.rcvNxt))
      = some (some .Established, CLIENT_ISN + 1) := by decide
  obtain ⟨conn, hconn, heq⟩ := Option.map_eq_some_iff.mp h
  obtain ⟨hname, hrcv⟩ := Prod.mk.inj heq
  refine ⟨conn, hconn, ?_⟩
  rw [← hconn]
  exact ((blind_segment_protection ServerApp.application _ CLIENT_BLIND_RST (.ok 0) ⟨2⟩ conn hconn
    (.inl (by rw [hname]; decide))).1 (.inr (.inr ⟨.inl rfl, by rw [hrcv]; decide⟩))).2.2 KEY

end Typenet
