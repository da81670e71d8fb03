import Typenet.Lib.Latest
import Mathlib.Data.Prod.Lex
import Typenet.Table.AckCompleteness
import Typenet.Table.Decisions

namespace Typenet

/-!
# The freshest window

The peer's segments may arrive in any order and more than once.  While their sequence numbers
and their acknowledgment numbers each lie within half the circle, the code's wrapping comparisons
are orders, and the rule for SND.WL1 and SND.WL2 keeps the latest window by the lexicographic
order of (SEG.SEQ, SEG.ACK).

* `SendInfo.handleKnownConn_window` — the window a segment leaves, in every arm of ESTABLISHED;
* `WindowState.staleGuard_iff` — the code's guard is the comparison of two ages;
* `freshest_window` — SND.WND and SND.UNA are the latest of what has been accepted.
-/

open SendInfo

variable {σ : Type} {A : Application σ} {rto : RtoConfig} {maxRetries : UInt8} {app : σ}
  {conn conn' m : ConnState} {ev : ConnEvent} {seg : TcpSegment .In} {now : Instant}
  {seqBase : SeqPoint .In} {ackBase : SeqPoint .Out}

/-! ### The window after a segment -/

/-- Passive close keeps the window, and the state where it fails. -/
theorem PassiveClose.window {cw : SyncedState .CloseWait}
    {out : TraceableResult SendInfo × ConnState} (h : PassiveClose conn cw now out) :
    out.2.tcpState.window = some cw.windowState ∨
      2 ^ 31 ≤ conn.inFlight ∧ out.2.tcpState = conn.tcpState := by
  cases h with
  | failed hge => exact .inr ⟨hge, rfl⟩
  | fin | data | blocked => exact .inl rfl

/-- A FIN in order updates the window by its segment. -/
theorem SendInfo.closeOnInOrderFin_window (A : Application σ) (app : σ) (seg : TcpSegment .In)
    (conn : ConnState) (p : Option TcpPayload) (est : SyncedState .Established) (now : Instant)
    (hlt : (conn.ackedUna seg.ackNum).dist conn.sndNxt < 2 ^ 31) :
    (closeOnInOrderFin A app seg conn p est now).conn.tcpState.window
      = some (est.windowState.updated conn seg) := by
  obtain ⟨out, heq, hclose⟩ := closeOnInOrderFin_passiveClose A app seg conn p est now
  rw [heq]
  rcases hclose.window with hwin | ⟨hge, -⟩
  · exact hwin
  · exact absurd hlt (not_lt.mpr hge)

/-- What follows a delivery leaves the window alone. -/
theorem AfterDelivery.window {est : SyncedState .Established} {h : Handled σ}
    (hafter : AfterDelivery app m est now h) (hm : m.tcpState = .Established est) :
    h.conn.tcpState.window = some est.windowState := by
  have hwin : m.tcpState.window = some est.windowState := by rw [hm]; rfl
  cases hafter with
  | close hfin hclose =>
    rcases hclose.window with hwin' | ⟨-, hsame⟩
    · exact hwin'
    · exact (congrArg TcpState.window hsame).trans hwin
  | drain hfin hdrain => rw [hdrain.frame.1, hwin]

/-- **The window in ESTABLISHED** is refreshed by every arm that takes the acknowledgment. -/
theorem SendInfo.handleKnownConn_window {est : SyncedState .Established}
    (hst : conn.tcpState = .Established est)
    (hlt : conn.takesAck seg = true → (conn.ackedUna seg.ackNum).dist conn.sndNxt < 2 ^ 31)
    (A : Application σ) (app : σ) (now : Instant) :
    (handleKnownConn A app seg conn now).conn.tcpState.window
      = some (if conn.takesAck seg then est.windowState.updated conn seg
          else est.windowState) := by
  have hwin : conn.tcpState.window = some est.windowState := by rw [hst]; rfl
  have harm := handleEstablished_arm hst A app seg now
  unfold handleKnownConn
  rw [hst]
  simp only
  generalize handleEstablished A app seg conn est now = hd at harm ⊢
  cases harm with
  | unsent hskips | fallback hskips => rw [hskips]; exact hwin
  | pureAck htakes hflags hpay hdrain => rw [if_pos htakes, hdrain.frame.1]; rfl
  -- passive close and the drain both keep the window just refreshed
  | data htakes hflags hpay hcheck hdel hafter =>
    rw [if_pos htakes]
    exact hafter.window (deliver_frame hdel).1
  | buffer htakes => rw [if_pos htakes]; rfl
  | fin htakes =>
    rw [if_pos htakes]
    exact closeOnInOrderFin_window A app seg conn _ est now (hlt htakes)

/-- The segment that completes the handshake gives the connection its first window. -/
theorem SendInfo.handleKnownConn_window_handshake (hdone : conn.completesHandshake seg = true)
    (hnxt : conn.sndNxt = conn.sndUna + SYN_BYTE) (A : Application σ) (app : σ) (now : Instant) :
    (handleKnownConn A app seg conn now).conn.tcpState.window
      = some (WindowState.ofSegment seg) := by
  obtain ⟨hst, hflags, -, hack⟩ := ConnState.completesHandshake_iff.mp hdone
  have harm := handleSynRcv_arm hst A app seg now
  unfold handleKnownConn
  rw [hst]
  simp only
  generalize handleSynRcv A app seg conn now = hd at harm ⊢
  cases harm with
  | resend hsyn => rcases hflags with hf | hf <;> rw [hf] at hsyn <;> cases hsyn
  | silent _ _ _ hdel => exact congrArg TcpState.window (deliver_frame hdel).1
  | data _ _ _ hdel hafter => exact hafter.window (deliver_frame hdel).1
  | fin =>
    rw [Bool.and_eq_true] at hack
    have hall := handshake_ack hnxt hack.1 hack.2
    have hlt : ((completeHandshake seg conn).2.ackedUna seg.ackNum).dist
        (completeHandshake seg conn).2.sndNxt < 2 ^ 31 := by
      rw [(acked_completeHandshake seg conn).1, hall]
      show conn.sndNxt.dist conn.sndNxt < 2 ^ 31
      rw [SeqPoint.dist_self]
      omega
    refine (closeOnInOrderFin_window A app seg _ _ _ now hlt).trans (congrArg some ?_)
    -- the segment refreshes the window with itself
    unfold WindowState.updated
    split <;> rfl
  | buffer => rfl
  | fallback hno => rw [hdone] at hno; cases hno

/-! ### Ages of segments -/

/-- How late a segment is: by its sequence number, then by its acknowledgment number, both
    measured from a point behind them. -/
def age (seqBase : SeqPoint .In) (ackBase : SeqPoint .Out) (seg : TcpSegment .In) : ℕ ×ₗ ℕ :=
  toLex (seqBase.dist seg.seqNum, ackBase.dist seg.ackNum)

/-- How much a segment acknowledges, measured from a point behind. -/
def acknowledges (ackBase : SeqPoint .Out) (seg : TcpSegment .In) : ℕ := ackBase.dist seg.ackNum

/-- The numbers of the segment lie less than half the circle ahead of the two points. -/
structure InSpan (seqBase : SeqPoint .In) (ackBase : SeqPoint .Out) (seg : TcpSegment .In) :
    Prop where
  seqNum : seqBase.dist seg.seqNum < 2 ^ 31
  ackNum : ackBase.dist seg.ackNum < 2 ^ 31

/-- **The guard against stale windows** compares ages. -/
theorem WindowState.staleGuard_iff {old : TcpSegment .In} (hold : InSpan seqBase ackBase old)
    (hseg : InSpan seqBase ackBase seg) :
    (WindowState.ofSegment old).staleGuard seg = true
      ↔ age seqBase ackBase old ≤ age seqBase ackBase seg := by
  have hseq : old.seqNum = seg.seqNum ↔ seqBase.dist old.seqNum = seqBase.dist seg.seqNum :=
    SeqPoint.dist_inj.symm
  have hack : old.ackNum = seg.ackNum ↔ ackBase.dist old.ackNum = ackBase.dist seg.ackNum :=
    SeqPoint.dist_inj.symm
  unfold staleGuard age ofSegment
  rw [Prod.Lex.toLex_le_toLex, Bool.or_eq_true, Bool.and_eq_true, beq_iff_eq,
    SeqPoint.precedes_iff_dist_lt hold.seqNum hseg.seqNum, SeqPoint.precedesOrEq, Bool.or_eq_true,
    beq_iff_eq, SeqPoint.precedes_iff_dist_lt hold.ackNum hseg.ackNum, hseq, hack]
  simp only
  omega

/-! ### Segments that count -/

/-- An ACK or FIN-ACK in the receive window with SND.UNA =< SEG.ACK =< SND.NXT. -/
def Counts (seg : TcpSegment .In) (conn : ConnState) : Prop :=
  (seg.flags = .Ack ∨ seg.flags = .FinAck) ∧ InReceiveWindow seg conn ∧
    conn.sndUna.dist seg.ackNum ≤ conn.sndUna.dist conn.sndNxt

instance (seg : TcpSegment .In) (conn : ConnState) : Decidable (Counts seg conn) :=
  inferInstanceAs (Decidable (_ ∧ _ ∧ _))

/-- Two points of a span are never half the circle apart. -/
theorem SeqPoint.dist_ne_half {D : Direction} {base a b : SeqPoint D}
    (ha : base.dist a < 2 ^ 31) (hb : base.dist b < 2 ^ 31) : a.dist b ≠ 2 ^ 31 := by
  have hd := SeqPoint.dist_eq base a b
  omega

/-- **What ESTABLISHED processes** is what counts. -/
theorem ConnState.counts_iff (hname : conn.name = some .Established) (hfl : conn.inFlight ≤ 65535)
    (hhalf : conn.sndUna.dist seg.ackNum ≠ 2 ^ 31) :
    Counts seg conn ↔ conn.takesAck seg = true ∧ conn.ackInRange seg.ackNum = true := by
  obtain ⟨est, hst⟩ := ConnState.name_eq_established hname
  have hlt := SeqPoint.dist_lt conn.sndUna seg.ackNum
  have hback := conn.dist_sndNxt seg.ackNum
  have hpast := SeqPoint.dist_eq conn.sndUna conn.sndNxt seg.ackNum
  have hwin : InReceiveWindow seg conn ↔ SeqCheck.check seg conn ≠ .Unacceptable := by
    rw [ne_eq, SeqCheck.check_eq_unacceptable, not_not]
  have hrange : conn.ackInRange seg.ackNum = true ↔
      conn.sndUna.dist seg.ackNum ≤ 2 ^ 31 ∧ seg.ackNum.dist conn.sndNxt ≤ 2 ^ 31 := by
    rw [ConnState.ackInRange, Bool.and_eq_true, SeqPoint.precedesOrEq_iff,
      SeqPoint.precedesOrEq_iff]
  unfold Counts
  unfold ConnState.inFlight at hfl hback
  rw [hwin, hrange]
  constructor
  · rintro ⟨hflags, hcheck, hack⟩
    refine ⟨ConnState.takesAck_established hst ?_ hflags hcheck, by omega, by omega⟩
    -- what acknowledges no more than SND.NXT is not refused
    rintro ⟨-, -, hprec⟩
    rw [SeqPoint.precedes_iff] at hprec
    omega
  · rintro ⟨htakes, hle, hge⟩
    obtain ⟨hflags, hcheck⟩ := ConnState.of_takesAck hst htakes
    exact ⟨hflags, hcheck, by omega⟩

/-! ### One segment -/

open Latest

/-- SND.WND and SND.UNA are the latest of the segments `seen`. -/
structure Fresh (seqBase : SeqPoint .In) (ackBase : SeqPoint .Out) (seen : List (TcpSegment .In))
    (conn : ConnState) : Prop where
  window : ∃ seg, IsLatest (age seqBase ackBase) seen seg ∧
    conn.tcpState.window = some (WindowState.ofSegment seg)
  sndUna : ∃ seg, IsLatest (acknowledges ackBase) seen seg ∧ conn.sndUna = seg.ackNum

/-- What is known of a connection in ESTABLISHED when a segment of the span arrives. -/
structure Arrives (seqBase : SeqPoint .In) (ackBase : SeqPoint .Out)
    (seen : List (TcpSegment .In)) (seg : TcpSegment .In) (conn : ConnState) : Prop where
  name : conn.name = some .Established
  fresh : Fresh seqBase ackBase seen conn
  inFlight : conn.inFlight ≤ 65535
  seen : ∀ a ∈ seen, InSpan seqBase ackBase a
  inSpan : seg.flags = .Ack ∨ seg.flags = .FinAck → InSpan seqBase ackBase seg

/-- What is taken in ESTABLISHED is in the span. -/
theorem Arrives.inSpan_of_takesAck {seen : List (TcpSegment .In)}
    (h : Arrives seqBase ackBase seen seg conn) (htakes : conn.takesAck seg = true) :
    InSpan seqBase ackBase seg := by
  obtain ⟨est, hst⟩ := ConnState.name_eq_established h.name
  exact h.inSpan (ConnState.of_takesAck hst htakes).1

/-- An acknowledgment of the span is not the antipode of SND.UNA. -/
theorem Arrives.ne_half {seen : List (TcpSegment .In)}
    (h : Arrives seqBase ackBase seen seg conn) (hspan : InSpan seqBase ackBase seg) :
    conn.sndUna.dist seg.ackNum ≠ 2 ^ 31 := by
  obtain ⟨a, ha, huna⟩ := h.fresh.sndUna
  rw [huna]
  exact SeqPoint.dist_ne_half (h.seen a ha.mem).ackNum hspan.ackNum

/-- Among segments that may arrive, those count that are taken and acknowledge in range. -/
theorem Arrives.counts_iff {seen : List (TcpSegment .In)}
    (h : Arrives seqBase ackBase seen seg conn) :
    Counts seg conn ↔ conn.takesAck seg = true ∧ conn.ackInRange seg.ackNum = true := by
  have hiff : InSpan seqBase ackBase seg → _ := fun hspan =>
    ConnState.counts_iff h.name h.inFlight (h.ne_half hspan)
  constructor
  · exact fun hc => (hiff (h.inSpan hc.1)).mp hc
  · exact fun ht => (hiff (h.inSpan_of_takesAck ht.1)).mpr ht

/-- No segment that may arrive is ambiguous. -/
theorem Arrives.unambiguous {seen : List (TcpSegment .In)}
    (h : Arrives seqBase ackBase seen seg conn) (now : Instant) :
    Unambiguous conn (.segment seg now) := by
  rintro _ _ ⟨⟩ ⟨htakes, huna, hanti⟩
  apply h.ne_half (h.inSpan_of_takesAck htakes)
  rw [huna, hanti, SeqPoint.dist_self_add]
  rfl

/-- The window a segment leaves: its own if it counts and is not stale. -/
theorem Arrives.window {seen : List (TcpSegment .In)} {w : WindowState}
    (h : Arrives seqBase ackBase seen seg conn) (hw : conn.tcpState.window = some w)
    (A : Application σ) (app : σ) (now : Instant) :
    (handleKnownConn A app seg conn now).conn.tcpState.window
      = some (if Counts seg conn ∧ w.staleGuard seg = true then WindowState.ofSegment seg
          else w) := by
  obtain ⟨est, hst⟩ := ConnState.name_eq_established h.name
  obtain rfl : est.windowState = w := by
    rw [hst] at hw
    exact Option.some.inj hw
  have hinFlight := h.inFlight
  have hlt : conn.takesAck seg = true → (conn.ackedUna seg.ackNum).dist conn.sndNxt < 2 ^ 31 := by
    intro htakes
    rcases ConnState.ackedUna_cases seg.ackNum (by omega : conn.inFlight < 2 ^ 31) with
      ⟨huna, hanti⟩ | ⟨-, hd⟩
    · exact absurd ⟨htakes, huna, hanti⟩ (h.unambiguous now seg now rfl)
    · omega
  rw [handleKnownConn_window hst hlt, if_congr (and_congr_left' h.counts_iff) rfl rfl]
  apply congrArg some
  unfold WindowState.updated
  cases conn.takesAck seg <;> cases conn.ackInRange seg.ackNum <;> simp

/-- SND.UNA after a segment: its acknowledgment number if it counts and is ahead. -/
theorem Arrives.sndUna {seen : List (TcpSegment .In)} (h : Arrives seqBase ackBase seen seg conn)
    (A : Application σ) (app : σ) (now : Instant) :
    (handleKnownConn A app seg conn now).conn.sndUna
      = if Counts seg conn ∧ conn.sndUna.precedes seg.ackNum = true then seg.ackNum
        else conn.sndUna := by
  have hsync : conn.tcpState ≠ .SynReceived := by
    obtain ⟨est, hst⟩ := ConnState.name_eq_established h.name
    rw [hst]
    nofun
  rw [handleKnownConn_sndUna, ConnState.unaAfter_synced hsync,
    if_congr (and_congr_left' h.counts_iff) rfl rfl]
  unfold ConnState.ackedUna
  cases conn.takesAck seg <;> cases conn.ackInRange seg.ackNum <;> simp

/-- SND.UNA is passed exactly by a later acknowledgment. -/
theorem Arrives.precedes_iff {seen : List (TcpSegment .In)} {a : TcpSegment .In}
    (h : Arrives seqBase ackBase seen seg conn) (hspan : InSpan seqBase ackBase seg)
    (ha : a ∈ seen) (huna : conn.sndUna = a.ackNum) :
    conn.sndUna.precedes seg.ackNum = true ↔ acknowledges ackBase a < acknowledges ackBase seg := by
  rw [huna]
  exact SeqPoint.precedes_iff_dist_lt (h.seen a ha).ackNum hspan.ackNum

/-- **One segment keeps the latest**, whether it counts or not. -/
theorem Arrives.keepsFresh {seen : List (TcpSegment .In)}
    (h : Arrives seqBase ackBase seen seg conn) (A : Application σ) (app : σ) (now : Instant) :
    Fresh seqBase ackBase (seen ++ if Counts seg conn then [seg] else [])
      (handleKnownConn A app seg conn now).conn := by
  obtain ⟨a, ha, hw⟩ := h.fresh.window
  obtain ⟨b, hb, huna⟩ := h.fresh.sndUna
  by_cases hcounts : Counts seg conn
  -- a segment that does not count changes neither
  case neg =>
    rw [if_neg hcounts, List.append_nil]
    refine ⟨⟨a, ha, ?_⟩, b, hb, ?_⟩
    · rw [h.window hw, if_neg (fun hc => hcounts hc.1)]
    · rw [h.sndUna, if_neg (fun hc => hcounts hc.1), huna]
  -- a segment that counts: the guard and the comparison with SND.UNA are comparisons of ages
  case pos =>
    have hspan := h.inSpan hcounts.1
    have hguard := WindowState.staleGuard_iff (h.seen a ha.mem) hspan
    have hprec := h.precedes_iff hspan hb.mem huna
    rw [if_pos hcounts]
    constructor
    · rw [h.window hw]
      by_cases hlate : age seqBase ackBase a ≤ age seqBase ackBase seg
      · exact ⟨seg, ha.newer hlate, by rw [if_pos ⟨hcounts, hguard.mpr hlate⟩]⟩
      · exact ⟨a, ha.older (le_of_not_ge hlate), by rw [if_neg (fun hc => hlate (hguard.mp hc.2))]⟩
    · rw [h.sndUna]
      by_cases hlate : acknowledges ackBase b < acknowledges ackBase seg
      · exact ⟨seg, hb.newer (le_of_lt hlate), by rw [if_pos ⟨hcounts, hprec.mpr hlate⟩]⟩
      · exact ⟨b, hb.older (not_lt.mp hlate),
          by rw [if_neg (fun hc => hlate (hprec.mp hc.2)), huna]⟩

/-- **An older segment changes nothing**: neither the window, if it is older than one that
    counted, nor SND.UNA, if one acknowledged as much. -/
theorem Arrives.older {seen : List (TcpSegment .In)} (h : Arrives seqBase ackBase seen seg conn)
    (hspan : InSpan seqBase ackBase seg) (A : Application σ) (app : σ) (now : Instant) :
    (∀ a ∈ seen, age seqBase ackBase seg < age seqBase ackBase a →
      (handleKnownConn A app seg conn now).conn.tcpState.window = conn.tcpState.window) ∧
    ∀ a ∈ seen, acknowledges ackBase seg ≤ acknowledges ackBase a →
      (handleKnownConn A app seg conn now).conn.sndUna = conn.sndUna := by
  constructor
  · intro c hc holder
    obtain ⟨a, ha, hw⟩ := h.fresh.window
    rw [h.window hw, if_neg, hw]
    rintro ⟨-, hguard⟩
    rw [WindowState.staleGuard_iff (h.seen a ha.mem) hspan] at hguard
    exact absurd (ha.le c hc) (not_le.mpr (lt_of_le_of_lt hguard holder))
  · intro c hc holder
    obtain ⟨b, hb, huna⟩ := h.fresh.sndUna
    rw [h.sndUna, if_neg]
    rintro ⟨-, hprec⟩
    rw [h.precedes_iff hspan hb.mem huna] at hprec
    exact absurd (hb.le c hc) (not_le.mpr (lt_of_lt_of_le hprec holder))

/-! ### One event -/

/-- The ACK or FIN-ACK that an event delivers. -/
def ConnEvent.acks : ConnEvent → List (TcpSegment .In)
  | .segment seg _ => if seg.flags = .Ack ∨ seg.flags = .FinAck then [seg] else []
  | .retransmit _ _ | .close _ => []

/-- The segment of an event, if it counts when it is processed. -/
def ConnState.counted (conn : ConnState) : ConnEvent → List (TcpSegment .In)
  | .segment seg _ => if Counts seg conn then [seg] else []
  | .retransmit _ _ | .close _ => []

/-- An ACK or FIN is among the acknowledgments of its event. -/
theorem ConnEvent.mem_acks (hflags : seg.flags = .Ack ∨ seg.flags = .FinAck) (now : Instant) :
    seg ∈ (ConnEvent.segment seg now).acks := by
  rw [acks, if_pos hflags]
  exact List.mem_singleton_self seg

/-- What counts is an ACK or FIN-ACK. -/
theorem ConnState.counted_subset (conn : ConnState) (ev : ConnEvent) :
    ∀ seg ∈ conn.counted ev, seg ∈ ev.acks := by
  intro seg hseg
  cases ev with
  | segment seg' now =>
    rw [counted] at hseg
    split at hseg
    case isTrue hcounts =>
      obtain rfl := List.mem_singleton.mp hseg
      exact ConnEvent.mem_acks hcounts.1 now
    case isFalse => cases hseg
  | retransmit | close => cases hseg

/-- The connection is fresh, and the range in flight is bounded. -/
structure FreshInv (seqBase : SeqPoint .In) (ackBase : SeqPoint .Out)
    (seen : List (TcpSegment .In)) (conn : ConnState) : Prop where
  fresh : Fresh seqBase ackBase seen conn
  inFlight : InFlightInv conn

/-- **One event** of a connection in ESTABLISHED. -/
theorem FreshInv.step {seen : List (TcpSegment .In)} (h : FreshInv seqBase ackBase seen conn)
    (hname : conn.name = some .Established) (hseen : ∀ a ∈ seen, InSpan seqBase ackBase a)
    (hspan : ∀ a ∈ ev.acks, InSpan seqBase ackBase a)
    (hs : (conn.step A rto maxRetries app ev).conn = some conn') :
    FreshInv seqBase ackBase (seen ++ conn.counted ev) conn' := by
  have hmove := ConnState.step_move hs
  cases ev with
  | segment seg now =>
    have harrives : Arrives seqBase ackBase seen seg conn :=
      { name := hname
        fresh := h.fresh
        inFlight := h.inFlight.sending (by rw [hname]; decide)
        seen := hseen
        inSpan := fun hflags => hspan seg (ConnEvent.mem_acks hflags now) }
    refine ⟨?_, h.inFlight.step (harrives.unambiguous now) hs⟩
    obtain ⟨rfl, -⟩ := ConnState.step_recvMove hs
    exact harrives.keepsFresh A app now
  | retransmit now late =>
    have hinFlight : InFlightInv conn' := by
      refine h.inFlight.step ?_ hs
      nofun
    obtain ⟨out, hout⟩ : ∃ out, conn.step A rto maxRetries app (.retransmit now late) = out :=
      ⟨_, rfl⟩
    rw [hout] at hmove
    rw [ConnState.counted, List.append_nil]
    cases hmove with
    | retransmit => exact ⟨⟨h.fresh.window, h.fresh.sndUna⟩, hinFlight⟩
  | close now =>
    have hinFlight : InFlightInv conn' := by
      refine h.inFlight.step ?_ hs
      nofun
    obtain ⟨out, hout⟩ : ∃ out, conn.step A rto maxRetries app (.close now) = out := ⟨_, rfl⟩
    rw [hout] at hmove
    rw [ConnState.counted, List.append_nil]
    cases hmove with
    | close hst =>
      refine ⟨⟨?_, h.fresh.sndUna⟩, hinFlight⟩
      obtain ⟨a, ha, hw⟩ := h.fresh.window
      rw [hst] at hw
      exact ⟨a, ha, hw⟩
    | closeIdle => exact ⟨h.fresh, hinFlight⟩

/-- **The handshake** is the first segment that counts. -/
theorem freshInv_handshake (hdone : conn.completesHandshake seg = true)
    (hnxt : conn.sndNxt = conn.sndUna + SYN_BYTE)
    (hs : (conn.step A rto maxRetries app (.segment seg now)).conn = some conn') :
    FreshInv seqBase ackBase [seg] conn' := by
  obtain ⟨hst, -⟩ := ConnState.completesHandshake_iff.mp hdone
  have hname := ConnState.name_eq_none.mpr hst
  have hfl : conn.inFlight = 1 := by
    unfold ConnState.inFlight
    rw [hnxt]
    exact SeqPoint.dist_self_add _ 1
  have hinv : InFlightInv conn := ⟨fun _ => hnxt, fun _ => by omega, by omega⟩
  have hunambiguous : Unambiguous conn (.segment seg now) := by
    rintro _ _ ⟨⟩ ⟨htakes, -⟩
    simp [ConnState.takesAck, hst] at htakes
  refine ⟨?_, hinv.step hunambiguous hs⟩
  obtain ⟨rfl, -⟩ := ConnState.step_recvMove hs
  refine ⟨⟨seg, isLatest_singleton _ seg, ?_⟩, seg, isLatest_singleton _ seg, ?_⟩
  · exact handleKnownConn_window_handshake hdone hnxt A app now
  · rw [handleKnownConn_sndUna]
    unfold ConnState.unaAfter ConnState.acceptsAck
    rw [hdone]
    rfl

/-! ### A whole run -/

/-- The ACK or FIN-ACK that an event delivers to the connection of `key`. -/
def HostEvent.acksAt (key : ConnKey) (e : HostEvent σ) : List (TcpSegment .In) :=
  match e.at key with
  | some ev => ev.acks
  | none => []

/-- The segment that an event delivers to the connection of `key`, if it counts when it is
    processed. -/
def Host.countedAt (key : ConnKey) (h : Host σ) (e : HostEvent σ) : List (TcpSegment .In) :=
  match h.get key, e.at key with
  | some conn, some ev => conn.counted ev
  | _, _ => []

/-- The segments of the events that count when they are processed, in order. -/
def countedIn (A : Application σ) (key : ConnKey) :
    Host σ → List (HostEvent σ) → List (TcpSegment .In)
  | _, [] => []
  | h, e :: es => h.countedAt key e ++ countedIn A key (h.step A e) es

/-- The event finds the connection of `key` in ESTABLISHED. -/
def InEstablished (key : ConnKey) (h : Host σ) (_ : HostEvent σ) : Prop :=
  ∃ conn, h.get key = some conn ∧ conn.name = some .Established

/-- The last event counts last. -/
theorem countedIn_snoc (key : ConnKey) (h : Host σ) (es : List (HostEvent σ)) (e : HostEvent σ) :
    countedIn A key h (es ++ [e])
      = countedIn A key h es ++ (es.foldl (Host.step A) h).countedAt key e := by
  induction es generalizing h with
  | nil => simp [countedIn]
  | cons d es ih =>
    rw [List.cons_append, countedIn, countedIn, ih, List.append_assoc]
    rfl

/-- What counts has been delivered. -/
theorem Host.countedAt_subset (key : ConnKey) (h : Host σ) (e : HostEvent σ) :
    ∀ seg ∈ h.countedAt key e, seg ∈ e.acksAt key := by
  intro seg hseg
  unfold countedAt at hseg
  unfold HostEvent.acksAt
  cases hget : h.get key with
  | none => rw [hget] at hseg; cases hseg
  | some conn =>
    cases hev : e.at key with
    | none => rw [hget, hev] at hseg; cases hseg
    | some ev =>
      rw [hget, hev] at hseg
      exact conn.counted_subset ev seg hseg

/-- What counts has come. -/
theorem countedIn_subset (key : ConnKey) (h : Host σ) (es : List (HostEvent σ)) :
    ∀ seg ∈ countedIn A key h es, seg ∈ es.flatMap (HostEvent.acksAt key) := by
  induction es generalizing h with
  | nil => exact fun seg hseg => hseg
  | cons e es ih =>
    intro seg hseg
    rw [List.flatMap_cons]
    rcases List.mem_append.mp hseg with hseg | hseg
    · exact List.mem_append_left _ (h.countedAt_subset key e seg hseg)
    · exact List.mem_append_right _ (ih _ seg hseg)

/-- **One event of the table.** -/
theorem FreshInv.hostStep {key : ConnKey} {h : Host σ} {e : HostEvent σ}
    {seen : List (TcpSegment .In)} (hinv : FreshInv seqBase ackBase seen conn)
    (hconn : h.get key = some conn) (hname : conn.name = some .Established)
    (hseen : ∀ a ∈ seen, InSpan seqBase ackBase a)
    (hspan : ∀ a ∈ e.acksAt key, InSpan seqBase ackBase a)
    (hconn' : (h.step A e).get key = some conn') :
    FreshInv seqBase ackBase (seen ++ h.countedAt key e) conn' := by
  have hstep : ∀ ev, e.at key = some ev →
      (conn.step A h.connections.rtoConfig h.connections.maxRetries h.app ev).conn = some conn' →
      FreshInv seqBase ackBase (seen ++ h.countedAt key e) conn' := by
    intro ev hev hs
    unfold Host.countedAt
    rw [hconn, hev]
    refine hinv.step hname hseen (fun a ha => hspan a ?_) hs
    unfold HostEvent.acksAt
    rw [hev]
    exact ha
  have hidle : h.countedAt key e = [] → h.get key = some conn' →
      FreshInv seqBase ackBase (seen ++ h.countedAt key e) conn' := by
    intro hnone hsame
    rw [hnone, List.append_nil, ← Option.some.inj (hconn.symm.trans hsame)]
    exact hinv
  have hentry := (h.step_get e key).2 conn' hconn'
  cases e with
  | segment seg randomU32 now =>
    by_cases hkey : ConnKey.ofSegment seg = key
    · subst hkey
      obtain ⟨-, -, hkeys⟩ := Host.segment_known hconn A randomU32 now
      rw [hkeys, if_pos rfl] at hconn'
      exact hstep _ (if_pos rfl) hconn'
    · have hat : (HostEvent.segment seg randomU32 now : HostEvent σ).at key = none := if_neg hkey
      cases hentry with
      | unchanged hsame => exact hidle (by unfold Host.countedAt; rw [hconn, hat]) hsame
      | stepped hget hev => rw [hat] at hev; cases hev
      | opened hget => rw [hconn] at hget; cases hget
  | retransmit | close | elsewhere =>
    cases hentry with
    | unchanged hsame => exact hidle (by unfold Host.countedAt; rw [hconn]; rfl) hsame
    | stepped hget hev hs =>
      obtain rfl := Option.some.inj (hconn.symm.trans hget)
      exact hstep _ hev hs
    | opened hget => rw [hconn] at hget; cases hget

/-- **Every run** of events that find the connection in ESTABLISHED keeps it fresh. -/
theorem FreshInv.run {key : ConnKey} {h : Host σ} {es : List (HostEvent σ)}
    {seen : List (TcpSegment .In)}
    (hinv : ∀ conn, h.get key = some conn → FreshInv seqBase ackBase seen conn)
    (hest : Runs.Admits (Host.step A) (InEstablished key) h es)
    (hspan : ∀ a ∈ seen ++ es.flatMap (HostEvent.acksAt key), InSpan seqBase ackBase a) :
    ∀ conn, (es.foldl (Host.step A) h).get key = some conn →
      FreshInv seqBase ackBase (seen ++ countedIn A key h es) conn := by
  induction es using List.reverseRecOn with
  | nil => simpa [countedIn] using hinv
  | append_singleton es e ih =>
    rw [List.flatMap_append, List.flatMap_singleton, ← List.append_assoc] at hspan
    have hold : ∀ a ∈ seen ++ es.flatMap (HostEvent.acksAt key), InSpan seqBase ackBase a :=
      fun a ha => hspan a (List.mem_append_left _ ha)
    obtain ⟨conn, hconn, hname⟩ := Runs.admits_iff_prefix.mp hest es e List.prefix_rfl
    have hbefore := ih (hest.of_prefix (List.prefix_append es [e])) hold conn hconn
    intro conn' hconn'
    rw [List.foldl_append] at hconn'
    rw [countedIn_snoc, ← List.append_assoc]
    refine hbefore.hostStep hconn hname (fun a ha => hold a ?_)
      (fun a ha => hspan a (List.mem_append_right _ ha)) hconn'
    rcases List.mem_append.mp ha with ha | ha
    · exact List.mem_append_left _ ha
    · exact List.mem_append_right _ (countedIn_subset key h es a ha)

/-- **Freshest window wins**, in any order of arrival.  After any events that find a connection in
    ESTABLISHED, SND.WND is the window of a segment that is latest, by (SEG.SEQ, SEG.ACK), among
    the one that completed the handshake and all that counted since, and SND.UNA is the greatest
    of their acknowledgment numbers; an older segment changes neither. -/
theorem freshest_window (A : Application σ) (app : σ) (initialRto : Duration) (maxRetries : UInt8)
    (es₀ : List (HostEvent σ)) (h₀ h : Host σ) (key : ConnKey) (conn₀ : ConnState)
    (first : TcpSegment .In) (randomU32 : TraceableResult UInt32) (now : Instant)
    (es : List (HostEvent σ)) (seqBase : SeqPoint .In) (ackBase : SeqPoint .Out)
    (hrun : Runs.Run (Host.step A) (fun _ _ => True) (Host.new app initialRto maxRetries) es₀ h₀)
    (hkey : ConnKey.ofSegment first = key) (hconn₀ : h₀.get key = some conn₀)
    (hdone : conn₀.completesHandshake first = true)
    (hfirst : h = h₀.step A (.segment first randomU32 now))
    (hest : Runs.Admits (Host.step A) (InEstablished key) h es)
    (hspan : ∀ seg ∈ first :: es.flatMap (HostEvent.acksAt key), InSpan seqBase ackBase seg)
    (conn : ConnState) (hconn : (es.foldl (Host.step A) h).get key = some conn) :
    (∃ seg ∈ first :: countedIn A key h es,
      conn.tcpState.window.map (·.sndWnd) = some seg.window ∧
      ∀ a ∈ first :: countedIn A key h es, age seqBase ackBase a ≤ age seqBase ackBase seg) ∧
    (∃ seg ∈ first :: countedIn A key h es, conn.sndUna = seg.ackNum ∧
      ∀ a ∈ first :: countedIn A key h es, ackBase.dist a.ackNum ≤ ackBase.dist seg.ackNum) ∧
    (conn.name = some .Established → ∀ seg randomU32' now' conn',
      ConnKey.ofSegment seg = key → InSpan seqBase ackBase seg →
      ((es.foldl (Host.step A) h).step A (.segment seg randomU32' now')).get key = some conn' →
      (∀ a ∈ first :: countedIn A key h es, age seqBase ackBase seg < age seqBase ackBase a →
        conn'.tcpState.window = conn.tcpState.window) ∧
      ∀ a ∈ first :: countedIn A key h es, ackBase.dist seg.ackNum ≤ ackBase.dist a.ackNum →
        conn'.sndUna = conn.sndUna) := by
  subst hkey
  have hhalf : HalfInv conn₀ := Host.conn_invariant (G := fun _ _ => True) halfInv_opened
    (fun _ _ _ _ _ _ hp _ hs => hp.step hs) (hrun.imp fun _ _ _ _ _ _ _ _ => trivial) hconn₀
  obtain ⟨hst, -⟩ := ConnState.completesHandshake_iff.mp hdone
  have hopen : ∀ c, h.get (ConnKey.ofSegment first) = some c →
      FreshInv seqBase ackBase [first] c := by
    intro c hc
    obtain ⟨-, -, hkeys⟩ := Host.segment_known hconn₀ A randomU32 now
    rw [hfirst, hkeys, if_pos rfl] at hc
    exact freshInv_handshake hdone (hhalf.handshake (ConnState.name_eq_none.mpr hst)) hc
  have hinv := FreshInv.run hopen hest hspan conn hconn
  obtain ⟨a, ha, hw⟩ := hinv.fresh.window
  obtain ⟨b, hb, huna⟩ := hinv.fresh.sndUna
  refine ⟨⟨a, ha.mem, by rw [hw]; rfl, ha.le⟩, ⟨b, hb.mem, huna, hb.le⟩, ?_⟩
  intro hname seg randomU32' now' conn' hkey hin hconn'
  have harrives : Arrives seqBase ackBase (first :: countedIn A (ConnKey.ofSegment first) h es)
      seg conn :=
    { name := hname
      fresh := hinv.fresh
      inFlight := hinv.inFlight.sending (by rw [hname]; decide)
      seen := by
        intro c hc
        apply hspan
        rcases List.mem_cons.mp hc with rfl | hc
        · exact List.mem_cons_self
        · exact List.mem_cons_of_mem _ (countedIn_subset _ h es c hc)
      inSpan := fun _ => hin }
  rw [← hkey] at hconn hconn'
  obtain ⟨-, -, hkeys⟩ := Host.segment_known hconn A randomU32' now'
  rw [hkeys, if_pos rfl] at hconn'
  obtain ⟨rfl, -⟩ := ConnState.step_recvMove hconn'
  exact harrives.older hin A _ now'

/-- "hi" with a window of ten bytes completes the handshake. -/
def CLIENT_HI_NARROW : TcpSegment .In := { CLIENT_HI with window := 10 }

/-- The acknowledgment of both bytes of the answer overtakes that of the first byte. -/
def reorderedAcks : List (HostEvent ServerApp) :=
  [.segment { CLIENT_PKT with
      seqNum := CLIENT_ISN + 3, ackNum := SERVER_ISN + 3, window := 20 } (.ok 0) ⟨2⟩,
    .segment { CLIENT_PKT with
      seqNum := CLIENT_ISN + 3, ackNum := SERVER_ISN + 2, window := 5 } (.ok 0) ⟨3⟩]

/-- The overtaken acknowledgment does not bring its window back. -/
theorem freshest_window_reordered :
    ∃ h, h = (synEvents.foldl (Host.step ServerApp.application)
        (Host.new .Echo 1000000000 3)).step ServerApp.application
          (.segment CLIENT_HI_NARROW (.ok 0) ⟨1⟩) ∧
      ∃ conn, (reorderedAcks.foldl (Host.step ServerApp.application) h).get KEY = some conn ∧
        ∃ seg ∈ CLIENT_HI_NARROW :: countedIn ServerApp.application KEY h reorderedAcks,
          conn.tcpState.window.map (·.sndWnd) = some seg.window ∧
          ∀ a ∈ CLIENT_HI_NARROW :: countedIn ServerApp.application KEY h reorderedAcks,
            age CLIENT_ISN SERVER_ISN a ≤ age CLIENT_ISN SERVER_ISN seg := by
  let h₀ := synEvents.foldl (Host.step ServerApp.application) (Host.new .Echo 1000000000 3)
  let h := h₀.step ServerApp.application (.segment CLIENT_HI_NARROW (.ok 0) ⟨1⟩)
  have hdone : (h₀.get KEY).map (fun conn => conn.completesHandshake CLIENT_HI_NARROW)
      = some true := by decide
  obtain ⟨conn₀, hconn₀, hdone⟩ := Option.map_eq_some_iff.mp hdone
  have hnames : ∀ es' ∈ reorderedAcks.inits, ((es'.foldl (Host.step ServerApp.application)
      h).get KEY).map ConnState.name = some (some .Established) := by decide
  have hest : ∀ es', es' <+: reorderedAcks → ∃ conn, (es'.foldl (Host.step ServerApp.application)
      h).get KEY = some conn ∧ conn.name = some .Established := fun es' hpre =>
    Option.map_eq_some_iff.mp (hnames es' (List.mem_inits es' _ |>.mpr hpre))
  obtain ⟨conn, hconn, -⟩ := hest reorderedAcks List.prefix_rfl
  have hspan : ∀ seg ∈ CLIENT_HI_NARROW :: reorderedAcks.flatMap (HostEvent.acksAt KEY),
      CLIENT_ISN.dist seg.seqNum < 2 ^ 31 ∧ SERVER_ISN.dist seg.ackNum < 2 ^ 31 := by decide
  refine ⟨h, rfl, conn, hconn, (freshest_window ServerApp.application .Echo 1000000000 3 synEvents
    h₀ h KEY conn₀ CLIENT_HI_NARROW (.ok 0) ⟨1⟩ reorderedAcks CLIENT_ISN SERVER_ISN
    (.of_foldl _ _) rfl hconn₀ hdone rfl ?_ (fun seg hseg => ⟨(hspan seg hseg).1,
      (hspan seg hseg).2⟩) conn hconn).1⟩
  exact Runs.admits_iff_prefix.mpr fun es' e hpre =>
    hest es' ((List.prefix_append es' [e]).trans hpre)

end Typenet
