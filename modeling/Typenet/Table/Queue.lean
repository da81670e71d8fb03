import Mathlib.Algebra.GroupWithZero.Nat
import Typenet.Table.InFlight
import Typenet.Lib.Tiling

namespace Typenet

/-!
# The retransmission queue

Positions in the sequence space wrap, so the invariant unwraps them: `QueueInv` gives every
pending segment a natural number as its position from some base point, and says that the
spans so obtained are what `Tiling.Awaits` describes, a gapless run of intervals from the one
that holds SND.UNA up to SND.NXT.  New segments push an interval at the end, acknowledgments
prune at the front.

The condition on runs is the one the code states for its comparisons: no acknowledgment
arrives from exactly half the circle away.
-/

open Tiling (Tiles Awaits)

variable {σ : Type} {A : Application σ} {rto : RtoConfig} {maxRetries : UInt8} {app : σ}
  {conn conn' : ConnState} {ev : ConnEvent} {seg : TcpSegment .In} {now : Instant}
  {base : SeqPoint .Out} {x y b : Nat} {z : List (PendingSegment × Nat)}

/-- No acknowledgment arrives from the antipode of SND.NXT. -/
def NotAntipodal (conn : ConnState) (ev : ConnEvent) : Prop :=
  ∀ seg now, ev = .segment seg now → conn.sndNxt.dist seg.ackNum ≠ 2 ^ 31

theorem NotAntipodal.unambiguous (h : NotAntipodal conn ev) : Unambiguous conn ev := by
  rintro seg now rfl ⟨-, -, hanti⟩
  apply h seg now rfl
  rw [hanti, SeqPoint.dist_self_add]
  rfl

/-! ### Positions -/

/-- The distance between two unwrapped positions, the later one second. -/
theorem dist_positions_le {m n : Nat} (h : m ≤ n) (hlt : n - m < 2 ^ 32) :
    (base + m).dist (base + n) = n - m := by
  rw [SeqPoint.dist_eq base, SeqPoint.dist_self_add, SeqPoint.dist_self_add]
  omega

/-- The distance between two unwrapped positions, the later one first. -/
theorem dist_positions_gt {m n : Nat} (h : n < m) (hlt : m - n < 2 ^ 32) :
    (base + m).dist (base + n) = 2 ^ 32 - (m - n) := by
  rw [SeqPoint.dist_eq base, SeqPoint.dist_self_add, SeqPoint.dist_self_add]
  omega

/-- The interval that a pending segment at position `e.2` covers. -/
def span (e : PendingSegment × Nat) : Nat × Nat := (e.2, e.2 + e.1.sendInfo.consumed)

/-- The segment really is at that position, and its size is that of one packet. -/
structure At (base : SeqPoint .Out) (e : PendingSegment × Nat) : Prop where
  start : e.1.sendInfo.seqNum = base + e.2
  stop : e.1.endSeq = base + (e.2 + e.1.sendInfo.consumed)
  pos : 1 ≤ e.1.sendInfo.consumed
  le : e.1.sendInfo.consumed ≤ 1461

/-! ### The invariant -/

/-- The pending segments `z`, with positions from `base`, await everything from SND.UNA at
    `x` up to SND.NXT at `b`. -/
structure QueueAt (base : SeqPoint .Out) (x b : Nat) (z : List (PendingSegment × Nat))
    (una nxt : SeqPoint .Out) (pending : List PendingSegment) : Prop where
  pending : pending = z.map (·.1)
  awaits : Awaits x (z.map span) b
  una : una = base + x
  nxt : nxt = base + b
  placed : ∀ e ∈ z, At base e

/-- The queue of a synchronized connection has such positions. -/
def QueueInv (conn : ConnState) : Prop :=
  conn.name ≠ none → ∃ base x b z,
    QueueAt base x b z conn.sndUna conn.sndNxt conn.pending ∧ b ≤ x + 65536

/-- A pending segment is covered by an acknowledgment inside the range in flight exactly when
    its span ends there or before. -/
theorem isCoveredBy_iff {e : PendingSegment × Nat} (he : At base e) (hy : y ≤ x + 65536)
    (hend : (span e).2 ≤ x + 65536) (hx : x < (span e).2) (hxy : x ≤ y) :
    e.1.isCoveredBy (base + y) = !decide (y < (span e).2) := by
  have hcons := he.stop
  unfold span at hend hx ⊢
  simp only at hend hx ⊢
  rw [PendingSegment.isCoveredBy, hcons, Bool.eq_iff_iff, SeqPoint.precedesOrEq_iff,
    Bool.not_eq_true', decide_eq_false_iff_not]
  rcases Nat.lt_or_ge y (e.2 + e.1.sendInfo.consumed) with h | h
  · rw [dist_positions_gt h (by omega)]
    omega
  · rw [dist_positions_le h (by omega)]
    omega

/-- The spans of the segments that an acknowledgment up to `y` does not cover. -/
theorem QueueAt.prune {una nxt : SeqPoint .Out} {pending : List PendingSegment}
    (h : QueueAt base x b z una nxt pending) (hle : b ≤ x + 65536) (hxy : x ≤ y) (hyb : y ≤ b) :
    QueueAt base y b (z.filter fun e => decide (y < (span e).2)) (base + y) nxt
      (pending.filter fun p => !p.isCoveredBy (base + y)) where
  pending := by
    rw [h.pending, List.filter_map]
    refine congrArg _ (List.filter_congr fun e he => ?_)
    -- spans that await an acknowledgment lie where the circle orders them as the numbers do
    obtain ⟨hx, hb⟩ := h.awaits.bounds (span e) (List.mem_map_of_mem he)
    simp only [Function.comp_apply]
    rw [isCoveredBy_iff (h.placed e he) (by omega) (by omega) hx hxy, Bool.not_not]
  awaits := by
    have hprune := h.awaits.prune hxy hyb
    rw [List.filter_map] at hprune
    exact hprune
  una := rfl
  nxt := h.nxt
  placed e he := h.placed e (List.mem_filter.mp he).1

/-- **A segment pushed to the queue** extends it at its end. -/
theorem QueueAt.push {una nxt : SeqPoint .Out} {pending : List PendingSegment} {info : SendInfo}
    (now : Instant) (h : QueueAt base x b z una nxt pending) (hseq : info.seqNum = nxt)
    (hpos : 1 ≤ info.consumed) (hmax : info.consumed ≤ 1461) :
    QueueAt base x (b + info.consumed) (z ++ [(PendingSegment.new info now, b)]) una
      (nxt + info.consumed) (pending ++ [PendingSegment.new info now]) where
  pending := by rw [h.pending, List.map_append]; rfl
  awaits := by
    rw [List.map_append]
    exact h.awaits.push (Nat.lt_add_of_pos_right hpos)
  una := h.una
  nxt := by rw [h.nxt, SeqPoint.add_assoc]
  placed e he := by
    rcases List.mem_append.mp he with hmem | hnew
    · exact h.placed e hmem
    · obtain rfl := List.mem_singleton.mp hnew
      have hstart : info.seqNum = base + b := hseq.trans h.nxt
      refine ⟨hstart, ?_, hpos, hmax⟩
      rw [PendingSegment.new_endSeq, hstart, SeqPoint.add_assoc]; rfl

/-- The number of sequence numbers in flight. -/
theorem QueueAt.inFlight {una nxt : SeqPoint .Out} {pending : List PendingSegment}
    (h : QueueAt base x b z una nxt pending) (hlt : b - x < 2 ^ 32) : una.dist nxt = b - x := by
  rw [h.una, h.nxt, dist_positions_le h.awaits.le hlt]

/-! ### Steps -/

/-- Taking an acknowledgment prunes the queue. -/
theorem QueueInv.ack {una : SeqPoint .Out} {pend : List PendingSegment} (h : QueueInv conn)
    (hfl : InFlightInv conn) (hg : Unambiguous conn (.segment seg now))
    (hack : AckStage seg conn una pend) :
    ∃ base x b z, QueueAt base x b z una conn.sndNxt pend ∧ b ≤ x + 65536 := by
  cases hack with
  | handshake hst h1 h2 =>
    -- everything is acknowledged: positions start afresh from SND.NXT
    have hack := handshake_ack (hfl.handshake (ConnState.name_eq_none.mpr hst)) h1 h2
    refine ⟨conn.sndNxt, 0, 0, [], ⟨rfl, .inl ⟨rfl, rfl⟩, ?_, ?_, nofun⟩, by omega⟩
    · rw [hack, SeqPoint.add_zero]
    · rw [SeqPoint.add_zero]
  | update htakes =>
    have hname : conn.name ≠ none := by
      intro hn
      rw [ConnState.takesAck, ConnState.name_eq_none.mp hn] at htakes
      cases htakes
    obtain ⟨base, x, b, z, hq, hle⟩ := h hname
    unfold ConnState.ackedUna ConnState.ackedPending
    split
    case isFalse => exact ⟨base, x, b, z, hq, hle⟩
    case isTrue hcond =>
      have hin := hq.inFlight (by omega)
      have hcases := conn.ackedUna_cases seg.ackNum (by
        unfold ConnState.inFlight; omega)
      rw [ConnState.ackedUna, if_pos hcond] at hcases
      -- the acknowledgment is inside the range in flight, for the antipodal one is excluded
      rcases hcases with ⟨heq, hanti⟩ | ⟨hd, -⟩
      · exact absurd ⟨htakes, heq, hanti⟩ (hg seg now rfl)
      · have hack : seg.ackNum = base + (x + conn.sndUna.dist seg.ackNum) := by
          rw [← SeqPoint.add_assoc, ← hq.una, SeqPoint.add_dist]
        unfold ConnState.inFlight at hd
        have hxb := hq.awaits.le
        have hprune := hq.prune (y := x + conn.sndUna.dist seg.ackNum) hle (by omega) (by omega)
        rw [← hack] at hprune
        exact ⟨base, _, b, _, hprune, by omega⟩

/-- Pushing a segment after an acknowledgment, when the result is still bounded. -/
theorem QueueInv.sent {una nxt : SeqPoint .Out} {pend : List PendingSegment} {info : SendInfo}
    (now : Instant) (h : ∃ base x b z, QueueAt base x b z una nxt pend ∧ b ≤ x + 65536)
    (hseq : info.seqNum = nxt) (hpos : 1 ≤ info.consumed) (hmax : info.consumed ≤ 1461)
    (hfl : una.dist (nxt + info.consumed) ≤ 65536) :
    ∃ base x b z, QueueAt base x b z una (nxt + info.consumed)
      (pend ++ [PendingSegment.new info now]) ∧ b ≤ x + 65536 := by
  obtain ⟨base, x, b, z, hq, hle⟩ := h
  have hpush := hq.push now hseq hpos hmax
  have hin := hpush.inFlight (by omega)
  exact ⟨base, x, _, _, hpush, by omega⟩

/-- **A step of the send side keeps the queue.** -/
theorem QueueInv.sendMove {extra : List UInt8} {reply : Option SendInfo} (h : QueueInv conn)
    (hfl : InFlightInv conn) (hfl' : InFlightInv conn')
    (hg : Unambiguous conn (.segment seg now))
    (hm : SendMove seg now conn extra conn' reply) : QueueInv conn' := by
  intro hname'
  have hany : conn'.sndUna.dist conn'.sndNxt ≤ 65536 := hfl'.any
  cases hm with
  | idle hsame hextra hquiet =>
    have hname : conn'.name = conn.name := congrArg TcpState.name hsame.tcpState
    rw [hsame.sndUna, hsame.sndNxt, hsame.pending]
    exact h (hname ▸ hname')
  | resend hst hextra hinfo hst' => exact absurd (ConnState.name_eq_none.mpr hst') hname'
  | ack hack hshift hsync hextra hcw hnxt =>
    rw [hnxt]
    exact h.ack hfl hg hack
  | @data w pend p info hack hsend hsilent hname hleft hwin htrans hinfo hnxt hpend =>
    have hmax := htrans.le_max
    have hpos := p.len_pos
    have hcons : info.consumed = p.len := by rw [hinfo]; exact Nat.zero_add _
    rw [TcpPayload.lenOrDefault_some] at hmax
    rw [hnxt, ← hcons] at hany ⊢
    rw [hpend]
    exact QueueInv.sent now (h.ack hfl hg hack) (by rw [hinfo]) (by omega) (by omega) hany
  | @fin w pend p info hack hsend hsilent hname hwin hempty htrans hinfo hnxt hpend =>
    have hmax := htrans.le_max
    have hcons : info.consumed = TcpPayload.lenOrDefault p + FIN_BYTE := by
      rw [hinfo]; exact Nat.add_comm _ _
    have hFIN : FIN_BYTE = 1 := rfl
    rw [hnxt, SeqPoint.add_assoc, ← hcons] at hany ⊢
    rw [hpend]
    exact QueueInv.sent now (h.ack hfl hg hack) (by rw [hinfo]) (by omega) (by omega) hany

/-- Resending a segment changes neither its place nor its size. -/
theorem QueueAt.resend {una nxt : SeqPoint .Out} {pending : List PendingSegment}
    (h : QueueAt base x b z una nxt pending) {f : PendingSegment → PendingSegment}
    (hf : ∀ p, (f p).sendInfo = p.sendInfo ∧ (f p).endSeq = p.endSeq) :
    QueueAt base x b (z.map fun e => (f e.1, e.2)) una nxt (pending.map f) where
  pending := by rw [h.pending, List.map_map, List.map_map]; rfl
  awaits := by
    -- a span depends on what is sent, which resending keeps
    have hspan : span ∘ (fun e : PendingSegment × Nat => (f e.1, e.2)) = span := by
      funext e
      simp only [Function.comp_apply, span, (hf _).1]
    rw [List.map_map, hspan]
    exact h.awaits
  una := h.una
  nxt := h.nxt
  placed e he := by
    obtain ⟨e', he', rfl⟩ := List.mem_map.mp he
    obtain ⟨hstart, hstop, hpos, hmax⟩ := h.placed e' he'
    obtain ⟨hinfo, hend⟩ := hf e'.1
    refine ⟨?_, ?_, ?_, ?_⟩
    · rw [hinfo]; exact hstart
    · rw [hend, hinfo]; exact hstop
    · rw [hinfo]; exact hpos
    · rw [hinfo]; exact hmax

theorem QueueInv.step (h : QueueInv conn) (hfl : InFlightInv conn) (hg : Unambiguous conn ev)
    (hs : (conn.step A rto maxRetries app ev).conn = some conn') : QueueInv conn' := by
  have hfl' := hfl.step hg hs
  have hmove := ConnState.step_move hs
  generalize conn.step A rto maxRetries app ev = out at hmove
  cases hmove with
  | segment hfeed hsend hrecv => exact h.sendMove hfl hfl' hg hsend
  | retransmit hf hresent =>
    intro hname
    obtain ⟨base, x, b, z, hq, hle⟩ := h hname
    exact ⟨base, x, b, _, hq.resend hf, hle⟩
  | @close now est info hst hinfo =>
    intro hname
    have hq := h (by unfold ConnState.name; rw [hst]; nofun)
    have hcons : info.consumed = FIN_BYTE := by rw [hinfo]; rfl
    have hany : conn.sndUna.dist (conn.sndNxt + info.consumed) ≤ 65536 := by
      rw [hcons]; exact hfl'.any
    have hsent := QueueInv.sent now hq (by rw [hinfo]) (by rw [hcons]; decide)
      (by rw [hcons]; decide) hany
    rw [hcons] at hsent
    exact hsent
  | closeIdle => exact h

/-! ### Every run -/

/-- What `QueueAt` says in terms of the circle: the segments of the queue are consecutive, the
    first one holds SND.UNA and the last one ends at SND.NXT, once around at most. -/
structure Covers (una nxt : SeqPoint .Out) (pending : List PendingSegment) : Prop where
  /-- The queue is empty exactly when everything is acknowledged. -/
  nil_iff : pending = [] ↔ una = nxt
  /-- The first segment starts at or before SND.UNA and ends after it. -/
  head : ∀ p ∈ pending.head?, p.sendInfo.seqNum.dist una < p.sendInfo.consumed
  /-- Each segment ends where the next one starts. -/
  chain : pending.IsChain fun p q => p.endSeq = q.sendInfo.seqNum
  last : ∀ p ∈ pending.getLast?, p.endSeq = nxt
  /-- All segments together are as long as the range from the first one to SND.NXT. -/
  total : ∀ p ∈ pending.head?,
    (pending.map fun p => p.sendInfo.consumed).sum = p.sendInfo.seqNum.dist nxt
  /-- Each segment ends as many sequence numbers on as it consumes, and fits a packet. -/
  sizes : ∀ p ∈ pending, p.endSeq = p.sendInfo.seqNum + p.sendInfo.consumed ∧
    1 ≤ p.sendInfo.consumed ∧ p.sendInfo.consumed ≤ 1461

/-- Spans that tile a range belong to consecutive segments. -/
theorem tiles_chain {a : Nat} (h : Tiles a (z.map span) b) (hplaced : ∀ e ∈ z, At base e) :
    ((z.map (·.1)).IsChain fun p q => p.endSeq = q.sendInfo.seqNum) ∧
      (∀ p ∈ (z.map (·.1)).getLast?, p.endSeq = base + b) ∧
      a + ((z.map (·.1)).map fun p => p.sendInfo.consumed).sum = b ∧
      ∀ e ∈ z.head?, e.2 = a := by
  induction z generalizing a with
  | nil =>
    cases h
    exact ⟨.nil, nofun, rfl, nofun⟩
  | cons e z ih =>
    obtain ⟨p, m⟩ := e
    cases h with
    | cons hlt htl =>
      obtain ⟨hchain, hlast, hsum, hhead⟩ := ih htl fun e he =>
        hplaced e (List.mem_cons_of_mem _ he)
      have hp := hplaced (p, m) List.mem_cons_self
      refine ⟨?_, ?_, ?_, ?_⟩
      · cases z with
        | nil => exact .singleton _
        | cons e' z' =>
          refine .cons_cons ?_ hchain
          rw [hp.stop, (hplaced e' (by simp)).start, hhead e' rfl]
      · cases z with
        | nil =>
          cases htl
          intro q hq
          obtain rfl := Option.some.inj hq
          exact hp.stop
        | cons e' z' =>
          intro q hq
          exact hlast q (by rwa [List.map_cons, List.map_cons, List.getLast?_cons_cons] at hq)
      · rw [List.map_cons, List.map_cons, List.sum_cons]
        omega
      · intro e he
        obtain rfl := Option.some.inj he
        rfl

/-- **From positions to the circle.** -/
theorem QueueAt.covers {una nxt : SeqPoint .Out} {pending : List PendingSegment}
    (h : QueueAt base x b z una nxt pending) (hle : b ≤ x + 65536) : Covers una nxt pending := by
  have hsizes : ∀ p ∈ pending, p.endSeq = p.sendInfo.seqNum + p.sendInfo.consumed ∧
      1 ≤ p.sendInfo.consumed ∧ p.sendInfo.consumed ≤ 1461 := by
    intro p hp
    rw [h.pending] at hp
    obtain ⟨e, he, rfl⟩ := List.mem_map.mp hp
    obtain ⟨hstart, hstop, hpos, hmax⟩ := h.placed e he
    exact ⟨by rw [hstop, hstart, SeqPoint.add_assoc], hpos, hmax⟩
  rcases z with _ | ⟨e, z⟩
  · -- nothing is pending: SND.UNA has reached SND.NXT
    have hxb : x = b := h.awaits.nil_iff.mp rfl
    have hnil : pending = [] := h.pending
    have huna : una = nxt := by rw [h.una, h.nxt, hxb]
    subst hnil
    exact ⟨⟨fun _ => huna, fun _ => rfl⟩, nofun, .nil, nofun, nofun, hsizes⟩
  · rcases h.awaits with ⟨hnil, -⟩ | ⟨iv, t, heq, hle', hx, htl⟩
    · cases hnil
    · obtain ⟨rfl, rfl⟩ := List.cons.inj heq
      obtain ⟨hchain, hlast, hsum, -⟩ := tiles_chain htl h.placed
      have he := h.placed e List.mem_cons_self
      have hcons := he.le
      have hxb := h.awaits.le
      have hne : x ≠ b := fun hxb => by cases h.awaits.nil_iff.mpr hxb
      unfold span at hle' hx hsum
      simp only at hle' hx hsum
      refine ⟨⟨fun hnil => ?_, fun huna => ?_⟩, fun p hp => ?_, ?_, ?_, fun p hp => ?_, hsizes⟩
      · rw [h.pending] at hnil; cases hnil
      · have hin := h.inFlight (by omega)
        rw [huna, SeqPoint.dist_self] at hin
        omega
      · rw [h.pending] at hp
        obtain rfl := Option.some.inj hp
        show e.1.sendInfo.seqNum.dist una < e.1.sendInfo.consumed
        rw [he.start, h.una, dist_positions_le hle' (by omega)]
        omega
      · rw [h.pending]; exact hchain
      · rw [h.pending, h.nxt]; exact hlast
      · rw [h.pending] at hp ⊢
        obtain rfl := Option.some.inj hp
        rw [he.start, h.nxt, dist_positions_le (by omega) (by omega)]
        omega

/-- **The retransmission queue tiles the unacknowledged range**, in every run in which no
    acknowledgment comes from the antipode of SND.NXT. -/
theorem queue_tiles_unacknowledged (A : Application σ) (app : σ) (initialRto : Duration)
    (maxRetries : UInt8) (es : List (HostEvent σ)) (h : Host σ)
    (hrun : Runs.Run (Host.step A) (Host.Guard NotAntipodal)
      (Host.new app initialRto maxRetries) es h)
    (key : ConnKey) (conn : ConnState) (hconn : h.get key = some conn)
    (hsync : conn.tcpState ≠ .SynReceived) :
    Covers conn.sndUna conn.sndNxt conn.pending := by
  have hinv : QueueInv conn ∧ InFlightInv conn := Host.conn_invariant
    (P := fun conn => QueueInv conn ∧ InFlightInv conn)
    (fun iss irs now => ⟨fun h => absurd rfl h, inFlightInv_opened iss irs now⟩)
    (fun _ _ _ _ _ _ hp hg hs =>
      ⟨hp.1.step hp.2 hg.unambiguous hs, hp.2.step hg.unambiguous hs⟩) hrun hconn
  obtain ⟨base, x, b, z, hq, hle⟩ := hinv.1 fun hn => hsync (ConnState.name_eq_none.mp hn)
  exact hq.covers hle

/-- Two bytes are answered and the first byte of the answer is acknowledged. -/
def partlyAckedEvents : List (HostEvent ServerApp) :=
  [.segment CLIENT_SYN (.ok 400) ⟨0⟩, .segment CLIENT_HI (.ok 0) ⟨1⟩,
    .segment { CLIENT_FIN with ackNum := SERVER_ISN + 2, flags := .Ack } (.ok 0) ⟨2⟩]

/-- A segment that is partly acknowledged stays queued. -/
theorem queue_tiles_partly_acked :
    ∃ conn, (partlyAckedEvents.foldl (Host.step ServerApp.application)
        (Host.new .Echo 1000000000 3)).get KEY = some conn ∧
      conn.pending ≠ [] ∧ Covers conn.sndUna conn.sndNxt conn.pending := by
  have hlen : ((partlyAckedEvents.foldl (Host.step ServerApp.application)
      (Host.new .Echo 1000000000 3)).get KEY).map
        (fun conn => (conn.name, conn.pending.length)) = some (some .Established, 1) := by
    decide
  obtain ⟨conn, hconn, heq⟩ := Option.map_eq_some_iff.mp hlen
  obtain ⟨hname, hlen⟩ := Prod.mk.inj heq
  have hguard : ∀ n, ∀ seg t u, (∀ e ∈ ((partlyAckedEvents.take n).foldl
      (Host.step ServerApp.application) (Host.new .Echo 1000000000 3)).connections.table.entries,
        e.2.sndNxt.dist seg.ackNum ≠ 2 ^ 31) →
      Host.Guard NotAntipodal ((partlyAckedEvents.take n).foldl (Host.step ServerApp.application)
        (Host.new .Echo 1000000000 3)) (.segment seg u t) := by
    intro n seg t u hall
    apply Host.guard_segment
    intro e he seg' now heq
    obtain ⟨rfl, rfl⟩ := ConnEvent.segment.inj heq
    exact hall e he
  have h := queue_tiles_unacknowledged ServerApp.application .Echo 1000000000 3 partlyAckedEvents _
    (.of_admits ⟨hguard 0 _ _ _ (by decide), hguard 1 _ _ _ (by decide),
      hguard 2 _ _ _ (by decide), trivial⟩) KEY conn hconn
    (fun hst => by rw [ConnState.name_eq_none.mpr hst] at hname; cases hname)
  refine ⟨conn, hconn, fun hnil => ?_, h⟩
  rw [hnil] at hlen
  cases hlen

end Typenet
