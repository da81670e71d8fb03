import Typenet.Lib.Refinement
import Typenet.Table.BlindSegments
import Typenet.Table.WireLog

namespace Typenet

/-!
# Keys without a connection

A connection is opened by a SYN and by nothing else.  Until one arrives, a key has no state: every
segment for it that is not a reset is answered by one reset, which is read off that segment alone,
and no sweep sends anything for it.

* `closed_until_syn` — the exact answers for such a key, over any stretch of events;
* `Host.exists_opens` — so whatever is in a table has been opened by a SYN.
-/

variable {σ : Type} {A : Application σ}

/-- A host as a machine that answers an event by the segments it emits. -/
def Host.act (A : Application σ) (h : Host σ) (e : HostEvent σ) :
    List (TcpSegment .Out) × Host σ := (h.emitted A e, h.step A e)

/-- The segment that arrives with an event. -/
def HostEvent.incoming : HostEvent σ → Option (TcpSegment .In)
  | .segment seg _ _ => some seg
  | .retransmit _ _ | .close _ _ | .elsewhere _ => none

/-- The event is a SYN for `key`. -/
def HostEvent.Opens (e : HostEvent σ) (key : ConnKey) : Prop :=
  ∃ seg, e.incoming = some seg ∧ ConnKey.ofSegment seg = key ∧ seg.flags = .Syn

/-! ### Answers without a connection -/

/-- The answer to a segment of no connection, unless it is a SYN: a reset, and none to a reset. -/
def resetFor (key : ConnKey) (seg : TcpSegment .In) : List (TcpSegment .Out) :=
  if ConnKey.ofSegment seg = key ∧ ¬ IsRst seg then [key.outgoing (SendInfo.rst seg)] else []

/-- A segment without a connection is answered by its reset and leaves the table alone. -/
theorem TcpConnections.handleUnknownConn_closed (self : TcpConnections) {seg : TcpSegment .In}
    (h : seg.flags ≠ .Syn) (key : ConnKey) (randomU32 : TraceableResult UInt32) (now : Instant) :
    self.handleUnknownConn seg key randomU32 now
      = (.ok (if IsRst seg then none else some (SendInfo.rst seg)), self) := by
  by_cases hrst : IsRst seg
  · rw [if_pos hrst]
    rcases hrst with hflags | hflags <;> simp only [handleUnknownConn, hflags]
  · rw [if_neg hrst]
    unfold IsRst at hrst
    unfold handleUnknownConn
    split
    case h_1 hflags => exact absurd hflags h
    case h_2 hflags => exact absurd (.inl hflags) hrst
    case h_3 hflags => exact absurd (.inr hflags) hrst
    all_goals rfl

variable {key : ConnKey} {h : Host σ}

/-- An event that is no SYN for a key without a connection opens none, and is answered by a reset
    if it is a segment for the key. -/
theorem Host.step_closed (hget : h.get key = none) {e : HostEvent σ} (hno : ¬ e.Opens key) :
    (h.step A e).get key = none ∧
      segmentsOf key (h.emitted A e) = e.incoming.toList.flatMap (resetFor key) := by
  cases e with
  | segment seg randomU32 now =>
    have hsent := h.segmentsOf_emitted (A := A) seg randomU32 now key
    simp only [HostEvent.incoming, Option.toList_some, List.flatMap_singleton]
    unfold resetFor
    by_cases hk : ConnKey.ofSegment seg = key
    · have hflags : seg.flags ≠ .Syn := fun hsyn => hno ⟨seg, rfl, hk, hsyn⟩
      subst hk
      have hget' : h.connections.get (ConnKey.ofSegment seg) = none := hget
      have hunknown := h.connections.handleUnknownConn_closed hflags (ConnKey.ofSegment seg)
        randomU32 now
      constructor
      · unfold Host.step Host.get TcpConnections.createReply TcpConnections.decideReply
        simp only [hget', hunknown]
      · rw [hsent, if_pos rfl]
        unfold TcpConnections.decideReply
        simp only [hget', hunknown]
        by_cases hrst : IsRst seg
        · rw [if_pos hrst, if_neg fun hc => hc.2 hrst]
          rfl
        · rw [if_neg hrst, if_pos ⟨trivial, hrst⟩]
          rfl
    · rw [if_neg hk] at hsent
      rw [hsent, if_neg fun hc => hk hc.1]
      exact ⟨(h.segment_other A randomU32 now hk).trans hget, rfl⟩
  | retransmit now late =>
    obtain ⟨-, hafter, hsent⟩ := h.connections.makeRetransmissions_get now late key
    have hnone : h.connections.get key = none := hget
    unfold TcpConnections.resentFor at hsent
    rw [hnone] at hafter hsent
    exact ⟨hafter, hsent⟩
  | close consume now =>
    rcases h.close_cases A consume now key with ⟨hafter, hsent⟩ | ⟨conn, -, -, hconn, -⟩
    · exact ⟨hafter.trans hget, hsent⟩
    · cases hget.symm.trans hconn
  | elsewhere app => exact ⟨hget, rfl⟩

/-- Without a SYN no connection is opened. -/
theorem Host.get_closed (hget : h.get key = none) {es : List (HostEvent σ)}
    (hno : ∀ e ∈ es, ¬ e.Opens key) : (es.foldl (Host.step A) h).get key = none := by
  induction es generalizing h with
  | nil => exact hget
  | cons e es ih =>
    have hclosed := (Host.step_closed (A := A) hget (hno e List.mem_cons_self)).1
    exact ih hclosed fun e' he' => hno e' (List.mem_cons_of_mem _ he')

/-- **Without a SYN there is no connection.**  Over any events without a SYN for a key that has no
    connection, none is opened, and what is sent for the key is one reset for each segment that is
    not a reset itself, in the order in which they arrive. -/
theorem closed_until_syn (A : Application σ) (h : Host σ) (key : ConnKey) (hget : h.get key = none)
    (es : List (HostEvent σ)) (hno : ∀ e ∈ es, ¬ e.Opens key) :
    (es.foldl (Host.step A) h).get key = none ∧
      segmentsOf key (Mealy.outputs (Host.act A) es h)
        = (es.filterMap HostEvent.incoming).flatMap (resetFor key) := by
  refine ⟨Host.get_closed hget hno, ?_⟩
  induction es generalizing h with
  | nil => rfl
  | cons e es ih =>
    obtain ⟨hclosed, hsent⟩ := Host.step_closed (A := A) hget (hno e List.mem_cons_self)
    have hrest := ih (h.step A e) hclosed fun e' he' => hno e' (List.mem_cons_of_mem _ he')
    rw [Mealy.outputs_cons, segmentsOf_append]
    refine (congrArg₂ (· ++ ·) hsent hrest).trans ?_
    cases hin : e.incoming with
    | none =>
      rw [List.filterMap_cons_none hin]
      rfl
    | some seg =>
      rw [List.filterMap_cons_some hin, List.flatMap_cons]
      simp

/-- Data without a connection is reset, and a sweep sends nothing. -/
theorem closed_until_syn_hi :
    segmentsOf KEY (Mealy.outputs (Host.act ServerApp.application)
      [.segment CLIENT_HI (.ok 400) ⟨1⟩, .retransmit ⟨3000000000⟩ ⟨0⟩]
      (Host.new .Echo 1000000000 3)) = [KEY.outgoing (SendInfo.rst CLIENT_HI)] := by
  have hno : ∀ e ∈ [.segment CLIENT_HI (.ok 400) ⟨1⟩, .retransmit ⟨3000000000⟩ ⟨0⟩],
      ¬ HostEvent.Opens (σ := ServerApp) e KEY := by
    rintro e he ⟨seg, hin, -, hsyn⟩
    rcases List.mem_cons.mp he with rfl | he
    · obtain rfl := Option.some.inj hin
      cases hsyn
    · rw [List.mem_singleton.mp he] at hin
      cases hin
  exact (closed_until_syn ServerApp.application (Host.new .Echo 1000000000 3) KEY rfl _ hno).2

/-! ### Where connections come from -/

/-- A connection that is there now, and was not before, has been opened by a SYN. -/
theorem Host.exists_opens {conn : ConnState} (hget : h.get key = none) {es : List (HostEvent σ)}
    (hconn : (es.foldl (Host.step A) h).get key = some conn) : ∃ e ∈ es, e.Opens key := by
  by_contra hno
  have hclosed := Host.get_closed (A := A) hget fun e he hopens => hno ⟨e, he, hopens⟩
  cases hclosed.symm.trans hconn

end Typenet
