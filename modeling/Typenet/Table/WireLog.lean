import Typenet.Table.Sweep

namespace Typenet

/-!
# What goes on the wire

`Host.emitted` is what an event puts on the wire.  A `WireLog` of a run keeps track of it for one
connection: every segment in the retransmission queue, with the instants at which it was sent.  A
segment enters the log when it is queued and goes with its queue entry, every further instant is
that of a sweep at which it is due, and whatever takes up sequence numbers and is not in the log is
not on the wire.

* `exists_logged` — every event can be logged, as it is a sweep that keeps the connection, queues
  one segment at most, or sends nothing of the kind;
* `exists_wireLog` — every run has a log.
-/

variable {σ : Type} {A : Application σ}

/-! ### Segments on the wire -/

/-- The reading of the clock that an event comes with. -/
def HostEvent.clock : HostEvent σ → Option Instant
  | .segment _ _ now => some now
  | .retransmit now _ => some now
  | .close _ now => some now
  | .elsewhere _ => none

namespace Host

/-- The segments that an event puts on the wire.  A closing sweep that fails on the way hands
    nothing over. -/
def emitted (A : Application σ) (h : Host σ) : HostEvent σ → List (TcpSegment .Out)
  | .segment seg randomU32 now =>
    outSegments (h.connections.createReply A h.app seg randomU32 now).1
  | .retransmit now late => (h.connections.makeRetransmissions now late).2
  | .close consume now =>
    match (h.connections.closeEstablished (fun seg => (consume seg).map fun _ => seg) now).2 with
    | .ok list => list
    | .error _ => []
  | .elsewhere _ => []

/-- The retransmission queue of a connection, empty if there is none. -/
def queue (h : Host σ) (key : ConnKey) : List PendingSegment :=
  ((h.get key).map (·.pending)).getD []

/-- The queue of a connection that is there. -/
theorem queue_of_get {h : Host σ} {key : ConnKey} {conn : ConnState} (hget : h.get key = some conn) :
    h.queue key = conn.pending := by
  rw [queue, hget]
  rfl

/-- A missing connection has no queue. -/
theorem queue_of_none {h : Host σ} {key : ConnKey} (hget : h.get key = none) :
    h.queue key = [] := by
  rw [queue, hget]
  rfl

/-- A map of the segments maps what goes out. -/
theorem outSegments_map {α β : Type} (f : α → β) (r : TraceableResult (Option α)) :
    outSegments (r.map fun reply => reply.map f) = (outSegments r).map f := by
  rcases r with e | _ | a <;> rfl

/-- The answer to a segment goes to the connection it came for. -/
theorem segmentsOf_emitted (h : Host σ) (seg : TcpSegment .In)
    (randomU32 : TraceableResult UInt32) (now : Instant) (key : ConnKey) :
    segmentsOf key (h.emitted A (.segment seg randomU32 now))
      = if ConnKey.ofSegment seg = key then
          (outSegments (h.connections.decideReply A h.app seg randomU32 now).1).map key.outgoing
        else [] := by
  have hreply : h.emitted A (.segment seg randomU32 now)
      = (outSegments (h.connections.decideReply A h.app seg randomU32 now).1).map
          (ConnKey.ofSegment seg).outgoing := outSegments_map _ _
  rw [hreply, segmentsOf_outgoing]

/-- A known connection answers with what its handler replies. -/
theorem decideReply_known {h : Host σ} {seg : TcpSegment .In} {conn : ConnState}
    (hget : h.get (ConnKey.ofSegment seg) = some conn) (randomU32 : TraceableResult UInt32)
    (now : Instant) : outSegments (h.connections.decideReply A h.app seg randomU32 now).1
      = (replyOf (SendInfo.handleKnownConn A h.app seg conn now).result).toList := by
  have hget' : h.connections.get (ConnKey.ofSegment seg) = some conn := hget
  unfold TcpConnections.decideReply
  simp only [hget']
  cases (SendInfo.handleKnownConn A h.app seg conn now).result <;> rfl

end Host

/-! ### Logs -/

/-- A segment in the retransmission queue, with the instants at which it has been sent. -/
structure WireEntry where
  segment : PendingSegment
  sentAt : List Instant

namespace WireEntry

/-- A segment that is queued as it is first sent. -/
def new (info : SendInfo) (now : Instant) : WireEntry := ⟨.new info now, [now]⟩

/-- What a sweep that keeps the connection does to an entry: a due segment is sent again. -/
def sweep (rto : RtoConfig) (now late : Instant) (self : WireEntry) : WireEntry :=
  if ConnState.isDue rto now late self.segment then
    ⟨self.segment.retransmitted now, self.sentAt ++ [now]⟩
  else self

/-- A sweep resends an entry if it is due. -/
theorem sweep_segment (rto : RtoConfig) (now late : Instant) (self : WireEntry) :
    (self.sweep rto now late).segment = if ConnState.isDue rto now late self.segment then
      self.segment.retransmitted now else self.segment := by
  unfold sweep
  split <;> rfl

end WireEntry

/-- A segment that takes up no sequence numbers. -/
def TcpSegment.Bare (seg : TcpSegment .Out) : Prop :=
  seg.payload = none ∧ (seg.flags = .Ack ∨ seg.flags = .Rst)

/-- What an event does to the log `l` of a connection. -/
inductive Logged (A : Application σ) (key : ConnKey) (h : Host σ) (e : HostEvent σ)
    (l : List WireEntry) : List WireEntry → Prop
  /-- Nothing is sent that takes up sequence numbers, and nothing is queued. -/
  | quiet {l' : List WireEntry} : l'.Sublist l →
      (∀ seg ∈ segmentsOf key (h.emitted A e), seg.Bare) → Logged A key h e l l'
  /-- A segment is queued, and nothing else can be on the wire. -/
  | queued {kept : List WireEntry} {info : SendInfo} {now : Instant} : kept.Sublist l →
      e.clock = some now → (segmentsOf key (h.emitted A e)).Sublist [key.outgoing info] →
      Logged A key h e l (kept ++ [.new info now])
  /-- A sweep keeps the connection and sends what is due. -/
  | swept {now late : Instant} {conn' : ConnState} : e = .retransmit now late →
      (h.step A e).get key = some conn' →
      segmentsOf key (h.emitted A e) = (l.filter fun entry =>
        ConnState.isDue h.connections.rtoConfig now late entry.segment).map
          (fun entry => key.outgoing entry.segment.sendInfo) →
      Logged A key h e l (l.map (.sweep h.connections.rtoConfig now late))

/-- The events that lead from `h₀` to a host, with the log of one of its connections. -/
inductive WireLog (A : Application σ) (key : ConnKey) (h₀ : Host σ) :
    List (HostEvent σ) → Host σ → List WireEntry → Prop
  | start : WireLog A key h₀ [] h₀ []
  | step {es : List (HostEvent σ)} {h : Host σ} {l l' : List WireEntry} {e : HostEvent σ} :
      WireLog A key h₀ es h l → Logged A key h e l l' →
      l'.map (·.segment) = (h.step A e).queue key → WireLog A key h₀ (es ++ [e]) (h.step A e) l'

/-! ### Every event can be logged -/

variable {key : ConnKey} {h : Host σ} {l : List WireEntry}

/-- An event that neither sends nor queues anything. -/
theorem logged_idle {e : HostEvent σ} (hl : l.map (·.segment) = h.queue key)
    (hqueue : (h.step A e).queue key = h.queue key) (hsent : segmentsOf key (h.emitted A e) = []) :
    ∃ l', Logged A key h e l l' ∧ l'.map (·.segment) = (h.step A e).queue key :=
  ⟨l, .quiet (List.Sublist.refl l) (by simp [hsent]), by rw [hqueue, hl]⟩

/-- An event that at most takes segments out of the queue. -/
theorem logged_quiet {e : HostEvent σ} (hl : l.map (·.segment) = h.queue key)
    (hqueue : ((h.step A e).queue key).Sublist (h.queue key))
    (hsent : ∀ seg ∈ segmentsOf key (h.emitted A e), seg.Bare) :
    ∃ l', Logged A key h e l l' ∧ l'.map (·.segment) = (h.step A e).queue key := by
  rw [← hl] at hqueue
  obtain ⟨l', hsub, heq⟩ := List.sublist_map_iff.mp hqueue
  exact ⟨l', .quiet hsub hsent, heq.symm⟩

/-- An event that takes segments out of the queue and puts one in. -/
theorem logged_queued {e : HostEvent σ} {pend : List PendingSegment} {info : SendInfo}
    {now : Instant} (hl : l.map (·.segment) = h.queue key) (hclock : e.clock = some now)
    (hpend : pend.Sublist (h.queue key))
    (hqueue : (h.step A e).queue key = pend ++ [.new info now])
    (hsent : (segmentsOf key (h.emitted A e)).Sublist [key.outgoing info]) :
    ∃ l', Logged A key h e l l' ∧ l'.map (·.segment) = (h.step A e).queue key := by
  rw [← hl] at hpend
  obtain ⟨kept, hsub, rfl⟩ := List.sublist_map_iff.mp hpend
  refine ⟨kept ++ [.new info now], .queued hsub hclock hsent, ?_⟩
  rw [List.map_append, hqueue]
  rfl

/-- A quiet reply takes up no sequence numbers. -/
theorem Quiet.outgoing_bare {reply : Option SendInfo} (h : Quiet reply) (key : ConnKey) :
    ∀ seg ∈ reply.toList.map key.outgoing, seg.Bare := by
  intro seg hseg
  obtain ⟨info, hinfo, rfl⟩ := List.mem_map.mp hseg
  exact h info (Option.mem_toList.mp hinfo)

/-- A segment of a known connection. -/
theorem logged_known {seg : TcpSegment .In} {conn : ConnState}
    (hget : h.get (ConnKey.ofSegment seg) = some conn)
    (hl : l.map (·.segment) = h.queue (ConnKey.ofSegment seg))
    (randomU32 : TraceableResult UInt32) (now : Instant) :
    ∃ l', Logged A (ConnKey.ofSegment seg) h (.segment seg randomU32 now) l l' ∧
      l'.map (·.segment)
        = (h.step A (.segment seg randomU32 now)).queue (ConnKey.ofSegment seg) := by
  have hsent := Host.segmentsOf_emitted (A := A) h seg randomU32 now (ConnKey.ofSegment seg)
  rw [if_pos rfl, Host.decideReply_known hget] at hsent
  obtain ⟨-, -, hkeys⟩ := Host.segment_known hget A randomU32 now
  have hafter := hkeys (ConnKey.ofSegment seg)
  rw [if_pos rfl] at hafter
  have hqueue := Host.queue_of_get hget
  cases hstep : (conn.step A h.connections.rtoConfig h.connections.maxRetries h.app
      (.segment seg now)).conn with
  | none =>
    -- the segment removes the connection
    rw [hstep] at hafter
    obtain ⟨reply, hq, heq⟩ := ConnState.step_removed hstep
    have hreply : (replyOf (SendInfo.handleKnownConn A h.app seg conn now).result).toList
        = reply.toList := congrArg Stepped.sent heq
    refine logged_quiet hl ?_ ?_
    · rw [Host.queue_of_none hafter]
      exact List.nil_sublist _
    · rw [hsent, hreply]
      exact hq.outgoing_bare _
  | some conn' =>
    rw [hstep] at hafter
    have hmove := ConnState.step_move hstep
    have hout : (conn.step A h.connections.rtoConfig h.connections.maxRetries h.app
        (.segment seg now)).sent
          = (replyOf (SendInfo.handleKnownConn A h.app seg conn now).result).toList := rfl
    generalize conn.step A h.connections.rtoConfig h.connections.maxRetries h.app
      (.segment seg now) = out at hmove hout
    cases hmove with
    | segment hfeed hsend hrecv =>
      rw [← hout] at hsent
      have hafter' := Host.queue_of_get hafter
      cases hsend with
      | idle hsame hextra hq =>
        refine logged_quiet hl ?_ (by rw [hsent]; exact hq.outgoing_bare _)
        rw [hafter', hqueue, hsame.pending]
      | ack hack hshift hsync hextra hcw hnxt hbuf hq =>
        refine logged_quiet hl ?_ (by rw [hsent]; exact hq.outgoing_bare _)
        rw [hafter', hqueue]
        exact hack.sublist
      | resend hst hextra hinfo hst' hnxt huna hbuf hpend =>
        have hkept : conn.pending.Sublist (h.queue (ConnKey.ofSegment seg)) := by rw [hqueue]
        exact logged_queued hl rfl hkept (by rw [hafter', hpend])
          (by rw [hsent]; exact List.Sublist.refl _)
      | data hack hsend hsilent hname hleft hwin htrans hinfo hnxt hpend =>
        refine logged_queued hl rfl ?_ (by rw [hafter', hpend])
          (by rw [hsent]; exact List.Sublist.refl _)
        rw [hqueue]
        exact hack.sublist
      | fin hack hsend hsilent hname hwin hempty htrans hinfo hnxt hpend =>
        refine logged_queued hl rfl ?_ (by rw [hafter', hpend])
          (by rw [hsent]; exact List.Sublist.refl _)
        rw [hqueue]
        exact hack.sublist

/-- A segment of an unknown connection. -/
theorem logged_unknown {seg : TcpSegment .In} (hget : h.get (ConnKey.ofSegment seg) = none)
    (hl : l.map (·.segment) = h.queue (ConnKey.ofSegment seg))
    (randomU32 : TraceableResult UInt32) (now : Instant) :
    ∃ l', Logged A (ConnKey.ofSegment seg) h (.segment seg randomU32 now) l l' ∧
      l'.map (·.segment)
        = (h.step A (.segment seg randomU32 now)).queue (ConnKey.ofSegment seg) := by
  have hget' : h.connections.get (ConnKey.ofSegment seg) = none := hget
  have hsent := Host.segmentsOf_emitted (A := A) h seg randomU32 now (ConnKey.ofSegment seg)
  rw [if_pos rfl] at hsent
  unfold TcpConnections.decideReply at hsent
  simp only [hget'] at hsent
  have hstep : (h.step A (.segment seg randomU32 now)).connections
      = (h.connections.handleUnknownConn seg (ConnKey.ofSegment seg) randomU32 now).2 := by
    unfold Host.step TcpConnections.createReply TcpConnections.decideReply
    simp only [hget']
  have hsame : (h.step A (.segment seg randomU32 now)).connections = h.connections →
      (h.step A (.segment seg randomU32 now)).queue (ConnKey.ofSegment seg)
        = h.queue (ConnKey.ofSegment seg) := by
    intro heq
    unfold Host.queue Host.get
    rw [heq]
  unfold TcpConnections.handleUnknownConn at hsent hstep
  cases hflags : seg.flags with
  | Syn =>
    simp only [hflags] at hsent hstep
    cases randomU32 with
    | error e => exact logged_idle hl (hsame hstep) hsent
    | ok isn =>
      have hopened : (h.step A (.segment seg (.ok isn) now)).get (ConnKey.ofSegment seg)
          = some (ConnState.opened (SeqPoint.new isn.toNat) seg.seqNum now) := by
        unfold Host.get
        rw [hstep]
        exact TcpConnections.get_set_self _ _ _
      have hqueue := Host.queue_of_get hopened
      exact logged_queued hl rfl (List.nil_sublist _) hqueue
        (by rw [hsent]; exact List.Sublist.refl _)
  | Rst | RstAck =>
    simp only [hflags] at hsent hstep
    exact logged_idle hl (hsame hstep) hsent
  | SynAck | Ack | FinAck =>
    simp only [hflags] at hsent hstep
    refine logged_quiet hl (by rw [hsame hstep]) ?_
    have hrst : Quiet (some (SendInfo.rst seg)) := by
      intro info hinfo
      obtain rfl := Option.some.inj hinfo
      exact ⟨rfl, .inr rfl⟩
    rw [hsent]
    exact hrst.outgoing_bare _

/-- The retransmission sweep. -/
theorem logged_retransmit (hl : l.map (·.segment) = h.queue key) (now late : Instant) :
    ∃ l', Logged A key h (.retransmit now late) l l' ∧
      l'.map (·.segment) = (h.step A (.retransmit now late)).queue key := by
  obtain ⟨-, hafter, hsent⟩ := h.connections.makeRetransmissions_get now late key
  have hconn : h.connections.get key = h.get key := rfl
  rw [hconn] at hafter
  unfold TcpConnections.resentFor at hsent
  rw [hconn] at hsent
  cases hget : h.get key with
  | none =>
    rw [hget] at hafter hsent
    have hgone : (h.step A (.retransmit now late)).get key = none := hafter
    exact logged_idle hl (by rw [Host.queue_of_none hget, Host.queue_of_none hgone]) hsent
  | some conn =>
    rw [hget, Option.bind_some] at hafter hsent
    cases hre : conn.retransmit h.connections.rtoConfig h.connections.maxRetries now late with
    | none =>
      -- out of retries: the queue goes, and nothing is sent
      rw [hre] at hafter hsent
      have hgone : (h.step A (.retransmit now late)).get key = none := hafter
      refine logged_quiet hl ?_ ?_
      · rw [Host.queue_of_none hgone]
        exact List.nil_sublist _
      · intro seg hseg
        have hnil : segmentsOf key (h.emitted A (.retransmit now late)) = [] := hsent
        rw [hnil] at hseg
        cases hseg
    | some r =>
      rw [hre] at hafter hsent
      have hr := hre
      unfold ConnState.retransmit at hr
      split at hr
      case isTrue => cases hr
      case isFalse =>
        obtain rfl := Option.some.inj hr
        have hkept : (h.step A (.retransmit now late)).get key = some _ := hafter
        rw [Host.queue_of_get hget] at hl
        refine ⟨_, .swept rfl hkept ?_, ?_⟩
        · refine hsent.trans ?_
          simp only [← hl, List.filter_map, List.map_map]
          rfl
        · rw [Host.queue_of_get hkept]
          simp only [← hl, List.map_map]
          apply List.map_congr_left
          intro entry _
          exact entry.sweep_segment _ _ _

/-- What the closing sweep does to one connection: it leaves it alone, or closes it and hands over
    its FIN at most. -/
theorem Host.close_cases (A : Application σ) (h : Host σ)
    (consume : TcpSegment .Out → TraceableResult Unit) (now : Instant) (key : ConnKey) :
    ((h.step A (.close consume now)).get key = h.get key ∧
        segmentsOf key (h.emitted A (.close consume now)) = []) ∨
      ∃ conn conn' info, h.get key = some conn ∧ conn.close now = some (conn', info) ∧
        (h.step A (.close consume now)).get key = some conn' ∧
        (segmentsOf key (h.emitted A (.close consume now))).Sublist [key.outgoing info] := by
  unfold Host.emitted
  simp only
  cases hitems : (h.connections.closeEstablished (fun seg => (consume seg).map fun _ => seg)
      now).2 with
  | error e =>
    -- nothing is handed over, whatever has been closed on the way
    obtain ⟨-, hget⟩ :=
      TcpConnections.closeKeys_get consume now h.connections.table.keys h.connections
    rcases hget key with hafter | ⟨conn, conn', info, hconn, hclose, hafter⟩
    · exact .inl ⟨hafter, rfl⟩
    · exact .inr ⟨conn, conn', info, hconn, hclose, hafter, List.nil_sublist _⟩
  | ok items =>
    obtain ⟨list, hall, -, hkeys⟩ := TcpConnections.closeEstablished_of_ok hitems
    obtain rfl : list = items := by
      rw [← List.forall₂_eq_eq_eq]
      refine hall.imp fun seg item hitem => ?_
      cases hseg : consume seg with
      | error e => rw [hseg] at hitem; cases hitem
      | ok u => rw [hseg] at hitem; exact Except.ok.inj hitem
    obtain ⟨hafter, hsent⟩ := hkeys key
    have htable := TcpConnections.closeKeys_table (fun seg => (consume seg).map fun _ => seg) now
      h.connections.table.keys h.connections
    have hconsume : (fun seg => ((consume seg).map fun _ => seg).map fun _ => ()) = consume := by
      funext seg
      cases consume seg <;> rfl
    rw [hconsume] at htable
    have hstep : (h.step A (.close consume now)).get key = _ :=
      (congrArg (·.get key) htable).trans hafter
    have hconn : h.connections.get key = h.get key := rfl
    rw [hconn] at hsent hstep
    cases hget : h.get key with
    | none =>
      rw [hget] at hsent hstep
      exact .inl ⟨hstep, hsent⟩
    | some conn =>
      rw [hget, Option.map_some] at hstep
      rw [hget, Option.bind_some] at hsent
      cases hclose : conn.close now with
      | none =>
        rw [hclose] at hsent hstep
        exact .inl ⟨hstep, hsent⟩
      | some r =>
        rw [hclose] at hsent hstep
        exact .inr ⟨conn, r.1, r.2, rfl, hclose, hstep, by rw [hsent]; exact List.Sublist.refl _⟩

/-- The closing sweep. -/
theorem logged_close (hl : l.map (·.segment) = h.queue key)
    (consume : TcpSegment .Out → TraceableResult Unit) (now : Instant) :
    ∃ l', Logged A key h (.close consume now) l l' ∧
      l'.map (·.segment) = (h.step A (.close consume now)).queue key := by
  rcases Host.close_cases A h consume now key with
    ⟨hafter, hsent⟩ | ⟨conn, conn', info, hget, hclose, hafter, hsent⟩
  · exact logged_idle hl (by rw [Host.queue, hafter]; rfl) hsent
  · have hkept : conn.pending.Sublist (h.queue key) := by rw [Host.queue_of_get hget]
    refine logged_queued hl rfl hkept ?_ hsent
    rw [Host.queue_of_get hafter, ConnState.close_pending hclose]

/-- **Every event can be logged.** -/
theorem exists_logged (hl : l.map (·.segment) = h.queue key) (e : HostEvent σ) :
    ∃ l', Logged A key h e l l' ∧ l'.map (·.segment) = (h.step A e).queue key := by
  cases e with
  | segment seg randomU32 now =>
    by_cases hk : ConnKey.ofSegment seg = key
    · subst hk
      cases hget : h.get (ConnKey.ofSegment seg) with
      | some conn => exact logged_known hget hl randomU32 now
      | none => exact logged_unknown hget hl randomU32 now
    · refine logged_idle hl ?_ ?_
      · unfold Host.queue
        rw [h.segment_other A randomU32 now hk]
      · rw [Host.segmentsOf_emitted, if_neg hk]
  | retransmit now late => exact logged_retransmit hl now late
  | close consume now => exact logged_close hl consume now
  | elsewhere app => exact logged_idle hl rfl rfl

/-- The log of a run is that of the segments in the queue. -/
theorem WireLog.queue {h₀ : Host σ} {es : List (HostEvent σ)} (h0 : h₀.queue key = [])
    (hlog : WireLog A key h₀ es h l) : l.map (·.segment) = h.queue key := by
  cases hlog with
  | start => exact h0.symm
  | step _ _ hqueue => exact hqueue

/-- **Every run has a log.** -/
theorem exists_wireLog {h₀ : Host σ} (h0 : h₀.queue key = []) {ok : Host σ → HostEvent σ → Prop}
    {es : List (HostEvent σ)} (hrun : Runs.Run (Host.step A) ok h₀ es h) :
    ∃ l, WireLog A key h₀ es h l := by
  induction hrun with
  | nil => exact ⟨[], .start⟩
  | snoc _ _ ih =>
    obtain ⟨l, hlog⟩ := ih
    obtain ⟨l', hlogged, hqueue⟩ := exists_logged (hlog.queue h0) _
    exact ⟨l', .step hlog hlogged hqueue⟩

end Typenet
