import Typenet.Lib.Mealy
import Typenet.Table.Replies

namespace Typenet

/-!
# Calls on one table

`createReply`, `makeRetransmissions` and `closeEstablished` on one table, with what each of them
hands back.  Initial sequence numbers are drawn from an oracle, key by key, so the table comes
with the number of draws made for each key.

What a call does to one key is a call on that key's `Entry` (`TableState.call_entry`): the table
is a collection of machines that do not see each other.  The application is shared, so this is
about applications whose answers do not depend on what they have been asked before.
-/

/-- A call on the table, with its clock readings. -/
inductive Call
  | createReply (seg : TcpSegment .In) (now : Instant)
  | makeRetransmissions (now late : Instant)
  | closeEstablished (now : Instant)

/-- What a call hands back. -/
inductive Emitted
  | reply (result : TraceableResult (Option (TcpSegment .Out)))
  | segments (list : List (TcpSegment .Out))

/-- The segments of an outcome. -/
def outSegments {D : Type} : TraceableResult (Option D) → List D
  | .ok out => out.toList
  | .error _ => []

/-- The segments handed back. -/
def Emitted.toList : Emitted → List (TcpSegment .Out)
  | .reply result => outSegments result
  | .segments list => list

/-- The key of the connection that an outgoing segment belongs to. -/
def ConnKey.ofOutgoing (seg : TcpSegment .Out) : ConnKey where
  clientIp := seg.ipPair.dst
  clientPort := seg.ports.dst
  serverIp := seg.ipPair.src
  serverPort := seg.ports.src

@[simp] theorem ConnKey.ofOutgoing_outgoing (key : ConnKey) (info : SendInfo) :
    ConnKey.ofOutgoing (key.outgoing info) = key := rfl

/-- A host, with the number of initial sequence numbers drawn for each key. -/
structure TableState (σ : Type) where
  host : Host σ
  drawn : ConnKey → Nat

variable {σ : Type}

namespace TableState

/-- The draws made once `seg` has been answered: a SYN of no known connection makes one. -/
def drawnAfter (t : TableState σ) (seg : TcpSegment .In) (key : ConnKey) : Nat :=
  if key = ConnKey.ofSegment seg ∧ (t.host.get key).isNone ∧ seg.flags = .Syn then t.drawn key + 1
  else t.drawn key

/-- One call. -/
def call (A : Application σ) (oracle : ConnKey → Nat → TraceableResult UInt32)
    (t : TableState σ) : Call → Emitted × TableState σ
  | .createReply seg now =>
    let key := ConnKey.ofSegment seg
    let randomU32 := oracle key (t.drawn key)
    (.reply (t.host.connections.createReply A t.host.app seg randomU32 now).1,
      { host := t.host.step A (.segment seg randomU32 now)
        drawn := t.drawnAfter seg })
  | .makeRetransmissions now late =>
    let (connections, resent) := t.host.connections.makeRetransmissions now late
    (.segments resent, { t with host := { t.host with connections := connections } })
  | .closeEstablished now =>
    let (connections, items) := t.host.connections.closeEstablished .ok now
    (.segments (match items with | .ok list => list | .error _ => []),
      { t with host := { t.host with connections := connections } })

/-- Calls in order, with everything they hand back. -/
def run (A : Application σ) (oracle : ConnKey → Nat → TraceableResult UInt32) :
    List Call → TableState σ → List Emitted × TableState σ :=
  Mealy.run (call A oracle)

end TableState

/-! ### Stateless applications -/

/-- What the application answers in the state `st`. -/
def Application.answers (A : Application σ) (st : σ) (data : List UInt8) : List UInt8 :=
  (A.handleTcp st data).2

/-- No call of the TCP hook changes the answers. -/
def Stateless (A : Application σ) : Prop :=
  ∀ st data, A.answers (A.handleTcp st data).1 = A.answers st

/-- The application whose state is how it answers. -/
def answering : Application (List UInt8 → List UInt8) where
  handleUdp answer data := (answer, answer data)
  handleTcp answer data := (answer, answer data)

/-- A stateless application is observed by its answers. -/
theorem Stateless.observes {A : Application σ} (h : Stateless A) :
    Observes A.answers A answering :=
  ⟨h, fun _ _ => rfl⟩

/-- Being fed does not change a stateless application's answers. -/
theorem Stateless.feed {A : Application σ} (h : Stateless A) (st : σ)
    (slices : List (List UInt8)) : A.answers (A.feed st slices).1 = A.answers st := by
  induction slices generalizing st with
  | nil => rfl
  | cons data rest ih =>
    rw [Application.feed_cons]
    exact (ih _).trans (h st data)

/-- A handler leaves the answers alone. -/
theorem Stateless.handleKnownConn {A : Application σ} (h : Stateless A) (st : σ)
    (seg : TcpSegment .In) (conn : ConnState) (now : Instant) :
    A.answers (SendInfo.handleKnownConn A st seg conn now).app = A.answers st := by
  rcases SendInfo.handleKnownConn_moves A st seg conn now with
    ⟨-, -, -, happ⟩ | ⟨-, -, slices, extra, hfeed, -⟩
  · rw [happ]
  · have happ := congrArg (A.answers ·.1) hfeed
    exact happ.symm.trans (h.feed st slices)

/-- A segment leaves the answers alone. -/
theorem Stateless.segment {A : Application σ} (h : Stateless A) (t : Host σ)
    (seg : TcpSegment .In) (randomU32 : TraceableResult UInt32) (now : Instant) :
    A.answers (t.step A (.segment seg randomU32 now)).app = A.answers t.app := by
  cases hconn : t.get (ConnKey.ofSegment seg) with
  | none => rw [(Host.segment_unknown hconn A randomU32 now).1]
  | some conn =>
    rw [(Host.segment_known hconn A randomU32 now).2.1]
    exact h.handleKnownConn t.app seg conn now

/-! ### One key -/

/-- What the table holds for one key, with its parameters and the application's answers. -/
@[ext] structure Entry where
  answers : List UInt8 → List UInt8
  rtoConfig : RtoConfig
  maxRetries : UInt8
  conn : Option ConnState
  drawn : Nat

def TableState.entry (A : Application σ) (t : TableState σ) (key : ConnKey) : Entry where
  answers := A.answers t.host.app
  rtoConfig := t.host.connections.rtoConfig
  maxRetries := t.host.connections.maxRetries
  conn := t.host.get key
  drawn := t.drawn key

namespace Entry

/-- The reply to a segment of the key. -/
def createReply (isn : Nat → TraceableResult UInt32) (x : Entry)
    (seg : TcpSegment .In) (now : Instant) : TraceableResult (Option SendInfo) × Entry :=
  match x.conn with
  | some conn =>
    let handled := SendInfo.handleKnownConn answering x.answers seg conn now
    (handled.result.map (·.1),
      { x with conn := if removes handled.result then none else some handled.conn })
  | none =>
    match seg.flags with
    | .Syn =>
      match isn x.drawn with
      | .error e => (.error e, { x with drawn := x.drawn + 1 })
      | .ok isn =>
        let iss := SeqPoint.new isn.toNat
        (.ok (some (synAck iss seg.seqNum)),
          { x with conn := some (ConnState.opened iss seg.seqNum now), drawn := x.drawn + 1 })
    | .Rst | .RstAck => (.ok none, x)
    | .SynAck | .Ack | .FinAck => (.ok (some (SendInfo.rst seg)), x)

/-- The share of the retransmission sweep. -/
def makeRetransmissions (x : Entry) (now late : Instant) : List SendInfo × Entry :=
  match x.conn with
  | none => ([], x)
  | some conn =>
    match conn.retransmit x.rtoConfig x.maxRetries now late with
    | none => ([], { x with conn := none })
    | some (conn, resent) => (resent, { x with conn := some conn })

/-- The share of the closing sweep. -/
def closeEstablished (x : Entry) (now : Instant) : List SendInfo × Entry :=
  match x.conn.bind (·.close now) with
  | none => ([], x)
  | some (conn, info) => ([info], { x with conn := some conn })

/-- The share of a call that concerns `key`. -/
def call (isn : Nat → TraceableResult UInt32) (key : ConnKey) (x : Entry) :
    Call → List (TcpSegment .Out) × Entry
  | .createReply seg now =>
    if ConnKey.ofSegment seg = key then
      let (result, x) := x.createReply isn seg now
      ((outSegments result).map key.outgoing, x)
    else ([], x)
  | .makeRetransmissions now late =>
    let (resent, x) := x.makeRetransmissions now late
    (resent.map key.outgoing, x)
  | .closeEstablished now =>
    let (sent, x) := x.closeEstablished now
    (sent.map key.outgoing, x)

end Entry

/-! ### The sweeps, one key at a time -/

/-- The segments of `key` among those handed back. -/
def segmentsOf (key : ConnKey) (list : List (TcpSegment .Out)) : List (TcpSegment .Out) :=
  list.filter fun seg => decide (ConnKey.ofOutgoing seg = key)

/-- The segments of a connection are read off one list after the other. -/
theorem segmentsOf_append (key : ConnKey) (l l' : List (TcpSegment .Out)) :
    segmentsOf key (l ++ l') = segmentsOf key l ++ segmentsOf key l' := List.filter_append ..

/-- What is sent under one key belongs to that key. -/
theorem segmentsOf_outgoing (key k : ConnKey) (infos : List SendInfo) :
    segmentsOf key (infos.map k.outgoing) = if k = key then infos.map key.outgoing else [] := by
  unfold segmentsOf
  by_cases h : k = key
  · subst h
    rw [if_pos rfl, List.filter_eq_self]
    intro seg hseg
    obtain ⟨info, -, rfl⟩ := List.mem_map.mp hseg
    simp
  · rw [if_neg h, List.filter_eq_nil_iff]
    intro seg hseg
    obtain ⟨info, -, rfl⟩ := List.mem_map.mp hseg
    simp [h]

namespace TcpConnections

/-- What the retransmission sweep sends for `key` when it visits it. -/
def resentFor (self : TcpConnections) (now late : Instant) (key : ConnKey) : List SendInfo :=
  match (self.get key).bind fun conn =>
    conn.retransmit self.rtoConfig self.maxRetries now late with
  | some (_, resent) => resent
  | none => []

/-- The retransmission sweep sends its share for each listed key. -/
theorem retransmitKeys_emits (now late : Instant) (keys : List ConnKey) (hnd : keys.Nodup)
    (self : TcpConnections) (key : ConnKey) :
    segmentsOf key (retransmitKeys now late keys self).2
      = if key ∈ keys then (self.resentFor now late key).map key.outgoing else [] := by
  induction keys generalizing self with
  | nil => simp [retransmitKeys, segmentsOf]
  | cons k keys ih =>
    obtain ⟨hk, hnd⟩ := List.nodup_cons.mp hnd
    -- the rest of the sweep goes on from a table that differs at `k` only
    have hrest : ∀ t : TcpConnections, SameConfig self t →
        (∀ key, key ≠ k → t.get key = self.get key) → ∀ sent : List SendInfo,
        sent = self.resentFor now late k →
        segmentsOf key (sent.map k.outgoing ++ (retransmitKeys now late keys t).2)
          = if key ∈ k :: keys then (self.resentFor now late key).map key.outgoing else [] := by
      intro t hcfg hne sent hsent
      rw [segmentsOf_append, segmentsOf_outgoing, ih hnd t]
      by_cases heq : k = key
      · subst heq
        rw [if_pos rfl, if_neg hk, if_pos List.mem_cons_self, List.append_nil, hsent]
      · have hsame : t.resentFor now late key = self.resentFor now late key := by
          unfold resentFor
          rw [hne key (Ne.symm heq), hcfg.1, hcfg.2]
        rw [if_neg heq, List.nil_append, hsame]
        simp only [List.mem_cons, Ne.symm heq, false_or]
    unfold retransmitKeys
    cases hget : self.get k with
    | none => exact hrest self ⟨rfl, rfl⟩ (fun _ _ => rfl) [] (by unfold resentFor; rw [hget]; rfl)
    | some conn =>
      simp only
      cases hre : conn.retransmit self.rtoConfig self.maxRetries now late with
      | none =>
        exact hrest (self.remove k) ⟨rfl, rfl⟩ (fun key h => self.get_remove_ne h) []
          (by unfold resentFor; rw [hget, Option.bind_some, hre])
      | some r =>
        exact hrest (self.set k r.1) ⟨rfl, rfl⟩ (fun key h => self.get_set_ne r.1 h) r.2
          (by unfold resentFor; rw [hget, Option.bind_some, hre])

/-- The first pass of the retransmission sweep lists the keys with a due segment. -/
theorem mem_dueKeys (self : TcpConnections) (now late : Instant) (key : ConnKey) :
    key ∈ self.dueKeys now late ↔ ∃ conn, self.get key = some conn ∧
      conn.pending.any (ConnState.isDue self.rtoConfig now late) = true := by
  unfold dueKeys
  rw [List.mem_filterMap]
  constructor
  · rintro ⟨⟨k, conn⟩, hmem, hsome⟩
    split at hsome
    case isTrue hdue =>
      obtain rfl := Option.some.inj hsome
      exact ⟨conn, AList.mem_lookup_iff.mpr hmem, hdue⟩
    case isFalse => cases hsome
  · rintro ⟨conn, hget, hdue⟩
    exact ⟨⟨key, conn⟩, mem_entries_of_get hget, if_pos hdue⟩

end TcpConnections

/-- With nothing due, the retransmission sweep does nothing to a connection. -/
theorem ConnState.retransmit_idle {conn : ConnState} {rto : RtoConfig} (maxRetries : UInt8)
    {now late : Instant} (h : conn.pending.any (ConnState.isDue rto now late) = false) :
    conn.retransmit rto maxRetries now late = some (conn, []) := by
  have hnot : ∀ p ∈ conn.pending, isDue rto now late p = false := by
    intro p hp
    rw [← Bool.not_eq_true]
    exact List.any_eq_false.mp h p hp
  unfold ConnState.retransmit
  rw [if_neg]
  · have hmap : conn.pending.map (fun p => if isDue rto now late p then p.retransmitted now else p)
        = conn.pending := by
      refine (List.map_congr_left fun p hp => ?_).trans (List.map_id _)
      rw [hnot p hp]; rfl
    have hfilter : conn.pending.filter (isDue rto now late) = [] :=
      List.filter_eq_nil_iff.mpr fun p hp => by rw [hnot p hp]; decide
    rw [hmap, hfilter]; rfl
  · rw [Bool.not_eq_true, List.any_eq_false]
    intro p hp hboth
    rw [hnot p hp] at hboth
    cases hboth

/-- **The retransmission sweep**, one key at a time. -/
theorem TcpConnections.makeRetransmissions_get (self : TcpConnections) (now late : Instant)
    (key : ConnKey) :
    SameConfig self (self.makeRetransmissions now late).1 ∧
    (self.makeRetransmissions now late).1.get key = ((self.get key).bind fun conn =>
      (conn.retransmit self.rtoConfig self.maxRetries now late).map (·.1)) ∧
    segmentsOf key (self.makeRetransmissions now late).2
      = (self.resentFor now late key).map key.outgoing := by
  have hnd := self.dueKeys_nodup now late
  obtain ⟨hcfg, hget⟩ := retransmitKeys_get now late (self.dueKeys now late) hnd self
  -- a key that is not listed has nothing due
  have hidle : key ∉ self.dueKeys now late → ∀ conn, self.get key = some conn →
      conn.retransmit self.rtoConfig self.maxRetries now late = some (conn, []) := by
    intro hno conn hconn
    apply ConnState.retransmit_idle _
    rw [← Bool.not_eq_true]
    exact fun h => hno ((self.mem_dueKeys now late key).mpr ⟨conn, hconn, h⟩)
  refine ⟨hcfg, (hget key).trans ?_, (retransmitKeys_emits now late _ hnd self key).trans ?_⟩
  · by_cases hdue : key ∈ self.dueKeys now late
    · rw [if_pos hdue]
    · rw [if_neg hdue]
      cases hconn : self.get key with
      | none => rfl
      | some conn => rw [Option.bind_some, hidle hdue conn hconn]; rfl
  · by_cases hdue : key ∈ self.dueKeys now late
    · rw [if_pos hdue]
    · rw [if_neg hdue]
      unfold resentFor
      cases hconn : self.get key with
      | none => rfl
      | some conn => rw [Option.bind_some, hidle hdue conn hconn]; rfl

/-- The closing sweep closes each listed connection once, and sends its FIN. -/
theorem TcpConnections.closeKeys_emits (now : Instant) (keys : List ConnKey) (hnd : keys.Nodup)
    (self : TcpConnections) :
    ∃ list, (closeKeys .ok now keys self).2 = .ok list ∧
      SameConfig self (closeKeys .ok now keys self).1 ∧
      ∀ key,
        (closeKeys .ok now keys self).1.get key
          = (if key ∈ keys then (match (self.get key).bind (·.close now) with
              | some (conn, _) => some conn
              | none => self.get key)
            else self.get key) ∧
        segmentsOf key list = if key ∈ keys then
          ((self.get key).bind (·.close now)).toList.map (fun r => key.outgoing r.2) else [] := by
  induction keys generalizing self with
  | nil => exact ⟨[], rfl, ⟨rfl, rfl⟩, fun key => ⟨by simp [closeKeys], by simp [segmentsOf]⟩⟩
  | cons k keys ih =>
    obtain ⟨hk, hnd⟩ := List.nodup_cons.mp hnd
    unfold closeKeys
    cases hclose : (self.get k).bind fun conn => conn.close now with
    | none =>
      obtain ⟨list, hres, hcfg, hkeys⟩ := ih hnd self
      refine ⟨list, hres, hcfg, fun key => ?_⟩
      obtain ⟨hget, hsent⟩ := hkeys key
      by_cases heq : key = k
      · subst heq
        rw [if_neg hk] at hget hsent
        rw [if_pos List.mem_cons_self, if_pos List.mem_cons_self, hclose]
        exact ⟨hget, hsent⟩
      · simp only [List.mem_cons, heq, false_or]
        exact ⟨hget, hsent⟩
    | some r =>
      obtain ⟨conn, info⟩ := r
      obtain ⟨list, hres, hcfg, hkeys⟩ := ih hnd (self.set k conn)
      refine ⟨k.outgoing info :: list, ?_, hcfg, fun key => ?_⟩
      · simp only [hres]; rfl
      · obtain ⟨hget, hsent⟩ := hkeys key
        have hcons : segmentsOf key (k.outgoing info :: list)
            = (if k = key then [key.outgoing info] else []) ++ segmentsOf key list := by
          have h := segmentsOf_append key ([info].map k.outgoing) list
          rw [segmentsOf_outgoing] at h
          exact h
        rw [hcons]
        by_cases heq : key = k
        · subst heq
          rw [if_neg hk] at hget hsent
          rw [get_set_self] at hget
          rw [if_pos List.mem_cons_self, if_pos List.mem_cons_self, hclose, if_pos rfl, hsent]
          exact ⟨hget, rfl⟩
        · rw [get_set_ne _ _ heq] at hget hsent
          rw [if_neg (Ne.symm heq)]
          simp only [List.mem_cons, heq, false_or]
          exact ⟨hget, hsent⟩

/-- A sweep whose items all find their consumer is the sweep that hands them out as they are. -/
theorem TcpConnections.closeKeys_of_ok {β : Type} {consume : TcpSegment .Out → TraceableResult β}
    {now : Instant} {keys : List ConnKey} {self : TcpConnections} {items : List β}
    (h : (closeKeys consume now keys self).2 = .ok items) :
    ∃ list, closeKeys .ok now keys self = ((closeKeys consume now keys self).1, .ok list) ∧
      List.Forall₂ (fun seg item => consume seg = .ok item) list items := by
  induction keys generalizing self items with
  | nil =>
    obtain rfl := Except.ok.inj h
    exact ⟨[], rfl, .nil⟩
  | cons k keys ih =>
    unfold closeKeys at h ⊢
    cases hclose : (self.get k).bind fun conn => conn.close now with
    | none =>
      simp only [hclose] at h
      exact ih h
    | some r =>
      simp only [hclose] at h ⊢
      cases hitem : consume (k.outgoing r.2) with
      | error e =>
        rw [hitem] at h
        cases h
      | ok item =>
        simp only [hitem] at h ⊢
        cases hrest : (closeKeys consume now keys (self.set k r.1)).2 with
        | error e =>
          rw [hrest] at h
          cases h
        | ok rest =>
          rw [hrest] at h
          obtain rfl := Except.ok.inj h
          obtain ⟨list, heq, hall⟩ := ih hrest
          exact ⟨k.outgoing r.2 :: list, by rw [heq]; rfl, .cons hitem hall⟩

/-- **The closing sweep**, one key at a time. -/
theorem TcpConnections.closeEstablished_get (self : TcpConnections) (now : Instant) :
    ∃ list, (self.closeEstablished .ok now).2 = .ok list ∧
      SameConfig self (self.closeEstablished .ok now).1 ∧
      ∀ key,
        (self.closeEstablished .ok now).1.get key
          = (self.get key).map (fun conn => ((conn.close now).map (·.1)).getD conn) ∧
        segmentsOf key list
          = ((self.get key).bind (·.close now)).toList.map fun r => key.outgoing r.2 := by
  obtain ⟨list, hres, hcfg, hkeys⟩ := closeKeys_emits now self.table.keys self.table.keys_nodup self
  refine ⟨list, hres, hcfg, fun key => ?_⟩
  obtain ⟨hget, hsent⟩ := hkeys key
  have hmem : key ∈ self.table.keys ↔ (self.get key).isSome = true :=
    AList.mem_keys.symm.trans AList.lookup_isSome.symm
  refine ⟨hget.trans ?_, hsent.trans ?_⟩
  -- a key that is not listed has no connection
  · cases hconn : self.get key with
    | none => rw [if_neg fun hin => by rw [hmem, hconn] at hin; cases hin]; rfl
    | some conn =>
      rw [if_pos (hmem.mpr (by rw [hconn]; rfl)), Option.bind_some, Option.map_some]
      cases conn.close now <;> rfl
  · cases hconn : self.get key with
    | none => exact ite_self _
    | some conn => rw [if_pos (hmem.mpr (by rw [hconn]; rfl))]

/-- So it is whenever every item finds its consumer. -/
theorem TcpConnections.closeEstablished_of_ok {β : Type} {self : TcpConnections}
    {consume : TcpSegment .Out → TraceableResult β} {now : Instant} {items : List β}
    (h : (self.closeEstablished consume now).2 = .ok items) :
    ∃ list, List.Forall₂ (fun seg item => consume seg = .ok item) list items ∧
      SameConfig self (self.closeEstablished consume now).1 ∧
      ∀ key,
        (self.closeEstablished consume now).1.get key
          = (self.get key).map (fun conn => ((conn.close now).map (·.1)).getD conn) ∧
        segmentsOf key list
          = ((self.get key).bind (·.close now)).toList.map fun r => key.outgoing r.2 := by
  obtain ⟨list, heq, hall⟩ := closeKeys_of_ok h
  obtain ⟨list', hres, hcfg, hkeys⟩ := self.closeEstablished_get now
  unfold closeEstablished at hres hcfg hkeys ⊢
  rw [heq] at hres hcfg hkeys
  obtain rfl := Except.ok.inj hres
  exact ⟨list, hall, hcfg, hkeys⟩

/-! ### Calls, one key at a time -/

variable {A : Application σ} (oracle : ConnKey → Nat → TraceableResult UInt32)

/-- A SYN for a free key draws an ISN. -/
theorem TableState.drawnAfter_syn (t : TableState σ) {seg : TcpSegment .In}
    (hnone : t.host.get (ConnKey.ofSegment seg) = none) (hflags : seg.flags = .Syn) :
    t.drawnAfter seg (ConnKey.ofSegment seg) = t.drawn (ConnKey.ofSegment seg) + 1 :=
  if_pos ⟨rfl, by rw [hnone]; rfl, hflags⟩

/-- Nothing else does. -/
theorem TableState.drawnAfter_eq (t : TableState σ) {seg : TcpSegment .In} {key : ConnKey}
    (h : ¬ (key = ConnKey.ofSegment seg ∧ (t.host.get key).isNone ∧ seg.flags = .Syn)) :
    t.drawnAfter seg key = t.drawn key := if_neg h

/-- **A segment and its own key.** -/
theorem TableState.createReply_entry (hA : Stateless A) (t : TableState σ)
    (seg : TcpSegment .In) (now : Instant) :
    (t.call A oracle (.createReply seg now)).1
        = .reply (((t.entry A (ConnKey.ofSegment seg)).createReply
            (oracle (ConnKey.ofSegment seg)) seg now).1.map
              fun reply => reply.map (ConnKey.ofSegment seg).outgoing) ∧
      (t.call A oracle (.createReply seg now)).2.entry A (ConnKey.ofSegment seg)
        = ((t.entry A (ConnKey.ofSegment seg)).createReply
            (oracle (ConnKey.ofSegment seg)) seg now).2 := by
  cases hconn : t.host.get (ConnKey.ofSegment seg) with
  | some conn =>
    have hentry : t.entry A (ConnKey.ofSegment seg) = ⟨A.answers t.host.app,
        t.host.connections.rtoConfig, t.host.connections.maxRetries, some conn,
        t.drawn (ConnKey.ofSegment seg)⟩ := by
      unfold entry; rw [hconn]
    have hhandled := hA.observes.handleKnownConn t.host.app seg conn now
    obtain ⟨hcfg, -, hkeys⟩ := Host.segment_known hconn A
      (oracle (ConnKey.ofSegment seg) (t.drawn (ConnKey.ofSegment seg))) now
    rw [hentry]
    simp only [Entry.createReply]
    rw [hhandled]
    constructor
    · show Emitted.reply (TcpConnections.createReply _ _ _ _ _ _).1 = _
      rw [TcpConnections.createReply_known hconn]
      apply congrArg Emitted.reply
      show _ = ((SendInfo.handleKnownConn A t.host.app seg conn now).result.map (·.1)).map _
      cases (SendInfo.handleKnownConn A t.host.app seg conn now).result <;> rfl
    · apply Entry.ext (hA.segment t.host seg _ now) hcfg.1 hcfg.2 ((hkeys _).trans (if_pos rfl))
      show (if _ then _ else _) = _
      rw [if_neg fun h => by rw [hconn] at h; cases h.2.1]
  | none =>
    have hget : t.host.connections.get (ConnKey.ofSegment seg) = none := hconn
    have hentry : t.entry A (ConnKey.ofSegment seg) = ⟨A.answers t.host.app,
        t.host.connections.rtoConfig, t.host.connections.maxRetries, none,
        t.drawn (ConnKey.ofSegment seg)⟩ := by
      unfold entry; rw [hconn]
    rw [hentry]
    simp only [call, entry, Host.get, Host.step, TcpConnections.createReply,
      TcpConnections.decideReply, hget, Entry.createReply]
    unfold TcpConnections.handleUnknownConn
    cases hflags : seg.flags with
    | Syn =>
      cases oracle (ConnKey.ofSegment seg) (t.drawn (ConnKey.ofSegment seg)) with
      | error e => exact ⟨rfl, Entry.ext rfl rfl rfl hget (t.drawnAfter_syn hconn hflags)⟩
      | ok isn =>
        refine ⟨rfl, Entry.ext rfl rfl rfl ?_ (t.drawnAfter_syn hconn hflags)⟩
        exact TcpConnections.get_set_self _ _ _
    | _ => exact ⟨rfl, Entry.ext rfl rfl rfl hget (t.drawnAfter_eq fun h => by
        rw [hflags] at h; cases h.2.2)⟩

/-- A segment of another key does nothing to an entry. -/
theorem TableState.createReply_entry_ne (hA : Stateless A) (t : TableState σ) {seg : TcpSegment .In}
    (now : Instant) {key : ConnKey} (h : ConnKey.ofSegment seg ≠ key) :
    (t.call A oracle (.createReply seg now)).2.entry A key = t.entry A key := by
  have hcfg := (t.host.segment_get (A := A) seg
    (oracle (ConnKey.ofSegment seg) (t.drawn (ConnKey.ofSegment seg))) now key).1
  exact Entry.ext (hA.segment t.host seg _ now) hcfg.1 hcfg.2
    (t.host.segment_other A _ now h) (t.drawnAfter_eq fun hc => h hc.1.symm)

/-- What the retransmission sweep does for one connection. -/
theorem TableState.makeRetransmissions_entry (t : TableState σ) (now late : Instant)
    (key : ConnKey) :
    segmentsOf key (t.call A oracle (.makeRetransmissions now late)).1.toList
        = ((t.entry A key).call (oracle key) key (.makeRetransmissions now late)).1 ∧
      (t.call A oracle (.makeRetransmissions now late)).2.entry A key
        = ((t.entry A key).call (oracle key) key (.makeRetransmissions now late)).2 := by
  obtain ⟨hcfg, hget, hsent⟩ := t.host.connections.makeRetransmissions_get now late key
  have hconn : t.host.connections.get key = t.host.get key := rfl
  unfold TcpConnections.resentFor at hsent
  rw [hconn] at hget hsent
  simp only [Entry.call, Entry.makeRetransmissions, call, entry, Emitted.toList]
  cases hentry : t.host.get key with
  | none =>
    rw [hentry] at hget hsent
    exact ⟨hsent, Entry.ext rfl hcfg.1 hcfg.2 hget rfl⟩
  | some conn =>
    rw [hentry, Option.bind_some] at hget hsent
    simp only
    cases hre : conn.retransmit t.host.connections.rtoConfig t.host.connections.maxRetries now
      late with
    | none =>
      rw [hre] at hget hsent
      exact ⟨hsent, Entry.ext rfl hcfg.1 hcfg.2 hget rfl⟩
    | some r =>
      rw [hre] at hget hsent
      exact ⟨hsent, Entry.ext rfl hcfg.1 hcfg.2 hget rfl⟩

/-- What the closing sweep does for one connection. -/
theorem TableState.closeEstablished_entry (t : TableState σ) (now : Instant) (key : ConnKey) :
    segmentsOf key (t.call A oracle (.closeEstablished now)).1.toList
        = ((t.entry A key).call (oracle key) key (.closeEstablished now)).1 ∧
      (t.call A oracle (.closeEstablished now)).2.entry A key
        = ((t.entry A key).call (oracle key) key (.closeEstablished now)).2 := by
  obtain ⟨list, hres, hcfg, hkeys⟩ := t.host.connections.closeEstablished_get now
  obtain ⟨hget, hsent⟩ := hkeys key
  have hconn : t.host.connections.get key = t.host.get key := rfl
  rw [hconn] at hget hsent
  simp only [Entry.call, Entry.closeEstablished, call, entry, Emitted.toList, hres]
  cases hentry : t.host.get key with
  | none =>
    rw [hentry] at hget hsent
    exact ⟨hsent, Entry.ext rfl hcfg.1 hcfg.2 hget rfl⟩
  | some conn =>
    rw [hentry, Option.map_some] at hget
    rw [hentry, Option.bind_some] at hsent
    simp only [Option.bind_some]
    cases hclose : conn.close now with
    | none =>
      rw [hclose] at hget hsent
      exact ⟨hsent, Entry.ext rfl hcfg.1 hcfg.2 hget rfl⟩
    | some r =>
      rw [hclose] at hget hsent
      exact ⟨hsent, Entry.ext rfl hcfg.1 hcfg.2 hget rfl⟩

/-- **A call and one key.** What a call hands back for a key, and what it leaves there, is the
    call's share on the entry of that key. -/
theorem TableState.call_entry (hA : Stateless A) (t : TableState σ) (c : Call)
    (key : ConnKey) :
    segmentsOf key (t.call A oracle c).1.toList = ((t.entry A key).call (oracle key) key c).1 ∧
      (t.call A oracle c).2.entry A key = ((t.entry A key).call (oracle key) key c).2 := by
  cases c with
  | createReply seg now =>
    by_cases hkey : ConnKey.ofSegment seg = key
    · subst hkey
      obtain ⟨hreply, hentry⟩ := t.createReply_entry oracle hA seg now
      simp only [Entry.call, if_pos]
      refine ⟨?_, hentry⟩
      rw [hreply]
      generalize (Entry.createReply _ _ seg now).1 = result
      rcases result with e | _ | info
      · rfl
      · rfl
      · exact (segmentsOf_outgoing _ _ [info]).trans (if_pos rfl)
    · simp only [Entry.call, if_neg hkey]
      refine ⟨?_, t.createReply_entry_ne oracle hA now hkey⟩
      obtain ⟨hreply, -⟩ := t.createReply_entry oracle hA seg now
      rw [hreply]
      generalize (Entry.createReply _ _ seg now).1 = result
      rcases result with e | _ | info
      · rfl
      · rfl
      · exact (segmentsOf_outgoing _ _ [info]).trans (if_neg hkey)
  | makeRetransmissions now late => exact t.makeRetransmissions_entry oracle now late key
  | closeEstablished now => exact t.closeEstablished_entry oracle now key

end Typenet
