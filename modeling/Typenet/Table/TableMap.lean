import Typenet.Lib.KeyedMap
import Typenet.Table.Calls

namespace Typenet

/-!
# Maps between tables

A `TableMap` changes connections, applications, and the segments that arrive and leave, in such a
way that every function on a single connection commutes with the change.  It carries these facts
as its fields.  The table only looks connections up, so the calls on the table commute as well
(`TableMap.call`), and with them whole runs (`TableMap.run`).
-/

variable {σ τ : Type}

/-- A change of connections and segments that every function on one connection commutes with. -/
structure TableMap (A : Application σ) (B : Application τ) where
  app : σ → τ
  conn : ConnState → ConnState
  seg : TcpSegment .In → TcpSegment .In
  info : SendInfo → SendInfo
  out : TcpSegment .Out → TcpSegment .Out
  /-- The key and the flags of a segment stay. -/
  ipPair_seg : ∀ s, (seg s).ipPair = s.ipPair
  ports_seg : ∀ s, (seg s).ports = s.ports
  flags_seg : ∀ s, (seg s).flags = s.flags
  /-- What is sent comes out changed. -/
  out_info : ∀ ipPair ports i, TcpSegment.fromPairsAndInfo ipPair ports (info i)
    = out (TcpSegment.fromPairsAndInfo ipPair ports i)
  rst_seg : ∀ s, SendInfo.rst (seg s) = info (SendInfo.rst s)
  synAck_seg : ∀ iss s, synAck iss (seg s).seqNum = info (synAck iss s.seqNum)
  opened_seg : ∀ iss s now,
    ConnState.opened iss (seg s).seqNum now = conn (ConnState.opened iss s.seqNum now)
  handled : ∀ a s c now, SendInfo.handleKnownConn B (app a) (seg s) (conn c) now
    = { app := app (SendInfo.handleKnownConn A a s c now).app
        conn := conn (SendInfo.handleKnownConn A a s c now).conn
        result := (SendInfo.handleKnownConn A a s c now).result.map fun r => (r.1.map info, r.2) }
  due : ∀ c rto now late, (conn c).pending.any (ConnState.isDue rto now late)
    = c.pending.any (ConnState.isDue rto now late)
  retransmit : ∀ c rto maxRetries now late, (conn c).retransmit rto maxRetries now late
    = (c.retransmit rto maxRetries now late).map fun r => (conn r.1, r.2.map info)
  close : ∀ c now, (conn c).close now = (c.close now).map fun r => (conn r.1, info r.2)

namespace TableMap

variable {A : Application σ} {B : Application τ} (T : TableMap A B)

/-- The table with every connection changed; a connection keeps its key and its place. -/
def connections (self : TcpConnections) : TcpConnections :=
  { self with table := KeyedMap.mapValues T.conn self.table }

/-- The table with its application and its draws. -/
def state (t : TableState σ) : TableState τ where
  host := ⟨T.app t.host.app, T.connections t.host.connections⟩
  drawn := t.drawn

/-- A call with what arrives changed. -/
def call : Call → Call
  | .createReply seg now => .createReply (T.seg seg) now
  | .makeRetransmissions now late => .makeRetransmissions now late
  | .closeEstablished now => .closeEstablished now

/-- What a call hands back, changed. -/
def emitted : Emitted → Emitted
  | .reply result => .reply (result.map fun reply => reply.map T.out)
  | .segments list => .segments (list.map T.out)

/-- A reply before it is addressed. -/
def reply (result : TraceableResult (Option SendInfo)) : TraceableResult (Option SendInfo) :=
  result.map fun info => info.map T.info

/-! ### One call -/

section Calls

variable (self : TcpConnections)

theorem get (key : ConnKey) : (T.connections self).get key = (self.get key).map T.conn :=
  KeyedMap.lookup_mapValues _ _ _

theorem set (key : ConnKey) (c : ConnState) :
    (T.connections self).set key (T.conn c) = T.connections (self.set key c) :=
  congrArg (TcpConnections.mk · _ _) (KeyedMap.insert_mapValues _ _ _ _)

theorem remove (key : ConnKey) :
    (T.connections self).remove key = T.connections (self.remove key) :=
  congrArg (TcpConnections.mk · _ _) (KeyedMap.erase_mapValues _ _ _)

/-- A mapped segment belongs to the same connection. -/
theorem ofSegment (s : TcpSegment .In) : ConnKey.ofSegment (T.seg s) = ConnKey.ofSegment s := by
  simp [ConnKey.ofSegment, T.ipPair_seg, T.ports_seg]

/-- **A segment of no known connection.** -/
theorem handleUnknownConn (s : TcpSegment .In) (key : ConnKey)
    (randomU32 : TraceableResult UInt32) (now : Instant) :
    (T.connections self).handleUnknownConn (T.seg s) key randomU32 now
      = (T.reply (self.handleUnknownConn s key randomU32 now).1,
        T.connections (self.handleUnknownConn s key randomU32 now).2) := by
  unfold TcpConnections.handleUnknownConn
  rw [T.flags_seg]
  cases s.flags with
  | Syn =>
    cases randomU32 with
    | error e => rfl
    | ok isn =>
      show (Except.ok (some (synAck (SeqPoint.new isn.toNat) (T.seg s).seqNum)),
          (T.connections self).set key
            (ConnState.opened (SeqPoint.new isn.toNat) (T.seg s).seqNum now))
        = (Except.ok (some (T.info (synAck (SeqPoint.new isn.toNat) s.seqNum))),
          T.connections (self.set key (ConnState.opened (SeqPoint.new isn.toNat) s.seqNum now)))
      rw [T.synAck_seg, T.opened_seg, T.set]
  | SynAck | Ack | FinAck =>
    simp only [T.rst_seg]
    rfl
  | Rst | RstAck => rfl

/-- The table decides on a mapped segment as on the segment. -/
theorem decideReply (a : σ) (s : TcpSegment .In) (randomU32 : TraceableResult UInt32)
    (now : Instant) :
    (T.connections self).decideReply B (T.app a) (T.seg s) randomU32 now
      = (T.reply (self.decideReply A a s randomU32 now).1,
        T.app (self.decideReply A a s randomU32 now).2.1,
        T.connections (self.decideReply A a s randomU32 now).2.2) := by
  unfold TcpConnections.decideReply
  simp only [T.ofSegment, T.get]
  cases self.get (ConnKey.ofSegment s) with
  | none =>
    have hunknown := T.handleUnknownConn self s (ConnKey.ofSegment s) randomU32 now
    exact congrArg (fun r => (r.1, T.app a, r.2)) hunknown
  | some c =>
    simp only [Option.map_some, T.handled]
    generalize SendInfo.handleKnownConn A a s c now = handled
    obtain ⟨a, c, _ | ⟨reply, removed⟩⟩ := handled
    · exact congrArg (fun t => (_, _, t)) (T.set self _ c)
    · cases removed with
      | false => exact congrArg (fun t => (_, _, t)) (T.set self _ c)
      | true =>
        have hremove := T.remove (self.set (ConnKey.ofSegment s) c) (ConnKey.ofSegment s)
        rw [← T.set] at hremove
        exact congrArg (fun t => (Except.ok (reply.map T.info), T.app a, t)) hremove

/-- **An incoming segment.** -/
theorem createReply (a : σ) (s : TcpSegment .In) (randomU32 : TraceableResult UInt32)
    (now : Instant) :
    (T.connections self).createReply B (T.app a) (T.seg s) randomU32 now
      = ((self.createReply A a s randomU32 now).1.map fun reply => reply.map T.out,
        T.app (self.createReply A a s randomU32 now).2.1,
        T.connections (self.createReply A a s randomU32 now).2.2) := by
  unfold TcpConnections.createReply
  rw [T.decideReply, T.ipPair_seg, T.ports_seg]
  obtain ⟨_ | _ | info, a, self⟩ := self.decideReply A a s randomU32 now
  · rfl
  · rfl
  · simp [reply, Except.map, T.out_info]

/-- **The retransmission sweep.** -/
theorem retransmitKeys (now late : Instant) (keys : List ConnKey) :
    TcpConnections.retransmitKeys now late keys (T.connections self)
      = (T.connections (TcpConnections.retransmitKeys now late keys self).1,
        (TcpConnections.retransmitKeys now late keys self).2.map T.out) := by
  induction keys generalizing self with
  | nil => rfl
  | cons key keys ih =>
    unfold TcpConnections.retransmitKeys
    rw [T.get]
    cases self.get key with
    | none => exact ih self
    | some c =>
      have hre : (T.conn c).retransmit (T.connections self).rtoConfig
          (T.connections self).maxRetries now late
          = (c.retransmit self.rtoConfig self.maxRetries now late).map fun r =>
            (T.conn r.1, r.2.map T.info) := T.retransmit c _ _ now late
      simp only [Option.map_some, hre]
      cases c.retransmit self.rtoConfig self.maxRetries now late with
      | none =>
        simp only [Option.map_none, T.remove]
        exact ih _
      | some r =>
        have hout : ∀ i, key.outgoing (T.info i) = T.out (key.outgoing i) :=
          fun i => T.out_info _ _ i
        simp [T.set, ih, hout]

/-- A sweep of the mapped table sends the mapped segments. -/
theorem makeRetransmissions (now late : Instant) :
    (T.connections self).makeRetransmissions now late
      = (T.connections (self.makeRetransmissions now late).1,
        (self.makeRetransmissions now late).2.map T.out) := by
  have hdue : (T.connections self).dueKeys now late = self.dueKeys now late := by
    unfold TcpConnections.dueKeys
    show List.filterMap _ (self.table.entries.map _) = _
    rw [List.filterMap_map]
    apply List.filterMap_congr
    intro e _
    have hany := T.due e.2 self.rtoConfig now late
    show (if (T.conn e.2).pending.any (ConnState.isDue self.rtoConfig now late) then _ else _) = _
    rw [hany]
    rfl
  unfold TcpConnections.makeRetransmissions
  rw [hdue, T.retransmitKeys]

/-- **The closing sweep.** -/
theorem closeKeys (now : Instant) (keys : List ConnKey) :
    TcpConnections.closeKeys .ok now keys (T.connections self)
      = (T.connections (TcpConnections.closeKeys .ok now keys self).1,
        (TcpConnections.closeKeys .ok now keys self).2.map fun list => list.map T.out) := by
  induction keys generalizing self with
  | nil => rfl
  | cons key keys ih =>
    unfold TcpConnections.closeKeys
    rw [T.get]
    cases self.get key with
    | none => exact ih self
    | some c =>
      simp only [Option.map_some, Option.bind_some, T.close]
      cases c.close now with
      | none => exact ih self
      | some r =>
        have hout : key.outgoing (T.info r.2) = T.out (key.outgoing r.2) := T.out_info _ _ _
        simp only [Option.map_some, T.set, ih, hout]
        cases (TcpConnections.closeKeys .ok now keys (self.set key r.1)).2 <;> rfl

/-- So does a closing sweep. -/
theorem closeEstablished (now : Instant) :
    (T.connections self).closeEstablished .ok now
      = (T.connections (self.closeEstablished .ok now).1,
        (self.closeEstablished .ok now).2.map fun list => list.map T.out) := by
  have hkeys : (T.connections self).table.keys = self.table.keys := KeyedMap.keys_mapValues _ _
  unfold TcpConnections.closeEstablished
  rw [hkeys, T.closeKeys]

end Calls

/-! ### Runs -/

/-- The draws are made for the same segments. -/
theorem drawnAfter (t : TableState σ) (s : TcpSegment .In) :
    (T.state t).drawnAfter (T.seg s) = t.drawnAfter s := by
  ext key
  have hget : ((T.state t).host.get key).isNone = (t.host.get key).isNone := by
    show ((T.connections t.host.connections).get key).isNone = _
    rw [T.get, Option.isNone_map]
    rfl
  unfold TableState.drawnAfter
  rw [hget, T.ofSegment, T.flags_seg]
  rfl

/-- **A call on the changed table** is the changed call. -/
theorem call_state (oracle : ConnKey → Nat → TraceableResult UInt32) (t : TableState σ) (c : Call) :
    (T.state t).call B oracle (T.call c)
      = (T.emitted (t.call A oracle c).1, T.state (t.call A oracle c).2) := by
  cases c with
  | createReply s now =>
    have hreply := T.createReply t.host.connections t.host.app s
      (oracle (ConnKey.ofSegment s) (t.drawn (ConnKey.ofSegment s))) now
    simp only [TableState.call, call, T.ofSegment]
    exact congrArg₂ (fun (out : _ × τ × TcpConnections) drawn =>
      (Emitted.reply out.1, TableState.mk ⟨out.2.1, out.2.2⟩ drawn)) hreply (T.drawnAfter t s)
  | makeRetransmissions now late =>
    have hsweep := T.makeRetransmissions t.host.connections now late
    exact congrArg (fun out => (Emitted.segments out.2,
      { T.state t with host := { (T.state t).host with connections := out.1 } })) hsweep
  | closeEstablished now =>
    have hclose := T.closeEstablished t.host.connections now
    have hhost : (T.state t).host.connections = T.connections t.host.connections := rfl
    simp only [TableState.call, call, hhost, hclose]
    cases (t.host.connections.closeEstablished .ok now).2 <;> rfl

/-- **A run on the changed table** is the changed run. -/
theorem run_state (oracle : ConnKey → Nat → TraceableResult UInt32) (t : TableState σ)
    (calls : List Call) : (T.state t).run B oracle (calls.map T.call)
      = ((t.run A oracle calls).1.map T.emitted, T.state (t.run A oracle calls).2) :=
  Mealy.run_hom T.state T.call T.emitted (T.call_state oracle) calls t

end TableMap

end Typenet
