import Typenet.Connection.Shift
import Typenet.Lib.KeyedMap
import Typenet.Table.Calls

namespace Typenet

/-!
# Nothing depends on where the numbers start

Renumbering both streams of every connection, the segments that arrive and the initial sequence
numbers that are drawn commutes with every call on the table, so a run from renumbered numbers
is the renumbered run: the same connections in the same states, the same errors, and the same
segments up to their numbers.
-/

variable (r : SeqShift)

/-- An emitted segment after renumbering; the SEG.ACK of a bare RST is a constant. -/
def TcpSegment.shiftOut (seg : TcpSegment .Out) : TcpSegment .Out :=
  { seg with
    seqNum := seg.seqNum.shift r
    ackNum := if seg.flags = .Rst then seg.ackNum else SeqPoint.shift (D := .In) r seg.ackNum }

/-- The table with every connection renumbered; a connection keeps its key and its place. -/
def TcpConnections.shift (self : TcpConnections) : TcpConnections :=
  { self with table := KeyedMap.mapValues (ConnState.shift r) self.table }

/-- A call after renumbering what arrives. -/
def Call.shift : Call → Call
  | .createReply seg now => .createReply (seg.shift r) now
  | .makeRetransmissions now late => .makeRetransmissions now late
  | .closeEstablished now => .closeEstablished now

/-- What a call hands back, after renumbering. -/
def Emitted.shift : Emitted → Emitted
  | .reply result => .reply (result.map fun reply => reply.map (TcpSegment.shiftOut r))
  | .segments list => .segments (list.map (TcpSegment.shiftOut r))

/-- The initial sequence numbers, renumbered as our stream is. -/
def shiftIsn (oracle : ConnKey → Nat → TraceableResult UInt32) (key : ConnKey) (n : Nat) :
    TraceableResult UInt32 :=
  (oracle key n).map fun isn => isn + UInt32.ofBitVec r.own

variable {σ : Type}

/-- The table with its draws, every connection renumbered. -/
def TableState.shift (t : TableState σ) : TableState σ :=
  { t with host := { t.host with connections := t.host.connections.shift r } }

/-- An ISN drawn from the renumbered oracle is the renumbered ISN. -/
theorem SeqPoint.new_shiftIsn (isn : UInt32) :
    (SeqPoint.new (isn + UInt32.ofBitVec r.own).toNat : SeqPoint .Out)
      = (SeqPoint.new isn.toNat).shift r := by
  show (⟨BitVec.ofNat 32 (isn.toBitVec + r.own).toNat⟩ : SeqPoint .Out)
    = ⟨BitVec.ofNat 32 isn.toBitVec.toNat + r.own⟩
  rw [BitVec.ofNat_toNat, BitVec.ofNat_toNat, BitVec.setWidth_eq, BitVec.setWidth_eq]

/-! ### The table -/

namespace TcpConnections

variable (self : TcpConnections)

theorem get_shift (key : ConnKey) : (self.shift r).get key = (self.get key).map (·.shift r) :=
  KeyedMap.lookup_mapValues _ _ _

theorem set_shift (key : ConnKey) (conn : ConnState) :
    (self.shift r).set key (conn.shift r) = (self.set key conn).shift r :=
  congrArg (TcpConnections.mk · _ _) (KeyedMap.insert_mapValues _ _ _ _)

theorem remove_shift (key : ConnKey) : (self.shift r).remove key = (self.remove key).shift r :=
  congrArg (TcpConnections.mk · _ _) (KeyedMap.erase_mapValues _ _ _)

/-- **A segment of no known connection.** -/
theorem handleUnknownConn_shift (seg : TcpSegment .In) (key : ConnKey)
    (randomU32 : TraceableResult UInt32) (now : Instant) :
    (self.shift r).handleUnknownConn (seg.shift r) key
        (randomU32.map fun isn => isn + UInt32.ofBitVec r.own) now
      = ((self.handleUnknownConn seg key randomU32 now).1.map fun reply =>
          reply.map (SendInfo.shift r),
        (self.handleUnknownConn seg key randomU32 now).2.shift r) := by
  unfold handleUnknownConn
  rw [TcpSegment.shift_flags]
  cases seg.flags with
  | Syn =>
    cases randomU32 with
    | error e => rfl
    | ok isn =>
      show (Except.ok (some (synAck (SeqPoint.new (isn + UInt32.ofBitVec r.own).toNat)
          (seg.seqNum.shift r))), (self.shift r).set key (ConnState.opened
            (SeqPoint.new (isn + UInt32.ofBitVec r.own).toNat) (seg.seqNum.shift r) now))
        = (Except.ok (some ((synAck (SeqPoint.new isn.toNat) seg.seqNum).shift r)),
          (self.set key (ConnState.opened (SeqPoint.new isn.toNat) seg.seqNum now)).shift r)
      rw [SeqPoint.new_shiftIsn, ConnState.synAck_shift, ConnState.opened_shift, set_shift]
  | _ => rfl

variable (A : Application σ) (app : σ)

/-- The shifted table decides on a shifted segment as the table on the segment. -/
theorem decideReply_shift (seg : TcpSegment .In) (randomU32 : TraceableResult UInt32)
    (now : Instant) :
    (self.shift r).decideReply A app (seg.shift r)
        (randomU32.map fun isn => isn + UInt32.ofBitVec r.own) now
      = ((self.decideReply A app seg randomU32 now).1.map fun reply =>
          reply.map (SendInfo.shift r),
        (self.decideReply A app seg randomU32 now).2.1,
        (self.decideReply A app seg randomU32 now).2.2.shift r) := by
  have hget : (self.shift r).get (ConnKey.ofSegment (seg.shift r))
      = (self.get (ConnKey.ofSegment seg)).map (·.shift r) := get_shift r self _
  unfold decideReply
  simp only [hget]
  cases self.get (ConnKey.ofSegment seg) with
  | none =>
    have hunknown := handleUnknownConn_shift r self seg (ConnKey.ofSegment seg) randomU32 now
    exact congrArg (fun out => (out.1, app, out.2)) hunknown
  | some conn =>
    simp only [Option.map_some, SendInfo.handleKnownConn_shift]
    generalize SendInfo.handleKnownConn A app seg conn now = handled
    obtain ⟨app, conn, _ | ⟨reply, removed⟩⟩ := handled
    · exact congrArg (fun s => (_, _, s)) (set_shift r self _ conn)
    · cases removed with
      | false => exact congrArg (fun s => (_, _, s)) (set_shift r self _ conn)
      | true =>
        have hrem := remove_shift r (self.set (ConnKey.ofSegment seg) conn) (ConnKey.ofSegment seg)
        rw [← set_shift] at hrem
        exact congrArg (fun s => (Except.ok (reply.map (SendInfo.shift r)), app, s)) hrem

/-- **An incoming segment.** -/
theorem createReply_shift (seg : TcpSegment .In) (randomU32 : TraceableResult UInt32)
    (now : Instant) :
    (self.shift r).createReply A app (seg.shift r)
        (randomU32.map fun isn => isn + UInt32.ofBitVec r.own) now
      = ((self.createReply A app seg randomU32 now).1.map fun reply =>
          reply.map (TcpSegment.shiftOut r),
        (self.createReply A app seg randomU32 now).2.1,
        (self.createReply A app seg randomU32 now).2.2.shift r) := by
  unfold createReply
  rw [decideReply_shift]
  obtain ⟨_ | _ | info, app, self⟩ := self.decideReply A app seg randomU32 now <;> rfl

/-- **The retransmission sweep.** -/
theorem retransmitKeys_shift (now late : Instant) (keys : List ConnKey) :
    retransmitKeys now late keys (self.shift r)
      = ((retransmitKeys now late keys self).1.shift r,
        (retransmitKeys now late keys self).2.map (TcpSegment.shiftOut r)) := by
  induction keys generalizing self with
  | nil => rfl
  | cons key keys ih =>
    unfold retransmitKeys
    rw [get_shift]
    cases self.get key with
    | none => exact ih self
    | some conn =>
      have hre : (conn.shift r).retransmit (self.shift r).rtoConfig (self.shift r).maxRetries now
          late = (conn.retransmit self.rtoConfig self.maxRetries now late).map fun out =>
            (out.1.shift r, out.2.map (SendInfo.shift r)) := conn.retransmit_shift r _ _ now late
      simp only [Option.map_some, hre]
      cases conn.retransmit self.rtoConfig self.maxRetries now late with
      | none =>
        simp only [Option.map_none, remove_shift]
        exact ih _
      | some out =>
        simp only [Option.map_some, set_shift, ih, List.map_append, List.map_map]
        rfl

/-- A sweep of the shifted table sends the shifted segments. -/
theorem makeRetransmissions_shift (now late : Instant) :
    (self.shift r).makeRetransmissions now late
      = ((self.makeRetransmissions now late).1.shift r,
        (self.makeRetransmissions now late).2.map (TcpSegment.shiftOut r)) := by
  have hdue : (self.shift r).dueKeys now late = self.dueKeys now late := by
    unfold dueKeys
    show List.filterMap _ (self.table.entries.map _) = _
    rw [List.filterMap_map]
    apply List.filterMap_congr
    intro e _
    have hany : (e.2.shift r).pending.any (ConnState.isDue self.rtoConfig now late)
        = e.2.pending.any (ConnState.isDue self.rtoConfig now late) := List.any_map
    show (if (e.2.shift r).pending.any (ConnState.isDue self.rtoConfig now late) then _ else _) = _
    rw [hany]
    rfl
  unfold makeRetransmissions
  rw [hdue, retransmitKeys_shift]

/-- **The closing sweep.** -/
theorem closeKeys_shift (now : Instant) (keys : List ConnKey) :
    closeKeys .ok now keys (self.shift r)
      = ((closeKeys .ok now keys self).1.shift r,
        (closeKeys .ok now keys self).2.map fun list => list.map (TcpSegment.shiftOut r)) := by
  induction keys generalizing self with
  | nil => rfl
  | cons key keys ih =>
    unfold closeKeys
    rw [get_shift]
    cases hconn : self.get key with
    | none => exact ih self
    | some conn =>
      simp only [Option.map_some, Option.bind_some, ConnState.close_shift]
      cases conn.close now with
      | none => exact ih self
      | some out =>
        simp only [Option.map_some, set_shift, ih]
        cases (closeKeys .ok now keys (self.set key out.1)).2 <;> rfl

/-- So does a closing sweep. -/
theorem closeEstablished_shift (now : Instant) :
    (self.shift r).closeEstablished .ok now
      = ((self.closeEstablished .ok now).1.shift r,
        (self.closeEstablished .ok now).2.map fun list => list.map (TcpSegment.shiftOut r)) := by
  have hkeys : (self.shift r).table.keys = self.table.keys := KeyedMap.keys_mapValues _ _
  unfold closeEstablished
  rw [hkeys, closeKeys_shift]

end TcpConnections

/-! ### Runs -/

/-- The draws are made for the same segments. -/
theorem TableState.drawnAfter_shift (t : TableState σ) (seg : TcpSegment .In) :
    (t.shift r).drawnAfter (seg.shift r) = t.drawnAfter seg := by
  ext key
  have hget : ((t.shift r).host.get key).isNone = (t.host.get key).isNone := by
    show ((t.host.connections.shift r).get key).isNone = _
    rw [TcpConnections.get_shift, Option.isNone_map]
    rfl
  show (if key = ConnKey.ofSegment seg ∧ _ ∧ seg.flags = .Syn then _ else _) = _
  rw [hget]
  rfl

/-- **A call commutes with renumbering.** -/
theorem TableState.call_shift (A : Application σ)
    (oracle : ConnKey → Nat → TraceableResult UInt32) (t : TableState σ) (c : Call) :
    (t.shift r).call A (shiftIsn r oracle) (c.shift r)
      = ((t.call A oracle c).1.shift r, (t.call A oracle c).2.shift r) := by
  cases c with
  | createReply seg now =>
    have h := t.host.connections.createReply_shift r A t.host.app seg
      (oracle (ConnKey.ofSegment seg) (t.drawn (ConnKey.ofSegment seg))) now
    have hdrawn := t.drawnAfter_shift r seg
    exact congrArg₂ (fun (out : _ × σ × TcpConnections) drawn =>
      (Emitted.reply out.1, TableState.mk ⟨out.2.1, out.2.2⟩ drawn)) h hdrawn
  | makeRetransmissions now late =>
    have h := t.host.connections.makeRetransmissions_shift r now late
    exact congrArg (fun out => (Emitted.segments out.2,
      { t with host := { t.host with connections := out.1 } })) h
  | closeEstablished now =>
    have h := t.host.connections.closeEstablished_shift r now
    have hhost : (t.shift r).host.connections = t.host.connections.shift r := rfl
    simp only [call, Call.shift, hhost, h]
    cases (t.host.connections.closeEstablished .ok now).2 <;> rfl

/-- A table without connections has nothing to renumber. -/
theorem TableState.shift_new (app : σ) (initialRto : Duration) (maxRetries : UInt8)
    (drawn : ConnKey → Nat) :
    TableState.shift r ⟨Host.new app initialRto maxRetries, drawn⟩
      = ⟨Host.new app initialRto maxRetries, drawn⟩ := rfl

/-- **No behaviour depends on where the numbers start.** Add `a` to every SEG.SEQ that arrives and
    `b` to every SEG.ACK that arrives and every ISN that is drawn: from the renumbered table the
    run is the renumbered run, with the same calls of the application.  A run that begins without
    connections begins from the same table. -/
theorem wraparound_transparency (A : Application σ) (a b : BitVec 32)
    (oracle : ConnKey → Nat → TraceableResult UInt32) (calls : List Call) :
    (∀ t : TableState (Recorded σ),
      (t.shift ⟨a, b⟩).run A.recorded (shiftIsn ⟨a, b⟩ oracle) (calls.map (Call.shift ⟨a, b⟩))
        = ((t.run A.recorded oracle calls).1.map (Emitted.shift ⟨a, b⟩),
          (t.run A.recorded oracle calls).2.shift ⟨a, b⟩)) ∧
    ∀ (app : Recorded σ) initialRto maxRetries drawn,
      TableState.shift ⟨a, b⟩ ⟨Host.new app initialRto maxRetries, drawn⟩
        = ⟨Host.new app initialRto maxRetries, drawn⟩ := by
  refine ⟨fun t => ?_, TableState.shift_new ⟨a, b⟩⟩
  exact Mealy.run_hom (TableState.shift ⟨a, b⟩) (Call.shift ⟨a, b⟩) (Emitted.shift ⟨a, b⟩)
    (TableState.call_shift ⟨a, b⟩ A.recorded oracle) calls t

end Typenet
