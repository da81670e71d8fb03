import Typenet.Stack.Tcp.SendInfo
import Mathlib.Data.List.AList

namespace Typenet

/-!
# The connection table

The table is an association list without duplicate keys.  `createReply` processes one
incoming segment; its random source and clock are arguments.  `makeRetransmissions` and
`closeEstablished` sweep the whole table: each visits a list of keys and writes one
connection back at a time.  The closing sweep is a lazy iterator in the code, so it is
modelled with the consumer of its items: an error of the consumer ends the sweep.
-/

/-- Key identifying a TCP connection. -/
structure ConnKey where
  clientIp : Ipv4Addr
  clientPort : UInt16
  serverIp : Ipv4Addr
  serverPort : UInt16
  deriving DecidableEq, Repr

/-- The key of the connection an incoming segment belongs to. -/
def ConnKey.ofSegment (seg : TcpSegment .In) : ConnKey where
  clientIp := seg.ipPair.src
  clientPort := seg.ports.src
  serverIp := seg.ipPair.dst
  serverPort := seg.ports.dst

/-- The addresses of a segment sent to the client of `key`. -/
def ConnKey.outgoing (key : ConnKey) (info : SendInfo) : TcpSegment .Out :=
  TcpSegment.fromPairsAndInfo ⟨key.serverIp, key.clientIp⟩ ⟨key.serverPort, key.clientPort⟩ info

abbrev ConnTable := AList (fun _ : ConnKey => ConnState)

/-- Tracks per-connection state keyed by the 4-tuple. -/
structure TcpConnections where
  table : ConnTable
  rtoConfig : RtoConfig
  maxRetries : UInt8

namespace TcpConnections

/-- `TcpConnections::new`. -/
def new (initialRto : Duration) (maxRetries : UInt8) : TcpConnections where
  table := ∅
  rtoConfig := ⟨initialRto, TCP_RTO_MIN, TCP_RTO_MAX, by decide⟩
  maxRetries := maxRetries

/-- The connection stored under `key`. -/
def get (self : TcpConnections) (key : ConnKey) : Option ConnState := self.table.lookup key

/-- Writes a connection back under its key. -/
def set (self : TcpConnections) (key : ConnKey) (conn : ConnState) : TcpConnections :=
  { self with table := self.table.insert key conn }

def remove (self : TcpConnections) (key : ConnKey) : TcpConnections :=
  { self with table := self.table.erase key }

@[simp] theorem get_new (d : Duration) (r : UInt8) (key : ConnKey) :
    (new d r).get key = none := rfl

@[simp] theorem get_set_self (self : TcpConnections) (key : ConnKey) (conn : ConnState) :
    (self.set key conn).get key = some conn := AList.lookup_insert _

theorem get_set_ne (self : TcpConnections) {key key' : ConnKey} (conn : ConnState)
    (h : key' ≠ key) : (self.set key conn).get key' = self.get key' :=
  AList.lookup_insert_ne h

@[simp] theorem get_remove_self (self : TcpConnections) (key : ConnKey) :
    (self.remove key).get key = none := AList.lookup_erase _ _

theorem get_remove_ne (self : TcpConnections) {key key' : ConnKey} (h : key' ≠ key) :
    (self.remove key).get key' = self.get key' :=
  AList.lookup_erase_ne h

/-- Adds a new SYN-RECEIVED connection to the table. -/
def insertSynRcv (self : TcpConnections) (key : ConnKey) (state : ConnState) :
    TraceableResult Unit × TcpConnections :=
  if state.tcpState = .SynReceived then (.ok (), self.set key state)
  else (.error (.static
    "Attempted to insert a connection with a state other than SYN-RECEIVED"), self)

/-- Whether any connection is currently mid-close. -/
def closingInProgress (self : TcpConnections) : Bool :=
  self.table.entries.any fun e =>
    match e.2.tcpState with
    -- no FIN has been sent or received
    | .SynReceived | .Established _ => false
    | .FinWait1 _ | .FinWait2 _ | .CloseWait _ | .Closing _ | .LastAck _ => true

/-! ### Incoming segments -/

/-- An unknown connection: SYN opens one, RST is dropped, anything else is reset. -/
def handleUnknownConn (self : TcpConnections) (seg : TcpSegment .In) (key : ConnKey)
    (randomU32 : TraceableResult UInt32) (now : Instant) :
    TraceableResult (Option SendInfo) × TcpConnections :=
  match seg.flags with
  | .Syn =>
    match randomU32 with
    | .error e => (.error e, self)
    | .ok isn =>
      let sendInfo : SendInfo :=
        { seqNum := SeqPoint.new isn.toNat, ackNum := seg.seqNum + SYN_BYTE, flags := .SynAck,
          payload := none }
      -- neither of the two checks that follow can fail on a SYN-ACK
      match ConnState.fromSynAck sendInfo now with
      | .error e => (.error e, self)
      | .ok conn =>
        match self.insertSynRcv key conn with
        | (.error e, self) => (.error e, self)
        | (.ok (), self) => (.ok (some sendInfo), self)
  | .Rst | .RstAck => (.ok none, self)
  | .SynAck | .Ack | .FinAck => (.ok (some (SendInfo.rst seg)), self)

variable {σ : Type}

/-- Decides on a reply to `seg`, updating the application and the table. -/
def decideReply (A : Application σ) (app : σ) (self : TcpConnections) (seg : TcpSegment .In)
    (randomU32 : TraceableResult UInt32) (now : Instant) :
    TraceableResult (Option SendInfo) × σ × TcpConnections :=
  let key := ConnKey.ofSegment seg
  match self.get key with
  | none =>
    let (result, self) := self.handleUnknownConn seg key randomU32 now
    (result, app, self)
  | some conn =>
    let handled := SendInfo.handleKnownConn A app seg conn now
    -- the handler works on the entry itself: what it changed stays also where it fails
    let self := self.set key handled.conn
    match handled.result with
    | .error e => (.error e, handled.app, self)
    | .ok (maybeSendInfo, removeConn) =>
      (.ok maybeSendInfo, handled.app, if removeConn then self.remove key else self)

/-- `TcpSegment::create_reply`: the segment answering `seg`, with its addresses swapped. -/
def createReply (A : Application σ) (app : σ) (self : TcpConnections) (seg : TcpSegment .In)
    (randomU32 : TraceableResult UInt32) (now : Instant) :
    TraceableResult (Option (TcpSegment .Out)) × σ × TcpConnections :=
  let (result, app, self) := self.decideReply A app seg randomU32 now
  (result.map fun maybeSendInfo => maybeSendInfo.map
    (TcpSegment.fromPairsAndInfo seg.ipPair.swapped seg.ports.swapped), app, self)

end TcpConnections

/-! ### Retransmission -/

/-- The earliest instant at which a pending segment of any connection becomes due; `late` is the
    clock's reading where a due time overflows. -/
def TcpConnections.nextRetransmitDeadline (self : TcpConnections) (late : Instant) :
    Option Instant :=
  ((self.table.entries.flatMap fun e => e.2.pending).map fun p =>
    p.timeDue self.rtoConfig late).min?

namespace ConnState

/-- Whether a pending segment is due; `late` is the clock's reading where the due time
    overflows. -/
def isDue (rto : RtoConfig) (now late : Instant) (p : PendingSegment) : Bool :=
  decide (p.timeDue rto late ≤ now)

/-- One connection of the retransmission sweep: nothing if a due segment has exhausted its
    retries, otherwise the connection with its due segments resent, and those segments. -/
def retransmit (self : ConnState) (rto : RtoConfig) (maxRetries : UInt8) (now late : Instant) :
    Option (ConnState × List SendInfo) :=
  -- one due segment out of retries gives up the whole connection
  if self.pending.any fun p => isDue rto now late p && p.exhaustedRetries maxRetries then none
  else some (
    { self with pending := self.pending.map fun p =>
        if isDue rto now late p then p.retransmitted now else p },
    (self.pending.filter (isDue rto now late)).map (·.sendInfo))

/-- One connection of the closing sweep: an ESTABLISHED connection sends its FIN and moves
    to FIN-WAIT-1. -/
def close (self : ConnState) (now : Instant) : Option (ConnState × SendInfo) :=
  match self.tcpState with
  | .Established established =>
    let sendInfo : SendInfo :=
      { seqNum := self.sndNxt, ackNum := self.rcvNxt, flags := .FinAck, payload := none }
    some ({ self with
      tcpState := .FinWait1 established.close
      sndNxt := self.sndNxt + FIN_BYTE
      pending := self.pending ++ [PendingSegment.new sendInfo now] }, sendInfo)
  | _ => none

/-- The sweep gives a connection up exactly when a due segment is out of retries. -/
theorem retransmit_eq_none {self : ConnState} {rto : RtoConfig} {maxRetries : UInt8}
    {now late : Instant} :
    self.retransmit rto maxRetries now late = none ↔
      ∃ p ∈ self.pending, isDue rto now late p = true ∧ p.exhaustedRetries maxRetries = true := by
  unfold retransmit
  split
  case isTrue hany => simpa using hany
  case isFalse hany => simpa using hany

end ConnState

namespace TcpConnections

/-- The connections with a due segment. -/
def dueKeys (self : TcpConnections) (now late : Instant) : List ConnKey :=
  self.table.entries.filterMap fun e =>
    if e.2.pending.any (ConnState.isDue self.rtoConfig now late) then some e.1 else none

/-- The second pass of the retransmission sweep, over the keys collected by the first. -/
def retransmitKeys (now late : Instant) :
    List ConnKey → TcpConnections → TcpConnections × List (TcpSegment .Out)
  | [], self => (self, [])
  | key :: keys, self =>
    match self.get key with
    -- not reached: the keys were collected from this table, and each is visited once
    | none => retransmitKeys now late keys self
    | some conn =>
      match conn.retransmit self.rtoConfig self.maxRetries now late with
      -- out of retries
      | none => retransmitKeys now late keys (self.remove key)
      | some (conn, resent) =>
        let (self, rest) := retransmitKeys now late keys (self.set key conn)
        (self, resent.map key.outgoing ++ rest)

/-- Reproduces every pending segment that is due, giving up on connections with a due
    segment out of retries. -/
def makeRetransmissions (self : TcpConnections) (now late : Instant) :
    TcpConnections × List (TcpSegment .Out) :=
  retransmitKeys now late (self.dueKeys now late) self

/-! ### Active close -/

/-- The closing sweep over `keys`, each segment handed to `consume` before the next
    connection is visited. -/
def closeKeys {β : Type} (consume : TcpSegment .Out → TraceableResult β) (now : Instant) :
    List ConnKey → TcpConnections → TcpConnections × TraceableResult (List β)
  | [], self => (self, .ok [])
  | key :: keys, self =>
    -- connections outside ESTABLISHED are passed over
    match (self.get key).bind fun conn => conn.close now with
    | none => closeKeys consume now keys self
    | some (conn, sendInfo) =>
      let self := self.set key conn
      match consume (key.outgoing sendInfo) with
      -- this connection is closed already, the ones behind it are not
      | .error e => (self, .error e)
      | .ok item =>
        let (self, rest) := closeKeys consume now keys self
        (self, rest.map (item :: ·))

/-- Initiates active close for every ESTABLISHED connection, with `consume` applied to the
    items of the iterator and the results collected. -/
def closeEstablished {β : Type} (self : TcpConnections)
    (consume : TcpSegment .Out → TraceableResult β) (now : Instant) :
    TcpConnections × TraceableResult (List β) :=
  closeKeys consume now self.table.keys self

end TcpConnections

end Typenet
