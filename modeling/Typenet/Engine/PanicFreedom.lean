import Typenet.Engine.Atomicity

namespace Typenet

/-!
# Freedom from panics

Slice accesses return `Res` everywhere in the model, so that a panic is one of their outcomes.
Four more operations of the stack can panic: an addition and a multiplication of lengths,
`VecDeque::drain` and `Ord::clamp`.  The model states them on the values for which they do not
panic.  Here each is a partial operation, and the functions that use one are written again with
it:

* `Ipv4Header.ihlBytesChecked`, `pseudoHdrCksumChecked`, `Ipv4Packet.writeIntoChecked` — lengths
  and ranges;
* `SyncedState.drainTransmittableChecked` — the send buffer;
* `PendingSegment.timeDueChecked` — the retransmission timeout.

`Engine.PanicFree` says that none of them ever takes its failure branch and that no packet makes
the engine panic; every reachable engine is `PanicFree`.
-/

/-! ### Operations that can panic -/

namespace Checked

/-- `+` on `usize`, which panics on overflow. -/
def addUsize (a b : Nat) : Res Nat := if a + b < 2 ^ 64 then .ok (a + b) else .error .panic

/-- `*` on `usize`, which panics on overflow. -/
def mulUsize (a b : Nat) : Res Nat := if a * b < 2 ^ 64 then .ok (a * b) else .error .panic

/-- `VecDeque::drain(..n)`, which panics past the end of the buffer. -/
def drain (buffer : List UInt8) (n : Nat) : Res (List UInt8 × List UInt8) :=
  if n ≤ buffer.length then .ok (buffer.take n, buffer.drop n) else .error .panic

/-- `Ord::clamp`, which panics on an empty range. -/
def clamp (d min max : Duration) : Res Duration :=
  if min ≤ max then .ok (if d < min then min else if max < d then max else d) else .error .panic

/-- The checked range of a clamp is the one that `Duration.clamp` asks for. -/
theorem clamp_eq (d : Duration) {min max : Duration} (h : min ≤ max) :
    clamp d min max = .ok (d.clamp min max h) := if_pos h

end Checked

/-! ### Lengths and ranges -/

/-- The header length in bytes, `usize::from(ip_hdr[0] & 0xF) * 4`. -/
def Ipv4Header.ihlBytesChecked (first : UInt8) : Res Nat :=
  Checked.mulUsize (first &&& 0xF).toNat 4

/-- A header length fits. -/
theorem Ipv4Header.ihlBytesChecked_eq (first : UInt8) :
    ihlBytesChecked first = .ok (ihlBytes first) := by
  have hlt : (first &&& 0xF).toNat < 2 ^ 8 := (first &&& 0xF).toNat_lt
  exact if_pos (by omega)

/-- `pseudo_hdr_cksum` with its addition checked. -/
def pseudoHdrCksumChecked {D : Direction} (data : List UInt8) (ipPair : Ipv4AddrPair D)
    (protocol : Protocol) : Res UInt16 := do
  let protoLen ← Res.ofResult (u16TryFrom data.length)
  let cksumLen ← Checked.addUsize PSEUDO_HDR_LEN protoLen.toNat
  let cksumData := List.replicate (PSEUDO_HDR_LEN + ETHERNET_MTU) 0
  let cksumData ← copyIndexed cksumData (.range 0 4) ipPair.src.octets
  let cksumData ← copyIndexed cksumData (.range 4 8) ipPair.dst.octets
  let cksumData ← writeIndexed cksumData 9 protocol.toU8
  let cksumData ← copyIndexed cksumData (.range 10 12) (toBeBytes16 protoLen)
  let cksumData ← copyInto cksumData (.range PSEUDO_HDR_LEN cksumLen) data
  let covered ← tryGet cksumData (.to cksumLen)
  .ok (Checksum.calculate covered)

/-- The length of the covered data fits. -/
theorem pseudoHdrCksumChecked_eq {D : Direction} (data : List UInt8) (ipPair : Ipv4AddrPair D)
    (protocol : Protocol) :
    pseudoHdrCksumChecked data ipPair protocol = pseudoHdrCksum data ipPair protocol := by
  have hadd : ∀ protoLen : UInt16, Checked.addUsize PSEUDO_HDR_LEN protoLen.toNat
      = .ok (PSEUDO_HDR_LEN + protoLen.toNat) := by
    intro protoLen
    have hlt : protoLen.toNat < 2 ^ 16 := protoLen.toNat_lt
    have hPSEUDO : PSEUDO_HDR_LEN = 12 := rfl
    exact if_pos (by omega)
  unfold pseudoHdrCksumChecked pseudoHdrCksum
  simp only [hadd, Res.ok_bind]

/-- `Ipv4Packet::write_into` with the range `buf[REPLY_HDR_LEN..]` checked. -/
def Ipv4Packet.writeIntoChecked (self : Ipv4Packet .Out) (buf : List UInt8) :
    Res (List UInt8) := do
  let rest ← readIndexed buf (.range REPLY_HDR_LEN buf.length)
  let written ← self.router.writeInto rest
  let protoLen ← Res.ofResult self.router.protoLen
  let ipv4Hdr ← Res.ofResult
    (Ipv4Header.innerTryNew self.router.proto self.router.getIpPair protoLen)
  ipv4Hdr.innerWriteInto (buf.take REPLY_HDR_LEN ++ written)

/-- The write buffer has room for a header. -/
theorem Ipv4Packet.writeIntoChecked_eq (self : Ipv4Packet .Out) {buf : List UInt8}
    (hbuf : buf.length = ETHERNET_MTU) : self.writeIntoChecked buf = self.writeInto buf := by
  have hrange : REPLY_HDR_LEN ≤ buf.length ∧ buf.length ≤ buf.length :=
    ⟨by rw [hbuf]; decide, Nat.le_refl _⟩
  have hread : readIndexed buf (.range REPLY_HDR_LEN buf.length)
      = .ok (buf.drop REPLY_HDR_LEN) := by
    show (if REPLY_HDR_LEN ≤ buf.length ∧ buf.length ≤ buf.length then
      Except.ok ((buf.take buf.length).drop REPLY_HDR_LEN) else _) = _
    rw [if_pos hrange, List.take_length]
  rw [writeIntoChecked, hread]
  rfl

/-! ### The send buffer -/

/-- `drain_transmittable` with its drain checked. -/
def SyncedState.drainTransmittableChecked {T : Synced} [SendSideOpen T] (self : SyncedState T)
    (conn : ConnState) : Res (Option TcpPayload) × ConnState :=
  match usizeTryFrom (conn.sndNxt.sub conn.sndUna) with
  | .error e => (.error (.err e), conn)
  | .ok sentButNotAcked =>
    let spaceInWindow := self.windowState.sndWnd.toNat - sentButNotAcked
    let bytesToSend := min (min spaceInWindow conn.sendBuffer.length) MAX_PAYLOAD_LEN
    match Checked.drain conn.sendBuffer bytesToSend with
    | .error fault => (.error fault, conn)
    | .ok (drained, left) =>
      (Res.ofResult (TcpPayload.tryFromIter drained), { conn with sendBuffer := left })

/-- **No drain runs past the end of the send buffer**, whatever the connection is. -/
theorem SyncedState.drainTransmittableChecked_eq {T : Synced} [SendSideOpen T]
    (self : SyncedState T) (conn : ConnState) :
    self.drainTransmittableChecked conn
      = (Res.ofResult (self.drainTransmittable conn).1, (self.drainTransmittable conn).2) := by
  unfold drainTransmittableChecked drainTransmittable
  cases usizeTryFrom (conn.sndNxt.sub conn.sndUna) with
  | error e => rfl
  | ok sentButNotAcked =>
    have hle : min (min (self.windowState.sndWnd.toNat - sentButNotAcked)
        conn.sendBuffer.length) MAX_PAYLOAD_LEN ≤ conn.sendBuffer.length := by omega
    simp only [Checked.drain, if_pos hle, drainFront]

/-! ### The retransmission timeout -/

/-- `time_due` with its clamp checked, for a timeout configured by three durations. -/
def PendingSegment.timeDueChecked (self : PendingSegment) (initial min max : Duration)
    (now : Instant) : Res Instant := do
  let delay ← Checked.clamp (initial.saturatingMul (backoff self.retries)) min max
  .ok ((self.lastSentAt.checkedAdd delay).getD now)

theorem PendingSegment.timeDueChecked_eq (self : PendingSegment) (rto : RtoConfig)
    (now : Instant) :
    self.timeDueChecked rto.initial rto.min rto.max now = .ok (self.timeDue rto now) := by
  unfold timeDueChecked
  rw [Checked.clamp_eq _ rto.min_le_max]
  rfl

/-- The timeouts of a production table. -/
def TcpConnections.Production (self : TcpConnections) : Prop :=
  self.rtoConfig.min = TCP_RTO_MIN ∧ self.rtoConfig.max = TCP_RTO_MAX

variable {σ : Type} {A : Application σ}

/-- Every reachable engine has the timeouts that it was built with. -/
theorem Engine.production {app : σ} {initialRto : Duration} {maxRetries : UInt8}
    {grace : Duration} {es : List Event} {engine : Engine σ}
    (hrun : Runs.Run (step A) (fun _ _ => True) (new app initialRto maxRetries grace) es engine) :
    engine.tcpConnections.Production := by
  refine hrun.state_invariant (I := fun engine => engine.tcpConnections.Production)
    ⟨rfl, rfl⟩ ?_
  intro engine ev hprod _
  obtain ⟨e, heq⟩ := engine.host_step A ev
  obtain ⟨⟨hrto, -⟩, -⟩ := engine.host.step_get (A := A) e ⟨⟨0, 0, 0, 0⟩, 0, ⟨0, 0, 0, 0⟩, 0⟩
  have hsame : (engine.step A ev).tcpConnections.rtoConfig = engine.tcpConnections.rtoConfig := by
    show (engine.step A ev).host.connections.rtoConfig = _
    rw [heq]
    exact hrto
  unfold TcpConnections.Production
  rw [hsame]
  exact hprod

/-! ### The engine -/

namespace Engine

/-- No operation that can panic does so while the engine handles an event or one of the packets
    that it hands out is encoded. -/
structure PanicFree (A : Application σ) (engine : Engine σ) : Prop where
  /-- Parsing and answering any bytes, with every slice access on the way. -/
  handles : ∀ data randomU32 now, (engine.handlePacket A data randomU32 now).1 ≠ .error .panic
  /-- The lengths computed while parsing. -/
  lengths : ∀ first, Ipv4Header.ihlBytesChecked first = .ok (Ipv4Header.ihlBytes first)
  /-- The checksums computed while parsing and encoding. -/
  checksums : ∀ {D : Direction} (data : List UInt8) (ipPair : Ipv4AddrPair D) (protocol : Protocol),
    pseudoHdrCksumChecked data ipPair protocol ≠ .error .panic ∧
      pseudoHdrCksumChecked data ipPair protocol = pseudoHdrCksum data ipPair protocol
  /-- Every drain of a send buffer, in each of the two states that have one. -/
  drains : ∀ {T : Synced} [SyncedState.SendSideOpen T] (s : SyncedState T) (conn : ConnState),
    s.drainTransmittableChecked conn
      = (Res.ofResult (s.drainTransmittable conn).1, (s.drainTransmittable conn).2)
  /-- Every due time of a pending segment. -/
  clamps : ∀ (p : PendingSegment) (late : Instant),
    p.timeDueChecked engine.tcpConnections.rtoConfig.initial TCP_RTO_MIN TCP_RTO_MAX late
      = .ok (p.timeDue engine.tcpConnections.rtoConfig late)
  /-- Encoding any packet, be it a reply, a retransmission or a FIN. -/
  encodes : ∀ (packet : Ipv4Packet .Out) (buf : List UInt8), buf.length = ETHERNET_MTU →
    packet.writeIntoChecked buf ≠ .error .panic

/-- **Freedom from panics.** No reachable engine reaches a panic, whatever bytes it is given, and
    neither does encoding what it hands out. -/
theorem panicFree (A : Application σ) (app : σ) (initialRto : Duration) (maxRetries : UInt8)
    (grace : Duration) (es : List Event) (engine : Engine σ)
    (hrun : Runs.Run (step A) (fun _ _ => True) (new app initialRto maxRetries grace) es engine) :
    engine.PanicFree A := by
  obtain ⟨hmin, hmax⟩ := production hrun
  constructor
  case handles => exact engine.handlePacket_ne_panic A
  case lengths => exact Ipv4Header.ihlBytesChecked_eq
  case checksums =>
    intro D data ipPair protocol
    rw [pseudoHdrCksumChecked_eq]
    exact ⟨(safe_pseudoHdrCksum data ipPair protocol).1, rfl⟩
  case drains => exact fun s conn => s.drainTransmittableChecked_eq conn
  case clamps =>
    intro p late
    rw [← hmin, ← hmax]
    exact p.timeDueChecked_eq _ late
  case encodes =>
    intro packet buf hbuf
    rw [packet.writeIntoChecked_eq hbuf]
    exact (packet.safe_writeInto hbuf).1

/-- The engine with one established connection of the fixtures. -/
theorem panicFree_established : establishedEngine.PanicFree ServerApp.application :=
  panicFree _ _ _ _ _ _ _ establishedEngine_run

end Engine

end Typenet
