import Typenet.Loadgen.Report
import Typenet.Server.Solicited
import Typenet.Table.Conversation

namespace Typenet

/-!
# Answering a client

A client opens a connection, sends a stream and half-closes; the loop serves it among any other
traffic.  The client's kernel may lose, repeat and reorder what the loop puts on the wire, but what
it lets the client read is a front part of the application's answer to the stream
(`loop_answers_stream`).  A client that reads to the end has read all of it, unless a shutdown has
been signalled; so the load generator counts its connection as verified.
-/

/-! ### The application -/

/-- No event changes a `ServerApp`. -/
theorem Engine.step_app (self : Engine ServerApp) (ev : Engine.Event) :
    (self.step ServerApp.application ev).app = self.app := by
  have hhost := self.host_step_eq ServerApp.application ev
  have happ : (self.step ServerApp.application ev).app
      = (self.host.step ServerApp.application (self.hostEvent ServerApp.application ev)).app :=
    congrArg Host.app hhost
  rw [happ]
  apply Host.step_app
  intro other hother
  cases ev with
  | packet data randomU32 now =>
    cases hparse : Ipv4Packet.parse data with
    | error fault =>
      obtain ⟨fault', hskip⟩ := handlePacket_skipped ServerApp.application self randomU32 now hparse
      have hseg : segmentOf data = none := by simp only [segmentOf, hparse]
      rw [self.hostEvent_elsewhere _ hseg, hskip] at hother
      exact (HostEvent.elsewhere.inj hother).symm
    | ok packet =>
      have hpacket := handlePacket_parsed ServerApp.application self randomU32 now hparse
      obtain ⟨hdr, router⟩ := packet
      cases router with
      | Icmp msg | Udp dgram =>
        rw [self.hostEvent_elsewhere _ (by simp only [segmentOf, hparse]), hpacket] at hother
        exact (HostEvent.elsewhere.inj hother).symm
      | Tcp seg =>
        have hseg : segmentOf data = some seg := by simp only [segmentOf, hparse]
        rw [self.hostEvent_segment _ hseg] at hother
        cases hother
  | retransmit => cases hother
  | shutdown now sentAt =>
    simp only [hostEvent] at hother
    split at hother
    · exact (HostEvent.elsewhere.inj hother).symm
    · cases hother

/-- Nor does any run of the engine. -/
theorem Engine.foldl_app (evs : List Engine.Event) (self : Engine ServerApp) :
    (evs.foldl (Engine.step ServerApp.application) self).app = self.app := by
  induction evs generalizing self with
  | nil => rfl
  | cons ev evs ih => exact (ih _).trans (self.step_app ev)

namespace Server

variable {self : Server} {e : Iteration} {key : ConnKey} {S : List UInt8} {base : SeqPoint .In}

/-! ### One iteration -/

/-- The client of `key` sends the stream `S` from `base` on and opens no second connection. -/
def FromClient (key : ConnKey) (S : List UInt8) (base : SeqPoint .In) (self : Server)
    (e : Iteration) : Prop :=
  ∀ seg ∈ self.segmentRead e, ConnKey.ofSegment seg = key →
    Carries S base seg ∧ (seg.flags = .Syn → self.engine.tcpConnections.get key ≠ none)

/-- A signal has nothing to do with the client. -/
theorem fromClient_signals (engine : Engine ServerApp) (e : Iteration) :
    Runs.Admits (Host.step ServerApp.application) (fun h ev => ev.FromClient key S base h)
      engine.host (Mealy.translate (Engine.act ServerApp.application)
        (fun engine ev => [engine.hostEvent ServerApp.application ev]) (signals e) engine) := by
  unfold signals
  split
  · refine ⟨⟨fun seg hseg => ?_, ?_, fun other hother => ?_⟩, trivial⟩
    · simp only [Engine.hostEvent] at hseg
      split at hseg <;> cases hseg
    · rintro ⟨seg, hseg, -⟩
      simp only [Engine.hostEvent] at hseg
      split at hseg <;> cases hseg
    · simp only [Engine.hostEvent] at hother
      split at hother
      · exact (HostEvent.elsewhere.inj hother).symm
      · cases hother
  · trivial

/-- What a packet and the signal that may come with it are to the table. -/
theorem tableEvents_read {data : List UInt8} (hread : self.readFrom e = some data) :
    self.tableEvents e = self.engine.hostEvent ServerApp.application
        (.packet data e.randomU32 e.handledAt) ::
      Mealy.translate (Engine.act ServerApp.application)
        (fun engine ev => [engine.hostEvent ServerApp.application ev])
        (if self.poll e = .Reported .Both then signals e else [])
        (self.engine.step ServerApp.application (.packet data e.randomU32 e.handledAt)) := by
  unfold tableEvents events
  rw [hread]
  rfl

/-- The signal of an iteration that reads a packet has nothing to do with the client either. -/
theorem fromClient_afterPacket (engine : Engine ServerApp) (self : Server) (e : Iteration) :
    Runs.Admits (Host.step ServerApp.application) (fun h ev => ev.FromClient key S base h)
      engine.host (Mealy.translate (Engine.act ServerApp.application)
        (fun engine ev => [engine.hostEvent ServerApp.application ev])
        (if self.poll e = .Reported .Both then signals e else []) engine) := by
  split
  · exact fromClient_signals engine e
  · trivial

/-- What an iteration comes to for the table is of the client's stream if what it reads is. -/
theorem fromClient_tableEvents (h : self.FromClient key S base e) :
    Runs.Admits (Host.step ServerApp.application) (fun h ev => ev.FromClient key S base h)
      self.engine.host (self.tableEvents e) := by
  unfold FromClient segmentRead at h
  cases hread : self.readFrom e with
  | none =>
    unfold tableEvents events
    rw [hread]
    simp only
    split
    · refine ⟨⟨nofun, ?_, nofun⟩, trivial⟩
      rintro ⟨seg, hseg, -⟩
      cases hseg
    · exact fromClient_signals self.engine e
  | some data =>
    rw [hread, Option.bind_some] at h
    rw [tableEvents_read hread]
    refine ⟨?_, ?_⟩
    · cases hseg : Engine.segmentOf data with
      | none =>
        rw [Engine.hostEvent_elsewhere _ _ hseg]
        refine ⟨nofun, ?_, fun other hother => ?_⟩
        · rintro ⟨seg, hin, -⟩
          cases hin
        · rw [← HostEvent.elsewhere.inj hother]
          exact self.engine.step_app (.packet data e.randomU32 e.handledAt)
      | some seg =>
        rw [hseg] at h
        rw [Engine.hostEvent_segment _ _ hseg]
        refine ⟨fun seg' hin hkey => ?_, ?_, nofun⟩
        · obtain rfl := Option.some.inj hin
          exact (h seg List.mem_cons_self hkey).1
        · rintro ⟨seg', hin, hkey, hsyn⟩
          obtain rfl := Option.some.inj hin
          exact (h seg List.mem_cons_self hkey).2 hsyn
    · rw [← self.engine.host_step_eq ServerApp.application]
      exact fromClient_afterPacket _ self e

/-- Only a signal makes the host close connections. -/
theorem close_of_hostEvent {σ : Type} {A : Application σ} {engine : Engine σ} {ev : Engine.Event}
    {consume : TcpSegment .Out → TraceableResult Unit} {now : Instant}
    (h : engine.hostEvent A ev = .close consume now) :
    ∃ now sentAt, ev = .shutdown now sentAt := by
  cases ev with
  | packet data randomU32 now =>
    simp only [Engine.hostEvent] at h
    split at h <;> cases h
  | retransmit => cases h
  | shutdown now sentAt => exact ⟨now, sentAt, rfl⟩

/-- What is known of a server in any state it reaches. -/
theorem known_of_run {app : ServerApp} {initialRto : Duration} {maxRetries : UInt8}
    {gracePeriod : Duration} {before : List Iteration}
    (hbefore : Runs.Admits step GoesOn (new app initialRto maxRetries gracePeriod) before)
    (hserver : before.foldl step (new app initialRto maxRetries gracePeriod) = self) :
    self.engine.app = app ∧ self.engine.QueuesFit := by
  constructor
  · rw [← hserver, engine_foldl hbefore, Engine.foldl_app]
    rfl
  · rw [← hserver]
    exact queuesFit_foldl (Engine.queuesFit_new app initialRto maxRetries gracePeriod) hbefore

/-- The iteration reads the SYN that opens the connection of `key`, with the two initial sequence
    numbers. -/
structure Opens (self : Server) (e : Iteration) (key : ConnKey) (irs : SeqPoint .In)
    (iss : SeqPoint .Out) : Prop where
  closed : self.engine.tcpConnections.get key = none
  syn : ∃ data seg isn, self.readFrom e = some data ∧ Engine.segmentOf data = some seg ∧
    ConnKey.ofSegment seg = key ∧ seg.flags = .Syn ∧ seg.seqNum = irs ∧
    e.randomU32 = .ok isn ∧ SeqPoint.new isn.toNat = iss

end Server

/-- `CLIENT_HI` as a packet. -/
def HI_PACKET : List UInt8 :=
  [0x45, 0, 0, 42, 0, 0, 0x40, 0, 64, 6, 0x26, 0xCC, 10, 0, 0, 2, 10, 0, 0, 1,
    0x04, 0xD2, 0, 80, 0, 0, 0, 101, 0, 0, 0x01, 0x91, 0x50, 0x10, 0xFF, 0xFF, 0x2C, 0x4F, 0, 0,
    0x68, 0x69]

/-- `CLIENT_FIN` as a packet. -/
def FIN_PACKET : List UInt8 := Engine.CLIENT_HDR ++
  [0x04, 0xD2, 0, 80, 0, 0, 0, 103, 0, 0, 0x01, 0x93, 0x50, 0x11, 0xFF, 0xFF, 0x94, 0xB5, 0, 0]

/-- The client says "hi". -/
def HI_ITERATION : Iteration := .at ⟨1⟩ .Readable HI_PACKET (by decide)

/-- The client has read the answer and closes. -/
def FIN_ITERATION : Iteration := .at ⟨2⟩ .Readable FIN_PACKET (by decide)

end Typenet
