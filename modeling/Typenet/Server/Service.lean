import Typenet.Server.Conversation
import Typenet.Table.Service

namespace Typenet

/-!
# Serving a client to the end

The loop reads a client's SYN and goes on among any other traffic.  If the client attends to its
connection, and sends as many of the segments that the connection waits for as there can be, then
the whole answer to its stream has gone out, up to the FIN (`loop_serves_client`).
-/

namespace Server

variable {self : Server} {e : Iteration} {key : ConnKey} {S : List UInt8} {base : SeqPoint .In}
  {w m : Nat}

/-! ### One iteration -/

/-- **The client of `key` attends to its connection**: it sends the stream `S`, and spares the
    connection where a segment of it is read or a sweep comes by.  No shutdown is signalled. -/
structure Attends (key : ConnKey) (S : List UInt8) (base : SeqPoint .In) (server : Server)
    (e : Iteration) : Prop where
  talks : server.FromClient key S base e
  unsignalled : e.shutdownCheck = false
  segments : ∀ conn, server.engine.tcpConnections.get key = some conn →
    ∀ seg ∈ server.segmentRead e, ConnKey.ofSegment seg = key →
      Spares server.engine.tcpConnections.rtoConfig server.engine.tcpConnections.maxRetries conn
        (.segment seg e.handledAt)
  retries : ∀ conn, server.engine.tcpConnections.get key = some conn →
    server.poll e = .Reported .Timeout →
      Spares server.engine.tcpConnections.rtoConfig server.engine.tcpConnections.maxRetries conn
        (.retransmit e.sweptAt e.sweptLate)

/-- The iteration reads a segment that the connection of `key` waits for, if it is still there. -/
def Obliges (w : Nat) (key : ConnKey) (self : Server) (e : Iteration) : Prop :=
  ∀ conn, self.engine.tcpConnections.get key = some conn →
    ∃ seg ∈ self.segmentRead e, ConnKey.ofSegment seg = key ∧ Wanted w seg conn

theorem readFrom_of_segmentRead {seg : TcpSegment .In} (h : seg ∈ self.segmentRead e) :
    ∃ data, self.readFrom e = some data ∧ Engine.segmentOf data = some seg := by
  rw [segmentRead, Option.mem_toList, Option.bind_eq_some_iff] at h
  exact h

/-- Without a signal, what is read is all that an iteration comes to, -/
theorem tableEvents_packet (h : e.shutdownCheck = false) {data : List UInt8}
    (hread : self.readFrom e = some data) :
    self.tableEvents e
      = [self.engine.hostEvent ServerApp.application (.packet data e.randomU32 e.handledAt)] := by
  have hsignals : signals e = [] := by
    unfold signals
    rw [h]
    rfl
  rw [tableEvents_read hread, hsignals, ite_self]
  rfl

/-- and if nothing is read it is the sweep of a timeout. -/
theorem tableEvents_sweep (h : e.shutdownCheck = false) (hread : self.readFrom e = none) :
    self.tableEvents e = if self.poll e = .Reported .Timeout
      then [.retransmit e.sweptAt e.sweptLate] else [] := by
  unfold tableEvents events signals
  rw [hread, h]
  simp only [Bool.false_eq_true, if_false]
  split <;> rfl

/-- To the table the client attends as it does to the loop. -/
theorem attends_tableEvents (h : self.Attends key S base e) :
    Runs.Admits (Host.step ServerApp.application) (fun h ev => ev.Attends key S base h)
      self.engine.host (self.tableEvents e) := by
  have hclient := fromClient_tableEvents h.talks
  cases hread : self.readFrom e with
  | none =>
    rw [tableEvents_sweep h.unsignalled hread] at hclient ⊢
    by_cases hpoll : self.poll e = .Reported .Timeout
    · rw [if_pos hpoll] at hclient ⊢
      refine ⟨⟨hclient.1, nofun, fun conn ev hconn hat => ?_⟩, trivial⟩
      rw [← Option.some.inj hat]
      exact h.retries conn hconn hpoll
    · rw [if_neg hpoll]
      trivial
  | some data =>
    rw [tableEvents_packet h.unsignalled hread] at hclient ⊢
    refine ⟨⟨hclient.1, fun consume now hclose => ?_, fun conn ev hconn hat => ?_⟩, trivial⟩
    · obtain ⟨now', sentAt, hev⟩ := close_of_hostEvent hclose
      cases hev
    · cases hseg : Engine.segmentOf data with
      | none =>
        rw [Engine.hostEvent_elsewhere _ _ hseg] at hat
        cases hat
      | some seg =>
        rw [Engine.hostEvent_segment _ _ hseg, HostEvent.at] at hat
        split at hat
        case isTrue hkey =>
          rw [← Option.some.inj hat]
          refine h.segments conn hconn seg ?_ hkey
          rw [segmentRead, hread, Option.bind_some, hseg]
          exact List.mem_singleton_self seg
        case isFalse => cases hat

/-- And what the connection waits for comes to the table. -/
theorem obliges_tableEvents (h : self.Obliges w key e) : self.engine.host.get key = none ∨
    Runs.AtLeast (Host.step ServerApp.application) (Host.Obliges w key) 1 self.engine.host
      (self.tableEvents e) := by
  cases hconn : self.engine.host.get key with
  | none => exact .inl rfl
  | some conn =>
    obtain ⟨seg, hmem, hkey, hwanted⟩ := h conn hconn
    obtain ⟨data, hread, hseg⟩ := readFrom_of_segmentRead hmem
    rw [tableEvents_read hread, Engine.hostEvent_segment _ _ hseg]
    refine .inr (.here (fun conn' hconn' => ?_) .zero)
    obtain rfl := Option.some.inj (hconn.symm.trans hconn')
    exact ⟨seg, e.handledAt, if_pos hkey, hwanted⟩

/-- A client attends by a segment with an ACK for what may have been sent. -/
theorem attends_read {seg : TcpSegment .In} (hread : self.segmentRead e = [seg])
    (hsignal : e.shutdownCheck = false) (hpoll : self.poll e ≠ .Reported .Timeout)
    (hcarries : Carries S base seg) (hflags : seg.flags = .Ack ∨ seg.flags = .FinAck)
    (hack : (self.engine.tcpConnections.get key).all
      (fun conn => decide (seg.ackNum ≠ conn.sndNxt + 2 ^ 31)) = true) :
    self.Attends key S base e := by
  refine ⟨fun seg' hseg' _ => ?_, hsignal, fun conn hconn seg' hseg' _ => ?_,
    fun _ _ htimeout => absurd htimeout hpoll⟩
  · rw [hread] at hseg'
    rw [List.mem_singleton.mp hseg']
    refine ⟨hcarries, fun hsyn => ?_⟩
    rcases hflags with hf | hf <;> cases hf.symm.trans hsyn
  · rw [hread] at hseg'
    rw [hconn] at hack
    rw [List.mem_singleton.mp hseg']
    refine ⟨?_, ?_, ?_⟩
    · rintro _ now ⟨⟩ hrst
      rcases hflags with hf | hf <;> rcases hrst with hr | hr <;> cases hf.symm.trans hr
    · rintro _ now ⟨⟩ ⟨-, -, hfar⟩
      exact of_decide_eq_true hack hfar
    · rintro now late ⟨⟩

/-- A client whose connection is gone has nothing left to do. -/
theorem attends_gone (hread : self.segmentRead e = []) (hsignal : e.shutdownCheck = false)
    (hgone : self.engine.tcpConnections.get key = none) : self.Attends key S base e := by
  refine ⟨fun seg hseg => ?_, hsignal, fun conn hconn => ?_, fun conn hconn => ?_⟩
  · rw [hread] at hseg
    cases hseg
  · cases hgone.symm.trans hconn
  · cases hgone.symm.trans hconn

/-- A segment of a connection that waits for it. -/
theorem obliges_read {seg : TcpSegment .In} (hread : self.segmentRead e = [seg])
    (hkey : ConnKey.ofSegment seg = key)
    (hall : (self.engine.tcpConnections.get key).all (fun conn => decide (Wanted w seg conn))
      = true) : self.Obliges w key e := by
  intro conn hconn
  rw [hconn] at hall
  refine ⟨seg, ?_, hkey, of_decide_eq_true hall⟩
  rw [hread]
  exact List.mem_singleton_self seg

/-- Nothing is waited for where there is no connection. -/
theorem obliges_gone (hgone : self.engine.tcpConnections.get key = none) :
    self.Obliges w key e :=
  fun _ hconn => absurd (hgone.symm.trans hconn) nofun

/-! ### Runs -/

/-- **The loop serves its client.**  Once as many wanted segments have come as there can be, the
    whole answer has gone out, and the FIN that ends it. -/
theorem served_of_run (hS : S.length < 2 ^ 31) {irs : SeqPoint .In} {iss : SeqPoint .Out}
    (hfit : self.engine.QueuesFit) {es : List Iteration}
    (hrun : Runs.Admits step GoesOn self (e :: es)) (hopen : self.Opens e key irs iss)
    (hsignal : e.shutdownCheck = false)
    (hclient : Runs.Admits step (Attends key S (irs + SYN_BYTE)) (self.step e) es) (hw : 0 < w)
    (hm : min w SyncedState.MAX_PAYLOAD_LEN = m)
    (hpeer : Runs.AtLeast step (Obliges w key) (S.length + (S.length + m - 1) / m + 3)
      (self.step e) es) :
    ReadOff (iss + SYN_BYTE) (segmentsOf key (tcpSegments (self.packetsSent (e :: es))))
        (self.engine.app.answer S) ∧
      EndsAfter (iss + SYN_BYTE) (segmentsOf key (tcpSegments (self.packetsSent (e :: es))))
        (self.engine.app.answer S).length := by
  obtain ⟨hclosed, data, syn, isn, hread, hseg, rfl, hsyn, rfl, hrandom, rfl⟩ := hopen
  rw [tcpSegments_packetsSent hfit hrun]
  -- the SYN is all that the first iteration comes to
  have hfirst := tableEvents_packet hsignal hread
  rw [Engine.hostEvent_segment _ _ hseg, hrandom] at hfirst
  have hstate := refines_table.state self e ⟨trivial, hfit⟩ hrun.1
  rw [Mealy.run_state, hfirst] at hstate
  have hreached : self.engine.host.step ServerApp.application (.segment syn (.ok isn) e.handledAt)
      = (self.step e).engine.host := hstate
  have hfit' : (self.step e).engine.QueuesFit :=
    (refines_table.keeps self e ⟨trivial, hfit⟩ hrun.1).2
  obtain ⟨-, hrest⟩ := hrun
  have hlater : Runs.Admits (Host.step ServerApp.application)
      (fun h ev => ev.Attends (ConnKey.ofSegment syn) S (syn.seqNum + SYN_BYTE) h)
      (self.step e).engine.host ((self.step e).tableRun es) :=
    refines_table.admits (P := Attends (ConnKey.ofSegment syn) S (syn.seqNum + SYN_BYTE))
      (fun _ _ _ h => attends_tableEvents h) ⟨trivial, hfit'⟩
      (hrest.of_prefix (List.dropLast_prefix es)) hclient
  have hprogress : (∃ front, front <+: (self.step e).tableRun es ∧
        (front.foldl (Host.step ServerApp.application) (self.step e).engine.host).get
          (ConnKey.ofSegment syn) = none) ∨
      Runs.AtLeast (Host.step ServerApp.application) (Host.Obliges w (ConnKey.ofSegment syn))
        (S.length + (S.length + m - 1) / m + 3) (self.step e).engine.host
        ((self.step e).tableRun es) :=
    refines_table.atLeast (P := Obliges w (ConnKey.ofSegment syn))
      (J := fun h => h.get (ConnKey.ofSegment syn) = none)
      (fun _ _ _ _ h => obliges_tableEvents h) hpeer ⟨trivial, hfit'⟩ hrest
  rw [← hreached] at hlater hprogress
  obtain ⟨front, hpre, hgone⟩ : ∃ front, front <+: (self.step e).tableRun es ∧
      (front.foldl (Host.step ServerApp.application) (self.engine.host.step ServerApp.application
        (.segment syn (.ok isn) e.handledAt))).get (ConnKey.ofSegment syn) = none := by
    rcases hprogress with hgone | hobliged
    · exact hgone
    · exact Host.gone_of_obliged (h := self.engine.host) hS hclosed hsyn hlater hw hm hobliged
  have hserved := Host.served_of_gone (h := self.engine.host) hS hclosed hsyn
    (hlater.of_prefix hpre) hgone
  -- what has gone out by then is a part of what goes out
  have hsub : segmentsOf (ConnKey.ofSegment syn) (Mealy.outputs (Host.act ServerApp.application)
        (.segment syn (.ok isn) e.handledAt :: front) self.engine.host)
      ⊆ segmentsOf (ConnKey.ofSegment syn) (Mealy.outputs (Host.act ServerApp.application)
        (self.tableRun (e :: es)) self.engine.host) := by
    obtain ⟨rest, hrest⟩ := hpre
    have hall : self.tableRun (e :: es)
        = (.segment syn (.ok isn) e.handledAt :: front) ++ rest := by
      show self.tableEvents e ++ (self.step e).tableRun es = _
      rw [hfirst, ← hrest]
      rfl
    rw [hall, Mealy.outputs_append, segmentsOf_append]
    exact List.subset_append_left _ _
  exact ⟨hserved.1.mono hsub, hserved.2.mono hsub⟩

end Server

/-- **Serving a client, end to end.**  Take any run of the loop in which some iteration reads the
    SYN of a client, after which the client sends the stream `S`: it neither resets the connection
    nor lets the retries run out, and no shutdown is signalled.  Each acknowledgment leaves a window
    of `w` bytes.  As soon as the client has sent as many segments that the connection waits for as
    there can be, the segments on the wire carry every byte of the answer to `S`, and its end. -/
theorem loop_serves_client (app : ServerApp) (initialRto : Duration) (maxRetries : UInt8)
    (gracePeriod : Duration) (before : List Iteration) (syn : Iteration) (es : List Iteration)
    (hrun : Runs.Admits Server.step Server.GoesOn
      (Server.new app initialRto maxRetries gracePeriod) (before ++ syn :: es))
    (server : Server)
    (hserver : before.foldl Server.step (Server.new app initialRto maxRetries gracePeriod) = server)
    (key : ConnKey) (irs : SeqPoint .In) (iss : SeqPoint .Out)
    (hopen : server.Opens syn key irs iss) (hsignal : syn.shutdownCheck = false)
    (S : List UInt8) (hS : S.length < 2 ^ 31)
    (hclient : Runs.Admits Server.step (Server.Attends key S (irs + SYN_BYTE)) (server.step syn) es)
    (w : Nat) (hw : 0 < w)
    (hpeer : Runs.AtLeast Server.step (Server.Obliges w key)
      (S.length + (S.length + min w SyncedState.MAX_PAYLOAD_LEN - 1)
        / min w SyncedState.MAX_PAYLOAD_LEN + 3) (server.step syn) es) :
    ReadOff (iss + SYN_BYTE) (segmentsOf key (tcpSegments (server.packetsSent (syn :: es))))
        (app.answer S) ∧
      EndsAfter (iss + SYN_BYTE) (segmentsOf key (tcpSegments (server.packetsSent (syn :: es))))
        (app.answer S).length := by
  obtain ⟨hbefore, hafter⟩ := Runs.admits_append.mp hrun
  rw [hserver] at hafter
  obtain ⟨happ, hfit⟩ := Server.known_of_run hbefore hserver
  have hserved := Server.served_of_run hS hfit hafter hopen hsignal hclient hw rfl hpeer
  rw [happ] at hserved
  exact hserved

/-- The acknowledgment of our FIN by the client that says "hi". -/
def CLIENT_LAST_ACK : TcpSegment .In :=
  { CLIENT_PKT with seqNum := CLIENT_ISN + 4, ackNum := SERVER_ISN + 4 }

/-- `CLIENT_LAST_ACK` as a packet. -/
def LAST_ACK_PACKET : List UInt8 := Engine.CLIENT_HDR ++
  [0x04, 0xD2, 0, 80, 0, 0, 0, 104, 0, 0, 0x01, 0x94, 0x50, 0x10, 0xFF, 0xFF, 0x94, 0xB4, 0, 0]

/-- The client has read to the end. -/
def LAST_ACK_ITERATION : Iteration := .at ⟨3⟩ .Readable LAST_ACK_PACKET (by decide)

/-- The client says "hi", closes and acknowledges; the loop goes on without it. -/
def HI_ITERATIONS : List Iteration :=
  [HI_ITERATION, FIN_ITERATION, LAST_ACK_ITERATION, TIMEOUT_ITERATION, TIMEOUT_ITERATION,
    TIMEOUT_ITERATION]

/-- An echo server sends "hi" and its end to the client that says it. -/
theorem loop_serves_client_hi :
    ReadOff (SERVER_ISN + SYN_BYTE) (segmentsOf KEY (tcpSegments (ECHO_SERVER.packetsSent
        (SYN_ITERATION :: HI_ITERATIONS)))) HI.data ∧
      EndsAfter (SERVER_ISN + SYN_BYTE) (segmentsOf KEY (tcpSegments (ECHO_SERVER.packetsSent
        (SYN_ITERATION :: HI_ITERATIONS)))) 2 := by
  have hrun : Runs.Admits Server.step Server.GoesOn ECHO_SERVER
      ([] ++ SYN_ITERATION :: HI_ITERATIONS) := by
    refine ⟨?_, ?_, ?_, ?_, ?_, ?_, ?_, trivial⟩ <;> decide +kernel
  have hopen : ECHO_SERVER.Opens SYN_ITERATION KEY CLIENT_ISN SERVER_ISN :=
    ⟨rfl, Engine.SYN_PACKET, CLIENT_SYN, 400, rfl, by decide +kernel, rfl, rfl, rfl, rfl, rfl⟩
  have hhi : (ECHO_SERVER.step SYN_ITERATION).segmentRead HI_ITERATION = [CLIENT_HI] := by
    decide +kernel
  have hfin : ((ECHO_SERVER.step SYN_ITERATION).step HI_ITERATION).segmentRead FIN_ITERATION
      = [CLIENT_FIN] := by decide +kernel
  have hlast : (((ECHO_SERVER.step SYN_ITERATION).step HI_ITERATION).step
      FIN_ITERATION).segmentRead LAST_ACK_ITERATION = [CLIENT_LAST_ACK] := by decide +kernel
  have hclient : Runs.Admits Server.step (Server.Attends KEY HI.data (CLIENT_ISN + SYN_BYTE))
      (ECHO_SERVER.step SYN_ITERATION) HI_ITERATIONS := by
    refine ⟨?_, ?_, ?_, ?_, ?_, ?_, trivial⟩
    · refine Server.attends_read hhi rfl nofun ⟨fun p hp => ?_, nofun⟩ (.inl rfl)
        (by decide +kernel)
      obtain rfl := Option.some.inj hp
      decide
    · exact Server.attends_read hfin rfl nofun ⟨nofun, fun _ => by decide⟩ (.inr rfl)
        (by decide +kernel)
    · exact Server.attends_read hlast rfl nofun ⟨nofun, nofun⟩ (.inl rfl) (by decide +kernel)
    · exact Server.attends_gone rfl rfl (by decide +kernel)
    · exact Server.attends_gone rfl rfl (by decide +kernel)
    · exact Server.attends_gone rfl rfl (by decide +kernel)
  have hpeer : Runs.AtLeast Server.step (Server.Obliges 2 KEY) 6 (ECHO_SERVER.step SYN_ITERATION)
      HI_ITERATIONS :=
    .here (Server.obliges_read hhi rfl (by decide +kernel)) <|
      .here (Server.obliges_read hfin rfl (by decide +kernel)) <|
      .here (Server.obliges_read hlast rfl (by decide +kernel)) <|
      .here (Server.obliges_gone (by decide +kernel)) <|
      .here (Server.obliges_gone (by decide +kernel)) <|
      .here (Server.obliges_gone (by decide +kernel)) .zero
  exact loop_serves_client .Echo 1000000000 3 0 [] SYN_ITERATION HI_ITERATIONS hrun ECHO_SERVER rfl
    KEY CLIENT_ISN SERVER_ISN hopen rfl HI.data (by decide) hclient 2 (by decide) hpeer

end Typenet
