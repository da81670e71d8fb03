import Typenet.Server.Workers

namespace Typenet

/-!
# Connections spread over workers

Each worker keeps its connections in a table of its own, and the kernel steers the packets of one
connection to one queue.  Under such a routing the tables are disjoint, and nobody can tell that
there are several: what a process sends for a connection is what a single server would send, which
takes the iterations of the worker that the connection is routed to.

* `Process.refines_server` — each worker of a process is a server by itself;
* `workers_shard_connections` — the tables are disjoint, and the split does not show.
-/

/-! ### Who is answered -/

/-- A packet has been made around its message. -/
theorem Ipv4Packet.tryFromRouter_router {router : ProtocolRouter .Out} {packet : Ipv4Packet .Out}
    (h : tryFromRouter router = .ok packet) : tryFromRouter packet.router = .ok packet := by
  rw [(tryFromRouter_eq_ok h).1]
  exact h

/-- A reply has been made around its message. -/
theorem Ipv4Packet.createReply_router {σ : Type} {A : Application σ} {request : Ipv4Packet .In}
    {app : σ} {tcpConnections : TcpConnections} {randomU32 : TraceableResult UInt32}
    {now : Instant} {reply : Ipv4Packet .Out}
    (h : (request.createReply A app tcpConnections randomU32 now).1 = .ok (some reply)) :
    tryFromRouter reply.router = .ok reply := by
  have hcreated : ∀ router : ProtocolRouter .Out,
      (tryFromRouter router).map some = .ok (some reply) →
        tryFromRouter reply.router = .ok reply := by
    intro router hout
    cases hpacket : tryFromRouter router with
    | error e => rw [hpacket] at hout; cases hout
    | ok packet =>
      rw [hpacket] at hout
      obtain rfl := Option.some.inj (Except.ok.inj hout)
      exact tryFromRouter_router hpacket
  obtain ⟨hdr, router⟩ := request
  cases router with
  | Icmp | Udp => exact hcreated _ h
  | Tcp seg =>
    rw [createReply_tcp A app tcpConnections randomU32 now rfl] at h
    rcases hres : (tcpConnections.createReply A app seg randomU32 now).1 with e | _ | out
    · rw [hres] at h
      cases h
    · rw [hres] at h
      cases h
    · rw [hres] at h
      exact hcreated _ h

/-- Whatever an engine hands over has been made around its message. -/
theorem Engine.handedOver_router {σ : Type} {A : Application σ} {self : Engine σ}
    {ev : Engine.Event} {packet : Ipv4Packet .Out} (h : packet ∈ self.handedOver A ev) :
    Ipv4Packet.tryFromRouter packet.router = .ok packet := by
  -- a segment of a connection has been made a packet of
  have hconn : ev.data = none → Ipv4Packet.tryFromRouter packet.router = .ok packet := by
    intro hnone
    rcases answers_or_conn h with ⟨data, hdata, -⟩ | ⟨out, conn, hout, -⟩
    · cases hnone.symm.trans hdata
    · exact Ipv4Packet.tryFromRouter_router hout
  cases ev with
  | retransmit | shutdown => exact hconn rfl
  | packet data randomU32 now =>
    cases hparse : Ipv4Packet.parse data with
    | error fault =>
      obtain ⟨fault', hskip⟩ := handlePacket_skipped A self randomU32 now hparse
      have hreply : packet ∈ replies (self.handlePacket A data randomU32 now).1 := h
      rw [hskip] at hreply
      cases hreply
    | ok request =>
      rw [self.handedOver_parsed randomU32 now hparse] at h
      rcases hres : (request.createReply A self.app self.tcpConnections randomU32 now).1 with
        e | _ | reply
      · rw [hres] at h
        cases h
      · rw [hres] at h
        cases h
      · rw [hres] at h
        obtain rfl := List.mem_singleton.mp h
        exact Ipv4Packet.createReply_router hres

namespace Server

variable {self : Server} {e : Iteration}

/-- A segment read off a packet is one that the iteration reads. -/
theorem mem_segmentRead {data : List UInt8} {hdr : Ipv4Header .In} {seg : TcpSegment .In}
    (hread : self.readFrom e = some data) (hparse : Ipv4Packet.parse data = .ok ⟨hdr, .Tcp seg⟩) :
    seg ∈ self.segmentRead e := by
  unfold segmentRead Engine.segmentOf
  rw [hread, Option.bind_some, hparse]
  exact List.mem_singleton.mpr rfl

/-- **A connection has been opened by a segment** that the server has read. -/
theorem read_of_conn (hnew : ∀ key, self.engine.host.get key = none) {es : List Iteration}
    (hrun : Runs.Admits step GoesOn self es) {key : ConnKey} {conn : ConnState}
    (hget : (es.foldl step self).engine.tcpConnections.get key = some conn) :
    ∃ front e, front ++ [e] <+: es ∧ ∃ seg ∈ (front.foldl step self).segmentRead e,
      ConnKey.ofSegment seg = key := by
  have hhost : (es.foldl step self).engine.host.get key = some conn := hget
  rw [engine_foldl hrun, Engine.host_foldl] at hhost
  obtain ⟨e, he, hopens⟩ := Host.exists_opens (hnew _) hhost
  obtain ⟨ev, hev, data, hdata, hdr, seg, hparse, hkey⟩ := Engine.exists_packet_of_opens he hopens
  obtain ⟨front, e', hfront, hread⟩ := read_of_engineRun hev hdata
  exact ⟨front, e', hfront, seg, mem_segmentRead hread hparse, hkey⟩

/-- **A segment that is sent answers one** that the server has read under the same key. -/
theorem read_of_sent (hnew : ∀ key, self.engine.host.get key = none) {es : List Iteration}
    (hrun : Runs.Admits step GoesOn self es) {t : Transmission}
    (ht : t ∈ ((es.foldl step self).turn e).sent) {out : TcpSegment .Out}
    (hout : t.packet.router.asTcp = some out) :
    ∃ front e', front ++ [e'] <+: es ++ [e] ∧ ∃ seg ∈ (front.foldl step self).segmentRead e',
      ConnKey.ofSegment seg = ConnKey.ofOutgoing out := by
  obtain ⟨front, e', hfront, data, ⟨hdr, router⟩, hread, hparse, hip, hproto, hports⟩ :=
    occasion_of_sent hnew hrun ht
  have hpair : t.packet.ipv4Hdr.ipPair = t.packet.router.getIpPair := by
    have hsent := (turn_sent_isPrefix _ e).subset (List.mem_map_of_mem ht)
    obtain ⟨evs, ev, -, hmem⟩ := Mealy.mem_outputs hsent
    exact (Ipv4Packet.tryFromRouter_ipPair (Engine.handedOver_router hmem)).2
  have hrouter : t.packet.router = .Tcp out := by
    cases hr : t.packet.router with
    | Tcp seg =>
      rw [hr] at hout
      rw [Option.some.inj hout]
    | Icmp | Udp => rw [hr] at hout; cases hout
  rw [hrouter] at hpair hproto hports
  cases router with
  | Icmp | Udp => cases hproto
  | Tcp seg =>
    refine ⟨front, e', hfront, seg, mem_segmentRead hread hparse, ?_⟩
    have hseg : seg.ipPair = hdr.ipPair := Ipv4Packet.parse_ipPair hparse
    have hpairs : out.ipPair = seg.ipPair.swapped := by
      rw [hseg]
      exact hpair.symm.trans hip
    have hports' : out.ports = seg.ports.swapped := Option.some.inj hports
    unfold ConnKey.ofSegment ConnKey.ofOutgoing
    rw [hpairs, hports']
    rfl

end Server

namespace Process

variable {ι : Type} [DecidableEq ι] {self : Process ι} {ev : Event ι} {w : ι}

/-! ### A worker of the process -/

/-- What is put on the wire, and by which worker. -/
def sent (self : Process ι) : Event ι → List (ι × Transmission)
  | .turn w e => ((self.workers w).server.turn e).sent.map fun t => (w, t)
  | .sigint _ | .store _ | .write _ _ _ | .wake _ _ => []

/-- A process as a machine that hands out what it puts on the wire. -/
def act (self : Process ι) (ev : Event ι) : List (ι × Transmission) × Process ι :=
  (self.sent ev, self.step ev)

/-- The iteration that the event is for a worker. -/
def Event.iteration (w : ι) : Event ι → List Iteration
  | .turn w' e => if w' = w then [e] else []
  | .sigint _ | .store _ | .write _ _ _ | .wake _ _ => []

/-- The iterations of a worker, in order. -/
def iterations (w : ι) (es : List (Event ι)) : List Iteration := es.flatMap (Event.iteration w)

/-- Only the rest of an iteration moves the server of a worker. -/
theorem step_server (self : Process ι) (ev : Event ι) (w : ι) :
    ((self.step ev).workers w).server
      = (Event.iteration w ev).foldl Server.step (self.workers w).server := by
  by_cases hmover : ev.mover = some w
  · cases ev with
    | sigint | store | write => cases hmover
    | wake w' polled =>
      obtain rfl := Option.some.inj hmover
      rw [step_wake]
      rfl
    | turn w' e =>
      obtain rfl := Option.some.inj hmover
      rw [step_turn]
      simp [Event.iteration, Server.step]
  · rw [step_workers self hmover]
    cases ev with
    | sigint | store | write | wake => rfl
    | turn w' e =>
      have hne : w' ≠ w := fun h => hmover (h ▸ rfl)
      simp [Event.iteration, hne]

/-- **Each worker is a server by itself**: of a process it sees its own iterations only. -/
theorem refines_server (w : ι) : Mealy.Refines (act (ι := ι)) Server.act (fun _ _ => True)
    (fun _ => True) (fun self => (self.workers w).server) (fun _ ev => Event.iteration w ev)
    (fun x => if x.1 = w then some x.2 else none) where
  keeps _ _ _ _ := trivial
  state self ev _ _ := by
    rw [Mealy.run_state]
    exact (self.step_server ev w).symm
  outputs self ev _ _ := by
    cases ev with
    | sigint | store | write | wake => rfl
    | turn w' e =>
      show Mealy.outputs Server.act (if w' = w then [e] else []) _ = List.filterMap _
        (((self.workers w').server.turn e).sent.map _)
      by_cases hw : w' = w
      · subst hw
        rw [if_pos rfl, Mealy.outputs_cons, Mealy.outputs_nil, List.append_nil]
        simp [Server.act, List.filterMap_map]
      · rw [if_neg hw, Mealy.outputs_nil]
        simp [hw]

/-- The iterations of a worker are what the process comes to for its server. -/
theorem translate_iteration (w : ι) (es : List (Event ι)) (self : Process ι) :
    Mealy.translate act (fun _ ev => Event.iteration w ev) es self = iterations w es := by
  induction es generalizing self with
  | nil => rfl
  | cons ev es ih =>
    rw [Mealy.translate, ih]
    rfl

/-- The server of a worker is the one that its iterations lead to. -/
theorem server_foldl (self : Process ι) (es : List (Event ι)) (w : ι) :
    ((es.foldl step self).workers w).server
      = (iterations w es).foldl Server.step (self.workers w).server := by
  induction es generalizing self with
  | nil => rfl
  | cons ev es ih =>
    rw [List.foldl_cons, ih, step_server, iterations, iterations, List.flatMap_cons,
      List.foldl_append]

/-- What a worker sends is what its server sends over its iterations. -/
theorem own_outputs (self : Process ι) (es : List (Event ι)) (w : ι) :
    Mealy.outputs Server.act (iterations w es) (self.workers w).server
      = (Mealy.outputs act es self).filterMap fun x => if x.1 = w then some x.2 else none := by
  have hall : Runs.Admits (fun s ev => (act s ev).2) (fun _ _ => True) self es :=
    Runs.admits_iff_prefix.mpr fun _ _ _ => trivial
  obtain ⟨-, hown, -⟩ := (refines_server w).run trivial hall
  rwa [translate_iteration] at hown

/-- **A worker takes no iteration after its last**, and until then its loop has gone on. -/
theorem goesOn_iterations {server : Server} {es : List (Event ι)}
    (hrun : Runs.Admits step Permitted (new server : Process ι) es) (w : ι) :
    Runs.Admits Server.step Server.GoesOn server (iterations w es).dropLast ∧
      (¬ ((es.foldl step (new server)).workers w).HasEnded →
        Runs.Admits Server.step Server.GoesOn server (iterations w es)) := by
  induction es using List.reverseRecOn with
  | nil => exact ⟨trivial, fun _ => trivial⟩
  | append_singleton es ev ih =>
    obtain ⟨hes, ⟨-, hok⟩, -⟩ := Runs.admits_append.mp hrun
    obtain ⟨hlast, hall⟩ := ih hes
    have hits : iterations w (es ++ [ev]) = iterations w es ++ Event.iteration w ev := by
      simp [iterations]
    have hrunning : ∀ phase, (es.foldl step (new server)).AtLoop w phase →
        (∀ result, phase ≠ .Ended result) →
        Runs.Admits Server.step Server.GoesOn server (iterations w es) := by
      rintro phase ⟨-, hphase⟩ hne
      apply hall
      rintro ⟨result, hended⟩
      exact hne result (hphase.symm.trans hended)
    rw [hits, List.foldl_append, List.foldl_cons, List.foldl_nil]
    by_cases hmover : ev.mover = some w
    · cases ev with
      | sigint | store | write => cases hmover
      | wake w' polled =>
        obtain rfl := Option.some.inj hmover
        simp only [Event.iteration, List.append_nil]
        exact ⟨hlast, fun _ => hrunning _ hok.1 (by simp)⟩
      | turn w' e =>
        obtain rfl := Option.some.inj hmover
        have hbefore := hrunning _ hok.1 (by simp)
        simp only [Event.iteration, if_true, List.dropLast_concat]
        refine ⟨hbefore, fun hnot => ?_⟩
        rw [step_turn] at hnot
        refine Runs.admits_append.mpr ⟨hbefore, ?_, trivial⟩
        have hserver := server_foldl (new server) es w'
        show Server.GoesOn (List.foldl Server.step (((new server : Process ι)).workers w').server _) e
        rw [← hserver]
        unfold Server.GoesOn
        cases hc : (((es.foldl step (new server)).workers w').server.turn e).control with
        | Continue => rfl
        | Done | Failed => exact absurd ⟨_, congrArg WorkerPhase.after hc⟩ hnot
    · have hnone : Event.iteration w ev = [] := by
        cases ev with
        | sigint | store | write | wake => rfl
        | turn w' e =>
          have hne : w' ≠ w := fun h => hmover (h ▸ rfl)
          simp [Event.iteration, hne]
      rw [hnone, List.append_nil, step_workers _ hmover]
      exact ⟨hlast, hall⟩

/-! ### Routing by connection -/

/-- The kernel steers packets by connection: a worker reads segments of the connections that are
    routed to it, and no others. -/
def Routed (route : ConnKey → ι) (self : Process ι) : Event ι → Prop
  | .turn w e => ∀ seg ∈ (self.workers w).server.segmentRead e, route (ConnKey.ofSegment seg) = w
  | .sigint _ | .store _ | .write _ _ _ | .wake _ _ => True

/-- The packets that a process puts on the wire, in order. -/
def packetsSent (self : Process ι) (es : List (Event ι)) : List (Ipv4Packet .Out) :=
  (Mealy.outputs act es self).map fun x => x.2.packet

/-- What is asked of the iterations of the process is asked of those of each worker. -/
theorem routed_iterations {route : ConnKey → ι} {es : List (Event ι)}
    (hroute : Runs.Admits step (Routed route) self es) (w : ι) :
    Runs.Admits Server.step
      (fun server e => ∀ seg ∈ server.segmentRead e, route (ConnKey.ofSegment seg) = w)
      (self.workers w).server (iterations w es) := by
  rw [← translate_iteration w es self]
  refine (refines_server w).admits (P := Routed route) (fun self ev _ hev => ?_) trivial
    (Runs.admits_iff_prefix.mpr fun _ _ _ => trivial) hroute
  cases ev with
  | sigint | store | write | wake => trivial
  | turn w' e =>
    simp only [Event.iteration]
    split
    case isTrue hw =>
      subst hw
      exact ⟨hev, trivial⟩
    case isFalse => trivial

/-- A segment of a connection goes out through the worker that the connection is routed to. -/
theorem route_of_sent {server : Server} (hnew : ∀ key, server.engine.host.get key = none)
    {route : ConnKey → ι} {es : List (Event ι)}
    (hrun : Runs.Admits step Permitted (new server : Process ι) es)
    (hroute : Runs.Admits step (Routed route) (new server) es) {t : Transmission}
    (ht : (w, t) ∈ Mealy.outputs act es (new server)) {out : TcpSegment .Out}
    (hout : t.packet.router.asTcp = some out) : route (ConnKey.ofOutgoing out) = w := by
  -- the worker has sent it, as a server by itself
  have hmem : t ∈ Mealy.outputs Server.act (iterations w es) server := by
    have hown := own_outputs (new server) es w
    rw [show ((new server : Process ι).workers w).server = server from rfl] at hown
    rw [hown]
    exact List.mem_filterMap.mpr ⟨(w, t), ht, by simp⟩
  obtain ⟨front, e, hpre, hsent⟩ := Mealy.mem_outputs hmem
  rw [Mealy.run_state] at hsent
  have hfront : front <+: (iterations w es).dropLast := by
    have hbefore := Runs.dropLast_isPrefix hpre
    rw [List.dropLast_concat] at hbefore
    exact hbefore
  obtain ⟨hgoes, -⟩ := goesOn_iterations hrun w
  obtain ⟨front', e', hpre', seg, hseg, hkey⟩ :=
    Server.read_of_sent hnew (hgoes.of_prefix hfront) hsent hout
  rw [← hkey]
  exact Runs.admits_iff_prefix.mp (routed_iterations hroute w) front' e' (hpre'.trans hpre) seg hseg

end Process

/-- The segments of a connection among some packets, read off one by one. -/
theorem segmentsOf_tcpSegments (key : ConnKey) (packets : List (Ipv4Packet .Out)) :
    segmentsOf key (tcpSegments packets) = packets.filterMap fun packet =>
      packet.router.asTcp.filter fun seg => decide (ConnKey.ofOutgoing seg = key) :=
  List.filter_filterMap ..

/-- **Workers share the connections out**, where packets are routed by connection.  A running worker
    holds no connection that is routed to another one; and what the process sends for a connection,
    in order, is what a single server sends for it over the iterations of the worker that the
    connection is routed to. -/
theorem workers_shard_connections {ι : Type} [DecidableEq ι] (app : ServerApp)
    (initialRto : Duration) (maxRetries : UInt8) (gracePeriod : Duration) (route : ConnKey → ι)
    (es : List (Process.Event ι))
    (hrun : Runs.Admits Process.step Process.Permitted
      (Process.new (Server.new app initialRto maxRetries gracePeriod)) es)
    (hroute : Runs.Admits Process.step (Process.Routed route)
      (Process.new (Server.new app initialRto maxRetries gracePeriod)) es) (key : ConnKey) :
    (∀ w worker conn, (es.foldl Process.step
        (Process.new (Server.new app initialRto maxRetries gracePeriod))).workers w = worker →
      ¬ worker.HasEnded → worker.server.engine.tcpConnections.get key = some conn →
      route key = w) ∧
    segmentsOf key (tcpSegments
        ((Process.new (Server.new app initialRto maxRetries gracePeriod)).packetsSent es))
      = segmentsOf key (tcpSegments ((Server.new app initialRto maxRetries gracePeriod).packetsSent
          (Process.iterations (route key) es))) := by
  constructor
  · rintro w worker conn rfl hrunning hget
    have hgoes := (Process.goesOn_iterations hrun w).2 hrunning
    rw [Process.server_foldl] at hget
    obtain ⟨front, e, hpre, seg, hseg, rfl⟩ := Server.read_of_conn (fun _ => rfl) hgoes hget
    exact Runs.admits_iff_prefix.mp (Process.routed_iterations hroute w) front e hpre seg hseg
  · have hown := Process.own_outputs (Process.new (Server.new app initialRto maxRetries gracePeriod))
      es (route key)
    unfold Server.packetsSent Process.packetsSent
    rw [segmentsOf_tcpSegments, segmentsOf_tcpSegments, List.filterMap_map, List.filterMap_map]
    refine Eq.trans ?_ (congrArg (List.filterMap _) hown).symm
    rw [List.filterMap_filterMap]
    apply List.filterMap_congr
    rintro ⟨w, t⟩ ht
    by_cases hw : w = route key
    · simp [hw]
    · -- another worker sends nothing for the connection
      rw [if_neg hw, Option.bind_none, Function.comp_apply, Option.filter_eq_none_iff]
      intro out hout hkey
      have hroute := Process.route_of_sent (fun _ => rfl) hrun hroute ht hout
      rw [of_decide_eq_true hkey] at hroute
      exact hw hroute.symm

/-- The SYN-ACK of a process with two workers is that of a single server. -/
theorem workers_shard_connections_syn :
    segmentsOf KEY (tcpSegments ((Process.new ECHO_SERVER).packetsSent SYN_EVENTS))
      = [KEY.outgoing ⟨SERVER_ISN, CLIENT_ISN + 1, .SynAck, none⟩] := by
  have hroute : Runs.Admits Process.step (Process.Routed fun _ => true) (Process.new ECHO_SERVER)
      SYN_EVENTS := ⟨trivial, fun _ _ => rfl, trivial⟩
  obtain ⟨-, hsent⟩ := workers_shard_connections .Echo 1000000000 3 0 (fun _ => true) SYN_EVENTS
    synEvents_run hroute KEY
  refine Eq.trans hsent ?_
  decide +kernel

end Typenet
