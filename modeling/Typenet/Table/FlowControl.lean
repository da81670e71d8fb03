import Typenet.Server.ReplySize
import Typenet.Table.Calls

namespace Typenet

/-!
# Flow control and segment size

Data leaves a connection by two of its moves only, with SND.NXT as its sequence number and with
what `Transmits` lets out, so its last byte lies within the window that the connection is left
with (`SendMove.inWindow`).  The closing sweep sends no data, and a retransmission is not new.

* `Host.transmitted` — the segments that an event puts on the wire for the first time;
* `flow_control` — in every run they respect the peer's window and the size of a packet.
-/

variable {σ : Type} {A : Application σ} {conn conn' : ConnState} {seg : TcpSegment .In}
  {now : Instant} {extra : List UInt8}

/-! ### One connection -/

/-- The data `p` sent at `seqNum` lies within the window of `conn`, and fits a packet. -/
def InSendWindow (conn : ConnState) (seqNum : SeqPoint .Out) (p : TcpPayload) : Prop :=
  p.len ≤ 1460 ∧ ∃ w, conn.tcpState.window = some w ∧
    conn.sndUna.dist (seqNum + p.len) ≤ w.sndWnd.toNat

/-- **What the window lets out lies within it**: the bytes in flight and the payload together
    are at most what the peer advertises. -/
theorem Transmits.inSendWindow {w : WindowState} {nxt : SeqPoint .Out} {buffer left : List UInt8}
    {p : TcpPayload} (h : Transmits w conn.sndUna nxt buffer (some p) left)
    (hw : conn.tcpState.window = some w) : InSendWindow conn nxt p := by
  have hlen := h.length
  rw [TcpPayload.lenOrDefault_some] at hlen
  -- a payload is never empty, so the window is larger than what is in flight
  have hpos := p.len_pos
  have hwnd : w.sndWnd.toNat < 2 ^ 16 := w.sndWnd.toNat_lt
  refine ⟨h.le_max, w, hw, ?_⟩
  rw [SeqPoint.dist_add]
  omega

/-- **New data lies within the window**, whichever move of the connection sends it. -/
theorem SendMove.inSendWindow {info : SendInfo} {p : TcpPayload}
    (h : SendMove seg now conn extra conn' (some info)) (hp : info.payload = some p) :
    InSendWindow conn' info.seqNum p := by
  have hquiet : ¬ Quiet (some info) := by
    intro hq
    rw [(hq info rfl).1] at hp
    cases hp
  cases h with
  | idle hsame hextra hq => exact absurd hq hquiet
  | resend hst hextra hinfo => rw [hinfo] at hp; cases hp
  | ack hack hshift hsync hextra hcw hnxt hbuf hq => exact absurd hq hquiet
  | data hack hsend hsilent hname hleft hwin htrans hinfo =>
    rw [hinfo] at hp ⊢
    obtain rfl := Option.some.inj hp
    exact htrans.inSendWindow hwin
  | fin hack hsend hsilent hname hwin hempty htrans hinfo =>
    rw [hinfo] at hp ⊢
    obtain rfl : _ = some p := hp
    exact htrans.inSendWindow hwin

/-- A handler that answers with data keeps its connection, and the data lies within the window
    of what it leaves behind. -/
theorem SendInfo.handleKnownConn_inSendWindow {app : σ} {info : SendInfo} {removed : Bool}
    {p : TcpPayload} (h : (handleKnownConn A app seg conn now).result = .ok (some info, removed))
    (hp : info.payload = some p) :
    removed = false ∧ InSendWindow (handleKnownConn A app seg conn now).conn info.seqNum p := by
  rcases handleKnownConn_moves A app seg conn now with
    ⟨reply, hres, hq, -⟩ | ⟨hkept, -, slices, extra, -, hsend, -⟩
  · obtain ⟨rfl, -⟩ := Prod.mk.inj (Except.ok.inj (hres.symm.trans h))
    rw [(hq info rfl).1] at hp
    cases hp
  · rw [h] at hsend
    refine ⟨?_, hsend.inSendWindow hp⟩
    cases removed with
    | false => rfl
    | true => exact absurd h (hkept _)

/-! ### The table -/

/-- The segments that an event puts on the wire for the first time: a reply, or the FINs of the
    closing sweep. -/
def Host.transmitted (A : Application σ) (h : Host σ) : HostEvent σ → List (TcpSegment .Out)
  | .segment seg randomU32 now =>
    outSegments (h.connections.createReply A h.app seg randomU32 now).1
  | .close _ now =>
    -- every item of the iterator, wherever its consumer stops
    match (h.connections.closeEstablished .ok now).2 with
    | .ok list => list
    | .error _ => []
  | .retransmit _ _ => []
  | .elsewhere _ => []

/-- The closing sweep sends no data. -/
theorem TcpConnections.closeKeys_payload {keys : List ConnKey} {self : TcpConnections}
    {list : List (TcpSegment .Out)} (h : (closeKeys .ok now keys self).2 = .ok list) :
    ∀ out ∈ list, out.payload = none := by
  induction keys generalizing self list with
  | nil =>
    obtain rfl := Except.ok.inj h
    nofun
  | cons key keys ih =>
    unfold closeKeys at h
    cases hclose : (self.get key).bind fun conn => conn.close now with
    | none =>
      rw [hclose] at h
      exact ih h
    | some r =>
      obtain ⟨conn', info⟩ := r
      obtain ⟨conn, -, hcl⟩ := Option.bind_eq_some_iff.mp hclose
      have hinfo : info.payload = none := by
        unfold ConnState.close at hcl
        split at hcl
        · obtain ⟨-, rfl⟩ := Prod.mk.inj (Option.some.inj hcl)
          rfl
        · cases hcl
      simp only [hclose] at h
      cases hrest : (closeKeys .ok now keys (self.set key conn')).2 with
      | error e => rw [hrest] at h; cases h
      | ok rest =>
        rw [hrest] at h
        obtain rfl := Except.ok.inj h
        intro out hout
        rcases List.mem_cons.mp hout with rfl | hout
        · exact hinfo
        · exact ih hrest out hout

/-- **New data respects the window of its connection**, for every event and every table. -/
theorem Host.transmitted_inSendWindow {h : Host σ} {e : HostEvent σ} {out : TcpSegment .Out}
    {p : TcpPayload} (hout : out ∈ h.transmitted A e) (hp : out.payload = some p) :
    ∃ conn, (h.step A e).get (ConnKey.ofOutgoing out) = some conn ∧
      InSendWindow conn out.seqNum p := by
  cases e with
  | segment seg randomU32 now =>
    simp only [transmitted] at hout
    cases hget : h.connections.get (ConnKey.ofSegment seg) with
    | none =>
      exfalso
      unfold TcpConnections.createReply TcpConnections.decideReply at hout
      simp only [hget] at hout
      cases hres : (h.connections.handleUnknownConn seg (ConnKey.ofSegment seg) randomU32 now).1 with
      | error err => rw [hres] at hout; cases hout
      | ok maybeInfo =>
        rw [hres] at hout
        cases maybeInfo with
        | none => cases hout
        | some info =>
          obtain rfl := List.mem_singleton.mp hout
          cases (TcpConnections.handleUnknownConn_payload hres info rfl).symm.trans hp
    | some conn =>
      rw [TcpConnections.createReply_known hget] at hout
      cases hres : (SendInfo.handleKnownConn A h.app seg conn now).result with
      | error err => rw [hres] at hout; cases hout
      | ok v =>
        obtain ⟨maybeInfo, removed⟩ := v
        rw [hres] at hout
        cases maybeInfo with
        | none => cases hout
        | some info =>
          obtain rfl := List.mem_singleton.mp hout
          obtain ⟨rfl, hin⟩ := SendInfo.handleKnownConn_inSendWindow hres hp
          refine ⟨_, ?_, hin⟩
          obtain ⟨-, -, hkeys⟩ := Host.segment_known (h := h) hget A randomU32 now
          rw [hkeys]
          show (if ConnKey.ofSegment seg = ConnKey.ofSegment seg then _ else _) = _
          rw [if_pos rfl, ConnState.step, hres]
          rfl
  | close consume now =>
    exfalso
    simp only [transmitted, TcpConnections.closeEstablished] at hout
    cases hres : (TcpConnections.closeKeys .ok now h.connections.table.keys h.connections).2 with
    | error err => rw [hres] at hout; cases hout
    | ok list =>
      rw [hres] at hout
      cases (TcpConnections.closeKeys_payload hres out hout).symm.trans hp
  | retransmit now late => cases hout
  | elsewhere app => cases hout

/-- **Flow control and segment size.** In every run, a segment with data that is not a
    retransmission carries at most 1460 bytes, and its last byte lies within the window of the
    connection that the event leaves behind: at most SND.WND past SND.UNA. -/
theorem flow_control (A : Application σ) (app : σ) (initialRto : Duration) (maxRetries : UInt8)
    (es : List (HostEvent σ)) (e : HostEvent σ) (out : TcpSegment .Out) (p : TcpPayload)
    (hout : out ∈ (es.foldl (Host.step A) (Host.new app initialRto maxRetries)).transmitted A e)
    (hp : out.payload = some p) :
    p.len ≤ 1460 ∧ ∃ conn w,
      ((es ++ [e]).foldl (Host.step A) (Host.new app initialRto maxRetries)).get
          (ConnKey.ofOutgoing out) = some conn ∧
        conn.tcpState.window = some w ∧
        conn.sndUna.dist (out.seqNum + p.len) ≤ w.sndWnd.toNat := by
  obtain ⟨conn, hconn, hlen, w, hw, hin⟩ := Host.transmitted_inSendWindow hout hp
  refine ⟨hlen, conn, w, ?_, hw, hin⟩
  rw [List.foldl_append]
  exact hconn

/-- The client opens a connection. -/
def beforeHi : List (HostEvent ServerApp) := [.segment CLIENT_SYN (.ok 400) ⟨0⟩]

/-- The client's first two bytes, sent with the handshake-completing ACK. -/
def hiEvent : HostEvent ServerApp := .segment CLIENT_HI (.ok 0) ⟨1⟩

/-- They are echoed within the client's window. -/
theorem flow_control_hi :
    ∃ out p, out ∈ (beforeHi.foldl (Host.step ServerApp.application)
        (Host.new .Echo 1000000000 3)).transmitted ServerApp.application hiEvent ∧
      out.payload = some p ∧ p.len ≤ 1460 ∧ ∃ conn w,
        ((beforeHi ++ [hiEvent]).foldl (Host.step ServerApp.application)
            (Host.new .Echo 1000000000 3)).get (ConnKey.ofOutgoing out) = some conn ∧
          conn.tcpState.window = some w ∧
          conn.sndUna.dist (out.seqNum + p.len) ≤ w.sndWnd.toNat := by
  have hsome : (((beforeHi.foldl (Host.step ServerApp.application)
      (Host.new .Echo 1000000000 3)).transmitted ServerApp.application hiEvent).head?.bind
        (·.payload)).isSome = true := by decide
  obtain ⟨p, hp⟩ := Option.isSome_iff_exists.mp hsome
  obtain ⟨out, hout, hpay⟩ := Option.bind_eq_some_iff.mp hp
  have hmem := List.mem_of_mem_head? hout
  exact ⟨out, p, hmem, hpay,
    flow_control ServerApp.application .Echo 1000000000 3 beforeHi hiEvent out p hmem hpay⟩

end Typenet
