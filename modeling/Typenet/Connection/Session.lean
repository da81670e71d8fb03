import Typenet.Connection.Handlers
import Typenet.Stack.Tcp.TestUtils
import Typenet.Server.Application
import Typenet.Lib.Runs

namespace Typenet

/-!
# One connection as a system

Three things happen to a connection in the table: a segment arrives, the retransmission
sweep visits it, or the closing sweep visits it.  `ConnState.step` is the connection's
share of each, and `ConnState.step_move` says what it can do.

A `Session` follows one connection from the SYN that created it until it leaves the table,
with the history that claims about streams speak of: the slices handed to the application,
the bytes it appended, and the segments emitted for the connection.  Between two events of
the connection the application may be changed by other traffic (`SessionEvent.elsewhere`).
-/

/-! ### Events and steps of a connection -/

/-- What can happen to a connection in the table. -/
inductive ConnEvent
  | segment (seg : TcpSegment .In) (now : Instant)
  | retransmit (now late : Instant)
  | close (now : Instant)

/-- What a step leaves behind: the connection unless it was removed, and the segments
    emitted for it, those sent for the first time apart from retransmissions. -/
structure Stepped (σ : Type) where
  app : σ
  conn : Option ConnState
  sent : List SendInfo
  resent : List SendInfo

/-- Whether an outcome asks for the connection to be removed. -/
def removes : TraceableResult (Option SendInfo × Bool) → Bool
  | .ok (_, removeConn) => removeConn
  | .error _ => false

section

variable {σ : Type} (A : Application σ) (rto : RtoConfig) (maxRetries : UInt8)

/-- The connection's share of an event. -/
def ConnState.step (app : σ) (conn : ConnState) : ConnEvent → Stepped σ
  | .segment seg now =>
    let handled := SendInfo.handleKnownConn A app seg conn now
    { app := handled.app
      conn := if removes handled.result then none else some handled.conn
      sent := (replyOf handled.result).toList
      resent := [] }
  | .retransmit now late =>
    match conn.retransmit rto maxRetries now late with
    | none => ⟨app, none, [], []⟩
    | some (conn, resent) => ⟨app, some conn, [], resent⟩
  | .close now =>
    match conn.close now with
    | none => ⟨app, some conn, [], []⟩
    | some (conn, sendInfo) => ⟨app, some conn, [sendInfo], []⟩

end

/-! ### What a step can do -/

variable {σ : Type} {A : Application σ} {rto : RtoConfig} {maxRetries : UInt8}

/-- What a step may do to a connection that survives it. -/
inductive StepMove (A : Application σ) (app : σ) (conn : ConnState) :
    ConnEvent → Stepped σ → ConnState → Prop
  /-- A segment moves both sides. -/
  | segment {seg : TcpSegment .In} {now : Instant} {app' : σ} {conn' : ConnState}
      {slices : List (List UInt8)} {extra : List UInt8} {reply : Option SendInfo}
      {failed : Bool} :
      A.feed app slices = (app', extra) → SendMove seg now conn extra conn' reply →
      RecvMove seg conn conn' slices failed →
      StepMove A app conn (.segment seg now) ⟨app', some conn', reply.toList, []⟩ conn'
  /-- Pending segments are stamped, and copies of some of them go out. -/
  | retransmit {now late : Instant} {f : PendingSegment → PendingSegment}
      {resent : List SendInfo} :
      (∀ p, (f p).sendInfo = p.sendInfo ∧ (f p).endSeq = p.endSeq) →
      (∀ info ∈ resent, ∃ p ∈ conn.pending, p.sendInfo = info) →
      StepMove A app conn (.retransmit now late)
        ⟨app, some { conn with pending := conn.pending.map f }, [], resent⟩
        { conn with pending := conn.pending.map f }
  /-- Active close sends our FIN. -/
  | close {now : Instant} {est : SyncedState .Established} {info : SendInfo} :
      conn.tcpState = .Established est → info = ⟨conn.sndNxt, conn.rcvNxt, .FinAck, none⟩ →
      StepMove A app conn (.close now)
        ⟨app, some { conn with
          tcpState := .FinWait1 est.close
          sndNxt := conn.sndNxt + FIN_BYTE
          pending := conn.pending ++ [PendingSegment.new info now] }, [info], []⟩
        { conn with
          tcpState := .FinWait1 est.close
          sndNxt := conn.sndNxt + FIN_BYTE
          pending := conn.pending ++ [PendingSegment.new info now] }
  /-- Active close passes by a connection that is not in ESTABLISHED. -/
  | closeIdle {now : Instant} : conn.name ≠ some .Established →
      StepMove A app conn (.close now) ⟨app, some conn, [], []⟩ conn

/-- The retransmission sweep gives up on a connection or only stamps pending segments. -/
theorem ConnState.retransmit_cases (conn : ConnState) (rto : RtoConfig) (maxRetries : UInt8)
    (now late : Instant) :
    conn.retransmit rto maxRetries now late = none ∨
    ∃ f resent, conn.retransmit rto maxRetries now late
        = some ({ conn with pending := conn.pending.map f }, resent) ∧
      (∀ p, (f p).sendInfo = p.sendInfo ∧ (f p).endSeq = p.endSeq) ∧
      ∀ info ∈ resent, ∃ p ∈ conn.pending, p.sendInfo = info := by
  unfold ConnState.retransmit
  split
  case isTrue => exact .inl rfl
  case isFalse =>
    refine .inr ⟨_, _, rfl, fun p => ?_, fun info hinfo => ?_⟩
    · split <;> exact ⟨rfl, rfl⟩
    · obtain ⟨p, hp, rfl⟩ := List.mem_map.mp hinfo
      exact ⟨p, (List.mem_filter.mp hp).1, rfl⟩

/-- The closing sweep passes a connection by unless it is in ESTABLISHED. -/
theorem ConnState.close_eq_none {conn : ConnState} (now : Instant)
    (h : conn.name ≠ some .Established) : conn.close now = none := by
  unfold ConnState.close
  unfold ConnState.name at h
  cases hst : conn.tcpState with
  | Established est => rw [hst] at h; exact absurd rfl h
  | _ => rfl

/-- **Steps are moves.** -/
theorem ConnState.step_move {app : σ} {conn conn' : ConnState} {ev : ConnEvent}
    (h : (conn.step A rto maxRetries app ev).conn = some conn') :
    StepMove A app conn ev (conn.step A rto maxRetries app ev) conn' := by
  cases ev with
  | segment seg now =>
    have hmoves := SendInfo.handleKnownConn_moves A app seg conn now
    unfold ConnState.step at h ⊢
    simp only at h ⊢
    generalize SendInfo.handleKnownConn A app seg conn now = hd at h hmoves ⊢
    rcases hmoves with ⟨reply, hres, -, -⟩ | ⟨hrem, -, slices, extra, hfeed, hsend, hrecv⟩
    · rw [hres] at h; cases h
    · have hno : removes hd.result = false := by
        cases hr : hd.result with
        | error e => rfl
        | ok v =>
          obtain ⟨reply, b⟩ := v
          cases b
          · rfl
          · exact absurd hr (hrem reply)
      rw [hno] at h ⊢
      obtain rfl : hd.conn = conn' := by simpa using h
      exact .segment hfeed hsend hrecv
  | retransmit now late =>
    unfold ConnState.step at h ⊢
    rcases conn.retransmit_cases rto maxRetries now late with hno | ⟨f, resent, hsome, hf, hres⟩
    · simp only [hno] at h; cases h
    · simp only [hsome] at h ⊢
      obtain rfl := Option.some.inj h
      exact .retransmit hf hres
  | close now =>
    unfold ConnState.step at h ⊢
    by_cases hname : conn.name = some .Established
    · obtain ⟨est, hst⟩ := ConnState.name_eq_established hname
      simp only [ConnState.close, hst] at h ⊢
      obtain rfl := Option.some.inj h
      exact .close hst rfl
    · simp only [ConnState.close_eq_none now hname] at h ⊢
      obtain rfl := Option.some.inj h
      exact .closeIdle hname

/-- A segment that the connection survives is no removal, and leaves what the handler left. -/
theorem ConnState.step_survives {app : σ} {conn conn' : ConnState} {seg : TcpSegment .In}
    {now : Instant}
    (h : (conn.step A rto maxRetries app (.segment seg now)).conn = some conn') :
    removes (SendInfo.handleKnownConn A app seg conn now).result = false ∧
      (SendInfo.handleKnownConn A app seg conn now).conn = conn' := by
  simp only [ConnState.step] at h
  split at h
  case isTrue => cases h
  case isFalse hno => exact ⟨Bool.not_eq_true _ ▸ hno, Option.some.inj h⟩

/-- A segment that the connection survives: the connection left is the handler's, and its
    receive side has moved as the outcome says. -/
theorem ConnState.step_recvMove {app : σ} {conn conn' : ConnState} {seg : TcpSegment .In}
    {now : Instant}
    (h : (conn.step A rto maxRetries app (.segment seg now)).conn = some conn') :
    (SendInfo.handleKnownConn A app seg conn now).conn = conn' ∧ ∃ slices, RecvMove seg conn conn'
      slices (failed (SendInfo.handleKnownConn A app seg conn now).result) := by
  obtain ⟨hkept, hconn'⟩ := ConnState.step_survives h
  -- the one outcome that is no move is a removal
  rcases SendInfo.handleKnownConn_moves A app seg conn now with ⟨reply, hres, -⟩ |
    ⟨-, -, slices, extra, -, -, hrecv⟩
  · rw [hres] at hkept
    cases hkept
  · rw [hconn'] at hrecv
    exact ⟨hconn', slices, hrecv⟩

/-- A step that removes the connection hands nothing to the application and answers
    quietly. -/
theorem ConnState.step_removed {app : σ} {conn : ConnState} {ev : ConnEvent}
    (h : (conn.step A rto maxRetries app ev).conn = none) :
    ∃ reply, Quiet reply ∧
      conn.step A rto maxRetries app ev = ⟨app, none, reply.toList, []⟩ := by
  cases ev with
  | segment seg now =>
    have hmoves := SendInfo.handleKnownConn_moves A app seg conn now
    unfold ConnState.step at h ⊢
    simp only at h ⊢
    generalize SendInfo.handleKnownConn A app seg conn now = hd at h hmoves ⊢
    rcases hmoves with ⟨reply, hres, hq, happ⟩ | ⟨hrem, -⟩
    · exact ⟨reply, hq, by rw [hres, happ]; rfl⟩
    · cases hr : hd.result with
      | error e => rw [hr] at h; cases h
      | ok v =>
        obtain ⟨reply, b⟩ := v
        cases b
        · rw [hr] at h; cases h
        · exact absurd hr (hrem reply)
  | retransmit now late =>
    unfold ConnState.step at h ⊢
    rcases conn.retransmit_cases rto maxRetries now late with hno | ⟨f, resent, hsome, -, -⟩
    · exact ⟨none, nofun, by simp only [hno]; rfl⟩
    · simp only [hsome] at h; cases h
  | close now =>
    unfold ConnState.step at h
    cases hc : conn.close now with
    | none => simp only [hc] at h; cases h
    | some r => simp only [hc] at h; cases h

/-! ### Sessions -/

/-- One connection with its history. -/
structure Session (σ : Type) where
  /-- The application, with the slices it was handed and the bytes it appended for this
      connection. -/
  app : Recorded σ
  /-- The connection, until it is removed. -/
  conn : Option ConnState
  /-- Replies and segments of the closing sweep, in the order they were emitted. -/
  sent : List SendInfo
  /-- Retransmissions, in the order they were emitted. -/
  resent : List SendInfo

/-- An event of a session. -/
inductive SessionEvent (σ : Type)
  | on (ev : ConnEvent)
  /-- Other traffic changes the application's state. -/
  | elsewhere (app : σ)

/-- The SYN-ACK that answers the SYN which creates a connection. -/
def synAck (iss : SeqPoint .Out) (irs : SeqPoint .In) : SendInfo where
  seqNum := iss
  ackNum := irs + SYN_BYTE
  flags := .SynAck
  payload := none

/-- The connection right after its SYN. -/
def ConnState.opened (iss : SeqPoint .Out) (irs : SeqPoint .In) (now : Instant) : ConnState where
  tcpState := .SynReceived
  sndNxt := iss + SYN_BYTE
  rcvNxt := irs + SYN_BYTE
  sndUna := iss
  pending := [PendingSegment.new (synAck iss irs) now]
  sendBuffer := []
  reassembly := TcpReassembly.new

theorem ConnState.fromSynAck_synAck (iss : SeqPoint .Out) (irs : SeqPoint .In) (now : Instant) :
    ConnState.fromSynAck (synAck iss irs) now = .ok (ConnState.opened iss irs now) := rfl

namespace Session

/-- A session right after the SYN that created its connection. -/
def opened (app : σ) (iss : SeqPoint .Out) (irs : SeqPoint .In) (now : Instant) :
    Session σ where
  app := { inner := app }
  conn := some (ConnState.opened iss irs now)
  sent := [synAck iss irs]
  resent := []

/-- A step of a session: once the connection is gone nothing more happens to it. -/
def step (A : Application σ) (rto : RtoConfig) (maxRetries : UInt8) (s : Session σ) :
    SessionEvent σ → Session σ
  | .on ev =>
    match s.conn with
    | none => s
    | some conn =>
      let out := conn.step A.recorded rto maxRetries s.app ev
      { app := out.app
        conn := out.conn
        sent := s.sent ++ out.sent
        resent := s.resent ++ out.resent }
  | .elsewhere app => { s with app := { s.app with inner := app } }

/-- The condition `G` on the events of a session's connection. -/
def Guard (G : ConnState → ConnEvent → Prop) (s : Session σ) (e : SessionEvent σ) : Prop :=
  ∀ conn ev, s.conn = some conn → e = .on ev → G conn ev

/-- **What a step of a session can do** when the connection survives it: other traffic
    passes by, or the connection makes a move and its history grows. -/
theorem step_cases {s : Session σ} {e : SessionEvent σ} {conn' : ConnState}
    (h : (s.step A rto maxRetries e).conn = some conn') :
    (∃ app, e = .elsewhere app ∧ s.conn = some conn') ∨
    ∃ ev conn out, e = .on ev ∧ s.conn = some conn ∧
      StepMove A.recorded s.app conn ev out conn' ∧
      s.step A rto maxRetries e
        = ⟨out.app, some conn', s.sent ++ out.sent, s.resent ++ out.resent⟩ := by
  cases e with
  | elsewhere app => exact .inl ⟨app, rfl, h⟩
  | on ev =>
    cases hs : s.conn with
    | none => simp only [step, hs] at h; cases h
    | some conn =>
      have hstep : s.step A rto maxRetries (.on ev)
          = ⟨(conn.step A.recorded rto maxRetries s.app ev).app,
            (conn.step A.recorded rto maxRetries s.app ev).conn,
            s.sent ++ (conn.step A.recorded rto maxRetries s.app ev).sent,
            s.resent ++ (conn.step A.recorded rto maxRetries s.app ev).resent⟩ := by
        simp only [step, hs]
      rw [hstep] at h ⊢
      exact .inr ⟨ev, conn, _, rfl, rfl, ConnState.step_move h, by rw [← h]⟩

/-- What a step of a session can do when no connection is left after it: nothing was there
    before, or it was removed with a quiet reply. -/
theorem step_gone {s : Session σ} {e : SessionEvent σ}
    (h : (s.step A rto maxRetries e).conn = none) :
    (s.conn = none ∧ ∃ app, s.step A rto maxRetries e = { s with app := { s.app with
      inner := app } }) ∨
    ∃ conn reply, s.conn = some conn ∧ Quiet reply ∧
      s.step A rto maxRetries e = ⟨s.app, none, s.sent ++ reply.toList, s.resent ++ []⟩ := by
  cases e with
  | elsewhere app => exact .inl ⟨h, app, rfl⟩
  | on ev =>
    cases hs : s.conn with
    | none => exact .inl ⟨rfl, s.app.inner, by simp only [step, hs]; rw [← hs]⟩
    | some conn =>
      simp only [step, hs] at h ⊢
      obtain ⟨reply, hq, hstep⟩ := ConnState.step_removed h
      exact .inr ⟨conn, reply, rfl, hq, by rw [hstep]⟩

end Session

/-! ### A session on the fixtures -/

/-- The client says "hi" and closes. -/
def hiEvents : List (SessionEvent ServerApp) :=
  [.on (.segment CLIENT_HI ⟨1⟩), .on (.segment CLIENT_FIN ⟨2⟩)]

/-- The session of an echo server with that client. -/
def hiSession : Session ServerApp :=
  hiEvents.foldl (Session.step ServerApp.application (TcpConnections.new 0 3).rtoConfig 3)
    (Session.opened .Echo SERVER_ISN CLIENT_ISN ⟨0⟩)

/-- The session ends in LAST-ACK. -/
theorem hiSession_lastAck :
    ∃ conn, hiSession.conn = some conn ∧ conn.name = some .LastAck := by
  have h : hiSession.conn.map ConnState.name = some (some .LastAck) := by decide
  exact Option.map_eq_some_iff.mp h

end Typenet
