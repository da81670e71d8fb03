import Typenet.Lib.Mealy
import Typenet.Table.Backoff
import Typenet.Table.Solicited

namespace Typenet

/-!
# Connections whose peer is silent

There is no timer but the retransmission timer.  So a connection that has nothing queued has no
timer at all: while its peer is silent, and no shutdown closes it, it neither changes nor says
anything, however long that lasts.  A connection that has something queued does not outlast every
silence.

* `Host.step_idle` — one event that passes an idle connection by;
* `Host.gone_of_sweeps` — sweeps at which everything is due use up the retries;
* `idle_iff_outlasts_silence` — the idle connections are those that outlast every silence.
-/

variable {σ : Type} {A : Application σ} {key : ConnKey} {h : Host σ} {conn : ConnState}

/-- The connection has nothing queued for retransmission. -/
def ConnState.Idle (conn : ConnState) : Prop := conn.pending = []

/-- The event is no segment of the connection, and does not close it either. -/
structure HostEvent.PassesBy (key : ConnKey) (conn : ConnState) (e : HostEvent σ) : Prop where
  silent : e.Silent key
  open' : conn.name = some .Established → ∀ consume now, e ≠ .close consume now

/-! ### Idle connections -/

/-- A sweep finds nothing to do at an idle connection. -/
theorem ConnState.Idle.retransmit (hidle : conn.Idle) (rto : RtoConfig) (maxRetries : UInt8)
    (now late : Instant) : conn.retransmit rto maxRetries now late = some (conn, []) := by
  obtain ⟨tcpState, sndNxt, rcvNxt, sndUna, pending, sendBuffer, reassembly⟩ := conn
  obtain rfl : pending = [] := hidle
  simp [ConnState.retransmit]

/-- **One event that passes an idle connection by** leaves it as it is, and nothing is sent for
    it. -/
theorem Host.step_idle (hconn : h.get key = some conn) (hidle : conn.Idle) {e : HostEvent σ}
    (hpass : e.PassesBy key conn) :
    (h.step A e).get key = some conn ∧ segmentsOf key (h.emitted A e) = [] := by
  cases e with
  | segment seg randomU32 now =>
    have hother := hpass.silent seg randomU32 now rfl
    refine ⟨(h.segment_other A randomU32 now hother).trans hconn, ?_⟩
    rw [h.segmentsOf_emitted, if_neg hother]
  | retransmit now late =>
    obtain ⟨-, hafter, hsent⟩ := h.connections.makeRetransmissions_get now late key
    have hget : h.connections.get key = some conn := hconn
    unfold TcpConnections.resentFor at hsent
    simp only [hget, Option.bind_some, hidle.retransmit] at hafter hsent
    exact ⟨hafter, hsent⟩
  | close consume now =>
    rcases h.close_cases A consume now key with ⟨hafter, hsent⟩ | ⟨c, c', info, hget, hclose, -⟩
    · exact ⟨hafter.trans hconn, hsent⟩
    · -- only an ESTABLISHED connection is closed
      obtain rfl := Option.some.inj (hconn.symm.trans hget)
      by_cases hname : conn.name = some .Established
      · exact absurd rfl (hpass.open' hname consume now)
      · rw [ConnState.close_eq_none now hname] at hclose
        cases hclose
  | elsewhere app => exact ⟨hconn, rfl⟩

/-- An idle connection over a stretch of events that pass it by. -/
theorem Host.foldl_idle (hconn : h.get key = some conn) (hidle : conn.Idle)
    {es : List (HostEvent σ)} (hpass : ∀ e ∈ es, e.PassesBy key conn) :
    (es.foldl (Host.step A) h).get key = some conn ∧
      segmentsOf key (Mealy.outputs (Host.act A) es h) = [] := by
  induction es generalizing h with
  | nil => exact ⟨hconn, rfl⟩
  | cons e es ih =>
    obtain ⟨hafter, hsent⟩ := Host.step_idle (A := A) hconn hidle (hpass e List.mem_cons_self)
    obtain ⟨hlast, hrest⟩ := ih hafter fun e' he' => hpass e' (List.mem_cons_of_mem e he')
    refine ⟨hlast, ?_⟩
    rw [Mealy.outputs_cons, segmentsOf_append]
    exact List.append_eq_nil_iff.mpr ⟨hsent, hrest⟩

/-! ### Connections that wait for an acknowledgment -/

/-- A sweep at the last instant that can be represented. -/
def LAST_SWEEP : HostEvent σ := .retransmit ⟨Instant.MAX⟩ ⟨Instant.MAX⟩

/-- It is no segment, and closes nothing. -/
theorem HostEvent.passesBy_last (key : ConnKey) (conn : ConnState) :
    (LAST_SWEEP : HostEvent σ).PassesBy key conn where
  silent _ _ _ heq := by cases heq
  open' _ _ _ heq := by cases heq

/-- By then everything is due, also what would be due only later. -/
theorem Host.oldestDue_last {p : PendingSegment} {rest : List PendingSegment}
    (hqueue : h.queue key = p :: rest) : h.oldestDue key LAST_SWEEP = true := by
  show (h.queue key).head?.any
    (ConnState.isDue h.connections.rtoConfig ⟨Instant.MAX⟩ ⟨Instant.MAX⟩) = true
  rw [hqueue, List.head?_cons, Option.any_some, ConnState.isDue, decide_eq_true_eq,
    PendingSegment.timeDue_eq]
  unfold Instant.checkedAdd
  split
  case isTrue hfits => exact hfits
  case isFalse => exact Nat.le_refl _

/-- So the oldest segment is sent again, unless the connection is given up. -/
theorem Host.retried_last {p : PendingSegment} {rest : List PendingSegment}
    (hqueue : h.queue key = p :: rest) (hthere : (h.step A LAST_SWEEP).get key ≠ none) :
    ∃ p' rest', (h.step A LAST_SWEEP).queue key = p' :: rest' ∧
      p'.retries.toNat = p.retries.toNat + 1 ∧
      p.retries.toNat < h.connections.maxRetries.toNat := by
  have hsilent := (HostEvent.passesBy_last (σ := σ) key (.opened ⟨0⟩ ⟨0⟩ ⟨0⟩)).silent
  obtain ⟨p', rest', hqueue', hnext⟩ := Host.queue_silent hsilent hqueue hthere
  unfold Host.NextOldest at hnext
  rw [if_pos (Host.oldestDue_last hqueue)] at hnext
  obtain ⟨now, -, rfl, hleft⟩ := hnext
  obtain ⟨hcount, -⟩ := retransmitted_retries hleft now
  exact ⟨_, rest', hqueue', hcount, UInt8.lt_iff_toNat_lt.mp (UInt8.not_le.mp hleft)⟩

/-- **Sweeps at which everything is due** use up the retries of the oldest segment, and with one
    more the connection is gone. -/
theorem Host.gone_of_sweeps {n : Nat} {p : PendingSegment} {rest : List PendingSegment}
    (hqueue : h.queue key = p :: rest)
    (hretries : h.connections.maxRetries.toNat ≤ p.retries.toNat + n) :
    ((List.replicate (n + 1) LAST_SWEEP).foldl (Host.step A) h).get key = none := by
  induction n generalizing h p rest with
  | zero =>
    by_contra hthere
    obtain ⟨-, -, -, -, hleft⟩ := Host.retried_last (A := A) hqueue hthere
    omega
  | succ n ih =>
    rw [List.replicate_succ, List.foldl_cons]
    by_cases hgone : (h.step A LAST_SWEEP).get key = none
    · apply Host.foldl_silent_none _ hgone
      intro e he
      rw [List.eq_of_mem_replicate he]
      exact (HostEvent.passesBy_last key (.opened ⟨0⟩ ⟨0⟩ ⟨0⟩)).silent
    · obtain ⟨p', rest', hqueue', hcount, -⟩ := Host.retried_last hqueue hgone
      apply ih hqueue'
      rw [(h.step_config LAST_SWEEP).2]
      omega

/-! ### Silence -/

/-- **The idle connections are those that outlast every silence.**  For a connection that is not
    idle there are events that pass it by and after which it is gone.  Over any such events an idle
    connection stays as it is, and nothing is sent for it. -/
theorem idle_iff_outlasts_silence (A : Application σ) (h : Host σ) (key : ConnKey)
    (conn : ConnState) (hconn : h.get key = some conn) :
    (conn.Idle ↔ ∀ es : List (HostEvent σ), (∀ e ∈ es, e.PassesBy key conn) →
      (es.foldl (Host.step A) h).get key ≠ none) ∧
    (conn.Idle → ∀ es : List (HostEvent σ), (∀ e ∈ es, e.PassesBy key conn) →
      (es.foldl (Host.step A) h).get key = some conn ∧
        segmentsOf key (Mealy.outputs (Host.act A) es h) = []) := by
  refine ⟨⟨fun hidle es hpass => ?_, fun houtlasts => ?_⟩, fun hidle es hpass =>
    Host.foldl_idle hconn hidle hpass⟩
  · rw [(Host.foldl_idle hconn hidle hpass).1]
    exact Option.some_ne_none conn
  · by_contra hwaits
    obtain ⟨p, rest, hpending⟩ := List.exists_cons_of_ne_nil hwaits
    have hqueue : h.queue key = p :: rest := (Host.queue_of_get hconn).trans hpending
    refine houtlasts (List.replicate (h.connections.maxRetries.toNat + 1) LAST_SWEEP) ?_
      (Host.gone_of_sweeps hqueue (Nat.le_add_left _ _))
    intro e he
    rw [List.eq_of_mem_replicate he]
    exact HostEvent.passesBy_last key conn

/-- A client that completes the handshake. -/
def HANDSHAKE_EVENTS : List (HostEvent ServerApp) :=
  [.segment CLIENT_SYN (.ok 400) ⟨0⟩, .segment CLIENT_ACK_COMPLETING_HANDSHAKE (.ok 0) ⟨1⟩]

/-- It is still connected after a silence at which any other connection would be given up. -/
theorem idle_iff_outlasts_silence_handshake :
    ((FOUR_SWEEPS.foldl (Host.step ServerApp.application)
      (HANDSHAKE_EVENTS.foldl (Host.step ServerApp.application)
        (Host.new .Echo (Duration.fromMillis 1000) 3))).get KEY).isSome = true := by
  have hdone : ((HANDSHAKE_EVENTS.foldl (Host.step ServerApp.application)
      (Host.new .Echo (Duration.fromMillis 1000) 3)).get KEY).map (·.pending) = some [] := by
    decide
  obtain ⟨conn, hconn, hidle⟩ := Option.map_eq_some_iff.mp hdone
  have hpass : ∀ e ∈ FOUR_SWEEPS, e.PassesBy KEY conn := by
    intro e he
    obtain ⟨secs, -, rfl⟩ := List.mem_map.mp he
    constructor <;> intro _ _ _ heq <;> cases heq
  obtain ⟨-, hstays⟩ := idle_iff_outlasts_silence ServerApp.application _ KEY conn hconn
  rw [(hstays hidle FOUR_SWEEPS hpass).1]
  rfl

end Typenet
