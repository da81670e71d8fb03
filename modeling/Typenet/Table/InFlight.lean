import Typenet.Table.Runs
import Typenet.Connection.InFlight

namespace Typenet

/-!
# The range in flight of every connection

In every run without an antipodal acknowledgment at most 65536 sequence numbers are in flight
on any connection, and the conversion of their number never fails.  With such an
acknowledgment SND.UNA passes SND.NXT (`in_flight_half_circle`).
-/

/-- **The range in flight is bounded**, in every run in which no acknowledgment that is
    processed is the antipode of SND.NXT while nothing is in flight; and then no handler
    fails to convert it. -/
theorem in_flight_bounded (A : Application σ) (app : σ) (initialRto : Duration)
    (maxRetries : UInt8) (es : List (HostEvent σ)) (h : Host σ)
    (hrun : Runs.Run (Host.step A) (Host.Guard Unambiguous)
      (Host.new app initialRto maxRetries) es h)
    (key : ConnKey) (conn : ConnState) (hconn : h.get key = some conn) :
    conn.sndUna.dist conn.sndNxt ≤ 65536 ∧ 0 ≤ conn.sndNxt.sub conn.sndUna ∧
      ∀ seg now, Unambiguous conn (.segment seg now) →
        failed (SendInfo.handleKnownConn A h.app seg conn now).result = false := by
  have hinv : InFlightInv conn := Host.conn_invariant inFlightInv_opened
    (fun _ _ _ _ _ _ hp hg hs => hp.step hg hs) hrun hconn
  have hle : conn.sndUna.dist conn.sndNxt ≤ 65536 := hinv.any
  refine ⟨hle, ?_, fun seg now hg => hinv.handles hg A h.app now⟩
  rw [SeqPoint.sub_eq, if_pos (by omega)]
  exact Int.natCast_nonneg _

/-- A connection that has just been established. -/
def establishedEvents : List (HostEvent ServerApp) :=
  [.segment CLIENT_SYN (.ok 400) ⟨0⟩, .segment CLIENT_ACK_COMPLETING_HANDSHAKE (.ok 0) ⟨1⟩]

/-- A FIN-ACK out of order whose SEG.ACK is the antipode of SND.NXT. -/
def CLIENT_ANTIPODAL_FIN : TcpSegment .In :=
  { CLIENT_PKT with
    seqNum := CLIENT_ISN + 2
    ackNum := SERVER_ISN + SYN_BYTE + 2 ^ 31
    flags := .FinAck }

/-- Nothing is in flight right after a handshake. -/
theorem in_flight_bounded_established :
    ∃ conn, (establishedEvents.foldl (Host.step ServerApp.application)
        (Host.new .Echo 1000000000 3)).get KEY = some conn ∧
      conn.sndUna.dist conn.sndNxt ≤ 65536 := by
  have hsome : ((establishedEvents.foldl (Host.step ServerApp.application)
      (Host.new .Echo 1000000000 3)).get KEY).isSome = true := by decide
  obtain ⟨conn, hconn⟩ := Option.isSome_iff_exists.mp hsome
  have hsyn : ∀ e ∈ ((establishedEvents.take 1).foldl (Host.step ServerApp.application)
      (Host.new .Echo 1000000000 3)).connections.table.entries,
      e.2.takesAck CLIENT_ACK_COMPLETING_HANDSHAKE = false := by decide
  have h := in_flight_bounded ServerApp.application .Echo 1000000000 3 establishedEvents _
    (.of_admits ⟨Host.guard_segment nofun, Host.guard_segment fun e he seg now heq => by
      obtain ⟨rfl, rfl⟩ := ConnEvent.segment.inj heq
      rw [hsyn e he]; simp, trivial⟩) KEY conn hconn
  exact ⟨conn, hconn, h.1⟩

/-- **SND.UNA can pass SND.NXT**: after an antipodal FIN-ACK half the circle is in flight. -/
theorem in_flight_half_circle :
    ∃ es h conn, Runs.Run (Host.step ServerApp.application) (fun _ _ => True)
        (Host.new .Echo 1000000000 3) es h ∧
      h.get KEY = some conn ∧ conn.sndUna.dist conn.sndNxt = 2 ^ 31 := by
  let es := establishedEvents ++ [HostEvent.segment CLIENT_ANTIPODAL_FIN (.ok 0) ⟨2⟩]
  have h : ((es.foldl
      (Host.step ServerApp.application) (Host.new .Echo 1000000000 3)).get KEY).map
        ConnState.inFlight = some (2 ^ 31) := by decide
  obtain ⟨conn, hconn, hfl⟩ := Option.map_eq_some_iff.mp h
  exact ⟨es, _, conn, .of_foldl _ _, hconn, hfl⟩

end Typenet
