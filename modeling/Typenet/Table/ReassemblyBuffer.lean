import Mathlib.Data.List.Perm.Subperm
import Typenet.Table.NoStall

namespace Typenet

/-!
# What the reassembly buffer holds

Segments are buffered at a distance of less than the window from the RCV.NXT of their arrival, and
only draining takes them out again.  Draining starts from a later RCV.NXT and prunes on the way,
with a comparison that wraps.  `BufferAhead` survives this, because nothing that a drain passes is
further behind than two windows: whatever stays buffered lies ahead of the new RCV.NXT, by less than
the window.

A handler that fails on an in-order FIN has advanced RCV.NXT past it and stays in ESTABLISHED, so
the invariant is about runs without errors (`Host.Answers`).
-/

open SendInfo

variable {σ : Type} {A : Application σ} {conn conn' : ConnState} {seg : TcpSegment .In}
  {now : Instant}

/-! ### Starts of buffered segments -/

/-- An insertion keeps the starts distinct. -/
theorem TcpReassembly.nodup_insertSegment {seq : SeqPoint .In} {payload : TcpPayload}
    {segments : List (SeqPoint .In × TcpPayload)} (h : (segments.map Prod.fst).Nodup) :
    ((insertSegment seq payload segments).map Prod.fst).Nodup := by
  induction segments with
  | nil => exact List.nodup_singleton _
  | cons e rest ih =>
    obtain ⟨start, existing⟩ := e
    obtain ⟨hstart, hrest⟩ := List.nodup_cons.mp h
    unfold insertSegment
    split
    case isTrue => exact List.nodup_cons.mpr ⟨hstart, hrest⟩
    case isFalse hne =>
      refine List.nodup_cons.mpr ⟨fun hmem => ?_, ih hrest⟩
      obtain ⟨e, he, heq⟩ := List.mem_map.mp hmem
      rcases mem_insertSegment he with hold | rfl
      · exact hstart (List.mem_map.mpr ⟨e, hold, heq⟩)
      · exact hne heq.symm

/-- The buffered segments start at distinct points, all of them ahead of RCV.NXT and in the
    window. -/
structure BufferAhead (conn : ConnState) : Prop where
  distinct : (conn.reassembly.segments.map Prod.fst).Nodup
  ahead : ∀ e ∈ conn.reassembly.segments,
    1 ≤ conn.rcvNxt.dist e.1 ∧ conn.rcvNxt.dist e.1 < 65535

/-- There are no more of them than points. -/
theorem BufferAhead.length_le (h : BufferAhead conn) :
    conn.reassembly.segments.length ≤ 65534 := by
  have hnodup : (conn.reassembly.segments.map fun e => conn.rcvNxt.dist e.1).Nodup := by
    have hinj : (fun p => conn.rcvNxt.dist p).Injective := fun a b => SeqPoint.dist_inj.mp
    have hmap := h.distinct.map hinj
    rwa [List.map_map] at hmap
  have hsub : (conn.reassembly.segments.map fun e => conn.rcvNxt.dist e.1)
      ⊆ List.range' 1 65534 := by
    intro d hd
    obtain ⟨e, he, rfl⟩ := List.mem_map.mp hd
    have hahead := h.ahead e he
    rw [List.mem_range'_1]
    omega
  have hle := (hnodup.subperm hsub).length_le
  rwa [List.length_map, List.length_range'] at hle

theorem bufferAhead_opened (iss : SeqPoint .Out) (irs : SeqPoint .In) (now : Instant) :
    BufferAhead (ConnState.opened iss irs now) :=
  ⟨List.nodup_nil, fun _ he => absurd he List.not_mem_nil⟩

/-! ### One segment -/

/-- Buffering keeps what is buffered ahead. -/
theorem BufferAhead.insert (h : BufferAhead conn) (hcheck : SeqCheck.check seg conn = .OutOfOrder)
    (hrcv : conn'.rcvNxt = conn.rcvNxt)
    (hsegs : conn'.reassembly.segments = (match seg.payload with
      | some p => TcpReassembly.insertSegment seg.seqNum p conn.reassembly.segments
      | none => conn.reassembly.segments)) : BufferAhead conn' := by
  cases hpay : seg.payload with
  | none =>
    rw [hpay] at hsegs
    exact ⟨by rw [hsegs]; exact h.distinct, by rw [hsegs, hrcv]; exact h.ahead⟩
  | some p =>
    rw [hpay] at hsegs
    refine ⟨?_, ?_⟩
    · rw [hsegs]
      exact TcpReassembly.nodup_insertSegment h.distinct
    · rw [hsegs, hrcv]
      intro e he
      rcases TcpReassembly.mem_insertSegment he with hold | rfl
      · exact h.ahead e hold
      · -- out of order is ahead of RCV.NXT and in the window
        rw [SeqCheck.check_eq] at hcheck
        split at hcheck
        case isTrue => cases hcheck
        case isFalse hne =>
          split at hcheck
          case isTrue hlt => exact ⟨Nat.pos_of_ne_zero hne, hlt⟩
          case isFalse => cases hcheck

/-- **Draining keeps what is buffered ahead**, of the RCV.NXT it leads to. -/
theorem BufferAhead.drain (h : BufferAhead conn) {payload : Option TcpPayload}
    {payloads : List TcpPayload} {reassembly : TcpReassembly} {rcvNxt : SeqPoint .In}
    (hdrain : conn.reassembly.drainContiguous (conn.rcvNxt + TcpPayload.lenOrDefault payload)
      = (payloads, reassembly, rcvNxt))
    (hre : conn'.reassembly = reassembly) (hrcv : conn'.rcvNxt = rcvNxt) : BufferAhead conn' := by
  have hlen := TcpPayload.lenOrDefault_lt payload
  have hwithin : TcpReassembly.Within conn.rcvNxt conn.reassembly.segments := by
    intro e he
    have hahead := h.ahead e he
    have hfits := e.2.len_lt
    omega
  obtain ⟨-, -, hkept⟩ := TcpReassembly.drainContiguous_chain hwithin
    (by rw [SeqPoint.dist_self_add]; omega) hdrain
  have hsegs : conn'.reassembly.segments
      = TcpReassembly.after conn.rcvNxt (conn.rcvNxt.dist rcvNxt) conn.reassembly.segments := by
    rw [hre, hkept]
  have hsub : conn'.reassembly.segments.Sublist conn.reassembly.segments := by
    rw [hsegs]
    exact List.filter_sublist
  refine ⟨(hsub.map _).nodup h.distinct, fun e he => ?_⟩
  have hahead := h.ahead e (hsub.subset he)
  rw [hsegs] at he
  have hafter : conn.rcvNxt.dist rcvNxt < conn.rcvNxt.dist e.1 :=
    of_decide_eq_true (List.mem_filter.mp he).2
  -- RCV.NXT has advanced towards the segment, without reaching it
  have hdist := SeqPoint.dist_eq conn.rcvNxt rcvNxt e.1
  rw [hrcv]
  omega

/-- **A segment that is answered** keeps what is buffered ahead, as long as the connection
    receives. -/
theorem BufferAhead.recvMove {slices : List (List UInt8)}
    (h : Receiving conn.name → BufferAhead conn) (hm : RecvMove seg conn conn' slices false)
    (hr : Receiving conn'.name) : BufferAhead conn' := by
  have hactive : ¬ PassiveClosed conn'.name := fun hp => hp.not_receiving hr
  cases hm with
  | idle hrcv hre hrecv =>
    have hold := h (hrecv hr ▸ hr)
    exact ⟨by rw [hre]; exact hold.distinct, by rw [hre, hrcv]; exact hold.ahead⟩
  | buffer hcheck hrecv hflags hname hrcv hsegs => exact (h hrecv).insert hcheck hrcv hsegs
  | @data payloads reassembly rcvNxt _ hseq hrecv hflags hpay hdrain hre hno hyes =>
    cases hreached : reassembly.finReached rcvNxt with
    | false => exact (h hrecv).drain hdrain hre (hno hreached).1
    -- a FIN that is reached closes the connection passively
    | true => exact absurd ((hyes hreached).2.1 rfl) hactive
  | fin hseq hrecv hflags hrcv hre hok => exact absurd (hok rfl) hactive
  | halfClosed hseq hsend hpass hnr => exact absurd hr hnr

/-! ### Every run without errors -/

/-- The handler of an answered segment has not failed. -/
theorem Host.Answers.not_failed {h : Host σ} {e : HostEvent σ} (hok : h.Answers A e)
    {key : ConnKey} (hget : h.get key = some conn)
    (hev : e.at key = some (.segment seg now)) :
    failed (handleKnownConn A h.app seg conn now).result = false := by
  obtain ⟨randomU32, rfl, rfl⟩ := HostEvent.at_segment hev
  obtain ⟨reply, hreply⟩ := hok seg randomU32 now rfl
  have hget' : h.connections.get (ConnKey.ofSegment seg) = some conn := hget
  cases hres : (handleKnownConn A h.app seg conn now).result with
  | ok v => rfl
  | error err =>
    simp only [TcpConnections.createReply, TcpConnections.decideReply, hget', hres] at hreply
    cases hreply

/-- A step of the connection without an error keeps what is buffered ahead. -/
theorem BufferAhead.step {rto : RtoConfig} {maxRetries : UInt8} {app : σ} {ev : ConnEvent}
    (h : Receiving conn.name → BufferAhead conn)
    (hs : (conn.step A rto maxRetries app ev).conn = some conn')
    (hok : ∀ seg now, ev = .segment seg now →
      failed (handleKnownConn A app seg conn now).result = false)
    (hr : Receiving conn'.name) : BufferAhead conn' := by
  cases ev with
  | segment seg now =>
    obtain ⟨hconn', slices, hrecv⟩ := ConnState.step_recvMove hs
    rw [hok seg now rfl] at hrecv
    exact .recvMove h hrecv hr
  | retransmit now late =>
    have hmove := ConnState.step_move hs
    generalize conn.step A rto maxRetries app (.retransmit now late) = out at hmove
    cases hmove with
    | retransmit => exact ⟨(h hr).distinct, (h hr).ahead⟩
  | close now =>
    have hmove := ConnState.step_move hs
    generalize conn.step A rto maxRetries app (.close now) = out at hmove
    cases hmove with
    | close hst =>
      have hnot : ¬ Receiving (some Synced.FinWait1) := by decide
      exact absurd hr hnot
    | closeIdle => exact h hr

/-- **The reassembly buffer stays ahead of RCV.NXT.**  In every run without errors, what is
    buffered in SYN-RECEIVED and ESTABLISHED starts at distinct points of the window: at most
    65534 segments, none of them stale, and none that could be delivered. -/
theorem reassembly_stays_ahead (A : Application σ) (app : σ) (initialRto : Duration)
    (maxRetries : UInt8) (es : List (HostEvent σ)) (h : Host σ)
    (hrun : Runs.Run (Host.step A) (Host.Answers A) (Host.new app initialRto maxRetries) es h)
    (key : ConnKey) (conn : ConnState) (hconn : h.get key = some conn)
    (hname : conn.name = none ∨ conn.name = some .Established) :
    (conn.reassembly.segments.map Prod.fst).Nodup ∧
      (∀ e ∈ conn.reassembly.segments,
        1 ≤ conn.rcvNxt.dist e.1 ∧ conn.rcvNxt.dist e.1 < 65535) ∧
      conn.reassembly.segments.length ≤ 65534 ∧
      (∀ e ∈ conn.reassembly.segments, e.1.precedesOrEq conn.rcvNxt = false) ∧
      ∀ payload, (conn.rcvNxt, payload) ∉ conn.reassembly.segments := by
  have hall : ∀ key conn, h.get key = some conn → Receiving conn.name → BufferAhead conn := by
    refine hrun.state_invariant
      (I := fun h => ∀ key conn, h.get key = some conn → Receiving conn.name → BufferAhead conn)
      (fun key conn hget => by cases hget) fun h e ih hok key conn' h' => ?_
    cases (h.step_get e key).2 conn' h' with
    | unchanged hsame => exact ih key conn' hsame
    | stepped hget hev hs =>
      refine BufferAhead.step (ih _ _ hget) hs fun seg now heq => ?_
      subst heq
      exact hok.not_failed hget hev
    | opened hget heq =>
      rw [heq]
      exact fun _ => bufferAhead_opened _ _ _
  have hbuf := hall key conn hconn hname
  refine ⟨hbuf.distinct, hbuf.ahead, hbuf.length_le, fun e he => ?_, fun payload hmem => ?_⟩
  · obtain ⟨hpos, hlt⟩ := hbuf.ahead e he
    have hdist := SeqPoint.dist_eq conn.rcvNxt e.1 conn.rcvNxt
    rw [SeqPoint.dist_self] at hdist
    rw [← Bool.not_eq_true, SeqPoint.precedesOrEq_iff]
    omega
  · have hpos := (hbuf.ahead _ hmem).1
    rw [SeqPoint.dist_self] at hpos
    omega

/-- The client of `reorderedEvents` has a segment buffered, and it is ahead. -/
theorem reassembly_stays_ahead_reordered :
    ∃ conn, (reorderedEvents.foldl (Host.step ServerApp.application)
        (Host.new .Echo 1000000000 3)).get KEY = some conn ∧
      conn.reassembly.segments.length = 1 ∧
      ∀ payload, (conn.rcvNxt, payload) ∉ conn.reassembly.segments := by
  have hrun : Runs.Admits (Host.step ServerApp.application) (Host.Answers ServerApp.application)
      (Host.new .Echo 1000000000 3) reorderedEvents := by
    refine ⟨?_, ?_, ?_, trivial⟩
    all_goals
      rintro seg randomU32 now ⟨⟩
      exact ⟨_, rfl⟩
  have hbuffered : ((reorderedEvents.foldl (Host.step ServerApp.application)
      (Host.new .Echo 1000000000 3)).get KEY).map (fun conn =>
        (conn.name, conn.reassembly.segments.length)) = some (some .Established, 1) := by decide
  obtain ⟨conn, hconn, h⟩ := Option.map_eq_some_iff.mp hbuffered
  obtain ⟨hname, hlen⟩ := Prod.mk.inj h
  exact ⟨conn, hconn, hlen, (reassembly_stays_ahead ServerApp.application .Echo 1000000000 3
    reorderedEvents _ (.of_admits hrun) KEY conn hconn (.inr hname)).2.2.2.2⟩

end Typenet
