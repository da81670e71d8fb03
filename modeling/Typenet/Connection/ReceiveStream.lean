import Typenet.Connection.Session

namespace Typenet

/-!
# The receive stream

The peer sends a stream `S` and one FIN, cut into segments in any way and delivered in any
order, any number of times.  Positions are offsets from `base`, the sequence number of the
first byte; the FIN has the offset `S.length`.

`ReceiveInv` ties RCV.NXT, the reassembly buffer and the recorded FIN to the stream; each
move of the receive side keeps it (`ReceiveInv.recvMove`), hence every step of a session.
The main result, `receive_stream_integrity`, reads the delivered bytes off the invariant.
-/

open TcpReassembly (Within mem_held)

variable {σ : Type} {A : Application σ} {rto : RtoConfig} {maxRetries : UInt8}
  {S : List UInt8} {base : SeqPoint .In}

/-! ### The peer's segments -/

/-- The segment is cut from the stream: its payload is the slice its SEG.SEQ names, and a FIN
    sits only at the end. -/
structure Carries (S : List UInt8) (base : SeqPoint .In) (seg : TcpSegment .In) : Prop where
  payload : ∀ p, seg.payload = some p → p.data <+: S.drop (base.dist seg.seqNum)
  fin : seg.flags = .FinAck →
    base.dist seg.seqNum + TcpPayload.lenOrDefault seg.payload = S.length

/-- Every segment that arrives is cut from the stream. -/
def FromPeer (S : List UInt8) (base : SeqPoint .In) : Session σ → SessionEvent σ → Prop
  | _, .on (.segment seg _) => Carries S base seg
  | _, _ => True

/-- The states in which the application has been handed all that was received. -/
def Delivering (n : Option Synced) : Prop := Receiving n ∨ PassiveClosed n

instance (n : Option Synced) : Decidable (Delivering n) := inferInstanceAs (Decidable (_ ∨ _))

/-- RCV.NXT has moved past the sequence number of the peer's FIN. -/
def FinConsumed (S : List UInt8) (base : SeqPoint .In) (conn : ConnState) : Prop :=
  S.length < base.dist conn.rcvNxt

instance (conn : ConnState) : Decidable (FinConsumed S base conn) :=
  inferInstanceAs (Decidable (_ < _))

/-! ### The invariant -/

/-- What the receive side of a connection knows about the stream, when `received` was handed
    to the application and `seen` says that a FIN has arrived. -/
structure ReceiveInv (S : List UInt8) (base : SeqPoint .In) (received : List (List UInt8))
    (seen : Prop) (conn : ConnState) : Prop where
  le : base.dist conn.rcvNxt ≤ S.length + 1
  delivered : received.flatten = S.take (base.dist conn.rcvNxt)
  held : ∀ n p, (n, p) ∈ TcpReassembly.held base conn.reassembly.segments → p <+: S.drop n
  fin : ∀ f, conn.reassembly.finSeq = some f → base.dist f = S.length ∧ seen
  fresh : conn.name = none → base.dist conn.rcvNxt = 0
  closed : PassiveClosed conn.name → FinConsumed S base conn
  seen : FinConsumed S base conn → seen

variable {received : List (List UInt8)} {seen seen' : Prop} {conn conn' : ConnState}
  {seg : TcpSegment .In}

/-- The invariant only looks at the state's name and the receive side. -/
theorem ReceiveInv.congr (h : ReceiveInv S base received seen conn)
    (hnone : conn'.name = none → conn.name = none)
    (hpassive : PassiveClosed conn'.name → PassiveClosed conn.name)
    (hrcv : conn'.rcvNxt = conn.rcvNxt) (hre : conn'.reassembly = conn.reassembly)
    (hseen : seen → seen') :
    ReceiveInv S base received seen' conn' := by
  have hfin : FinConsumed S base conn' ↔ FinConsumed S base conn := by
    unfold FinConsumed; rw [hrcv]
  refine ⟨by rw [hrcv]; exact h.le, by rw [hrcv]; exact h.delivered, by rw [hre]; exact h.held,
    fun f hf => ?_, fun hn => ?_, fun hc => ?_, fun hf => hseen (h.seen (hfin.mp hf))⟩
  · obtain ⟨hd, hs⟩ := h.fin f (hre ▸ hf)
    exact ⟨hd, hseen hs⟩
  · rw [hrcv]; exact h.fresh (hnone hn)
  · exact hfin.mpr (h.closed (hpassive hc))

/-- Buffered pieces of the stream are not empty. -/
theorem held_ne_nil {segments : List (SeqPoint .In × TcpPayload)} {n : Nat} {p : List UInt8}
    (h : (n, p) ∈ TcpReassembly.held base segments) : p ≠ [] := by
  obtain ⟨e, -, -, rfl⟩ := mem_held.mp h
  exact e.2.nonempty

/-- A buffer of pieces of a short stream lies within half the circle. -/
theorem within_of_held {segments : List (SeqPoint .In × TcpPayload)} (hS : S.length < 2 ^ 31)
    (h : ∀ n p, (n, p) ∈ TcpReassembly.held base segments → p <+: S.drop n) :
    Within base segments := by
  intro e he
  have hmem : (base.dist e.1, e.2.data) ∈ TcpReassembly.held base segments :=
    mem_held.mpr ⟨e, he, rfl, rfl⟩
  have hle := Stream.piece_le (h _ _ hmem) e.2.nonempty
  rw [TcpPayload.length_data] at hle
  omega

/-- A payload at RCV.NXT extends what was delivered. -/
theorem Carries.extend (hc : Carries S base seg) {n : Nat} (hn : base.dist seg.seqNum = n) :
    S.take n ++ (TcpPayload.slices seg.payload).flatten
        = S.take (n + TcpPayload.lenOrDefault seg.payload) ∧
      (seg.payload ≠ none → n + TcpPayload.lenOrDefault seg.payload ≤ S.length) := by
  cases hp : seg.payload with
  | none => simp [TcpPayload.slices]
  | some p =>
    have hpiece := hc.payload p hp
    rw [hn] at hpiece
    constructor
    · have htake := Stream.take_append_piece hpiece
      simpa [TcpPayload.slices] using htake
    · intro _; exact Stream.piece_le hpiece p.nonempty

/-- **In-order delivery.** The segment's payload and what it makes contiguous extend the
    delivered bytes up to the new RCV.NXT, which stays inside the stream. -/
theorem ReceiveInv.deliver {payloads : List TcpPayload} {reassembly : TcpReassembly}
    {rcvNxt : SeqPoint .In} (hS : S.length < 2 ^ 31) (hc : Carries S base seg)
    (h : ReceiveInv S base received seen conn) (hseq : seg.seqNum = conn.rcvNxt)
    (hmid : base.dist conn.rcvNxt + TcpPayload.lenOrDefault seg.payload ≤ S.length)
    (hdrain : conn.reassembly.drainContiguous
      (conn.rcvNxt + TcpPayload.lenOrDefault seg.payload) = (payloads, reassembly, rcvNxt)) :
    base.dist rcvNxt ≤ S.length ∧
      (received ++ (TcpPayload.slices seg.payload ++ payloads.map (·.data))).flatten
        = S.take (base.dist rcvNxt) ∧
      (∀ n p, (n, p) ∈ TcpReassembly.held base reassembly.segments → p <+: S.drop n) ∧
      reassembly.finSeq = conn.reassembly.finSeq := by
  have hdist : base.dist (conn.rcvNxt + TcpPayload.lenOrDefault seg.payload)
      = base.dist conn.rcvNxt + TcpPayload.lenOrDefault seg.payload := by
    rw [SeqPoint.dist_add, Nat.mod_eq_of_lt (by omega)]
  obtain ⟨hchain, -, rfl⟩ := TcpReassembly.drainContiguous_chain
    (within_of_held hS h.held) (by rw [hdist]; omega) hdrain
  refine ⟨?_, ?_, fun n p hp => ?_, rfl⟩
  · exact hchain.le_length (fun o p hp => ⟨h.held o p hp, held_ne_nil hp⟩)
      (by rw [hdist]; exact hmid)
  · have hext := (hc.extend (congrArg base.dist hseq)).1
    rw [List.flatten_append, List.flatten_append, ← List.append_assoc, h.delivered, hext,
      ← hdist]
    exact hchain.take_eq h.held
  · obtain ⟨e, he, rfl, rfl⟩ := mem_held.mp hp
    exact h.held _ _ (mem_held.mpr ⟨e, TcpReassembly.after_subset e he, rfl, rfl⟩)

/-- A recorded FIN is reached exactly at the end of the stream. -/
theorem ReceiveInv.finReached {reassembly : TcpReassembly} {rcvNxt : SeqPoint .In}
    (hS : S.length < 2 ^ 31) (h : ReceiveInv S base received seen conn)
    (hfin : reassembly.finSeq = conn.reassembly.finSeq) (hend : base.dist rcvNxt ≤ S.length)
    (hr : reassembly.finReached rcvNxt = true) : base.dist rcvNxt = S.length ∧ seen := by
  unfold TcpReassembly.finReached at hr
  cases hf : reassembly.finSeq with
  | none => rw [hf] at hr; cases hr
  | some f =>
    rw [hf] at hr
    obtain ⟨hpos, hs⟩ := h.fin f (hfin ▸ hf)
    have hlt : base.dist f < 2 ^ 31 := by omega
    have hle := (TcpReassembly.precedesOrEq_iff_le hlt (by omega)).mp hr
    exact ⟨by omega, hs⟩

/-- A buffered segment is a piece of the stream. -/
theorem ReceiveInv.held_buffer (h : ReceiveInv S base received seen conn)
    (hc : Carries S base seg)
    (hsegs : conn'.reassembly.segments = (match seg.payload with
      | some p => TcpReassembly.insertSegment seg.seqNum p conn.reassembly.segments
      | none => conn.reassembly.segments)) :
    ∀ n p, (n, p) ∈ TcpReassembly.held base conn'.reassembly.segments → p <+: S.drop n := by
  intro n q hq
  obtain ⟨e, he, rfl, rfl⟩ := mem_held.mp hq
  rw [hsegs] at he
  cases hp : seg.payload with
  | none =>
    rw [hp] at he
    exact h.held _ _ (mem_held.mpr ⟨e, he, rfl, rfl⟩)
  | some p =>
    rw [hp] at he
    rcases TcpReassembly.mem_insertSegment he with hold | rfl
    · exact h.held _ _ (mem_held.mpr ⟨e, hold, rfl, rfl⟩)
    · exact hc.payload p hp

/-- A FIN recorded ahead of its turn stands at the end of the stream. -/
theorem ReceiveInv.fin_buffer (h : ReceiveInv S base received seen conn) (hS : S.length < 2 ^ 31)
    (hc : Carries S base seg) (hseen : seen → seen') (hfinack : seg.flags = .FinAck → seen')
    (hfin : conn'.reassembly.finSeq = (if seg.flags = .FinAck then
      some (conn.reassembly.finSeq.getD (seg.seqNum + TcpPayload.lenOrDefault seg.payload))
      else conn.reassembly.finSeq)) :
    ∀ f, conn'.reassembly.finSeq = some f → base.dist f = S.length ∧ seen' := by
  intro f hf
  rw [hfin] at hf
  split at hf
  case isTrue hfa =>
    cases hold : conn.reassembly.finSeq with
    | some g =>
      obtain ⟨hg, hs⟩ := h.fin g hold
      obtain rfl : g = f := by simpa [hold] using hf
      exact ⟨hg, hseen hs⟩
    | none =>
      -- the FIN is recorded where this segment ends
      obtain rfl : seg.seqNum + TcpPayload.lenOrDefault seg.payload = f := by
        simpa [hold] using hf
      have hend := hc.fin hfa
      refine ⟨?_, hfinack hfa⟩
      rw [SeqPoint.dist_add, Nat.mod_eq_of_lt (by omega)]
      exact hend
  case isFalse =>
    obtain ⟨hg, hs⟩ := h.fin f hf
    exact ⟨hg, hseen hs⟩

/-- Once the FIN is consumed, the whole stream has been handed over. -/
theorem ReceiveInv.of_consumed {slices : List (List UInt8)} {failed : Bool}
    (hpast : base.dist conn'.rcvNxt = S.length + 1) (hdel : slices.flatten = S)
    (hheld : ∀ n p, (n, p) ∈ TcpReassembly.held base conn'.reassembly.segments → p <+: S.drop n)
    (hrecorded : ∀ f, conn'.reassembly.finSeq = some f → base.dist f = S.length ∧ seen')
    (hok : failed = false → PassiveClosed conn'.name)
    (herr : failed = true → conn'.name = some .Established) (hs : seen') :
    ReceiveInv S base slices seen' conn' := by
  have hcons : FinConsumed S base conn' := by unfold FinConsumed; omega
  refine ⟨by omega, ?_, hheld, hrecorded, fun hn => ?_, fun _ => hcons, fun _ => hs⟩
  · rw [hdel, hpast, List.take_of_length_le (Nat.le_succ _)]
  · cases failed with
    | false => exact absurd (hok rfl) (by rw [hn]; decide)
    | true => exact absurd ((herr rfl).symm.trans hn) (by decide)

/-- **A step of the receive side keeps the invariant**, and the slices handed over continue
    the stream. -/
theorem ReceiveInv.recvMove {slices : List (List UInt8)} {failed : Bool}
    (hS : S.length < 2 ^ 31) (hc : Carries S base seg) (hseen : seen → seen')
    (hfinack : seg.flags = .FinAck → seen')
    (h : Delivering conn.name → ReceiveInv S base received seen conn)
    (hm : RecvMove seg conn conn' slices failed) (hd : Delivering conn'.name) :
    ReceiveInv S base (received ++ slices) seen' conn' := by
  have hFIN : FIN_BYTE = 1 := rfl
  cases hm with
  | idle hrcv hre hr hp =>
    rw [List.append_nil]
    refine (h (hd.imp (fun hr' => hr hr' ▸ hr') hp)).congr (fun hn => ?_) hp hrcv hre hseen
    rw [← hr (.inl hn), hn]
  | buffer hcheck hrecv hflags hname hrcv hsegs hfin =>
    have h := h (.inl hrecv)
    have hpassive : ¬ PassiveClosed conn'.name := fun hp => hp.not_receiving (.inr hname)
    rw [List.append_nil]
    refine ⟨by rw [hrcv]; exact h.le, by rw [hrcv]; exact h.delivered, h.held_buffer hc hsegs,
      h.fin_buffer hS hc hseen hfinack hfin, fun hn => absurd (hname.symm.trans hn) (by decide),
      fun hc => absurd hc hpassive, fun hf => hseen (h.seen ?_)⟩
    unfold FinConsumed at hf ⊢
    rw [← hrcv]
    exact hf
  | @data payloads reassembly rcvNxt failed hseq hrecv hflags hpay hdrain hre hnofin hfin =>
    have h := h (.inl hrecv)
    have hle := (hc.extend (congrArg base.dist hseq)).2
    -- the position after the segment's own payload is inside the stream
    have hmid : base.dist conn.rcvNxt + TcpPayload.lenOrDefault seg.payload ≤ S.length := by
      by_cases hp : seg.payload = none
      · have hnone : conn.name = none := by
          rcases hrecv with hn | hn
          · exact hn
          · exact absurd hp (hpay hn)
        rw [h.fresh hnone, hp]
        exact Nat.zero_le _
      · exact hle hp
    obtain ⟨hend, hdel, hheld, hfinSeq⟩ := h.deliver hS hc hseq hmid hdrain
    have hrecorded : ∀ f, conn'.reassembly.finSeq = some f → base.dist f = S.length ∧ seen' := by
      intro f hf
      rw [hre, hfinSeq] at hf
      exact (h.fin f hf).imp_right hseen
    rw [← hre] at hheld
    cases hreached : reassembly.finReached rcvNxt with
    | false =>
      obtain ⟨hrcv, hname⟩ := hnofin hreached
      rw [← hrcv] at hend hdel
      exact ⟨by omega, hdel, hheld, hrecorded, fun hn => absurd (hname.symm.trans hn) (by decide),
        fun hp => absurd (.inr hname) hp.not_receiving,
        fun hf => absurd hend (Nat.not_le.mpr hf)⟩
    | true =>
      -- the buffered FIN is consumed with the last byte
      obtain ⟨hrcv, hok, herr⟩ := hfin hreached
      obtain ⟨hlast, hs⟩ := h.finReached hS hfinSeq hend hreached
      rw [hlast, List.take_length] at hdel
      have hpast : base.dist conn'.rcvNxt = S.length + 1 := by
        rw [hrcv, SeqPoint.dist_add]
        omega
      exact .of_consumed hpast hdel hheld hrecorded hok herr (hseen hs)
  | @fin failed hseq hrecv hflags hrcv hre hok herr =>
    have h := h (.inl hrecv)
    have hlen := hc.fin hflags
    rw [hseq] at hlen
    have hpast : base.dist conn'.rcvNxt = S.length + 1 := by
      rw [hrcv, SeqPoint.add_assoc, SeqPoint.dist_add]
      omega
    have hdel : (received ++ TcpPayload.slices seg.payload).flatten = S := by
      rw [List.flatten_append, h.delivered, (hc.extend (congrArg base.dist hseq)).1, hlen,
        List.take_length]
    have hrecorded : ∀ f, conn'.reassembly.finSeq = some f → base.dist f = S.length ∧ seen' := by
      intro f hf
      rw [hre] at hf
      exact (h.fin f hf).imp_right hseen
    exact .of_consumed hpast hdel (by rw [hre]; exact h.held) hrecorded hok herr (hfinack hflags)
  | halfClosed hseq hns hnp hnr hrcv hre =>
    exact absurd hd (fun hd => hd.elim hnr hnp)

/-- **A step of the connection keeps the invariant**, whatever the step is. -/
theorem ReceiveInv.stepMove {r : Recorded σ} {ev : ConnEvent} {out : Stepped (Recorded σ)}
    (hS : S.length < 2 ^ 31) (hseen : seen → seen')
    (hok : ∀ seg now, ev = .segment seg now →
      Carries S base seg ∧ (seg.flags = .FinAck → seen'))
    (h : Delivering conn.name → ReceiveInv S base received seen conn)
    (hmove : StepMove A.recorded r conn ev out conn') (hdel : Delivering conn'.name) :
    ∃ slices, out.app.received = r.received ++ slices ∧
      ReceiveInv S base (received ++ slices) seen' conn' := by
  have hsame : ∀ c : ConnState, Delivering conn.name → c.name = conn.name →
      c.rcvNxt = conn.rcvNxt → c.reassembly = conn.reassembly →
      r.received = r.received ++ [] ∧ ReceiveInv S base (received ++ []) seen' c := by
    intro c hd hname hrcv hre
    rw [List.append_nil, List.append_nil]
    exact ⟨rfl, (h hd).congr (hname ▸ id) (hname ▸ id) hrcv hre hseen⟩
  cases hmove with
  | @segment seg now _ _ slices extra _ _ hfeed hsend hrecv =>
    have hlog := (Application.feed_recorded A r slices).1
    rw [hfeed] at hlog
    obtain ⟨hc, hf⟩ := hok seg now rfl
    exact ⟨slices, hlog, ReceiveInv.recvMove hS hc hseen hf h hrecv hdel⟩
  | retransmit hf hres => exact ⟨[], hsame _ hdel rfl rfl rfl⟩
  | close hst hinfo => exact absurd hdel (by decide : ¬ Delivering (some .FinWait1))
  | closeIdle hname => exact ⟨[], hsame _ hdel rfl rfl rfl⟩

/-! ### Whole runs -/

/-- A FIN-ACK has arrived among the events. -/
def FinSeen (es : List (SessionEvent σ)) : Prop :=
  ∃ seg now, SessionEvent.on (.segment seg now) ∈ es ∧ seg.flags = .FinAck

/-- **The invariant holds along every run** of a session fed by the peer. -/
theorem receiveInv_of_run (hS : S.length < 2 ^ 31) {app : σ} {iss : SeqPoint .Out}
    {irs : SeqPoint .In} {t₀ : Instant} {es : List (SessionEvent σ)} {s : Session σ}
    (hrun : Runs.Run (Session.step A rto maxRetries) (FromPeer S (irs + SYN_BYTE))
      (Session.opened app iss irs t₀) es s) :
    ∀ conn, s.conn = some conn → Delivering conn.name →
      ReceiveInv S (irs + SYN_BYTE) s.app.received (FinSeen es) conn := by
  refine hrun.invariant (I := fun es s => ∀ conn, s.conn = some conn → Delivering conn.name →
      ReceiveInv S (irs + SYN_BYTE) s.app.received (FinSeen es) conn) ?_ ?_
  · rintro conn ⟨⟩ -
    have hzero : (irs + SYN_BYTE).dist (ConnState.opened iss irs t₀).rcvNxt = 0 :=
      SeqPoint.dist_self _
    refine ⟨by omega, by rw [hzero]; rfl, nofun, nofun, fun _ => hzero, fun hp => ?_, fun hf => ?_⟩
    · exact absurd (.inl rfl) hp.not_receiving
    · unfold FinConsumed at hf; omega
  · intro es s e ih hok conn' hconn' hdel
    have hmore : FinSeen es → FinSeen (es ++ [e]) := fun ⟨seg, now, hmem, hf⟩ =>
      ⟨seg, now, List.mem_append_left _ hmem, hf⟩
    rcases Session.step_cases hconn' with ⟨app, rfl, hs⟩ | ⟨ev, conn, out, rfl, hs, hmove, hstep⟩
    · exact (ih conn' hs hdel).congr id id rfl rfl hmore
    · obtain ⟨slices, hlog, hinv⟩ := ReceiveInv.stepMove hS hmore
        (fun seg now heq => by
          subst heq
          exact ⟨hok, fun hf =>
            ⟨seg, now, List.mem_append_right _ (List.mem_singleton.mpr rfl), hf⟩⟩)
        (ih conn hs) hmove hdel
      rw [hstep, hlog]
      exact hinv

/-- **Receive-stream integrity.** In every state of every session fed by a peer that sends
    `S` and one FIN, as long as our FIN has not been sent by active close, the slices handed
    to the application are a prefix of `S` as long as RCV.NXT says, not counting the FIN;
    the FIN is counted only once it has arrived, and always after passive close. -/
theorem receive_stream_integrity (A : Application σ) (rto : RtoConfig) (maxRetries : UInt8)
    (S : List UInt8) (hS : S.length < 2 ^ 31) (app : σ) (iss : SeqPoint .Out)
    (irs : SeqPoint .In) (t₀ : Instant) (es : List (SessionEvent σ)) (s : Session σ)
    (hrun : Runs.Run (Session.step A rto maxRetries) (FromPeer S (irs + SYN_BYTE))
      (Session.opened app iss irs t₀) es s)
    (conn : ConnState) (hconn : s.conn = some conn)
    (hname : conn.name ≠ some .FinWait1 ∧ conn.name ≠ some .FinWait2
      ∧ conn.name ≠ some .Closing) :
    s.app.received.flatten <+: S ∧
      s.app.received.flatten.length = (irs + SYN_BYTE).dist conn.rcvNxt
        - (if FinConsumed S (irs + SYN_BYTE) conn then 1 else 0) ∧
      (FinConsumed S (irs + SYN_BYTE) conn → FinSeen es) ∧
      (conn.name = some .CloseWait ∨ conn.name = some .LastAck →
        FinConsumed S (irs + SYN_BYTE) conn) := by
  have hdel : Delivering conn.name := by
    obtain ⟨h1, h2, h3⟩ := hname
    generalize conn.name = n at h1 h2 h3
    rcases n with _ | (_ | _ | _ | _ | _ | _) <;> first | decide | contradiction
  have h := receiveInv_of_run hS hrun conn hconn hdel
  refine ⟨by rw [h.delivered]; exact List.take_prefix _ _, ?_, h.seen, h.closed⟩
  have hle := h.le
  rw [h.delivered, List.length_take]
  by_cases hf : FinConsumed S (irs + SYN_BYTE) conn
  · rw [if_pos hf]
    unfold FinConsumed at hf
    omega
  · rw [if_neg hf]
    unfold FinConsumed at hf
    omega

/-- Both bytes of a greeting and its FIN are received. -/
theorem receive_stream_integrity_hi :
    hiSession.app.received.flatten <+: HI.data ∧
      ∃ conn, hiSession.conn = some conn ∧ FinConsumed HI.data (CLIENT_ISN + SYN_BYTE) conn := by
  have hhi : Carries HI.data (CLIENT_ISN + SYN_BYTE) CLIENT_HI :=
    ⟨fun p hp => by obtain rfl := Option.some.inj hp; decide, nofun⟩
  have hfin : Carries HI.data (CLIENT_ISN + SYN_BYTE) CLIENT_FIN := ⟨nofun, fun _ => by decide⟩
  obtain ⟨conn, hconn, hname⟩ := hiSession_lastAck
  have h := receive_stream_integrity ServerApp.application (TcpConnections.new 0 3).rtoConfig 3
    HI.data (by decide) .Echo SERVER_ISN CLIENT_ISN ⟨0⟩ hiEvents hiSession
    (.of_admits ⟨hhi, hfin, trivial⟩) conn hconn (by rw [hname]; decide)
  exact ⟨h.1, conn, hconn, h.2.2.2 (.inr hname)⟩

end Typenet
