import Typenet.Connection.Session

namespace Typenet

/-!
# The send stream

The data bytes transmitted for the first time, in order, form the stream `dataSent`; the
application's output is that stream followed by the send buffer.  Positions are counted from
`base`, one past the server's ISN.

`SendInv` states this for a connection, its retransmission queue and everything emitted for
it; every move of the send side keeps it.  No condition on the incoming segments is needed:
acknowledgments move SND.UNA and prune the queue, which the invariant does not look at.
-/

variable {σ : Type} {A : Application σ} {rto : RtoConfig} {maxRetries : UInt8}
  {base : SeqPoint .Out}

/-! ### Segments placed on a stream -/

/-- The data bytes that a list of segments carries. -/
def dataSent (sent : List SendInfo) : List UInt8 :=
  (sent.map fun info => TcpPayload.bytes info.payload).flatten

theorem dataSent_append (xs ys : List SendInfo) :
    dataSent (xs ++ ys) = dataSent xs ++ dataSent ys := by
  simp [dataSent]

@[simp] theorem dataSent_nil : dataSent [] = [] := rfl

@[simp] theorem dataSent_singleton (info : SendInfo) :
    dataSent [info] = TcpPayload.bytes info.payload := by
  simp [dataSent]

/-- Segments without payload carry no data. -/
theorem dataSent_bare {out : List SendInfo} (h : ∀ info ∈ out, info.payload = none) :
    dataSent out = [] := by
  apply List.flatten_eq_nil_iff.mpr
  intro l hl
  obtain ⟨info, hinfo, rfl⟩ := List.mem_map.mp hl
  rw [h info hinfo]; rfl

/-- The segment sits where its sequence number says: a payload is the piece of the stream at
    its offset, and a FIN comes right after the end of the stream. -/
structure Placed (base : SeqPoint .Out) (stream : List UInt8) (info : SendInfo) : Prop where
  data : ∀ p, info.payload = some p → ∃ n, info.seqNum = base + n ∧ p.data <+: stream.drop n
  fin : info.flags = .FinAck →
    info.seqNum + TcpPayload.lenOrDefault info.payload = base + stream.length

/-- A segment without payload and FIN is placed on every stream. -/
theorem Placed.bare {stream : List UInt8} {info : SendInfo} (hp : info.payload = none)
    (hf : info.flags ≠ .FinAck) : Placed base stream info :=
  ⟨fun _ h => absurd (hp.symm.trans h) nofun, fun h => absurd h hf⟩

theorem Quiet.bare {reply : Option SendInfo} (h : Quiet reply) :
    ∀ info ∈ reply.toList, info.payload = none ∧ info.flags ≠ .FinAck := by
  intro info hinfo
  obtain ⟨hp, hf⟩ := h info (Option.mem_toList.mp hinfo)
  exact ⟨hp, by rcases hf with h | h <;> rw [h] <;> decide⟩

/-- Placed segments without a FIN stay placed while the stream grows. -/
theorem Placed.mono {stream stream' : List UInt8} {info : SendInfo} (hs : stream <+: stream')
    (hf : info.flags ≠ .FinAck) (h : Placed base stream info) : Placed base stream' info := by
  refine ⟨fun p hp => ?_, fun h => absurd h hf⟩
  obtain ⟨n, hn, hpiece⟩ := h.data p hp
  exact ⟨n, hn, Stream.piece_mono hs hpiece⟩

/-- The segment that carries the next bytes of the stream is placed on the longer stream. -/
theorem Placed.next {stream : List UInt8} {info : SendInfo}
    (hseq : info.seqNum = base + stream.length) :
    Placed base (stream ++ TcpPayload.bytes info.payload) info := by
  refine ⟨fun p hp => ⟨stream.length, hseq, ?_⟩, fun _ => ?_⟩
  · rw [hp, List.drop_left]; exact List.prefix_refl _
  · rw [hseq, SeqPoint.add_assoc, List.length_append]; rfl

/-! ### The invariant -/

/-- The send side of a connection, against everything emitted for it and the bytes
    `appended` by the application. -/
structure SendInv (base : SeqPoint .Out) (appended : List UInt8) (sent resent : List SendInfo)
    (conn : ConnState) : Prop where
  split : appended = dataSent sent ++ conn.sendBuffer
  sndNxt : conn.sndNxt
    = base + ((dataSent sent).length + if FinSent conn.name then FIN_BYTE else 0)
  pending : ∀ p ∈ conn.pending, Placed base (dataSent sent) p.sendInfo
  emitted : ∀ info ∈ sent ++ resent, Placed base (dataSent sent) info
  fin : ∀ info ∈ sent ++ resent ++ conn.pending.map (·.sendInfo), info.flags = .FinAck →
    FinSent conn.name

variable {appended extra : List UInt8} {sent resent : List SendInfo}
  {conn conn' : ConnState} {seg : TcpSegment .In} {now : Instant}

/-- **Nothing new goes out**: acknowledgments, repeated SYN-ACKs, challenge ACKs and
    retransmissions keep the invariant, whatever the application appends. -/
theorem SendInv.quiet {out resent' : List SendInfo}
    (h : SendInv base appended sent resent conn)
    (hname : FinSent conn'.name ↔ FinSent conn.name) (hnxt : conn'.sndNxt = conn.sndNxt)
    (hbuf : conn'.sendBuffer = conn.sendBuffer ++ extra)
    (hpend : ∀ p ∈ conn'.pending, (∃ q ∈ conn.pending, q.sendInfo = p.sendInfo) ∨
      (p.sendInfo.payload = none ∧ p.sendInfo.flags ≠ .FinAck))
    (hout : ∀ info ∈ out, info.payload = none ∧ info.flags ≠ .FinAck)
    (hres : ∀ info ∈ resent', ∃ q ∈ conn.pending, q.sendInfo = info) :
    SendInv base (appended ++ extra) (sent ++ out) (resent ++ resent') conn' := by
  have hdata : dataSent (sent ++ out) = dataSent sent := by
    rw [dataSent_append, dataSent_bare fun info hi => (hout info hi).1, List.append_nil]
  -- everything emitted or queued now was so before, or is bare
  have hold : ∀ info ∈ (sent ++ out) ++ (resent ++ resent') ++ conn'.pending.map (·.sendInfo),
      (info ∈ sent ++ resent ++ conn.pending.map (·.sendInfo)) ∨
        (info.payload = none ∧ info.flags ≠ .FinAck) := by
    intro info hinfo
    simp only [List.mem_append, List.mem_map] at hinfo ⊢
    rcases hinfo with ((hi | hi) | (hi | hi)) | ⟨p, hp, rfl⟩
    · exact .inl (.inl (.inl hi))
    · exact .inr (hout info hi)
    · exact .inl (.inl (.inr hi))
    · exact .inl (.inr (hres info hi))
    · exact (hpend p hp).imp_left .inr
  have hplaced : ∀ info ∈ sent ++ resent ++ conn.pending.map (·.sendInfo),
      Placed base (dataSent sent) info := by
    intro info hinfo
    rcases List.mem_append.mp hinfo with hi | hi
    · exact h.emitted info hi
    · obtain ⟨p, hp, rfl⟩ := List.mem_map.mp hi
      exact h.pending p hp
  have hall : ∀ info ∈ (sent ++ out) ++ (resent ++ resent') ++ conn'.pending.map (·.sendInfo),
      Placed base (dataSent (sent ++ out)) info := by
    intro info hinfo
    rw [hdata]
    exact (hold info hinfo).elim (hplaced info) fun hb => .bare hb.1 hb.2
  refine ⟨?_, ?_, fun p hp => ?_, fun info hi => ?_, fun info hi hf => ?_⟩
  · rw [hdata, hbuf, h.split, List.append_assoc]
  · rw [hdata, hnxt, h.sndNxt]
    simp only [hname]
  · exact hall _ (List.mem_append_right _ (List.mem_map_of_mem hp))
  · exact hall _ (List.mem_append_left _ hi)
  · rcases hold info hi with ho | hb
    · exact hname.mpr (h.fin info ho hf)
    · exact absurd hf hb.2

/-- **New data or our FIN goes out**, at SND.NXT, from a state in which data may be sent. -/
theorem SendInv.transmit {info : SendInfo} {pend : List PendingSegment}
    (h : SendInv base appended sent resent conn) (hsend : Sending conn.name)
    (hseq : info.seqNum = conn.sndNxt) (hfin : info.flags = .FinAck ↔ FinSent conn'.name)
    (hbuf : TcpPayload.bytes info.payload ++ conn'.sendBuffer = conn.sendBuffer ++ extra)
    (hnxt : conn'.sndNxt = conn.sndNxt + (TcpPayload.lenOrDefault info.payload
      + if FinSent conn'.name then FIN_BYTE else 0))
    (hsub : ∀ p ∈ pend, p ∈ conn.pending)
    (hpend : conn'.pending = pend ++ [PendingSegment.new info now]) :
    SendInv base (appended ++ extra) (sent ++ [info]) resent conn' := by
  have hno : ¬ FinSent conn.name := fun hf => hf hsend
  have hdata : dataSent (sent ++ [info]) = dataSent sent ++ TcpPayload.bytes info.payload := by
    rw [dataSent_append, dataSent_singleton]
  have hpos : conn.sndNxt = base + (dataSent sent).length := by
    rw [h.sndNxt, if_neg hno]; rfl
  have hnew : Placed base (dataSent (sent ++ [info])) info := by
    rw [hdata]; exact .next (hseq.trans hpos)
  -- what went out before carries no FIN, so a longer stream still places it
  have hgrow : ∀ i ∈ sent ++ resent ++ conn.pending.map (·.sendInfo),
      Placed base (dataSent sent) i → Placed base (dataSent (sent ++ [info])) i := by
    intro i hi hp
    refine hp.mono ?_ fun hf => hno (h.fin i hi hf)
    rw [hdata]; exact List.prefix_append _ _
  refine ⟨?_, ?_, fun p hp => ?_, fun i hi => ?_, fun i hi hf => ?_⟩
  · rw [hdata, List.append_assoc, hbuf, h.split, List.append_assoc]
  · rw [hnxt, hpos, SeqPoint.add_assoc, hdata, List.length_append, Nat.add_assoc]; rfl
  · rw [hpend] at hp
    rcases List.mem_append.mp hp with hp | hp
    · exact hgrow _ (List.mem_append_right _ (List.mem_map_of_mem (hsub p hp)))
        (h.pending p (hsub p hp))
    · obtain rfl := List.mem_singleton.mp hp
      exact hnew
  · simp only [List.mem_append, List.mem_singleton] at hi
    rcases hi with (hi | rfl) | hi
    · have hmem : i ∈ sent ++ resent := List.mem_append_left _ hi
      exact hgrow i (List.mem_append_left _ hmem) (h.emitted i hmem)
    · exact hnew
    · have hmem : i ∈ sent ++ resent := List.mem_append_right _ hi
      exact hgrow i (List.mem_append_left _ hmem) (h.emitted i hmem)
  · rw [hpend] at hi
    simp only [List.mem_append, List.mem_singleton, List.mem_map] at hi
    have hold : i ∈ sent ++ resent ++ conn.pending.map (·.sendInfo) → FinSent conn'.name :=
      fun hmem => absurd (h.fin i hmem hf) hno
    simp only [List.mem_append, List.mem_map] at hold
    rcases hi with ((hi | rfl) | hi) | ⟨p, hp | rfl, rfl⟩
    · exact hold (.inl (.inl hi))
    · exact hfin.mp hf
    · exact hold (.inl (.inr hi))
    · exact hold (.inr ⟨p, hsub p hp, rfl⟩)
    · exact hfin.mp hf

/-- **A step of the send side keeps the invariant.** -/
theorem SendInv.sendMove {reply : Option SendInfo} (h : SendInv base appended sent resent conn)
    (hm : SendMove seg now conn extra conn' reply) :
    SendInv base (appended ++ extra) (sent ++ reply.toList) resent conn' := by
  rw [← List.append_nil resent]
  cases hm with
  | idle hsame hextra hq =>
    refine h.quiet ?_ hsame.sndNxt (by rw [hsame.sendBuffer, hextra, List.append_nil])
      (fun p hp => .inl ⟨p, hsame.pending ▸ hp, rfl⟩) hq.bare nofun
    unfold ConnState.name; rw [hsame.tcpState]
  | resend hst hextra hinfo hst' hnxt huna hbuf hpend =>
    refine h.quiet ?_ hnxt (by rw [hbuf, hextra, List.append_nil]) (fun p hp => ?_) ?_ nofun
    · unfold ConnState.name; rw [hst, hst']
    · rw [hpend] at hp
      rcases List.mem_append.mp hp with hp | hp
      · exact .inl ⟨p, hp, rfl⟩
      · obtain rfl := List.mem_singleton.mp hp
        exact .inr ⟨by rw [hinfo]; rfl, by rw [hinfo]; nofun⟩
    · intro i hi
      obtain rfl := List.mem_singleton.mp hi
      exact ⟨by rw [hinfo], by rw [hinfo]; nofun⟩
  | ack hack hshift hsync hextra hcw hnxt hbuf hq =>
    exact h.quiet hshift.finSent_iff hnxt hbuf
      (fun p hp => .inl ⟨p, hack.subset p hp, rfl⟩) hq.bare nofun
  | data hack hsend hsilent hname hleft hwin htrans hinfo hnxt hpend =>
    have hno : ¬ FinSent conn'.name := by rcases hname with h | h <;> rw [h] <;> decide
    rw [List.append_nil]
    refine h.transmit hsend (by rw [hinfo]) ⟨fun hf => ?_, fun hf => absurd hf hno⟩
      (by rw [hinfo]; exact htrans.split) ?_ hack.subset hpend
    · rw [hinfo] at hf; cases hf
    · rw [if_neg hno, hnxt, hinfo]; rfl
  | fin hack hsend hsilent hname hwin hempty htrans hinfo hnxt hpend =>
    have hfs : FinSent conn'.name := by rw [hname]; decide
    rw [List.append_nil]
    refine h.transmit hsend (by rw [hinfo]) ⟨fun _ => hfs, fun _ => by rw [hinfo]⟩
      (by rw [hinfo, hempty]; exact htrans.split) ?_ hack.subset hpend
    rw [if_pos hfs, hnxt, hinfo, SeqPoint.add_assoc]

/-! ### Whole runs -/

/-- What is known of everything emitted in a session, and of its connection while it lasts. -/
structure SessionSendInv (base : SeqPoint .Out) (s : Session σ) : Prop where
  conn : ∀ conn, s.conn = some conn → SendInv base s.app.appended s.sent s.resent conn
  sent : dataSent s.sent <+: s.app.appended
  emitted : ∀ info ∈ s.sent ++ s.resent, Placed base (dataSent s.sent) info

/-- The invariant of a live connection is that of its session. -/
theorem SendInv.session {s : Session σ} (hs : s.conn = some conn)
    (h : SendInv base s.app.appended s.sent s.resent conn) : SessionSendInv base s where
  conn := fun c hc => by
    obtain rfl : conn = c := Option.some.inj (hs.symm.trans hc)
    exact h
  sent := by rw [h.split]; exact List.prefix_append _ _
  emitted := h.emitted

/-- **A step of a session keeps the invariant.** -/
theorem SessionSendInv.step {s : Session σ} (e : SessionEvent σ) (h : SessionSendInv base s) :
    SessionSendInv base (s.step A rto maxRetries e) := by
  cases hconn' : (s.step A rto maxRetries e).conn with
  | none =>
    rcases Session.step_gone hconn' with ⟨hs, app, hstep⟩ | ⟨conn, reply, hs, hq, hstep⟩
    · rw [hstep]
      exact ⟨fun c hc => absurd (hs.symm.trans hc) nofun, h.sent, h.emitted⟩
    · -- the last reply is quiet
      have hdata : dataSent (s.sent ++ reply.toList) = dataSent s.sent := by
        rw [dataSent_append, dataSent_bare fun info hi => (hq.bare info hi).1, List.append_nil]
      rw [hstep]
      refine ⟨nofun, by rw [hdata]; exact h.sent, fun info hi => ?_⟩
      simp only [List.append_nil, List.mem_append] at hi
      rw [hdata]
      rcases hi with (hi | hi) | hi
      · exact h.emitted info (List.mem_append_left _ hi)
      · exact .bare (hq.bare info hi).1 (hq.bare info hi).2
      · exact h.emitted info (List.mem_append_right _ hi)
  | some conn' =>
    rcases Session.step_cases hconn' with ⟨app, rfl, hs⟩ | ⟨ev, conn, out, rfl, hs, hmove, hstep⟩
    · exact ⟨h.conn, h.sent, h.emitted⟩
    · have hc := h.conn conn hs
      apply SendInv.session hconn'
      rw [hstep]
      cases hmove with
      | @segment seg now _ _ slices extra _ _ hfeed hsend hrecv =>
        have hlog := (Application.feed_recorded A s.app slices).2
        rw [hfeed] at hlog
        have hmoved := hc.sendMove hsend
        rw [← hlog] at hmoved
        simpa only [List.append_nil] using hmoved
      | @retransmit now late f resent hf hres =>
        rw [← List.append_nil s.app.appended]
        refine hc.quiet Iff.rfl rfl (List.append_nil _).symm (fun p hp => .inl ?_) nofun hres
        obtain ⟨q, hq, rfl⟩ := List.mem_map.mp hp
        exact ⟨q, hq, (hf q).1.symm⟩
      | @close now est info hst hinfo =>
        have hsend : Sending conn.name := by
          unfold ConnState.name; rw [hst]; exact .inl (.inr rfl)
        have hfs : FinSent (some .FinWait1) := by decide
        simp only [List.append_nil]
        rw [← List.append_nil s.app.appended]
        refine hc.transmit hsend (by rw [hinfo]) ⟨fun _ => hfs, fun _ => by rw [hinfo]⟩
          (by rw [hinfo, List.append_nil]; rfl) ?_ (fun p hp => hp) rfl
        rw [hinfo]; rfl
      | closeIdle hname =>
        rw [← List.append_nil s.app.appended]
        exact hc.quiet Iff.rfl rfl (List.append_nil _).symm (fun p hp => .inl ⟨p, hp, rfl⟩)
          nofun nofun

theorem sessionSendInv_opened (app : σ) (iss : SeqPoint .Out) (irs : SeqPoint .In)
    (t₀ : Instant) : SessionSendInv (iss + SYN_BYTE) (Session.opened app iss irs t₀) := by
  refine SendInv.session rfl ⟨rfl, (SeqPoint.add_zero _).symm, ?_, ?_, ?_⟩
  · intro p hp
    obtain rfl := List.mem_singleton.mp hp
    exact .bare rfl nofun
  · intro info hi
    obtain rfl := List.mem_singleton.mp hi
    exact .bare rfl nofun
  · intro info hi hf
    rcases List.mem_cons.mp hi with rfl | hi
    · cases hf
    · obtain rfl := List.mem_singleton.mp hi
      cases hf

/-- A placed payload is what the application's output holds at the segment's sequence
    number. -/
theorem Placed.eq_take {stream appended : List UInt8} {info : SendInfo} {p : TcpPayload}
    (h : Placed base stream info) (hs : stream <+: appended) (hlt : appended.length < 2 ^ 32)
    (hp : info.payload = some p) :
    p.data = (appended.drop (base.dist info.seqNum)).take p.len := by
  obtain ⟨n, hn, hpiece⟩ := h.data p hp
  have hle := Stream.piece_le hpiece p.nonempty
  have hlen := hs.length_le
  have hdist : base.dist info.seqNum = n := by
    rw [hn, SeqPoint.dist_self_add, Nat.mod_eq_of_lt (by omega)]
  rw [hdist]
  exact List.prefix_iff_eq_take.mp (Stream.piece_mono hs hpiece)

/-- **Send-stream integrity.** In every state of every session, the application's output is
    the data transmitted so far followed by the send buffer; every payload emitted, first or
    again, is what the output holds at the segment's sequence number; and every FIN sits
    right after the last data byte. -/
theorem send_stream_integrity (A : Application σ) (rto : RtoConfig) (maxRetries : UInt8)
    (app : σ) (iss : SeqPoint .Out) (irs : SeqPoint .In) (t₀ : Instant)
    (es : List (SessionEvent σ)) (s : Session σ)
    (hrun : Runs.Run (Session.step A rto maxRetries) (fun _ _ => True)
      (Session.opened app iss irs t₀) es s)
    (hlen : s.app.appended.length < 2 ^ 32) :
    (∀ conn, s.conn = some conn → s.app.appended = dataSent s.sent ++ conn.sendBuffer) ∧
    (∀ info ∈ s.sent ++ s.resent, ∀ p, info.payload = some p →
      p.data = (s.app.appended.drop ((iss + SYN_BYTE).dist info.seqNum)).take p.len) ∧
    (∀ info ∈ s.sent ++ s.resent, info.flags = .FinAck →
      info.seqNum + TcpPayload.lenOrDefault info.payload
        = iss + SYN_BYTE + (dataSent s.sent).length) := by
  have h : SessionSendInv (iss + SYN_BYTE) s :=
    hrun.state_invariant (sessionSendInv_opened app iss irs t₀) fun _ e hs _ => hs.step e
  exact ⟨fun conn hc => (h.conn conn hc).split,
    fun info hi p hp => (h.emitted info hi).eq_take h.sent hlen hp,
    fun info hi hf => (h.emitted info hi).fin hf⟩

/-- An echo server's answer to a greeting, and its FIN. -/
theorem send_stream_integrity_hi :
    (∃ info ∈ hiSession.sent, info.flags = .FinAck) ∧
      ∀ info ∈ hiSession.sent ++ hiSession.resent, info.flags = .FinAck →
        info.seqNum + TcpPayload.lenOrDefault info.payload
          = SERVER_ISN + SYN_BYTE + (dataSent hiSession.sent).length :=
  ⟨by decide, (send_stream_integrity ServerApp.application (TcpConnections.new 0 3).rtoConfig 3
    .Echo SERVER_ISN CLIENT_ISN ⟨0⟩ hiEvents hiSession (.of_foldl _ _) (by decide)).2.2⟩

end Typenet
