import Typenet.Connection.ReceiveStream
import Typenet.Connection.InFlight

namespace Typenet

/-!
# Segments in any order

The peer's stream is cut into consecutive segments, the last one with the FIN, and each of
them arrives at least once.  Whatever the order, the receive side converges: RCV.NXT only
ever stops where a segment starts that has not arrived yet (`Progress`), so once all have
arrived it has passed the FIN.

That nothing wrong is delivered on the way is `ReceiveInv`; here is what makes RCV.NXT move.
For that the handlers have to be followed in one direction: a segment in order is delivered,
one ahead is buffered, one behind changes nothing.
-/

open SendInfo

variable {σ : Type} {A : Application σ} {rto : RtoConfig} {maxRetries : UInt8} {app : σ}
  {seg : TcpSegment .In} {now : Instant} {conn : ConnState} {est : SyncedState .Established}

/-! ### Where a segment is -/

/-- SEG.SEQ behind RCV.NXT, both within the window from a common base. -/
theorem SeqCheck.check_behind {base : SeqPoint .In}
    (hlt : base.dist seg.seqNum < base.dist conn.rcvNxt) (hle : base.dist conn.rcvNxt ≤ 65535) :
    SeqCheck.check seg conn = .Unacceptable := by
  have hd := SeqPoint.dist_eq base conn.rcvNxt seg.seqNum
  have hwnd : RCV_WND.toNat = 65535 := rfl
  have hne : seg.seqNum ≠ conn.rcvNxt := fun heq => by rw [heq] at hlt; omega
  have hout : ¬ seg.seqNum.inWindow conn.rcvNxt RCV_WND.toNat = true := by
    rw [SeqPoint.inWindow_iff _ _ (by decide) (by decide), hd]
    omega
  rw [SeqCheck.check, if_neg hne, if_neg hout]

/-- SEG.SEQ ahead of RCV.NXT, both within the window from a common base. -/
theorem SeqCheck.check_ahead (base : SeqPoint .In)
    (hlt : base.dist conn.rcvNxt < base.dist seg.seqNum) (hle : base.dist seg.seqNum < 65535) :
    SeqCheck.check seg conn = .OutOfOrder := by
  have hd := SeqPoint.dist_eq base conn.rcvNxt seg.seqNum
  have hwnd : RCV_WND.toNat = 65535 := rfl
  have hne : seg.seqNum ≠ conn.rcvNxt := fun heq => by rw [heq] at hlt; omega
  have hin : seg.seqNum.inWindow conn.rcvNxt RCV_WND.toNat = true := by
    rw [SeqPoint.inWindow_iff _ _ (by decide) (by decide), hd]
    omega
  rw [SeqCheck.check, if_neg hne, if_pos hin]

/-- An acknowledgment in the range in flight is not one of unsent data. -/
theorem InFlightInv.not_precedes (h : InFlightInv conn)
    (hack : conn.sndUna.dist seg.ackNum ≤ conn.sndUna.dist conn.sndNxt) :
    conn.sndNxt.precedes seg.ackNum = false := by
  have hany : conn.sndUna.dist conn.sndNxt ≤ 65536 := h.any
  have hd := SeqPoint.dist_eq conn.sndUna conn.sndNxt seg.ackNum
  rw [← Bool.not_eq_true, SeqPoint.precedes_iff, hd]
  omega

/-- An acknowledgment in range is unambiguous. -/
theorem unambiguous_of_inRange
    (hack : conn.sndUna.dist seg.ackNum ≤ conn.sndUna.dist conn.sndNxt) (now : Instant) :
    Unambiguous conn (.segment seg now) := by
  rintro seg' now' heq ⟨-, huna, hanti⟩
  obtain ⟨rfl, rfl⟩ := ConnEvent.segment.inj heq
  rw [hanti, huna, SeqPoint.dist_self_add, SeqPoint.dist_self] at hack
  omega

/-! ### The handlers, in one direction -/

/-- **A segment behind the window** changes nothing and is answered with a pure ACK. -/
theorem handleKnownConn_behind (hsync : conn.tcpState ≠ .SynReceived)
    (hflags : seg.flags = .Ack ∨ seg.flags = .FinAck)
    (hcheck : SeqCheck.check seg conn = .Unacceptable) (A : Application σ) (app : σ)
    (now : Instant) :
    handleKnownConn A app seg conn now = ⟨app, conn, .ok (some (pureAck conn), false)⟩ := by
  have hfallback : knownConnCommonFallback seg conn = (some (pureAck conn), false) := by
    rcases hflags with hf | hf <;> simp only [knownConnCommonFallback, hf, hcheck]
  unfold handleKnownConn
  cases hst : conn.tcpState with
  | SynReceived => exact absurd hst hsync
  | Established est =>
    rw [← hfallback]
    rcases hflags with hf | hf <;> cases hp : seg.payload <;>
      simp [handleEstablished, hf, hp, hcheck]
  | FinWait1 fw =>
    rw [← hfallback]
    rcases hflags with hf | hf <;> cases hp : seg.payload <;>
      simp [handleFinWait1, infallible, hf, hp, hcheck]
  | FinWait2 fw =>
    rw [← hfallback]
    rcases hflags with hf | hf <;> cases hp : seg.payload <;>
      simp [handleFinWait2, infallible, hf, hp, hcheck]
  | CloseWait cw =>
    rw [← hfallback]
    rcases hflags with hf | hf <;> cases hp : seg.payload <;>
      simp [handleCloseWait, hf, hp, hcheck]
  | Closing cl =>
    rw [← hfallback]
    rcases hflags with hf | hf <;> cases hp : seg.payload <;>
      simp [handleClosing, infallible, hf, hp, hcheck]
  | LastAck la =>
    rw [← hfallback]
    rcases hflags with hf | hf <;> cases hp : seg.payload <;>
      simp [handleLastAck, infallible, hf, hp, hcheck]

/-- **Data in order** is delivered with all that has become contiguous, and a FIN reached that
    way is consumed. -/
theorem handleEstablished_data {p : TcpPayload} {payloads : List TcpPayload}
    {reassembly : TcpReassembly} {rcvNxt : SeqPoint .In} {hd : Handled σ}
    (hst : conn.tcpState = .Established est) (hflags : seg.flags = .Ack)
    (hpay : seg.payload = some p) (hseq : seg.seqNum = conn.rcvNxt)
    (hack : conn.sndNxt.precedes seg.ackNum = false)
    (hdrain : conn.reassembly.drainContiguous (conn.rcvNxt + p.len)
      = (payloads, reassembly, rcvNxt))
    (hhd : handleEstablished A app seg conn est now = hd) :
    (∀ reply, hd.result ≠ .ok (reply, true)) ∧ hd.conn.reassembly = reassembly ∧
      (reassembly.finReached rcvNxt = false →
        hd.conn.rcvNxt = rcvNxt ∧ hd.conn.name = some .Established) ∧
      (reassembly.finReached rcvNxt = true → failed hd.result = false →
        PassiveClosed hd.conn.name) := by
  have hcheck : SeqCheck.check seg conn = .InOrder := if_pos hseq
  have hname : conn.name = some .Established := by rw [ConnState.name, hst]; rfl
  obtain ⟨⟨app', extra⟩, hfeed⟩ : ∃ r,
    A.feed app (TcpPayload.slices (some p) ++ payloads.map (·.data)) = r := ⟨_, rfl⟩
  let c : ConnState := { conn.acked seg.ackNum with
    tcpState := .Established ⟨est.windowState.updated conn seg⟩ }
  have hdel := SendInfo.deliver_eq A app c (some p) hdrain hfeed
  have htakes : conn.takesAck seg = true := by
    simp [ConnState.takesAck, hst, hflags, hcheck, hack]
  have htaken : Taken seg conn extra { c with
      reassembly := reassembly, rcvNxt := rcvNxt, sendBuffer := conn.sendBuffer ++ extra } :=
    ⟨.update htakes, .inl (.inr hname), fun hc => absurd (hname.symm.trans hc) (by decide), rfl,
      rfl⟩
  have hafter : AfterDelivery app' { c with
      reassembly := reassembly, rcvNxt := rcvNxt, sendBuffer := conn.sendBuffer ++ extra }
      ⟨est.windowState.updated conn seg⟩ now hd := by
    rw [← hhd, handleEstablished, if_neg (by rw [hack]; rintro ⟨-, -, ⟨⟩⟩)]
    simp only [hflags, hpay, hcheck, SyncedState.incomingAckUpdate_eq]
    rw [hdel]
    exact replyAfterDelivery_afterDelivery _ _ _ now
  obtain ⟨-, hrem, -, -, hre, hno, hfin⟩ := htaken.afterDelivery rfl
    (by rw [hname]; exact .stay _) hafter
  exact ⟨hrem, hre, hno, fun hr => (hfin hr).2.1⟩

/-- **A FIN in order** is consumed. -/
theorem handleEstablished_fin {hd : Handled σ} (hst : conn.tcpState = .Established est)
    (hflags : seg.flags = .FinAck) (hseq : seg.seqNum = conn.rcvNxt)
    (hhd : handleEstablished A app seg conn est now = hd) :
    (∀ reply, hd.result ≠ .ok (reply, true)) ∧
      (failed hd.result = false → PassiveClosed hd.conn.name) := by
  have hcheck : SeqCheck.check seg conn = .InOrder := if_pos hseq
  have hname : conn.name = some .Established := by rw [ConnState.name, hst]; rfl
  have hclose : closeOnInOrderFin A app seg conn seg.payload est now = hd := by
    rw [← hhd, handleEstablished, if_neg (by rw [hflags]; rintro ⟨⟨⟩, -⟩)]
    simp only [hflags, hcheck]
  have hrem : ∀ reply, hd.result ≠ .ok (reply, true) := by
    rw [← hclose]; exact map_ne_removed _
  have hmoved : hd.conn.rcvNxt ≠ conn.rcvNxt := by
    rw [← hclose, closeOnInOrderFin_rcvNxt]; exact add_fin_ne _ _
  refine ⟨hrem, fun hf => ?_⟩
  have hmoves : Moves A app seg now conn hd := hhd ▸ handleEstablished_moves hst
  rcases hmoves with ⟨reply, hres, -⟩ | ⟨-, -, slices, extra, -, -, hrecv⟩
  · exact absurd hres (hrem reply)
  · rw [hf] at hrecv
    cases hrecv with
    | idle hrcv => exact absurd hrcv hmoved
    | buffer _ _ _ _ hrcv => exact absurd hrcv hmoved
    | data _ _ hack => rw [hflags] at hack; cases hack
    | fin _ _ _ _ _ hok => exact hok rfl
    | halfClosed _ hns => exact absurd (.inl (.inr hname)) hns

/-- **A segment ahead** is buffered and its FIN remembered. -/
theorem handleEstablished_buffer {hd : Handled σ}
    (hflags : (seg.flags = .Ack ∧ seg.payload ≠ none) ∨ seg.flags = .FinAck)
    (hcheck : SeqCheck.check seg conn = .OutOfOrder)
    (hack : conn.sndNxt.precedes seg.ackNum = false)
    (hhd : handleEstablished A app seg conn est now = hd) :
    (∀ reply, hd.result ≠ .ok (reply, true)) ∧ hd.conn.name = some .Established ∧
      hd.conn.rcvNxt = conn.rcvNxt ∧
      hd.conn.reassembly.segments = (match seg.payload with
        | some p => TcpReassembly.insertSegment seg.seqNum p conn.reassembly.segments
        | none => conn.reassembly.segments) ∧
      (seg.flags = .FinAck ∨ conn.reassembly.finSeq ≠ none →
        hd.conn.reassembly.finSeq ≠ none) := by
  have hguard : ¬ (seg.flags = .Ack ∧ SeqCheck.check seg conn ≠ .Unacceptable
      ∧ conn.sndNxt.precedes seg.ackNum = true) := by rw [hack]; rintro ⟨-, -, ⟨⟩⟩
  rw [← hhd, handleEstablished, if_neg hguard]
  rcases hflags with ⟨hf, hp⟩ | hf
  · obtain ⟨p, hp⟩ := Option.ne_none_iff_exists'.mp hp
    simp only [hf, hp, hcheck, SyncedState.incomingAckUpdate_eq]
    exact ⟨by simp, rfl, rfl, rfl, fun h => h.resolve_left (by decide)⟩
  · simp only [hf, hcheck, SyncedState.incomingAckUpdate_eq]
    refine ⟨by simp, rfl, rfl, ?_, fun _ => Option.some_ne_none _⟩
    cases seg.payload <;> rfl

/-! ### A stream cut into segments -/

/-- A segment's part of the stream. -/
structure Piece where
  /-- The position of the first byte in the stream. -/
  offset : Nat
  payload : Option TcpPayload
  fin : Bool

/-- Consecutive pieces from `offset` on: one for each payload, and a last one with the FIN,
    possibly with no payload of its own. -/
def cut (offset : Nat) : List TcpPayload → Option TcpPayload → List Piece
  | [], last => [⟨offset, last, true⟩]
  | p :: payloads, last => ⟨offset, some p, false⟩ :: cut (offset + p.len) payloads last

/-- The stream that is cut that way. -/
def stream (payloads : List TcpPayload) (last : Option TcpPayload) : List UInt8 :=
  (payloads.map (·.data)).flatten ++ TcpPayload.bytes last

/-- The segment carries the piece, for a stream whose first byte is numbered `base`. -/
structure Piece.CarriedBy (c : Piece) (base : SeqPoint .In) (seg : TcpSegment .In) : Prop where
  seqNum : seg.seqNum = base + c.offset
  payload : seg.payload = c.payload
  flags : seg.flags = if c.fin then .FinAck else .Ack

/-- The pieces are consecutive parts of `S` from the front to the FIN. -/
structure Cuts (S : List UInt8) (pieces : List Piece) : Prop where
  piece : ∀ c ∈ pieces, TcpPayload.bytes c.payload <+: S.drop c.offset
  fin : ∀ c ∈ pieces, c.fin = true → c.offset + TcpPayload.lenOrDefault c.payload = S.length
  /-- A piece without the FIN has a payload, and another piece starts where it ends. -/
  next : ∀ c ∈ pieces, c.fin = false → c.payload ≠ none ∧
    ∃ c' ∈ pieces, c'.offset = c.offset + TcpPayload.lenOrDefault c.payload

/-- The first piece begins where the stream does. -/
theorem cut_head (n : Nat) (payloads : List TcpPayload) (last : Option TcpPayload) :
    ∃ c ∈ cut n payloads last, c.offset = n := by
  cases payloads with
  | nil => exact ⟨_, List.mem_singleton.mpr rfl, rfl⟩
  | cons p payloads => exact ⟨_, List.mem_cons_self, rfl⟩

/-- Cutting a stream after `before` gives parts of the whole. -/
theorem cuts_cut_after (before : List UInt8) (payloads : List TcpPayload)
    (last : Option TcpPayload) :
    Cuts (before ++ stream payloads last) (cut before.length payloads last) := by
  induction payloads generalizing before with
  | nil =>
    refine ⟨fun c hc => ?_, fun c hc _ => ?_, fun c hc hf => ?_⟩ <;>
      obtain rfl := List.mem_singleton.mp hc
    · rw [List.drop_left]; exact List.prefix_rfl
    · rw [List.length_append]; rfl
    · cases hf
  | cons p payloads ih =>
    have hwhole : before ++ stream (p :: payloads) last
        = before ++ p.data ++ stream payloads last := by
      simp [stream, List.append_assoc]
    have hnext : (before ++ p.data).length = before.length + p.len := by
      rw [List.length_append]; rfl
    have ih := ih (before ++ p.data)
    rw [← hwhole, hnext] at ih
    refine ⟨fun c hc => ?_, fun c hc hf => ?_, fun c hc hf => ?_⟩ <;>
      rcases List.mem_cons.mp hc with rfl | hmem
    · rw [hwhole, List.append_assoc, List.drop_left]; exact List.prefix_append _ _
    · exact ih.piece c hmem
    · cases hf
    · exact ih.fin c hmem hf
    · obtain ⟨c', hc', hoff⟩ := cut_head (before.length + p.len) payloads last
      exact ⟨nofun, c', List.mem_cons_of_mem _ hc', hoff⟩
    · obtain ⟨hp, c', hc', hoff⟩ := ih.next c hmem hf
      exact ⟨hp, c', List.mem_cons_of_mem _ hc', hoff⟩

/-- The pieces cut the stream. -/
theorem cuts_cut (payloads : List TcpPayload) (last : Option TcpPayload) :
    Cuts (stream payloads last) (cut 0 payloads last) := cuts_cut_after [] payloads last

variable {S : List UInt8} {base : SeqPoint .In} {pieces : List Piece} {c : Piece}

/-- Every piece lies inside the stream. -/
theorem Cuts.le_length (h : Cuts S pieces) (hc : c ∈ pieces) :
    c.offset + TcpPayload.lenOrDefault c.payload ≤ S.length := by
  cases hf : c.fin with
  | true => exact (h.fin c hc hf).le
  | false =>
    obtain ⟨p, hp⟩ := Option.ne_none_iff_exists'.mp (h.next c hc hf).1
    have hpiece := h.piece c hc
    rw [hp] at hpiece ⊢
    exact Stream.piece_le hpiece p.nonempty

/-- Where a piece starts. -/
theorem Cuts.dist_offset (h : Cuts S pieces) (hS : S.length < 2 ^ 32) (hc : c ∈ pieces) :
    base.dist (base + c.offset) = c.offset := by
  have hle := h.le_length hc
  rw [SeqPoint.dist_self_add, Nat.mod_eq_of_lt (by omega)]

/-- The position of a carried piece. -/
theorem Piece.CarriedBy.dist (h : c.CarriedBy base seg) (hlt : c.offset < 2 ^ 32) :
    base.dist seg.seqNum = c.offset := by
  rw [h.seqNum, SeqPoint.dist_self_add, Nat.mod_eq_of_lt hlt]

/-- A segment that carries a piece carries a part of the stream. -/
theorem Piece.CarriedBy.carries (h : c.CarriedBy base seg) (hcuts : Cuts S pieces)
    (hc : c ∈ pieces) (hS : S.length < 2 ^ 32) : Carries S base seg := by
  have hle := hcuts.le_length hc
  have hdist := h.dist (by omega)
  refine ⟨fun p hp => ?_, fun hf => ?_⟩
  · have hpiece := hcuts.piece c hc
    rw [← h.payload, hp] at hpiece
    rw [hdist]; exact hpiece
  · have hfin : c.fin = true := by
      have hflags := h.flags
      rw [hf] at hflags
      split at hflags
      case isTrue hf => exact hf
      case isFalse => cases hflags
    rw [hdist, h.payload]
    exact hcuts.fin c hc hfin

/-! ### Progress -/

/-- How far the receive side of an ESTABLISHED connection has come, with the pieces that have
    arrived: RCV.NXT stands where a piece starts, none that starts there has arrived, and
    what has arrived of later pieces is waiting in the buffer. -/
structure Progress (base : SeqPoint .In) (pieces : List Piece) (arrived : Piece → Prop)
    (conn : ConnState) : Prop where
  subset : ∀ c, arrived c → c ∈ pieces
  boundary : ∃ c ∈ pieces, c.offset = base.dist conn.rcvNxt
  missing : ∀ c, arrived c → c.offset ≠ base.dist conn.rcvNxt
  waiting : ∀ c, arrived c → base.dist conn.rcvNxt < c.offset →
    (c.payload ≠ none → ∃ q, (base + c.offset, q) ∈ conn.reassembly.segments) ∧
      (c.fin = true → conn.reassembly.finSeq ≠ none)
  /-- Everything in the buffer is a piece that has arrived and lies ahead. -/
  source : ∀ e ∈ conn.reassembly.segments, ∃ c ∈ pieces, arrived c ∧ e.1 = base + c.offset ∧
    c.payload = some e.2 ∧ base.dist conn.rcvNxt < c.offset

variable {arrived : Piece → Prop} {conn' : ConnState} {received : List (List UInt8)} {seen : Prop}

/-- A piece behind RCV.NXT adds nothing. -/
theorem Progress.behind (h : Progress base pieces arrived conn) (hc : c ∈ pieces)
    (hlt : c.offset < base.dist conn.rcvNxt) :
    Progress base pieces (fun d => arrived d ∨ d = c) conn where
  subset d hd := hd.elim (h.subset d) fun heq => heq ▸ hc
  boundary := h.boundary
  missing d hd := hd.elim (h.missing d) fun heq => by rw [heq]; omega
  waiting d hd hahead := hd.elim (fun hd => h.waiting d hd hahead)
    fun heq => by rw [heq] at hahead; omega
  source e he := by
    obtain ⟨d, hd, harr, hrest⟩ := h.source e he
    exact ⟨d, hd, .inl harr, hrest⟩

/-- **A piece ahead of RCV.NXT waits in the buffer.** -/
theorem Progress.buffer (h : Progress base pieces arrived conn) (hc : c ∈ pieces)
    (hcar : c.CarriedBy base seg) (hahead : base.dist conn.rcvNxt < c.offset)
    (hrcv : conn'.rcvNxt = conn.rcvNxt)
    (hsegs : conn'.reassembly.segments = match seg.payload with
      | some p => TcpReassembly.insertSegment seg.seqNum p conn.reassembly.segments
      | none => conn.reassembly.segments)
    (hfin : seg.flags = .FinAck ∨ conn.reassembly.finSeq ≠ none →
      conn'.reassembly.finSeq ≠ none) :
    Progress base pieces (fun d => arrived d ∨ d = c) conn' := by
  rw [hcar.payload, hcar.seqNum] at hsegs
  -- nothing that was buffered is lost, and nothing but the piece is added
  have hkeeps : ∀ start q, (start, q) ∈ conn.reassembly.segments →
      ∃ q', (start, q') ∈ conn'.reassembly.segments := by
    intro start q hq
    rw [hsegs]
    cases c.payload with
    | none => exact ⟨q, hq⟩
    | some p => exact TcpReassembly.insertSegment_keeps hq
  have hnew : c.payload ≠ none → ∃ q, (base + c.offset, q) ∈ conn'.reassembly.segments := by
    intro hne
    obtain ⟨p, hp⟩ := Option.ne_none_iff_exists'.mp hne
    rw [hsegs, hp]
    exact TcpReassembly.exists_insertSegment _ _ _
  have hmem : ∀ e ∈ conn'.reassembly.segments, e ∈ conn.reassembly.segments ∨
      ∃ p, c.payload = some p ∧ e = (base + c.offset, p) := by
    intro e he
    rw [hsegs] at he
    cases hp : c.payload with
    | none => rw [hp] at he; exact .inl he
    | some p =>
      rw [hp] at he
      exact (TcpReassembly.mem_insertSegment he).imp_right fun heq => ⟨p, rfl, heq⟩
  refine ⟨fun d hd => hd.elim (h.subset d) fun heq => heq ▸ hc, ?_, ?_, ?_, ?_⟩
  · rw [hrcv]; exact h.boundary
  · rw [hrcv]
    rintro d (hd | rfl)
    · exact h.missing d hd
    · omega
  · rw [hrcv]
    rintro d (hd | rfl) hlt
    · obtain ⟨hbuf, hmark⟩ := h.waiting d hd hlt
      refine ⟨fun hne => ?_, fun hf => hfin (.inr (hmark hf))⟩
      obtain ⟨q, hq⟩ := hbuf hne
      exact hkeeps _ q hq
    · refine ⟨hnew, fun hf => hfin (.inl ?_)⟩
      rw [hcar.flags, hf]; rfl
  · rw [hrcv]
    intro e he
    rcases hmem e he with hold | ⟨p, hp, rfl⟩
    · obtain ⟨d, hd, harr, hrest⟩ := h.source e hold
      exact ⟨d, hd, .inl harr, hrest⟩
    · exact ⟨c, hc, .inr rfl, rfl, hp, hahead⟩

/-- **Where a chain of pieces stops**: where a piece starts, or, past the piece with the FIN,
    at the end. -/
theorem Cuts.chain_stops (hcuts : Cuts S pieces) {held : List (Nat × List UInt8)} {n m : Nat}
    {outs : List (List UInt8)}
    (hheld : ∀ o q, (o, q) ∈ held → q ≠ [] ∧
      ∃ c ∈ pieces, arrived c ∧ c.offset = o ∧ TcpPayload.bytes c.payload = q)
    (hchain : Stream.Chain held n outs m) (hn : ∃ c ∈ pieces, c.offset = n) :
    (∃ c ∈ pieces, c.offset = m) ∨
      ∃ o q c, (o, q) ∈ held ∧ c ∈ pieces ∧ arrived c ∧ c.offset = o ∧ c.fin = true
        ∧ m = S.length := by
  induction hchain with
  | stop => exact .inl hn
  | @take n m q outs hmem htail ih =>
    obtain ⟨hne, c, hc, harr, rfl, rfl⟩ := hheld _ _ hmem
    cases hf : c.fin with
    | false => exact ih (hcuts.next c hc hf).2
    | true =>
      have hend : c.offset + (TcpPayload.bytes c.payload).length = S.length := hcuts.fin c hc hf
      have hle := htail.le
      have hge := htail.le_length (s := S) (fun o p hp => by
        obtain ⟨hne, d, hd, -, rfl, rfl⟩ := hheld o p hp
        exact ⟨hcuts.piece d hd, hne⟩) hend.le
      exact .inr ⟨_, _, c, hmem, hc, harr, rfl, hf, by omega⟩

/-- A recorded FIN is reached at the end of the stream. -/
theorem ReceiveInv.finReached_end (hS : S.length < 2 ^ 31)
    (h : ReceiveInv S base received seen conn) {reassembly : TcpReassembly}
    {rcvNxt : SeqPoint .In} (hfin : reassembly.finSeq = conn.reassembly.finSeq)
    (hsome : conn.reassembly.finSeq ≠ none) (hend : base.dist rcvNxt = S.length) :
    reassembly.finReached rcvNxt = true := by
  obtain ⟨f, hf⟩ := Option.ne_none_iff_exists'.mp hsome
  have hpos := (h.fin f hf).1
  unfold TcpReassembly.finReached
  rw [hfin, hf]
  have hlt : base.dist f < 2 ^ 31 := by omega
  exact (TcpReassembly.precedesOrEq_iff_le hlt (by omega)).mpr (by omega)

/-- What is held belongs to pieces that have arrived ahead of RCV.NXT. -/
theorem Progress.of_held (h : Progress base pieces arrived conn) (hcuts : Cuts S pieces)
    (hS : S.length < 2 ^ 32) {o : Nat} {q : List UInt8}
    (hq : (o, q) ∈ TcpReassembly.held base conn.reassembly.segments) :
    q ≠ [] ∧ ∃ d ∈ pieces, (arrived d ∧ base.dist conn.rcvNxt < d.offset) ∧ d.offset = o
      ∧ TcpPayload.bytes d.payload = q := by
  refine ⟨held_ne_nil hq, ?_⟩
  obtain ⟨e, he, rfl, rfl⟩ := TcpReassembly.mem_held.mp hq
  obtain ⟨d, hd, harr, hseq, hpd, hahead⟩ := h.source e he
  exact ⟨d, hd, ⟨harr, hahead⟩, by rw [hseq, hcuts.dist_offset hS hd], by rw [hpd]; rfl⟩

/-- **A piece at RCV.NXT** moves it to the next piece that is missing, unless the FIN is
    reached. -/
theorem Progress.deliver {p : TcpPayload} {payloads : List TcpPayload}
    {reassembly : TcpReassembly} {rcvNxt : SeqPoint .In} (hS : S.length ≤ 65534)
    (hcuts : Cuts S pieces) (hrecv : ReceiveInv S base received seen conn)
    (h : Progress base pieces arrived conn) (hc : c ∈ pieces)
    (hoff : c.offset = base.dist conn.rcvNxt) (hfin : c.fin = false) (hpay : c.payload = some p)
    (hdrain : conn.reassembly.drainContiguous (conn.rcvNxt + p.len)
      = (payloads, reassembly, rcvNxt))
    (hopen : reassembly.finReached rcvNxt = false) (hrcv : conn'.rcvNxt = rcvNxt)
    (hre : conn'.reassembly = reassembly) :
    Progress base pieces (fun d => arrived d ∨ d = c) conn' := by
  have hle := hcuts.le_length hc
  rw [hpay, TcpPayload.lenOrDefault_some] at hle
  have hpos := p.len_pos
  have hstart : base.dist (conn.rcvNxt + p.len) = c.offset + p.len := by
    rw [SeqPoint.dist_add, ← hoff, Nat.mod_eq_of_lt (by omega)]
  obtain ⟨hchain, hhalf, rfl⟩ := TcpReassembly.drainContiguous_chain
    (within_of_held (by omega) hrecv.held) (by omega) hdrain
  rw [hstart] at hchain
  have hm := hchain.le
  have hdist : ∀ d ∈ pieces, base.dist (base + d.offset) = d.offset := fun d hd =>
    hcuts.dist_offset (by omega) hd
  -- reaching the end with the FIN recorded would have been noticed
  have hunmarked : conn.reassembly.finSeq ≠ none → base.dist rcvNxt ≠ S.length := by
    intro hsome hend
    have hreached : TcpReassembly.finReached
        ⟨TcpReassembly.after base (base.dist rcvNxt) conn.reassembly.segments,
          conn.reassembly.finSeq⟩ rcvNxt = true :=
      hrecv.finReached_end (by omega) rfl hsome hend
    exact absurd (hreached.symm.trans hopen) nofun
  refine ⟨fun d hd => hd.elim (h.subset d) fun heq => heq ▸ hc, ?_, ?_, ?_, ?_⟩
  · rw [hrcv]
    have hnext := (hcuts.next c hc hfin).2
    rw [hpay, TcpPayload.lenOrDefault_some] at hnext
    rcases hcuts.chain_stops (fun o q hq => h.of_held hcuts (by omega) hq) hchain hnext with
      hb | ⟨o, q, d, -, -, harr, -, hdf, hend⟩
    · exact hb
    · exact absurd hend (hunmarked ((h.waiting d harr.1 harr.2).2 hdf))
  · rw [hrcv]
    rintro d (hd | rfl) heq
    · obtain ⟨hbuf, hmark⟩ := h.waiting d hd (by omega)
      have hdp := h.subset d hd
      cases hp : d.payload with
      | none =>
        have hdf : d.fin = true := by
          by_contra hf
          exact (hcuts.next d hdp (by simpa using hf)).1 hp
        have hend := hcuts.fin d hdp hdf
        rw [hp, TcpPayload.lenOrDefault_none] at hend
        exact hunmarked (hmark hdf) (by omega)
      | some q =>
        obtain ⟨q', hq'⟩ := hbuf (by rw [hp]; nofun)
        exact hchain.stops q'.data (TcpReassembly.mem_held.mpr
          ⟨_, hq', by rw [hdist d hdp, heq], rfl⟩)
    · omega
  -- what is still ahead has been kept by the drain
  · rw [hrcv, hre]
    rintro d (hd | rfl) hlt
    · obtain ⟨hbuf, hmark⟩ := h.waiting d hd (by omega)
      refine ⟨fun hne => ?_, hmark⟩
      obtain ⟨q, hq⟩ := hbuf hne
      refine ⟨q, List.mem_filter.mpr ⟨hq, ?_⟩⟩
      rw [hdist d (h.subset d hd)]
      exact decide_eq_true hlt
    · omega
  · rw [hrcv, hre]
    intro e he
    obtain ⟨hmem, hlt⟩ := List.mem_filter.mp he
    obtain ⟨d, hd, harr, hseq, hpd, -⟩ := h.source e hmem
    refine ⟨d, hd, .inl harr, hseq, hpd, ?_⟩
    rw [hseq, hdist d hd] at hlt
    exact of_decide_eq_true hlt

/-! ### One arrival -/

/-- A connection on its way to the end of the stream: past the FIN, or in ESTABLISHED with
    progress made. -/
structure Converging (S : List UInt8) (base : SeqPoint .In) (pieces : List Piece)
    (arrived : Piece → Prop) (received : List (List UInt8)) (conn : ConnState) : Prop where
  recv : ReceiveInv S base received True conn
  inFlight : InFlightInv conn
  state : PassiveClosed conn.name ∨
    (conn.name = some .Established ∧ Progress base pieces arrived conn)

/-- **One arrival** never removes the connection, and makes progress or closes. -/
theorem Converging.arrive (hS : S.length ≤ 65534) (hcuts : Cuts S pieces)
    (h : Converging S base pieces arrived received conn) (hc : c ∈ pieces)
    (hcar : c.CarriedBy base seg)
    (hack : conn.sndUna.dist seg.ackNum ≤ conn.sndUna.dist conn.sndNxt) (A : Application σ)
    (app : σ) (now : Instant) {hd : Handled σ}
    (hhd : handleKnownConn A app seg conn now = hd) :
    (∀ reply, hd.result ≠ .ok (reply, true)) ∧
      (PassiveClosed hd.conn.name ∨
        (hd.conn.name = some .Established ∧
          Progress base pieces (fun d => arrived d ∨ d = c) hd.conn)) := by
  have hle := hcuts.le_length hc
  have hdist := hcar.dist (by omega)
  have hflags : seg.flags = .Ack ∨ seg.flags = .FinAck := by
    rw [hcar.flags]; cases c.fin <;> simp
  have hnot := h.inFlight.not_precedes hack
  -- a segment behind RCV.NXT is only answered
  have hbehind : c.offset < base.dist conn.rcvNxt → conn.tcpState ≠ .SynReceived →
      hd = ⟨app, conn, .ok (some (pureAck conn), false)⟩ := by
    intro hlt hsync
    have hrcv := h.recv.le
    rw [← hhd]
    exact handleKnownConn_behind hsync hflags
      (SeqCheck.check_behind (by rw [hdist]; exact hlt) (by omega)) A app now
  rcases h.state with hclosed | ⟨hname, hprog⟩
  · have hpast : S.length < base.dist conn.rcvNxt := h.recv.closed hclosed
    have hsync : conn.tcpState ≠ .SynReceived := fun hst => by
      rw [ConnState.name_eq_none.mpr hst] at hclosed
      exact absurd hclosed (by decide)
    rw [hbehind (by omega) hsync]
    exact ⟨by simp, .inl hclosed⟩
  · obtain ⟨est, hst⟩ := ConnState.name_eq_established hname
    have hest : handleEstablished A app seg conn est now = hd := by
      rw [← hhd, handleKnownConn, hst]
    have hhandles : failed hd.result = false := by
      rw [← hhd]
      exact h.inFlight.handles (unambiguous_of_inRange hack now) A app now
    -- behind RCV.NXT, at it, or ahead of it
    rcases Nat.lt_trichotomy c.offset (base.dist conn.rcvNxt) with hlt | heq | hgt
    · rw [hbehind hlt (by rw [hst]; nofun)]
      exact ⟨by simp, .inr ⟨hname, hprog.behind hc hlt⟩⟩
    · have hseq : seg.seqNum = conn.rcvNxt := SeqPoint.dist_inj.mp (hdist.trans heq)
      cases hf : c.fin with
      | true =>
        have hfin : seg.flags = .FinAck := by rw [hcar.flags, hf]; rfl
        obtain ⟨hrem, hclosed⟩ := handleEstablished_fin hst hfin hseq hest
        exact ⟨hrem, .inl (hclosed hhandles)⟩
      | false =>
        have hplain : seg.flags = .Ack := by rw [hcar.flags, hf]; rfl
        obtain ⟨p, hp⟩ := Option.ne_none_iff_exists'.mp (hcuts.next c hc hf).1
        obtain ⟨⟨payloads, reassembly, rcvNxt⟩, hdrain⟩ : ∃ r,
          conn.reassembly.drainContiguous (conn.rcvNxt + p.len) = r := ⟨_, rfl⟩
        obtain ⟨hrem, hre, hopen, hclosed⟩ := handleEstablished_data hst hplain
          (hcar.payload.trans hp) hseq hnot hdrain hest
        refine ⟨hrem, ?_⟩
        cases hr : reassembly.finReached rcvNxt with
        | true => exact .inl (hclosed hr hhandles)
        | false =>
          obtain ⟨hrcv, hname'⟩ := hopen hr
          exact .inr ⟨hname', hprog.deliver hS hcuts h.recv hc heq hf hp hdrain hr hrcv hre⟩
    · have hcheck : SeqCheck.check seg conn = .OutOfOrder :=
        SeqCheck.check_ahead base (by rw [hdist]; exact hgt) (by rw [hdist]; omega)
      have hcarries : (seg.flags = .Ack ∧ seg.payload ≠ none) ∨ seg.flags = .FinAck := by
        rw [hcar.flags, hcar.payload]
        cases hf : c.fin with
        | true => exact .inr rfl
        | false => exact .inl ⟨rfl, (hcuts.next c hc hf).1⟩
      obtain ⟨hrem, hname', hrcv, hsegs, hmark⟩ :=
        handleEstablished_buffer hcarries hcheck hnot hest
      exact ⟨hrem, .inr ⟨hname', hprog.buffer hc hcar hgt hrcv hsegs hmark⟩⟩

/-! ### All arrivals -/

/-- The piece has arrived among the events. -/
def Arrived (base : SeqPoint .In) (pieces : List Piece) (es : List (SessionEvent σ))
    (c : Piece) : Prop :=
  c ∈ pieces ∧ ∃ seg now, SessionEvent.on (.segment seg now) ∈ es ∧ c.CarriedBy base seg

/-- One of the pieces arrives, with an acknowledgment in the range in flight. -/
def Arrival (base : SeqPoint .In) (pieces : List Piece) (s : Session σ) (e : SessionEvent σ) :
    Prop :=
  ∃ seg now, e = .on (.segment seg now) ∧ (∃ c ∈ pieces, c.CarriedBy base seg) ∧
    ∀ conn, s.conn = some conn → conn.sndUna.dist seg.ackNum ≤ conn.sndUna.dist conn.sndNxt

/-- A segment carries one piece only. -/
theorem Piece.CarriedBy.unique {d : Piece} (hc : c.CarriedBy base seg) (hd : d.CarriedBy base seg)
    (hlc : c.offset < 2 ^ 32) (hld : d.offset < 2 ^ 32) : d = c := by
  have hoff : d.offset = c.offset := (hd.dist hld).symm.trans (hc.dist hlc)
  have hpay : d.payload = c.payload := hd.payload.symm.trans hc.payload
  have hfin : d.fin = c.fin := by
    have hflags := hd.flags.symm.trans hc.flags
    cases hdf : d.fin <;> cases hcf : c.fin <;> rw [hdf, hcf] at hflags <;>
      first | rfl | cases hflags
  obtain ⟨o, p, f⟩ := d
  obtain ⟨o', p', f'⟩ := c
  simp only at hoff hpay hfin
  rw [hoff, hpay, hfin]

/-- What has arrived after one more event. -/
theorem arrived_snoc (hS : S.length ≤ 65534) (hcuts : Cuts S pieces) (hc : c ∈ pieces)
    (hcar : c.CarriedBy base seg) (es : List (SessionEvent σ)) :
    Arrived base pieces (es ++ [.on (.segment seg now)])
      = fun d => Arrived base pieces es d ∨ d = c := by
  funext d
  refine propext ⟨?_, ?_⟩
  · rintro ⟨hd, seg', now', hmem, hcar'⟩
    rcases List.mem_append.mp hmem with hold | hnew
    · exact .inl ⟨hd, seg', now', hold, hcar'⟩
    · obtain ⟨⟨rfl, rfl⟩⟩ := List.mem_singleton.mp hnew
      have hlc := hcuts.le_length hc
      have hld := hcuts.le_length hd
      exact .inr (hcar.unique hcar' (by omega) (by omega))
  · rintro (⟨hd, seg', now', hmem, hcar'⟩ | rfl)
    · exact ⟨hd, seg', now', List.mem_append_left _ hmem, hcar'⟩
    · exact ⟨hc, seg, now, List.mem_append_right _ (List.mem_singleton.mpr rfl), hcar⟩

/-- **A step of a session** keeps the connection on its way. -/
theorem Converging.step (A : Application σ) (rto : RtoConfig) (maxRetries : UInt8)
    {s : Session σ} {e : SessionEvent σ} {es : List (SessionEvent σ)}
    (hS : S.length ≤ 65534) (hcuts : Cuts S pieces) (hconn : s.conn = some conn)
    (h : Converging S base pieces (Arrived base pieces es) received conn)
    (he : Arrival base pieces s e) :
    ∃ conn' slices, (s.step A rto maxRetries e).conn = some conn' ∧
      (s.step A rto maxRetries e).app.received = s.app.received ++ slices ∧
      Converging S base pieces (Arrived base pieces (es ++ [e])) (received ++ slices) conn' := by
  obtain ⟨seg, now, rfl, ⟨c, hc, hcar⟩, hack⟩ := he
  have hack := hack conn hconn
  obtain ⟨hrem, hstate⟩ := h.arrive hS hcuts hc hcar hack A.recorded s.app now rfl
  have hstep : (conn.step A.recorded rto maxRetries s.app (.segment seg now)).conn
      = some (handleKnownConn A.recorded s.app seg conn now).conn := by
    have hkept : removes (handleKnownConn A.recorded s.app seg conn now).result = false := by
      cases hr : (handleKnownConn A.recorded s.app seg conn now).result with
      | error e => rfl
      | ok v =>
        obtain ⟨reply, b⟩ := v
        cases b
        · rfl
        · exact absurd hr (hrem reply)
    simp only [ConnState.step, hkept]
    rfl
  have hdel : Delivering (handleKnownConn A.recorded s.app seg conn now).conn.name := by
    rcases hstate with hclosed | ⟨hname, -⟩
    · exact .inr hclosed
    · exact .inl (.inr hname)
  obtain ⟨slices, hlog, hrecv⟩ := ReceiveInv.stepMove (by omega) id
    (fun seg' now' heq => by
      obtain ⟨rfl, rfl⟩ := ConnEvent.segment.inj heq
      exact ⟨hcar.carries hcuts hc (by omega), fun _ => trivial⟩)
    (fun _ => h.recv) (ConnState.step_move hstep) hdel
  rw [arrived_snoc hS hcuts hc hcar]
  refine ⟨_, slices, ?_, ?_, hrecv,
    h.inFlight.step (unambiguous_of_inRange hack now) hstep, hstate⟩
  · simp only [Session.step, hconn]; exact hstep
  · simp only [Session.step, hconn]; exact hlog

/-- A connection just established from a SYN has at most a window in flight. -/
theorem inFlightInv_of_handshake {app : σ} {iss : SeqPoint .Out} {irs : SeqPoint .In}
    {t₀ : Instant} {es : List (SessionEvent σ)} {s : Session σ}
    (hrun : Runs.Run (Session.step A rto maxRetries)
      (Session.Guard fun conn _ => conn.tcpState = .SynReceived)
      (Session.opened app iss irs t₀) es s) (hconn : s.conn = some conn) : InFlightInv conn := by
  have hall : ∀ conn, s.conn = some conn → InFlightInv conn := by
    refine hrun.state_invariant (I := fun s => ∀ conn, s.conn = some conn → InFlightInv conn)
      ?_ fun s e ih hok conn' hconn' => ?_
    · rintro conn ⟨⟩
      exact inFlightInv_opened iss irs t₀
    · cases e with
      | elsewhere app => exact ih conn' hconn'
      | on ev =>
        cases hs : s.conn with
        | none => simp only [Session.step, hs] at hconn'; cases hconn'
        | some conn =>
          simp only [Session.step, hs] at hconn'
          have hst := hok conn ev hs rfl
          refine (ih conn hs).step (fun seg now _ h => ?_) hconn'
          -- SYN-RECEIVED does not take acknowledgments this way
          rw [ConnState.takesAck, hst] at h
          cases h.1
  exact hall conn hconn

/-- A connection with nothing buffered is at the start of a stream. -/
theorem Converging.start (hinv : InFlightInv conn) (hname : conn.name = some .Established)
    (hempty : conn.reassembly = TcpReassembly.new) (payloads : List TcpPayload)
    (last : Option TcpPayload) :
    Converging (stream payloads last) conn.rcvNxt (cut 0 payloads last)
      (Arrived (σ := σ) conn.rcvNxt (cut 0 payloads last) []) [] conn := by
  have hzero : conn.rcvNxt.dist conn.rcvNxt = 0 := SeqPoint.dist_self _
  have hnone : ¬ PassiveClosed conn.name := by rw [hname]; decide
  refine ⟨⟨by omega, by rw [hzero]; rfl, by rw [hempty]; nofun, by rw [hempty]; nofun,
    fun _ => hzero, fun hp => absurd hp hnone, fun _ => trivial⟩, hinv, .inr ⟨hname, ?_⟩⟩
  refine ⟨fun c hc => hc.1, ?_, ?_, ?_, by rw [hempty]; nofun⟩
  · rw [hzero]; exact cut_head 0 payloads last
  · rintro c ⟨-, seg, now, hmem, -⟩; cases hmem
  · rintro c ⟨-, seg, now, hmem, -⟩; cases hmem

/-- **Arrival-order independence.** When every segment of a stream cut in any way has arrived
    on a connection just established, in any order and with any repetitions, the application
    has received exactly the stream, RCV.NXT is past the FIN, and the connection is closing
    passively. -/
theorem arrival_order_independent (A : Application σ) (rto : RtoConfig) (maxRetries : UInt8)
    (payloads : List TcpPayload) (last : Option TcpPayload)
    (hS : (stream payloads last).length ≤ 65534) (app : σ) (iss : SeqPoint .Out)
    (irs : SeqPoint .In) (t₀ : Instant) (es₀ : List (SessionEvent σ)) (s : Session σ)
    (hfresh : Runs.Run (Session.step A rto maxRetries)
      (Session.Guard fun conn _ => conn.tcpState = .SynReceived)
      (Session.opened app iss irs t₀) es₀ s)
    (conn : ConnState) (hconn : s.conn = some conn) (hname : conn.name = some .Established)
    (hempty : conn.reassembly = TcpReassembly.new) (es : List (SessionEvent σ)) (s' : Session σ)
    (hrun : Runs.Run (Session.step A rto maxRetries)
      (Arrival conn.rcvNxt (cut 0 payloads last)) s es s')
    (hall : ∀ c ∈ cut 0 payloads last, ∃ seg now,
      SessionEvent.on (.segment seg now) ∈ es ∧ c.CarriedBy conn.rcvNxt seg) :
    ∃ conn', s'.conn = some conn' ∧
      s'.app.received.flatten = s.app.received.flatten ++ stream payloads last ∧
      conn'.rcvNxt = conn.rcvNxt + ((stream payloads last).length + 1) ∧
      (conn'.name = some .CloseWait ∨ conn'.name = some .LastAck) := by
  have hinv := inFlightInv_of_handshake hfresh hconn
  obtain ⟨conn', received, hconn', hlog, hconv⟩ : ∃ conn' received, s'.conn = some conn' ∧
      s'.app.received = s.app.received ++ received ∧
      Converging (stream payloads last) conn.rcvNxt (cut 0 payloads last)
        (Arrived conn.rcvNxt (cut 0 payloads last) es) received conn' := by
    refine hrun.invariant (I := fun es s' => ∃ conn' received, s'.conn = some conn' ∧
        s'.app.received = s.app.received ++ received ∧
        Converging (stream payloads last) conn.rcvNxt (cut 0 payloads last)
          (Arrived conn.rcvNxt (cut 0 payloads last) es) received conn') ?_ ?_
    · exact ⟨conn, [], hconn, (List.append_nil _).symm,
        .start hinv hname hempty payloads last⟩
    · rintro es s' e ⟨conn', received, hconn', hlog, hconv⟩ he
      obtain ⟨conn'', slices, hconn'', hlog', hconv'⟩ :=
        hconv.step A rto maxRetries hS (cuts_cut payloads last) hconn' he
      exact ⟨conn'', received ++ slices, hconn'', by rw [hlog', hlog, List.append_assoc], hconv'⟩
  have hclosed : PassiveClosed conn'.name := by
    apply hconv.state.resolve_right
    rintro ⟨_, hprog⟩
    -- the piece at RCV.NXT has arrived, like all others
    obtain ⟨c, hc, hoff⟩ := hprog.boundary
    exact hprog.missing c ⟨hc, hall c hc⟩ hoff
  have hpast : (stream payloads last).length < conn.rcvNxt.dist conn'.rcvNxt :=
    hconv.recv.closed hclosed
  have hend : conn.rcvNxt.dist conn'.rcvNxt = (stream payloads last).length + 1 := by
    have hle := hconv.recv.le
    omega
  refine ⟨conn', hconn', ?_, ?_, hclosed⟩
  · rw [hlog, List.flatten_append, hconv.recv.delivered, hend,
      List.take_of_length_le (Nat.le_succ _)]
  · rw [← hend, SeqPoint.add_dist]

/-- An echo server's session right after the handshake. -/
def freshSession : Session ServerApp :=
  (Session.opened .Echo SERVER_ISN CLIENT_ISN ⟨0⟩).step ServerApp.application
    (TcpConnections.new 0 3).rtoConfig 3 (.on (.segment CLIENT_ACK_COMPLETING_HANDSHAKE ⟨1⟩))

/-- The FIN, sent before any of the answer was seen. -/
def CLIENT_EARLY_FIN : TcpSegment .In := { CLIENT_FIN with ackNum := SERVER_ISN + 1 }

/-- The FIN arrives before the two bytes in front of it. -/
def reversedEvents : List (SessionEvent ServerApp) :=
  [.on (.segment CLIENT_EARLY_FIN ⟨2⟩), .on (.segment CLIENT_HI ⟨3⟩)]

/-- Two bytes and their FIN, in reverse order. -/
theorem arrival_order_reversed :
    ∃ conn', (reversedEvents.foldl (Session.step ServerApp.application
        (TcpConnections.new 0 3).rtoConfig 3) freshSession).conn = some conn' ∧
      (conn'.name = some .CloseWait ∨ conn'.name = some .LastAck) := by
  have hfresh : freshSession.conn.map (fun c => (c.name, c.reassembly, c.rcvNxt))
      = some (some .Established, TcpReassembly.new, CLIENT_ISN + 1) := by decide
  obtain ⟨conn, hconn, heq⟩ := Option.map_eq_some_iff.mp hfresh
  simp only [Prod.mk.injEq] at heq
  obtain ⟨hname, hempty, hrcv⟩ := heq
  have hhi : Piece.CarriedBy ⟨0, some HI, false⟩ conn.rcvNxt CLIENT_HI :=
    ⟨by rw [hrcv]; decide, rfl, rfl⟩
  have hfin : Piece.CarriedBy ⟨2, none, true⟩ conn.rcvNxt CLIENT_EARLY_FIN :=
    ⟨by rw [hrcv]; decide, rfl, rfl⟩
  have hack : ∀ s ∈ [freshSession, freshSession.step ServerApp.application
      (TcpConnections.new 0 3).rtoConfig 3 (.on (.segment CLIENT_EARLY_FIN ⟨2⟩))],
      ∀ c, s.conn = some c → c.sndUna.dist (SERVER_ISN + 1) ≤ c.sndUna.dist c.sndNxt := by
    have hall : ∀ s ∈ [freshSession, freshSession.step ServerApp.application
        (TcpConnections.new 0 3).rtoConfig 3 (.on (.segment CLIENT_EARLY_FIN ⟨2⟩))],
        s.conn.all (fun c =>
          decide (c.sndUna.dist (SERVER_ISN + 1) ≤ c.sndUna.dist c.sndNxt)) = true := by decide
    intro s hs c hc
    simpa [hc] using hall s hs
  obtain ⟨conn', hconn', -, -, hclosed⟩ := arrival_order_independent ServerApp.application
    (TcpConnections.new 0 3).rtoConfig 3 [HI] none (by decide) .Echo SERVER_ISN CLIENT_ISN ⟨0⟩
    [.on (.segment CLIENT_ACK_COMPLETING_HANDSHAKE ⟨1⟩)] freshSession
    (.of_admits ⟨fun conn ev hs he => by cases hs; rfl, trivial⟩) conn hconn hname hempty
    reversedEvents _
    (.of_admits ⟨⟨_, _, rfl, ⟨_, .tail _ (.head _), hfin⟩, hack _ (.head _)⟩,
      ⟨_, _, rfl, ⟨_, .head _, hhi⟩, hack _ (.tail _ (.head _))⟩, trivial⟩)
    (by
      rintro c (_ | ⟨_, _ | ⟨_, ⟨⟩⟩⟩)
      · exact ⟨_, _, .tail _ (.head _), hhi⟩
      · exact ⟨_, _, .head _, hfin⟩)
  exact ⟨conn', hconn', hclosed⟩

end Typenet
