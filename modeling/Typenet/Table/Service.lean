import Typenet.Table.Completion
import Typenet.Table.Conversation

namespace Typenet

/-!
# Serving a client to the end

A connection waits for segments of its client from the handshake on: for the acknowledgment of our
SYN, then for data and the FIN in order, then for acknowledgments (`Wanted`).  A client that attends
to its connection is one that neither resets it nor lets our retries run out.  Its connection can be
left for one reason only, that it has been served (`complete_of_gone`).  And it is left, for no event
sets the connection back (`ConnState.toServe`).

* `Host.served_of_gone` — a client whose connection is gone has been sent the whole answer;
* `Host.gone_of_obliged` — and it is gone once as many wanted segments have come as there can be.
-/

open SendInfo

variable {rto : RtoConfig} {maxRetries : UInt8} {app : ServerApp} {S : List UInt8}
  {base : SeqPoint .In} {seg : TcpSegment .In} {conn conn' : ConnState} {now : Instant} {w m : Nat}

/-! ### What the client does -/

/-- The client does not reset the connection, does not acknowledge the far side of the circle, and
    acknowledges before the retries run out. -/
structure Spares (rto : RtoConfig) (maxRetries : UInt8) (conn : ConnState) (ev : ConnEvent) :
    Prop where
  reset : ∀ seg now, ev = .segment seg now → ¬ IsRst seg
  acks : Unambiguous conn ev
  retries : ∀ now late, ev = .retransmit now late →
    (conn.retransmit rto maxRetries now late).isSome = true

/-- The client of a session sends the stream `S` and spares the connection, and no closing sweep
    comes to it. -/
structure Attends (rto : RtoConfig) (maxRetries : UInt8) (S : List UInt8) (base : SeqPoint .In)
    (s : Session ServerApp) (e : SessionEvent ServerApp) : Prop where
  talks : Talks S base s e
  unclosed : Unclosed e
  spares : Session.Guard (Spares rto maxRetries) s e

/-- **What a connection waits for**, from the handshake to the end. -/
def Wanted (w : Nat) (seg : TcpSegment .In) (conn : ConnState) : Prop :=
  match conn.tcpState with
  | .SynReceived => conn.completesHandshake seg = true
  | .Established _ => seg.seqNum = conn.rcvNxt ∧ (seg.flags = .FinAck ∨
      seg.flags = .Ack ∧ seg.payload ≠ none ∧ conn.sndNxt.precedes seg.ackNum = false)
  | .FinWait1 _ | .FinWait2 _ | .CloseWait _ | .Closing _ | .LastAck _ => Awaited w seg conn

/-- The same by the name of the state. -/
theorem wanted_iff : Wanted w seg conn ↔
    (conn.name = none → conn.completesHandshake seg = true) ∧
    (conn.name = some .Established → seg.seqNum = conn.rcvNxt ∧ (seg.flags = .FinAck ∨
      seg.flags = .Ack ∧ seg.payload ≠ none ∧ conn.sndNxt.precedes seg.ackNum = false)) ∧
    (¬ Receiving conn.name → Awaited w seg conn) := by
  have hname : conn.name = conn.tcpState.name := rfl
  unfold Wanted
  rw [hname]
  cases conn.tcpState <;> simp [TcpState.name, Receiving]

instance (w : Nat) (seg : TcpSegment .In) (conn : ConnState) : Decidable (Wanted w seg conn) :=
  decidable_of_iff _ wanted_iff.symm

/-! ### Runs of a session -/

section

variable {iss : SeqPoint .Out} {irs : SeqPoint .In} {t₀ : Instant}
  {es : List (SessionEvent ServerApp)} {s : Session ServerApp}

/-- What holds of a connection just opened and is kept by its steps holds in every session. -/
theorem Session.conn_invariant {σ : Type} {A : Application σ} {app : σ} {P : ConnState → Prop}
    {G : ConnState → ConnEvent → Prop} {ok : Session σ → SessionEvent σ → Prop}
    (h0 : P (ConnState.opened iss irs t₀))
    (hstep : ∀ (r : Recorded σ) conn ev conn', P conn → G conn ev →
      (conn.step A.recorded rto maxRetries r ev).conn = some conn' → P conn')
    (hok : ∀ s e, ok s e → Session.Guard G s e) {es : List (SessionEvent σ)} {s : Session σ}
    (hrun : Runs.Run (Session.step A rto maxRetries) ok (Session.opened app iss irs t₀) es s) :
    ∀ conn, s.conn = some conn → P conn := by
  refine hrun.state_invariant (I := fun s => ∀ conn, s.conn = some conn → P conn) ?_ ?_
  · rintro conn ⟨⟩
    exact h0
  · intro s e ih hs conn' hconn'
    cases e with
    | elsewhere other => exact ih conn' hconn'
    | on ev =>
      cases hconn : s.conn with
      | none =>
        simp only [Session.step, hconn] at hconn'
        cases hconn'
      | some conn =>
        simp only [Session.step, hconn] at hconn'
        exact hstep s.app conn ev conn' (ih conn hconn) (hok s _ hs conn ev hconn rfl) hconn'

/-- What is known of the connection of a client that attends to it. -/
structure Serving (S : List UInt8) (base : SeqPoint .In) (s : Session ServerApp)
    (conn : ConnState) : Prop where
  delivering : Delivering conn.name
  received : s.app.received.flatten = S.take (base.dist conn.rcvNxt)
  buffer : conn.sendBuffer.length ≤ S.length
  flight : InFlightInv conn
  pending : CloseWaitPending conn

/-- Less than half the circle is in flight. -/
theorem InFlightInv.half (h : InFlightInv conn) : HalfInv conn :=
  ⟨h.handshake, fun hs => le_trans (h.sending hs) (by decide)⟩

theorem unclosed_of_run (hrun : Runs.Run (Session.step ServerApp.application rto maxRetries)
      (Attends rto maxRetries S base) (Session.opened app iss irs t₀) es s) :
    ∀ e ∈ es, Unclosed e :=
  hrun.invariant (I := fun es _ => ∀ e ∈ es, Unclosed e) nofun fun es s e ih hok e' he' => by
    rcases List.mem_append.mp he' with hi | hi
    · exact ih e' hi
    · rw [List.mem_singleton.mp hi]
      exact hok.unclosed

theorem serving_of_run (hS : S.length < 2 ^ 31)
    (hrun : Runs.Run (Session.step ServerApp.application rto maxRetries)
      (Attends rto maxRetries S (irs + SYN_BYTE)) (Session.opened app iss irs t₀) es s)
    (hconn : s.conn = some conn) : Serving S (irs + SYN_BYTE) s conn := by
  have htalks := hrun.imp fun _ _ h => h.talks
  have hdel := (answered_of_run hS htalks (unclosed_of_run hrun)).delivering conn hconn
  have hheard := heard_of_run hS htalks
  have hsend : SessionSendInv (iss + SYN_BYTE) s :=
    hrun.state_invariant (sessionSendInv_opened app iss irs t₀) fun _ e hs _ => hs.step e
  refine ⟨hdel, ?_, ?_, ?_, ?_⟩
  · exact (receiveInv_of_run hS (htalks.imp fun _ _ h => h.1) conn hconn hdel).delivered
  · -- what is queued is a part of the answer to what has been heard
    have hsplit := congrArg List.length (hsend.conn conn hconn).split
    have hle := hheard.received.length_le
    rw [hheard.appended, ServerApp.answer_length, List.length_append] at hsplit
    omega
  · exact Session.conn_invariant (inFlightInv_opened iss irs t₀)
      (fun _ _ _ _ h hg hs => h.step hg hs) (fun s e h conn ev hs he => (h.spares conn ev hs he).acks)
      hrun conn hconn
  · exact Session.conn_invariant (G := fun _ _ => True) nofun (fun _ _ _ _ h _ hs => h.step hs)
      (fun _ _ _ _ _ _ _ => trivial) hrun conn hconn

/-! ### Leaving is having been served -/

/-- A connection that is spared is left after our FIN only. -/
theorem Spares.finSent_of_gone {σ : Type} {A : Application σ} {app : σ} {ev : ConnEvent}
    (h : Spares rto maxRetries conn ev)
    (hgone : (conn.step A rto maxRetries app ev).conn = none) : FinSent conn.name := by
  intro hsending
  cases ev with
  | segment seg now =>
    have hremoved : conn.removedBy seg = true := by
      rw [← removes_handleKnownConn A app seg conn now]
      by_contra hkept
      simp only [ConnState.step, if_neg hkept] at hgone
      cases hgone
    rw [ConnState.removedBy_sending hsending, Bool.and_eq_true, Bool.or_eq_true, beq_iff_eq,
      beq_iff_eq] at hremoved
    exact h.reset seg now rfl hremoved.1
  | retransmit now late =>
    obtain ⟨r, hr⟩ := Option.isSome_iff_exists.mp (h.retries now late rfl)
    simp only [ConnState.step, hr] at hgone
    cases hgone
  | close now =>
    simp only [ConnState.step] at hgone
    cases hclose : conn.close now <;> rw [hclose] at hgone <;> cases hgone

/-- **A client whose connection is gone has been served**: all of its stream has been heard, and the
    whole answer and our FIN have been sent. -/
theorem complete_of_gone (hS : S.length < 2 ^ 31)
    (hrun : Runs.Run (Session.step ServerApp.application rto maxRetries)
      (Attends rto maxRetries S (irs + SYN_BYTE)) (Session.opened app iss irs t₀) es s)
    (hgone : s.conn = none) :
    dataSent s.sent = app.answer S ∧ ∃ info ∈ s.sent, info.flags = .FinAck := by
  have hfin : ∃ info ∈ s.sent, info.flags = .FinAck := by
    clear hS
    induction hrun with
    | nil => cases hgone
    | @snoc es s e hprev hok ih =>
      rcases Session.step_gone hgone with ⟨hnone, other, hstep⟩ | ⟨conn, reply, hconn, -, hstep⟩
      · rw [hstep]
        exact ih hnone
      · have hsent : FinSent conn.name := by
          cases e with
          | elsewhere other => cases hgone.symm.trans hconn
          | on ev =>
            simp only [Session.step, hconn] at hgone
            exact (hok.spares conn ev hconn rfl).finSent_of_gone hgone
        obtain ⟨info, hinfo, hflags⟩ := fin_of_run hprev conn hconn hsent
        rw [hstep]
        exact ⟨info, List.mem_append_left _ hinfo, hflags⟩
  obtain ⟨info, hinfo, hflags⟩ := hfin
  have htalks := hrun.imp fun _ _ h => h.talks
  obtain ⟨hreceived, hsent⟩ := (answered_of_run hS htalks (unclosed_of_run hrun)).fin info
    (List.mem_append_left _ hinfo) hflags
  refine ⟨?_, info, hinfo, hflags⟩
  rw [← hsent, (heard_of_run hS htalks).appended, hreceived]

/-! ### Progress -/

/-- How many segments a connection has to wait for, to the end of a stream of `n` bytes whose answer
    goes out `m` bytes at a time. -/
def ConnState.toServe (n m : Nat) (base : SeqPoint .In) (conn : ConnState) : Nat :=
  match conn.name with
  | none => n + (n + m - 1) / m + 3
  | some .Established => n - base.dist conn.rcvNxt + (n + m - 1) / m + 2
  | some .FinWait1 | some .FinWait2 | some .CloseWait | some .Closing | some .LastAck =>
    conn.toGo m

/-- Past ESTABLISHED, what is queued is a part of the answer to the stream. -/
theorem ConnState.toServe_passive {n : Nat} (h : PassiveClosed conn.name)
    (hbuf : conn.sendBuffer.length ≤ n) :
    conn.toServe n m base = conn.toGo m ∧ conn.toServe n m base ≤ (n + m - 1) / m + 1 := by
  have hdiv := Nat.div_le_div_right (c := m)
    (show conn.sendBuffer.length + m - 1 ≤ n + m - 1 by omega)
  unfold toServe toGo
  rcases h with hn | hn <;> rw [hn]
  · exact ⟨rfl, Nat.add_le_add_right hdiv 1⟩
  · exact ⟨rfl, Nat.le_add_left 1 _⟩

/-- What is left to be received is what the application has not been handed. -/
theorem Serving.left (h : Serving S base s conn) :
    S.length - base.dist conn.rcvNxt = S.length - s.app.received.flatten.length := by
  rw [h.received, List.length_take]
  omega

/-- **A legal step** brings the connection `k` segments nearer to the end, if it leaves SYN-RECEIVED,
    hears `k` bytes, or is `k` segments nearer to the end of closing. -/
theorem Serving.toServe_add_le {s' : Session ServerApp} {k : Nat} (hk : k ≤ 1)
    (h : Serving S base s conn) (h' : Serving S base s' conn') (hlegal : Legal conn.name conn'.name)
    (hnone : conn.name = none → conn'.name = none → k = 0)
    (hest : conn.name = some .Established → conn'.name = some .Established →
      s.app.received.flatten.length + k ≤ s'.app.received.flatten.length)
    (hgo : ¬ Receiving conn.name → conn'.toGo m + k ≤ conn.toGo m) :
    conn'.toServe S.length m base + k ≤ conn.toServe S.length m base := by
  have hpassive : ∀ _ : PassiveClosed conn'.name, conn'.toServe S.length m base = conn'.toGo m ∧
      conn'.toServe S.length m base ≤ (S.length + m - 1) / m + 1 :=
    fun hp => conn'.toServe_passive hp h'.buffer
  have hle : s'.app.received.flatten.length ≤ S.length := by
    rw [h'.received]
    exact (List.take_prefix _ _).length_le
  have hnow : conn.name = some .Established → conn.toServe S.length m base
      = S.length - s.app.received.flatten.length + (S.length + m - 1) / m + 2 := by
    intro hn
    simp only [ConnState.toServe, hn, h.left]
  have hthen : conn'.name = some .Established → conn'.toServe S.length m base
      = S.length - s'.app.received.flatten.length + (S.length + m - 1) / m + 2 := by
    intro hn
    simp only [ConnState.toServe, hn, h'.left]
  rcases h.delivering with (hn | hn) | hn
  · have hstart : conn.toServe S.length m base = S.length + (S.length + m - 1) / m + 3 := by
      simp only [ConnState.toServe, hn]
    rcases h'.delivering with (hn' | hn') | hn'
    · have hstay : conn'.toServe S.length m base = S.length + (S.length + m - 1) / m + 3 := by
        simp only [ConnState.toServe, hn']
      have hzero := hnone hn hn'
      omega
    · have hthen := hthen hn'
      omega
    · have hle := (hpassive hn').2
      omega
  · have hnow := hnow hn
    rcases h'.delivering with (hn' | hn') | hn'
    · rw [hn, hn'] at hlegal
      exact absurd hlegal (by decide)
    · have hthen := hthen hn'
      have hgrow := hest hn hn'
      omega
    · have hle := (hpassive hn').2
      omega
  · have hpassive' : PassiveClosed conn'.name := by
      rcases h'.delivering with (hn' | hn') | hn'
      · rcases hn with hn | hn <;> rw [hn, hn'] at hlegal <;> exact absurd hlegal (by decide)
      · rcases hn with hn | hn <;> rw [hn, hn'] at hlegal <;> exact absurd hlegal (by decide)
      · exact hn'
    rw [(hpassive hpassive').1, (conn.toServe_passive hn h.buffer).1]
    exact hgo hn.not_receiving

/-! ### What is wanted helps -/

/-- Passive close does not lead back to SYN-RECEIVED. -/
theorem PassiveClose.name_ne_none {cw : SyncedState .CloseWait}
    {out : TraceableResult SendInfo × ConnState} (h : PassiveClose conn cw now out)
    (hname : conn.name ≠ none) : out.2.name ≠ none := by
  cases h with
  | failed => exact hname
  | fin | data | blocked => nofun

/-- Completing the handshake leaves SYN-RECEIVED. -/
theorem ConnState.completesHandshake_leaves {σ : Type} {A : Application σ} {app : σ}
    (h : conn.completesHandshake seg = true) :
    (handleKnownConn A app seg conn now).conn.name ≠ none := by
  obtain ⟨hst, hflags, -⟩ := completesHandshake_iff.mp h
  have harm := handleSynRcv_arm hst A app seg now
  have hhandled : handleKnownConn A app seg conn now = handleSynRcv A app seg conn now := by
    simp only [handleKnownConn, hst]
  rw [hhandled]
  -- the handshake leads to ESTABLISHED, and the deliveries leave it there
  have hestablished : ∀ {app' : σ} {c : ConnState},
      deliverReassembled A (deliverPayload A app (completeHandshake seg conn).2 seg.payload).1
        (deliverPayload A app (completeHandshake seg conn).2 seg.payload).2 = (app', c) →
      c.name = some .Established := fun hdel => congrArg TcpState.name (deliver_frame hdel).1
  generalize handleSynRcv A app seg conn now = out at harm
  cases harm with
  | resend hsyn => rcases hflags with hf | hf <;> rw [hsyn] at hf <;> cases hf
  | silent hdone hack hcheck hdel =>
    rw [hestablished hdel]
    exact Option.some_ne_none _
  | data hdone hack hcheck hdel hafter =>
    have hname := hestablished hdel
    cases hafter with
    | close hfin hclose =>
      refine hclose.name_ne_none ?_
      rw [ConnState.name] at hname ⊢
      rw [hname]
      exact Option.some_ne_none _
    | drain hfin hdrain =>
      have hsame := congrArg TcpState.name hdrain.frame.1
      rw [ConnState.name, hsame, ← ConnState.name, hname]
      exact Option.some_ne_none _
  | fin =>
    obtain ⟨out, hout, hclose⟩ := closeOnInOrderFin_passiveClose A app seg
      (completeHandshake seg conn).2 seg.payload (establish seg) now
    rw [hout]
    exact hclose.name_ne_none (Option.some_ne_none _)
  | buffer => exact Option.some_ne_none _
  | fallback hnot => cases hnot.symm.trans h

/-- In ESTABLISHED, what is wanted has the application hear more, or the connection begin to
    close. -/
theorem Wanted.established {σ : Type} {A : Application σ} {r : Recorded σ}
    {est : SyncedState .Established} (h : Wanted w seg conn) (hst : conn.tcpState = .Established est)
    (hflight : InFlightInv conn) (hg : Unambiguous conn (.segment seg now)) :
    PassiveClosed (handleKnownConn A.recorded r seg conn now).conn.name ∨
      r.received.flatten.length
        < (handleKnownConn A.recorded r seg conn now).app.received.flatten.length := by
  unfold Wanted at h
  rw [hst] at h
  obtain ⟨hseq, hkind⟩ := h
  have hcheck : SeqCheck.check seg conn = .InOrder := if_pos hseq
  have harm := handleEstablished_arm hst A.recorded r seg now
  have hok := hflight.handles hg A.recorded r now
  have hhandled : handleKnownConn A.recorded r seg conn now
      = handleEstablished A.recorded r seg conn est now := by
    simp only [handleKnownConn, hst]
  rw [hhandled] at hok ⊢
  generalize handleEstablished A.recorded r seg conn est now = out at harm hok
  cases harm with
  | unsent htakes hflags hacc hahead =>
    rcases hkind with hf | ⟨-, -, hnot⟩
    · cases hf.symm.trans hflags
    · cases hnot.symm.trans hahead
  | pureAck htakes hflags hpay =>
    rcases hkind with hf | ⟨-, hsome, -⟩
    · cases hf.symm.trans hflags
    · exact absurd hpay hsome
  | @data p app' c _ htakes hflags hpay hinorder hdel hafter =>
    right
    have happ : out.app = app' := by
      cases hafter with
      | close => rfl
      | drain hfin hdrain => cases hdrain <;> rfl
    obtain ⟨⟨payloads, reassembly, rcvNxt⟩, hdrain⟩ : ∃ x,
        (conn.tookAck est seg).reassembly.drainContiguous ((conn.tookAck est seg).rcvNxt
          + TcpPayload.lenOrDefault seg.payload) = x := ⟨_, rfl⟩
    obtain ⟨⟨app'', extra⟩, hfeed⟩ : ∃ x, A.recorded.feed r (TcpPayload.slices seg.payload
        ++ payloads.map (·.data)) = x := ⟨_, rfl⟩
    rw [deliver_eq A.recorded r (conn.tookAck est seg) seg.payload hdrain hfeed] at hdel
    obtain ⟨rfl, -⟩ := Prod.mk.inj hdel
    have hlog := (Application.feed_recorded A r (TcpPayload.slices seg.payload
      ++ payloads.map (·.data))).1
    rw [hfeed] at hlog
    have hpos := List.length_pos_iff.mpr p.nonempty
    rw [happ, hlog, hpay, List.flatten_append, List.length_append, TcpPayload.slices,
      Option.toList_some, List.map_singleton, List.singleton_append, List.flatten_cons,
      List.length_append]
    omega
  | buffer htakes hflags hahead => cases hcheck.symm.trans hahead
  | fin htakes hflags hinorder =>
    left
    obtain ⟨closed, hout, hclose⟩ := closeOnInOrderFin_passiveClose A.recorded r seg conn
      seg.payload est now
    rw [hout] at hok ⊢
    cases hclose with
    | failed => cases hok
    | fin => exact .inr rfl
    | data | blocked => exact .inl rfl
  | fallback htakes hnot =>
    have hflags : seg.flags = .Ack ∨ seg.flags = .FinAck := hkind.symm.imp_left And.left
    cases hcheck.symm.trans (hnot hflags)

/-- Past ESTABLISHED, what is wanted is what is waited for mid-close. -/
theorem Wanted.awaited (h : Wanted w seg conn) (hclosing : ¬ Receiving conn.name) :
    Awaited w seg conn := by
  have hname : conn.name = conn.tcpState.name := rfl
  unfold Wanted at h
  cases hst : conn.tcpState with
  | SynReceived => exact absurd (.inl (hname.trans (by rw [hst]; rfl))) hclosing
  | Established est => exact absurd (.inr (hname.trans (by rw [hst]; rfl))) hclosing
  | FinWait1 | FinWait2 | CloseWait | Closing | LastAck => rwa [hst] at h

/-- The step of a session that keeps its connection is the step of that connection. -/
theorem Session.step_live {σ : Type} {A : Application σ} {s : Session σ} {ev : ConnEvent}
    (hconn : s.conn = some conn)
    (hconn' : (s.step A rto maxRetries (.on ev)).conn = some conn') :
    (conn.step A.recorded rto maxRetries s.app ev).conn = some conn' ∧
      (s.step A rto maxRetries (.on ev)).app
        = (conn.step A.recorded rto maxRetries s.app ev).app := by
  simp only [Session.step, hconn] at hconn' ⊢
  exact ⟨hconn', trivial⟩

/-- **No event sets the connection back.** -/
theorem Serving.toServe_step {e : SessionEvent ServerApp} (h : Serving S base s conn)
    (hconn : s.conn = some conn)
    (h' : Serving S base (s.step ServerApp.application rto maxRetries e) conn')
    (hconn' : (s.step ServerApp.application rto maxRetries e).conn = some conn') :
    conn'.toServe S.length m base ≤ conn.toServe S.length m base := by
  cases e with
  | elsewhere other =>
    obtain rfl := Option.some.inj (hconn.symm.trans hconn')
    exact Nat.le_refl _
  | on ev =>
    obtain ⟨hs, happ⟩ := Session.step_live hconn hconn'
    have hmove := ConnState.step_move hs
    obtain ⟨slices, -, hreceived, -⟩ := hmove.logged
    refine h.toServe_add_le (Nat.zero_le 1) h' hmove.legal (fun _ _ => rfl) (fun _ _ => ?_)
      fun hclosing => (ConnState.toGo_step hclosing hs).2
    rw [happ, hreceived, List.flatten_append, List.length_append]
    exact Nat.le_add_right _ _

/-- **What is wanted brings the end nearer**, or the connection is left. -/
theorem Serving.toServe_lt (h : Serving S base s conn) (hconn : s.conn = some conn)
    (hg : Unambiguous conn (.segment seg now)) (hwanted : Wanted w seg conn) (hw : 0 < w)
    (h' : Serving S base (s.step ServerApp.application rto maxRetries (.on (.segment seg now)))
      conn')
    (hconn' : (s.step ServerApp.application rto maxRetries (.on (.segment seg now))).conn
      = some conn') :
    conn'.toServe S.length (min w SyncedState.MAX_PAYLOAD_LEN) base
      < conn.toServe S.length (min w SyncedState.MAX_PAYLOAD_LEN) base := by
  obtain ⟨hs, happ⟩ := Session.step_live hconn hconn'
  have hlegal := (ConnState.step_move hs).legal
  obtain ⟨hkept, rfl⟩ := ConnState.step_survives hs
  refine h.toServe_add_le (Nat.le_refl 1) h' hlegal (fun hn hn' => ?_) (fun hn hn' => ?_)
    fun hclosing => ?_
  · have hst : conn.tcpState = .SynReceived := ConnState.name_eq_none.mp hn
    unfold Wanted at hwanted
    rw [hst] at hwanted
    exact absurd hn' (ConnState.completesHandshake_leaves hwanted)
  · obtain ⟨est, hst⟩ := ConnState.name_eq_established hn
    rcases hwanted.established hst h.flight hg with hpassive | hmore
    · rw [hn'] at hpassive
      rcases hpassive with hp | hp <;> cases hp
    · rw [happ]
      exact hmore
  · rcases (hwanted.awaited hclosing).progress hw h.flight.half h.pending with hremoved | hless
    · rw [removes_handleKnownConn, hremoved] at hkept
      cases hkept
    · exact hless

theorem ConnState.toServe_pos (n m : Nat) (base : SeqPoint .In) (conn : ConnState) :
    0 < conn.toServe n m base := by
  unfold toServe toGo
  split <;> simp_all

end

/-! ### The host -/

/-- **The client of `key` attends to its connection**: it sends the stream `S` and spares the
    connection.  No closing sweep comes by. -/
structure HostEvent.Attends (key : ConnKey) (S : List UInt8) (base : SeqPoint .In)
    (h : Host ServerApp) (e : HostEvent ServerApp) : Prop
    extends HostEvent.FromClient key S base h e where
  unclosed : ∀ consume now, e ≠ .close consume now
  spares : ∀ conn ev, h.get key = some conn → e.at key = some ev →
    Spares h.connections.rtoConfig h.connections.maxRetries conn ev

/-- The event is a segment that the connection of `key` waits for, if it is still there. -/
def Host.Obliges (w : Nat) (key : ConnKey) (h : Host ServerApp) (e : HostEvent ServerApp) : Prop :=
  ∀ conn, h.get key = some conn →
    ∃ seg now, e.at key = some (.segment seg now) ∧ Wanted w seg conn

variable {key : ConnKey} {h : Host ServerApp} {s : Session ServerApp} {e : HostEvent ServerApp}
  {es : List (HostEvent ServerApp)}

/-- The share of an event of the client is one of its session. -/
theorem HostEvent.Attends.session {e' : SessionEvent ServerApp} (hf : Follows key h s)
    (he : e.Attends key S base h)
    (hshares : Shares key (h.step ServerApp.application e).app e e') :
    Typenet.Attends h.connections.rtoConfig h.connections.maxRetries S base s e' := by
  refine ⟨he.toFromClient.talks hf hshares, ?_, ?_⟩
  · rintro now rfl
    cases hshares with
    | on hev =>
      obtain ⟨consume, rfl⟩ := HostEvent.at_close hev
      exact he.unclosed consume now rfl
  · rintro conn ev hconn rfl
    cases hshares with
    | on hev => exact he.spares conn ev (hf.conn.symm.trans hconn) hev

/-- A run of the host is a run of the client's session, and what that emits goes out. -/
theorem Host.follow_attends (hf : Follows key h s)
    (hes : Runs.Admits (Host.step ServerApp.application)
      (fun h e => e.Attends key S base h) h es) :
    ∃ es' s', Runs.Run (Session.step ServerApp.application h.connections.rtoConfig
        h.connections.maxRetries)
        (Attends h.connections.rtoConfig h.connections.maxRetries S base) s es' s' ∧
      Follows key (es.foldl (Host.step ServerApp.application) h) s' ∧
      (∀ info ∈ s'.sent ++ s'.resent, info ∈ s.sent ++ s.resent ∨ key.outgoing info
        ∈ segmentsOf key (Mealy.outputs (Host.act ServerApp.application) es h)) := by
  have hopen : ∀ consume now, .close consume now ∉ es := by
    intro consume now hmem
    obtain ⟨front, rest, rfl⟩ := List.append_of_mem hmem
    exact (Runs.admits_append.mp hes).2.1.unclosed consume now rfl
  -- the configuration is that of the first state throughout
  have hconfig := ((Runs.admits_true h es.dropLast).congr_invariant
    (I := fun h' => h'.connections.rtoConfig = h.connections.rtoConfig ∧
      h'.connections.maxRetries = h.connections.maxRetries)
    (P := fun h' e => e.Attends key S base h')
    (Q := fun h' e => e.Attends key S base h' ∧
      h'.connections.rtoConfig = h.connections.rtoConfig ∧
      h'.connections.maxRetries = h.connections.maxRetries)
    ⟨rfl, rfl⟩ ?_ fun _ _ hc => ⟨fun he => ⟨he, hc⟩, fun he => he.1⟩).mp hes
  · obtain ⟨es', s', hrun, hlast, -, -, -, hout⟩ := Host.follow_run hf hconfig
      (P := Attends h.connections.rtoConfig h.connections.maxRetries S base)
      (fun _ _ he => he.1.keeps) fun h' s e e' hf he hshares => by
        obtain ⟨he, hrto, hretries⟩ := he
        rw [← hrto, ← hretries]
        exact he.session hf hshares
    exact ⟨es', s', hrun, hlast, hout hopen⟩
  · rintro h' e ⟨hrto, hretries⟩ -
    obtain ⟨hrto', hretries'⟩ := (h'.step_get (A := ServerApp.application) e key).1
    exact ⟨hrto'.trans hrto, hretries'.trans hretries⟩

section

variable {syn : TcpSegment .In} {isn : UInt32} {t₀ : Instant}

/-- **A client whose connection is gone has been sent the whole answer**, up to the FIN. -/
theorem Host.served_of_gone (hS : S.length < 2 ^ 31)
    (hnone : h.get (ConnKey.ofSegment syn) = none) (hsyn : syn.flags = .Syn)
    (hes : Runs.Admits (Host.step ServerApp.application)
      (fun h e => e.Attends (ConnKey.ofSegment syn) S (syn.seqNum + SYN_BYTE) h)
      (h.step ServerApp.application (.segment syn (.ok isn) t₀)) es)
    (hgone : (es.foldl (Host.step ServerApp.application)
      (h.step ServerApp.application (.segment syn (.ok isn) t₀))).get (ConnKey.ofSegment syn)
        = none) :
    ReadOff (SeqPoint.new isn.toNat + SYN_BYTE)
        (segmentsOf (ConnKey.ofSegment syn) (Mealy.outputs (Host.act ServerApp.application)
          (.segment syn (.ok isn) t₀ :: es) h)) (h.app.answer S) ∧
      EndsAfter (SeqPoint.new isn.toNat + SYN_BYTE)
        (segmentsOf (ConnKey.ofSegment syn) (Mealy.outputs (Host.act ServerApp.application)
          (.segment syn (.ok isn) t₀ :: es) h)) (h.app.answer S).length := by
  obtain ⟨hf, hfirst⟩ := Host.follows_opened (A := ServerApp.application) hnone hsyn isn t₀
  obtain ⟨es', s, hrun, hlast, hout⟩ := Host.follow_attends hf hes
  obtain ⟨hsent, info, hinfo, hflags⟩ := complete_of_gone hS hrun (hlast.conn.trans hgone)
  have hwire : ∀ info ∈ s.sent ++ s.resent, (ConnKey.ofSegment syn).outgoing info
      ∈ segmentsOf (ConnKey.ofSegment syn) (Mealy.outputs (Host.act ServerApp.application)
        (.segment syn (.ok isn) t₀ :: es) h) := by
    intro info hinfo
    rw [Mealy.outputs_cons, segmentsOf_append]
    rcases hout info hinfo with hold | hnew
    · have hmem : info ∈ [synAck (SeqPoint.new isn.toNat) syn.seqNum] := hold
      refine List.mem_append_left _ ?_
      rw [List.mem_singleton.mp hmem]
      show _ ∈ segmentsOf _ (h.emitted ServerApp.application (.segment syn (.ok isn) t₀))
      rw [hfirst]
      exact List.mem_singleton_self _
    · exact List.mem_append_right _ hnew
  rw [← hsent]
  constructor
  · intro k b hb
    obtain ⟨piece, hpiece, p, i, hp, hi, hpos⟩ := covered_of_run hrun k b hb
    exact ⟨_, hwire piece (List.mem_append_left _ hpiece), p, i, hp, hi, hpos⟩
  · have hsend : SessionSendInv (SeqPoint.new isn.toNat + SYN_BYTE) s :=
      hrun.state_invariant (sessionSendInv_opened _ _ _ _) fun _ e hs _ => hs.step e
    exact ⟨_, hwire info (List.mem_append_left _ hinfo), hflags,
      (hsend.emitted info (List.mem_append_left _ hinfo)).fin hflags⟩

/-- The host is serving the client whose connection the SYN has opened. -/
def Host.Serves (app : ServerApp) (rto : RtoConfig) (maxRetries : UInt8) (syn : TcpSegment .In)
    (isn : UInt32) (t₀ : Instant) (S : List UInt8) (h : Host ServerApp) : Prop :=
  (h.connections.rtoConfig = rto ∧ h.connections.maxRetries = maxRetries) ∧
    ∃ es s, Runs.Run (Session.step ServerApp.application rto maxRetries)
        (Attends rto maxRetries S (syn.seqNum + SYN_BYTE))
        (Session.opened app (SeqPoint.new isn.toNat) syn.seqNum t₀) es s ∧
      Follows (ConnKey.ofSegment syn) h s

/-- **One event of the client**: the host goes on serving it, the connection is not set back, and a
    wanted segment brings its end nearer. -/
theorem Host.Serves.step (hS : S.length < 2 ^ 31)
    (h' : h.Serves app rto maxRetries syn isn t₀ S)
    (he : e.Attends (ConnKey.ofSegment syn) S (syn.seqNum + SYN_BYTE) h) :
    (h.step ServerApp.application e).Serves app rto maxRetries syn isn t₀ S ∧
      ∀ conn conn', h.get (ConnKey.ofSegment syn) = some conn →
        (h.step ServerApp.application e).get (ConnKey.ofSegment syn) = some conn' →
        (∀ m, conn'.toServe S.length m (syn.seqNum + SYN_BYTE)
          ≤ conn.toServe S.length m (syn.seqNum + SYN_BYTE)) ∧
        ∀ w, 0 < w → h.Obliges w (ConnKey.ofSegment syn) e →
          conn'.toServe S.length (min w SyncedState.MAX_PAYLOAD_LEN) (syn.seqNum + SYN_BYTE)
            < conn.toServe S.length (min w SyncedState.MAX_PAYLOAD_LEN)
              (syn.seqNum + SYN_BYTE) := by
  obtain ⟨⟨rfl, rfl⟩, es, s, hrun, hf⟩ := h'
  obtain ⟨e', hon⟩ := h.follow (A := ServerApp.application) hf e he.keeps
  have hrun' := hrun.snoc (he.session hf hon.shares)
  refine ⟨⟨(h.step_get e (ConnKey.ofSegment syn)).1, _, _, hrun', hon.follows⟩, ?_⟩
  intro conn conn' hconn hconn'
  have hlive := hf.conn.trans hconn
  have hlive' := hon.follows.conn.trans hconn'
  have hserving := serving_of_run hS hrun hlive
  have hserving' := serving_of_run hS hrun' hlive'
  refine ⟨fun m => hserving.toServe_step hlive hserving' hlive', fun w hw hobliges => ?_⟩
  obtain ⟨seg, now, hat, hwanted⟩ := hobliges conn hconn
  obtain rfl := hon.handed seg now hat (by rw [hconn]; nofun)
  exact hserving.toServe_lt hlive (he.spares conn _ hconn hat).acks hwanted hw hserving' hlive'

/-- **The connection is left** once as many wanted segments have come as there can be. -/
theorem Host.gone_of_obliged (hS : S.length < 2 ^ 31)
    (hnone : h.get (ConnKey.ofSegment syn) = none) (hsyn : syn.flags = .Syn)
    (hes : Runs.Admits (Host.step ServerApp.application)
      (fun h e => e.Attends (ConnKey.ofSegment syn) S (syn.seqNum + SYN_BYTE) h)
      (h.step ServerApp.application (.segment syn (.ok isn) t₀)) es) (hw : 0 < w)
    (hm : min w SyncedState.MAX_PAYLOAD_LEN = m)
    (hpeer : Runs.AtLeast (Host.step ServerApp.application)
      (fun h e => h.Obliges w (ConnKey.ofSegment syn) e) (S.length + (S.length + m - 1) / m + 3)
      (h.step ServerApp.application (.segment syn (.ok isn) t₀)) es) :
    ∃ front, front <+: es ∧ (front.foldl (Host.step ServerApp.application)
      (h.step ServerApp.application (.segment syn (.ok isn) t₀))).get (ConnKey.ofSegment syn)
        = none := by
  obtain ⟨hf, -⟩ := Host.follows_opened (A := ServerApp.application) hnone hsyn isn t₀
  generalize h.step ServerApp.application (.segment syn (.ok isn) t₀) = h₁ at hf hes hpeer ⊢
  have hopened : h₁.get (ConnKey.ofSegment syn)
      = some (ConnState.opened (SeqPoint.new isn.toNat) syn.seqNum t₀) := hf.conn.symm
  have hserves : h₁.Serves h.app h₁.connections.rtoConfig h₁.connections.maxRetries syn isn t₀ S :=
    ⟨⟨rfl, rfl⟩, [], _, .nil, hf⟩
  refine hpeer.reaches (I := fun h' => h'.Serves h.app h₁.connections.rtoConfig
      h₁.connections.maxRetries syn isn t₀ S ∧ h'.get (ConnKey.ofSegment syn) ≠ none)
    (μ := fun h' => ((h'.get (ConnKey.ofSegment syn)).map
      (ConnState.toServe S.length m (syn.seqNum + SYN_BYTE))).getD 0)
    (J := fun h' => h'.get (ConnKey.ofSegment syn) = none) hes
    ⟨hserves, by rw [hopened]; nofun⟩ (by rw [hopened]; exact Nat.le_refl _) ?_ ?_ ?_
  · rintro h' ⟨-, hlive⟩
    obtain ⟨conn, hconn⟩ := Option.ne_none_iff_exists'.mp hlive
    rw [hconn]
    exact conn.toServe_pos _ _ _
  · rintro h' e ⟨hserves', hlive⟩ he
    obtain ⟨conn, hconn⟩ := Option.ne_none_iff_exists'.mp hlive
    obtain ⟨hnext, hmeasure⟩ := hserves'.step hS he
    cases hconn' : (h'.step ServerApp.application e).get (ConnKey.ofSegment syn) with
    | none => exact .inl rfl
    | some conn' =>
      refine .inr ⟨⟨hnext, nofun⟩, ?_⟩
      rw [hconn]
      exact (hmeasure conn conn' hconn hconn').1 m
  · rintro h' e ⟨hserves', hlive⟩ he hobliges
    obtain ⟨conn, hconn⟩ := Option.ne_none_iff_exists'.mp hlive
    cases hconn' : (h'.step ServerApp.application e).get (ConnKey.ofSegment syn) with
    | none => exact .inl rfl
    | some conn' =>
      right
      rw [hconn]
      exact hm ▸ ((hserves'.step hS he).2 conn conn' hconn hconn').2 w hw hobliges

end

end Typenet
