import Typenet.Connection.Conversation
import Typenet.Table.Solicited

namespace Typenet

/-!
# Following one connection

Of a host the session of one key sees its own share of every event, and the rest as traffic
elsewhere.  What the host emits for the key is what the session emits, or a bare segment: the resets
that answer a key whose connection is gone.

* `Host.follow` — one event;
* `Host.follow_run` — a run, from the SYN that opens the connection;
* `Host.answers_stream` — what the host of a `ServerApp` emits for a key whose client sends a stream.
-/

variable {σ : Type} {A : Application σ}

/-- The session has what the host has under `key`, and the host's application. -/
structure Follows (key : ConnKey) (h : Host σ) (s : Session σ) : Prop where
  conn : s.conn = h.get key
  app : s.app.inner = h.app

/-- What an event can be to the session of `key`: its share of the event, or an event elsewhere that
    leaves the host with the application `app`. -/
inductive Shares (key : ConnKey) (app : σ) (e : HostEvent σ) : SessionEvent σ → Prop
  | on {ev : ConnEvent} : e.at key = some ev → Shares key app e (.on ev)
  | elsewhere : Shares key app e (.elsewhere app)

/-- A segment on the wire that the session has emitted, unless it carries nothing. -/
def EmittedBy (key : ConnKey) (s : Session σ) (seg : TcpSegment .Out) : Prop :=
  (∃ info ∈ s.sent ++ s.resent, seg = key.outgoing info) ∨ seg.Bare

/-- Only a closing sweep comes to a connection as one. -/
theorem HostEvent.at_close {e : HostEvent σ} {key : ConnKey} {now : Instant}
    (h : e.at key = some (.close now)) : ∃ consume, e = .close consume now := by
  cases e with
  | segment seg =>
    rw [HostEvent.at] at h
    split at h <;> cases h
  | retransmit | elsewhere => cases h
  | close consume now' =>
    obtain rfl := ConnEvent.close.inj (Option.some.inj h)
    exact ⟨consume, rfl⟩

namespace Session

variable {rto : RtoConfig} {maxRetries : UInt8} {s : Session σ}

/-- A session goes on emitting. -/
theorem emitted_step (A : Application σ) (rto : RtoConfig) (maxRetries : UInt8) (s : Session σ)
    (e : SessionEvent σ) {info : SendInfo} (h : info ∈ s.sent ++ s.resent) :
    info ∈ (s.step A rto maxRetries e).sent ++ (s.step A rto maxRetries e).resent := by
  cases e with
  | elsewhere app => exact h
  | on ev =>
    cases hconn : s.conn with
    | none =>
      simp only [step, hconn]
      exact h
    | some conn =>
      simp only [step, hconn]
      rcases List.mem_append.mp h with hi | hi
      · exact List.mem_append_left _ (List.mem_append_left _ hi)
      · exact List.mem_append_right _ (List.mem_append_left _ hi)

/-- The share of a live connection is the step of that connection. -/
theorem step_on {conn : ConnState} (hconn : s.conn = some conn) (ev : ConnEvent) :
    (s.step A rto maxRetries (.on ev)).conn = (conn.step A rto maxRetries s.app.inner ev).conn ∧
      (s.step A rto maxRetries (.on ev)).app.inner
        = (conn.step A rto maxRetries s.app.inner ev).app ∧
      (s.step A rto maxRetries (.on ev)).sent
        = s.sent ++ (conn.step A rto maxRetries s.app.inner ev).sent ∧
      (s.step A rto maxRetries (.on ev)).resent
        = s.resent ++ (conn.step A rto maxRetries s.app.inner ev).resent := by
  have hobs := (observes_recorded A).step rto maxRetries s.app conn ev
  rw [hobs]
  simp only [step, hconn]
  exact ⟨trivial, trivial, trivial, trivial⟩

end Session

/-! ### One event -/

/-- An event `e` of the host, and the share `e'` of it that leads the session from `s` to `s'`. -/
structure FollowsOn (A : Application σ) (key : ConnKey) (h : Host σ) (e : HostEvent σ)
    (s : Session σ) (e' : SessionEvent σ) (s' : Session σ) : Prop where
  follows : Follows key (h.step A e) s'
  shares : Shares key (h.step A e).app e e'
  /-- A segment for a live connection is handed to it. -/
  handed : ∀ seg now, e.at key = some (.segment seg now) → h.get key ≠ none →
    e' = .on (.segment seg now)
  /-- What the host emits for the key is the session's. -/
  emitted : ∀ seg ∈ segmentsOf key (h.emitted A e), EmittedBy key s' seg
  /-- What the session emits goes out, unless the consumer of a closing sweep stops it. -/
  goesOut : (∀ consume now, e ≠ .close consume now) → ∀ info ∈ s'.sent ++ s'.resent,
    info ∈ s.sent ++ s.resent ∨ key.outgoing info ∈ segmentsOf key (h.emitted A e)

namespace Host

variable {key : ConnKey} {h : Host σ} {s : Session σ}

/-- An event that leaves the key alone. -/
theorem follow_elsewhere (hf : Follows key h s) {e : HostEvent σ}
    (hget : (h.step A e).get key = h.get key)
    (hat : ∀ seg now, e.at key = some (.segment seg now) → h.get key = none)
    (hsent : ∀ seg ∈ segmentsOf key (h.emitted A e), seg.Bare) (rto : RtoConfig)
    (maxRetries : UInt8) : ∃ e', FollowsOn A key h e s e' (s.step A rto maxRetries e') :=
  ⟨.elsewhere (h.step A e).app, ⟨hf.conn.trans hget.symm, rfl⟩, .elsewhere,
    fun seg now hseg hlive => absurd (hat seg now hseg) hlive,
    fun seg hseg => .inr (hsent seg hseg), fun _ _ hinfo => .inl hinfo⟩

/-- An event whose share moves the connection. -/
theorem follow_on (hf : Follows key h s) {e : HostEvent σ} {conn : ConnState} {ev : ConnEvent}
    {rto : RtoConfig} {maxRetries : UInt8} (hconn : h.get key = some conn)
    (hev : e.at key = some ev)
    (hget : (h.step A e).get key = (conn.step A rto maxRetries h.app ev).conn)
    (happ : (h.step A e).app = (conn.step A rto maxRetries h.app ev).app)
    (hsent : List.Sublist (segmentsOf key (h.emitted A e))
      (((conn.step A rto maxRetries h.app ev).sent
        ++ (conn.step A rto maxRetries h.app ev).resent).map key.outgoing))
    (hall : (∀ consume now, e ≠ .close consume now) → segmentsOf key (h.emitted A e)
      = ((conn.step A rto maxRetries h.app ev).sent
        ++ (conn.step A rto maxRetries h.app ev).resent).map key.outgoing) :
    ∃ e', FollowsOn A key h e s e' (s.step A rto maxRetries e') := by
  obtain ⟨hconn', happ', hnew, hagain⟩ :=
    @Session.step_on σ A rto maxRetries s conn (hf.conn.trans hconn) ev
  rw [hf.app] at hconn' happ' hnew hagain
  refine ⟨.on ev, ⟨hconn'.trans hget.symm, happ'.trans happ.symm⟩, .on hev,
    fun seg now hseg _ => ?_, fun seg hseg => ?_, fun hopen info hinfo => ?_⟩
  · rw [Option.some.inj (hev.symm.trans hseg)]
  · obtain ⟨info, hinfo, rfl⟩ := List.mem_map.mp (hsent.subset hseg)
    refine .inl ⟨info, ?_, rfl⟩
    rw [hnew, hagain]
    rcases List.mem_append.mp hinfo with hi | hi
    · exact List.mem_append_left _ (List.mem_append_right _ hi)
    · exact List.mem_append_right _ (List.mem_append_right _ hi)
  · rw [hnew, hagain] at hinfo
    rw [hall hopen]
    rcases List.mem_append.mp hinfo with hi | hi
    · rcases List.mem_append.mp hi with hold | hi
      · exact .inl (List.mem_append_left _ hold)
      · exact .inr (List.mem_map_of_mem (List.mem_append_left _ hi))
    · rcases List.mem_append.mp hi with hold | hi
      · exact .inl (List.mem_append_right _ hold)
      · exact .inr (List.mem_map_of_mem (List.mem_append_right _ hi))

/-- **One event**, unless it opens a connection. -/
theorem follow (hf : Follows key h s) (e : HostEvent σ)
    (hopen : e.Opens key → h.get key ≠ none) : ∃ e', FollowsOn A key h e s e'
      (s.step A h.connections.rtoConfig h.connections.maxRetries e') := by
  cases hconn : h.get key with
  | none =>
    -- the key is closed, and all that is sent for it are resets
    have hno : ¬ e.Opens key := fun hopens => hopen hopens hconn
    obtain ⟨hclosed, hsent⟩ := Host.step_closed (A := A) hconn hno
    refine follow_elsewhere hf (hclosed.trans hconn.symm) (fun _ _ _ => hconn) ?_ _ _
    intro seg hseg
    rw [hsent] at hseg
    obtain ⟨incoming, -, hreset⟩ := List.mem_flatMap.mp hseg
    unfold resetFor at hreset
    split at hreset
    · rw [List.mem_singleton.mp hreset]
      exact ⟨rfl, .inr rfl⟩
    · cases hreset
  | some conn =>
    cases e with
    | segment seg randomU32 now =>
      by_cases hk : ConnKey.ofSegment seg = key
      · subst hk
        obtain ⟨-, happ, hkeys⟩ := Host.segment_known hconn A randomU32 now
        have hsent : segmentsOf (ConnKey.ofSegment seg) (h.emitted A (.segment seg randomU32 now))
            = ((conn.step A h.connections.rtoConfig h.connections.maxRetries h.app
              (.segment seg now)).sent ++ []).map (ConnKey.ofSegment seg).outgoing := by
          rw [segmentsOf_emitted, if_pos rfl, decideReply_known hconn, List.append_nil]
          rfl
        exact follow_on hf hconn (if_pos rfl) ((hkeys _).trans (if_pos rfl)) happ
          (hsent ▸ List.Sublist.refl _) fun _ => hsent
      · have hat : HostEvent.at key (.segment seg randomU32 now : HostEvent σ) = none := if_neg hk
        refine follow_elsewhere hf (h.segment_other A randomU32 now hk)
          (fun _ _ hseg => absurd (hseg.symm.trans hat) (Option.some_ne_none _)) ?_ _ _
        intro out hout
        rw [segmentsOf_emitted, if_neg hk] at hout
        cases hout
    | retransmit now late =>
      obtain ⟨-, hafter, hsent⟩ := h.connections.makeRetransmissions_get now late key
      have hget : h.connections.get key = some conn := hconn
      unfold TcpConnections.resentFor at hsent
      rw [hget, Option.bind_some] at hafter hsent
      have hall : segmentsOf key (h.emitted A (.retransmit now late))
          = (match conn.retransmit h.connections.rtoConfig h.connections.maxRetries now late with
            | none => []
            | some r => r.2).map key.outgoing := by
        refine Eq.trans hsent ?_
        cases conn.retransmit h.connections.rtoConfig h.connections.maxRetries now late <;> rfl
      cases hre : conn.retransmit h.connections.rtoConfig h.connections.maxRetries now late with
      | none =>
        rw [hre] at hafter hall
        have hstep : conn.step A h.connections.rtoConfig h.connections.maxRetries h.app
            (.retransmit now late) = ⟨h.app, none, [], []⟩ := by
          simp only [ConnState.step, hre]
        refine follow_on hf hconn rfl (by rw [hstep]; exact hafter) (by rw [hstep]; rfl) ?_ ?_
        · rw [hstep, hall]
          exact List.Sublist.refl _
        · rw [hstep]
          exact fun _ => hall
      | some r =>
        rw [hre] at hafter hall
        have hstep : conn.step A h.connections.rtoConfig h.connections.maxRetries h.app
            (.retransmit now late) = ⟨h.app, some r.1, [], r.2⟩ := by
          simp only [ConnState.step, hre]
        refine follow_on hf hconn rfl (by rw [hstep]; exact hafter) (by rw [hstep]; rfl) ?_ ?_
        · rw [hstep, hall]
          exact List.Sublist.refl _
        · rw [hstep]
          exact fun _ => hall
    | close consume now =>
      rcases h.close_cases A consume now key with
        ⟨hafter, hsent⟩ | ⟨conn', closed, info, hget, hclose, hafter, hsent⟩
      · refine follow_elsewhere hf hafter (fun _ _ hseg => by cases hseg) ?_ _ _
        intro out hout
        rw [hsent] at hout
        cases hout
      · obtain rfl := Option.some.inj (hconn.symm.trans hget)
        have hstep : conn.step A h.connections.rtoConfig h.connections.maxRetries h.app
            (.close now) = ⟨h.app, some closed, [info], []⟩ := by
          simp only [ConnState.step, hclose]
        refine follow_on hf hconn rfl (by rw [hstep]; exact hafter) (by rw [hstep]; rfl) ?_
          fun hno => absurd rfl (hno consume now)
        rw [hstep]
        exact hsent
    | elsewhere app =>
      refine follow_elsewhere hf rfl (fun _ _ hseg => by cases hseg) ?_ _ _
      intro out hout
      cases hout

end Host

/-! ### Runs -/

/-- The events that open no other connection under `key`. -/
def Keeps (key : ConnKey) (h : Host σ) (e : HostEvent σ) : Prop :=
  e.Opens key → h.get key ≠ none

/-- A SYN for a key without a connection opens the session of that connection. -/
theorem Host.follows_opened {h : Host σ} {syn : TcpSegment .In}
    (hnone : h.get (ConnKey.ofSegment syn) = none) (hsyn : syn.flags = .Syn) (isn : UInt32)
    (t₀ : Instant) :
    Follows (ConnKey.ofSegment syn) (h.step A (.segment syn (.ok isn) t₀))
        (Session.opened h.app (SeqPoint.new isn.toNat) syn.seqNum t₀) ∧
      segmentsOf (ConnKey.ofSegment syn) (h.emitted A (.segment syn (.ok isn) t₀))
        = [(ConnKey.ofSegment syn).outgoing (synAck (SeqPoint.new isn.toNat) syn.seqNum)] := by
  have hget : h.connections.get (ConnKey.ofSegment syn) = none := hnone
  have hunknown : h.connections.handleUnknownConn syn (ConnKey.ofSegment syn) (.ok isn) t₀
      = (.ok (some (synAck (SeqPoint.new isn.toNat) syn.seqNum)),
          h.connections.set (ConnKey.ofSegment syn)
            (ConnState.opened (SeqPoint.new isn.toNat) syn.seqNum t₀)) := by
    simp only [TcpConnections.handleUnknownConn, hsyn]
    rfl
  have hdecide : h.connections.decideReply A h.app syn (.ok isn) t₀
      = (.ok (some (synAck (SeqPoint.new isn.toNat) syn.seqNum)), h.app,
          h.connections.set (ConnKey.ofSegment syn)
            (ConnState.opened (SeqPoint.new isn.toNat) syn.seqNum t₀)) := by
    simp only [TcpConnections.decideReply, hget, hunknown]
  refine ⟨⟨?_, ?_⟩, ?_⟩
  · show some (ConnState.opened (SeqPoint.new isn.toNat) syn.seqNum t₀)
      = (h.connections.createReply A h.app syn (.ok isn) t₀).2.2.get _
    rw [TcpConnections.createReply, hdecide]
    exact (TcpConnections.get_set_self _ _ _).symm
  · show h.app = (h.connections.createReply A h.app syn (.ok isn) t₀).2.1
    rw [TcpConnections.createReply, hdecide]
  · rw [Host.segmentsOf_emitted, if_pos rfl, hdecide]
    rfl

/-- **A run of the host is a run of the session** that the host follows, and what it emits for the
    key is what the session emits. -/
theorem Host.follow_run {key : ConnKey} {h : Host σ} {s : Session σ} (hf : Follows key h s)
    {P : Session σ → SessionEvent σ → Prop} {ok : Host σ → HostEvent σ → Prop}
    {es : List (HostEvent σ)} (hes : Runs.Admits (Host.step A) ok h es)
    (hkeeps : ∀ h e, ok h e → Keeps key h e)
    (hok : ∀ h s e e', Follows key h s → ok h e → Shares key (h.step A e).app e e' → P s e') :
    ∃ es' s', Runs.Run (Session.step A h.connections.rtoConfig h.connections.maxRetries) P s es' s' ∧
      Follows key (es.foldl (Host.step A) h) s' ∧
      (∀ e' ∈ es', ∃ e ∈ es, ∃ app, Shares key app e e') ∧
      (∀ info ∈ s.sent ++ s.resent, info ∈ s'.sent ++ s'.resent) ∧
      (∀ seg ∈ segmentsOf key (Mealy.outputs (Host.act A) es h), EmittedBy key s' seg) ∧
      ((∀ consume now, .close consume now ∉ es) → ∀ info ∈ s'.sent ++ s'.resent,
        info ∈ s.sent ++ s.resent ∨
          key.outgoing info ∈ segmentsOf key (Mealy.outputs (Host.act A) es h)) := by
  induction es generalizing h s with
  | nil => exact ⟨[], s, .nil, hf, nofun, fun _ hi => hi, nofun, fun _ _ hi => .inl hi⟩
  | cons e es ih =>
    obtain ⟨he, hes⟩ := hes
    obtain ⟨e', hon⟩ := h.follow (A := A) hf e (hkeeps h e he)
    obtain ⟨hrto, hretries⟩ := (h.step_get (A := A) e key).1
    obtain ⟨es', s', hrun, hlast, hshared, hgrows, hsegs, hout⟩ := ih hon.follows hes
    rw [hrto, hretries] at hrun
    rw [Mealy.outputs_cons, segmentsOf_append]
    refine ⟨e' :: es', s', .cons (hok h s e e' hf he hon.shares) hrun, hlast, ?_, ?_, ?_, ?_⟩
    · intro x hx
      rcases List.mem_cons.mp hx with rfl | hx
      · exact ⟨e, List.mem_cons_self, _, hon.shares⟩
      · obtain ⟨y, hy, hxy⟩ := hshared x hx
        exact ⟨y, List.mem_cons_of_mem _ hy, hxy⟩
    · exact fun info hi => hgrows info (s.emitted_step A _ _ e' hi)
    · intro seg hseg
      rcases List.mem_append.mp hseg with hi | hi
      · exact (hon.emitted seg hi).imp_left
          fun ⟨info, hinfo, hout⟩ => ⟨info, hgrows info hinfo, hout⟩
      · exact hsegs seg hi
    · intro hopen info hinfo
      rcases hout (fun consume now hmem => hopen consume now (List.mem_cons_of_mem _ hmem)) info
        hinfo with hold | hnew
      · have hhere : ∀ consume now, e ≠ .close consume now := by
          rintro consume now rfl
          exact hopen consume now List.mem_cons_self
        exact (hon.goesOut hhere info hold).imp_right (List.mem_append_left _)
      · exact .inr (List.mem_append_right _ hnew)

/-! ### Answers to a stream -/

/-- A segment on the wire that sits where its sequence number says: see `Placed`. -/
structure TcpSegment.OnStream (base : SeqPoint .Out) (stream : List UInt8) (seg : TcpSegment .Out) :
    Prop where
  data : ∀ p, seg.payload = some p → ∃ n, seg.seqNum = base + n ∧ p.data <+: stream.drop n
  fin : seg.flags = .FinAck →
    seg.seqNum + TcpPayload.lenOrDefault seg.payload = base + stream.length

/-- The client of `key` sends the stream `S` from `base` on and opens no second connection, and
    other traffic leaves the application as it is. -/
structure HostEvent.FromClient (key : ConnKey) (S : List UInt8) (base : SeqPoint .In)
    (h : Host ServerApp) (e : HostEvent ServerApp) : Prop where
  carries : ∀ seg, e.incoming = some seg → ConnKey.ofSegment seg = key → Carries S base seg
  keeps : Keeps key h e
  app : ∀ other, e = .elsewhere other → other = h.app

/-- No event of a `ServerApp` changes the application but one elsewhere. -/
theorem Host.step_app (h : Host ServerApp) {e : HostEvent ServerApp}
    (he : ∀ other, e = .elsewhere other → other = h.app) :
    (h.step ServerApp.application e).app = h.app := by
  cases e with
  | segment seg randomU32 now =>
    cases hconn : h.get (ConnKey.ofSegment seg) with
    | none => exact (Host.segment_unknown hconn ServerApp.application randomU32 now).1
    | some conn =>
      rw [(Host.segment_known hconn ServerApp.application randomU32 now).2.1]
      show (SendInfo.handleKnownConn ServerApp.application h.app seg conn now).app = h.app
      rcases SendInfo.handleKnownConn_moves ServerApp.application h.app seg conn now with
        ⟨-, -, -, happ⟩ | ⟨-, -, slices, extra, hfeed, -⟩
      · exact happ
      · rw [ServerApp.feed_eq] at hfeed
        exact (Prod.mk.inj hfeed).1.symm
  | retransmit | close => rfl
  | elsewhere other => exact he other rfl

/-- The share of an event from the client is one of its stream. -/
theorem HostEvent.FromClient.talks {key : ConnKey} {S : List UInt8} {base : SeqPoint .In}
    {h : Host ServerApp} {s : Session ServerApp} {e : HostEvent ServerApp}
    {e' : SessionEvent ServerApp} (hf : Follows key h s) (he : e.FromClient key S base h)
    (hshares : Shares key (h.step ServerApp.application e).app e e') : Talks S base s e' := by
  cases hshares with
  | @on ev hev =>
    refine ⟨?_, nofun⟩
    cases ev with
    | segment seg now =>
      obtain ⟨randomU32, rfl, hkey⟩ := HostEvent.at_segment hev
      exact he.carries seg rfl hkey
    | retransmit | close => trivial
  | elsewhere =>
    refine ⟨trivial, fun other hother => ?_⟩
    rw [← SessionEvent.elsewhere.inj hother, h.step_app he.app]
    exact hf.app.symm

/-- The client has read `bytes` off segments: whatever it has read at a position is what some
    segment carries for the sequence number of that position.  Segments may come in any order,
    several times, and overlap. -/
def ReadOff (base : SeqPoint .Out) (segs : List (TcpSegment .Out)) (bytes : List UInt8) : Prop :=
  ∀ (k : Nat) (b : UInt8), bytes[k]? = some b → ∃ seg ∈ segs, ∃ (p : TcpPayload) (i : Nat),
    seg.payload = some p ∧ p.data[i]? = some b ∧ seg.seqNum + i = base + k

/-- The client has been told that the stream ends after `n` bytes. -/
def EndsAfter (base : SeqPoint .Out) (segs : List (TcpSegment .Out)) (n : Nat) : Prop :=
  ∃ seg ∈ segs, seg.flags = .FinAck ∧
    seg.seqNum + TcpPayload.lenOrDefault seg.payload = base + n

variable {base : SeqPoint .Out} {stream bytes : List UInt8} {segs segs' : List (TcpSegment .Out)}

/-- More segments let as much be read. -/
theorem ReadOff.mono (h : ReadOff base segs bytes) (hsegs : segs ⊆ segs') :
    ReadOff base segs' bytes := by
  intro k b hb
  obtain ⟨seg, hseg, hcarries⟩ := h k b hb
  exact ⟨seg, hsegs hseg, hcarries⟩

theorem EndsAfter.mono {n : Nat} (h : EndsAfter base segs n) (hsegs : segs ⊆ segs') :
    EndsAfter base segs' n := by
  obtain ⟨seg, hseg, hends⟩ := h
  exact ⟨seg, hsegs hseg, hends⟩

/-- Steps from one point that are shorter than the circle lead to the same point only if they are
    equal. -/
theorem SeqPoint.add_inj_of_lt {D : Direction} {a : SeqPoint D} {m n : Nat} (hm : m < 2 ^ 32)
    (hn : n < 2 ^ 32) (h : a + m = a + n) : m = n := by
  have hdist := congrArg a.dist h
  rwa [SeqPoint.dist_self_add, SeqPoint.dist_self_add, Nat.mod_eq_of_lt hm,
    Nat.mod_eq_of_lt hn] at hdist

/-- **What is read off a stream's segments is a front part of the stream.** -/
theorem ReadOff.isPrefix (hstream : stream.length < 2 ^ 32)
    (hsegs : ∀ seg ∈ segs, seg.OnStream base stream) (h : ReadOff base segs bytes) :
    bytes <+: stream := by
  apply Stream.prefix_of_agree
  intro k b hk hb
  obtain ⟨seg, hseg, p, i, hp, hi, hpos⟩ := h k b hb
  obtain ⟨n, hn, hpiece⟩ := (hsegs seg hseg).data p hp
  have hlt : n + i < stream.length := by
    have hle := hpiece.length_le
    obtain ⟨hi', -⟩ := List.getElem?_eq_some_iff.mp hi
    rw [List.length_drop] at hle
    omega
  have hat : n + i = k := by
    rw [hn, SeqPoint.add_assoc] at hpos
    exact SeqPoint.add_inj_of_lt (by omega) (by omega) hpos
  have hread : stream[n + i]? = some b := by
    rw [← List.getElem?_drop]
    obtain ⟨rest, hrest⟩ := hpiece
    obtain ⟨hi', -⟩ := List.getElem?_eq_some_iff.mp hi
    rw [← hrest, List.getElem?_append_left hi', hi]
  rw [← hat]
  exact hread

end Typenet
