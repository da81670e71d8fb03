import Typenet.Connection.Recording

namespace Typenet

/-!
# Runs of the connection table

A `Host` is an application with its connection table.  Its events are an incoming segment,
the two sweeps, and traffic that only concerns the application.

* `Host.step_get` — what one event does to the entry of one key: nothing, the connection's
  share of the event (`ConnState.step`), or a connection opened by a SYN;
* `Host.conn_invariant` — the invariant rule this gives for every connection of a table;
* `Host.session_of_run` — every connection of a reachable table is the connection of a
  session, so what holds of sessions holds of tables.
-/

/-- An application together with its TCP connections. -/
structure Host (σ : Type) where
  app : σ
  connections : TcpConnections

/-- What can happen to a host. -/
inductive HostEvent (σ : Type)
  | segment (seg : TcpSegment .In) (randomU32 : TraceableResult UInt32) (now : Instant)
  | retransmit (now late : Instant)
  /-- The closing sweep, with the consumer its items are handed to. -/
  | close (consume : TcpSegment .Out → TraceableResult Unit) (now : Instant)
  /-- Traffic outside TCP changes the application's state. -/
  | elsewhere (app : σ)

variable {σ : Type}

/-- The share of an event that concerns the connection of `key`. -/
def HostEvent.at (key : ConnKey) : HostEvent σ → Option ConnEvent
  | .segment seg _ now => if ConnKey.ofSegment seg = key then some (.segment seg now) else none
  | .retransmit now late => some (.retransmit now late)
  | .close _ now => some (.close now)
  | .elsewhere _ => none

/-- Only a segment of the connection comes to it as a segment. -/
theorem HostEvent.at_segment {e : HostEvent σ} {key : ConnKey} {seg : TcpSegment .In}
    {now : Instant} (h : e.at key = some (.segment seg now)) :
    ∃ randomU32, e = .segment seg randomU32 now ∧ ConnKey.ofSegment seg = key := by
  cases e with
  | segment seg' randomU32 now' =>
    rw [HostEvent.at] at h
    split at h
    case isTrue hkey =>
      obtain ⟨rfl, rfl⟩ := ConnEvent.segment.inj (Option.some.inj h)
      exact ⟨randomU32, rfl, hkey⟩
    case isFalse => cases h
  | retransmit | close | elsewhere => cases h

namespace Host

/-- A host with no connections. -/
def new (app : σ) (initialRto : Duration) (maxRetries : UInt8) : Host σ :=
  ⟨app, TcpConnections.new initialRto maxRetries⟩

/-- The connection stored under `key`. -/
def get (h : Host σ) (key : ConnKey) : Option ConnState := h.connections.get key

def step (A : Application σ) (h : Host σ) : HostEvent σ → Host σ
  | .segment seg randomU32 now =>
    let out := h.connections.createReply A h.app seg randomU32 now
    ⟨out.2.1, out.2.2⟩
  | .retransmit now late => { h with connections := (h.connections.makeRetransmissions now late).1 }
  | .close consume now => { h with connections := (h.connections.closeEstablished consume now).1 }
  | .elsewhere app => { h with app := app }

end Host

/-- A stored connection is an entry of the table. -/
theorem TcpConnections.mem_entries_of_get {self : TcpConnections} {key : ConnKey}
    {conn : ConnState} (h : self.get key = some conn) :
    (⟨key, conn⟩ : Sigma fun _ : ConnKey => ConnState) ∈ self.table.entries :=
  AList.mem_lookup_iff.mp h

/-! ### The sweeps, one key at a time -/

/-- A connection that was just closed is passed by. -/
theorem ConnState.close_close {conn conn' : ConnState} {now : Instant} {info : SendInfo}
    (h : conn.close now = some (conn', info)) : conn'.close now = none := by
  by_cases hname : conn.name = some .Established
  · obtain ⟨est, hst⟩ := ConnState.name_eq_established hname
    simp only [ConnState.close, hst, Option.some.injEq, Prod.mk.injEq] at h
    obtain ⟨rfl, -⟩ := h
    rfl
  · rw [ConnState.close_eq_none now hname] at h; cases h

/-- A closed connection has its FIN at the end of its queue. -/
theorem ConnState.close_pending {conn conn' : ConnState} {now : Instant} {info : SendInfo}
    (h : conn.close now = some (conn', info)) :
    conn'.pending = conn.pending ++ [PendingSegment.new info now] := by
  by_cases hname : conn.name = some .Established
  · obtain ⟨est, hst⟩ := ConnState.name_eq_established hname
    simp only [ConnState.close, hst, Option.some.injEq, Prod.mk.injEq] at h
    obtain ⟨rfl, rfl⟩ := h
    rfl
  · rw [ConnState.close_eq_none now hname] at h; cases h

namespace TcpConnections

/-- The two parameters of a table. -/
def SameConfig (a b : TcpConnections) : Prop :=
  b.rtoConfig = a.rtoConfig ∧ b.maxRetries = a.maxRetries

/-- The retransmission sweep treats each listed key once and leaves the others alone. -/
theorem retransmitKeys_get (now late : Instant) (keys : List ConnKey) (hnd : keys.Nodup)
    (self : TcpConnections) :
    SameConfig self (retransmitKeys now late keys self).1 ∧
    ∀ key, (retransmitKeys now late keys self).1.get key
      = if key ∈ keys then (self.get key).bind fun conn =>
          (conn.retransmit self.rtoConfig self.maxRetries now late).map (·.1)
        else self.get key := by
  induction keys generalizing self with
  | nil => exact ⟨⟨rfl, rfl⟩, fun key => by simp [retransmitKeys]⟩
  | cons k keys ih =>
    obtain ⟨hk, hnd⟩ := List.nodup_cons.mp hnd
    -- the sweep goes on from a table that differs at `k` only
    have hrest : ∀ t : TcpConnections, SameConfig self t →
        (∀ key, key ≠ k → t.get key = self.get key) →
        t.get k = ((self.get k).bind fun conn =>
          (conn.retransmit self.rtoConfig self.maxRetries now late).map (·.1)) →
        SameConfig self (retransmitKeys now late keys t).1 ∧
        ∀ key, (retransmitKeys now late keys t).1.get key
          = if key ∈ k :: keys then (self.get key).bind fun conn =>
              (conn.retransmit self.rtoConfig self.maxRetries now late).map (·.1)
            else self.get key := by
      intro t hcfg hne hself
      obtain ⟨hcfg', hget⟩ := ih hnd t
      refine ⟨⟨hcfg'.1.trans hcfg.1, hcfg'.2.trans hcfg.2⟩, fun key => ?_⟩
      rw [hget, hcfg.1, hcfg.2]
      by_cases heq : key = k
      · subst heq
        rw [if_neg hk, if_pos List.mem_cons_self, hself]
      · rw [hne key heq]
        simp only [List.mem_cons, heq, false_or]
    unfold retransmitKeys
    cases hget : self.get k with
    | none => exact hrest self ⟨rfl, rfl⟩ (fun _ _ => rfl) (by rw [hget]; rfl)
    | some conn =>
      simp only
      cases hre : conn.retransmit self.rtoConfig self.maxRetries now late with
      | none =>
        exact hrest (self.remove k) ⟨rfl, rfl⟩ (fun key h => self.get_remove_ne h)
          (by rw [hget, get_remove_self, Option.bind_some, hre]; rfl)
      | some r =>
        exact hrest (self.set k r.1) ⟨rfl, rfl⟩ (fun key h => self.get_set_ne r.1 h)
          (by rw [hget, get_set_self, Option.bind_some, hre]; rfl)

/-- The keys of the retransmission sweep are distinct. -/
theorem dueKeys_nodup (self : TcpConnections) (now late : Instant) :
    (self.dueKeys now late).Nodup := by
  have hsub : (self.dueKeys now late).Sublist self.table.keys := by
    unfold dueKeys AList.keys List.keys
    generalize self.table.entries = entries
    induction entries with
    | nil => exact List.Sublist.refl _
    | cons e es ih =>
      rw [List.filterMap_cons, List.map_cons]
      split
      · rename_i hno; split at hno
        · cases hno
        · exact ih.cons _
      · rename_i hsome; split at hsome
        · obtain rfl := Option.some.inj hsome
          exact ih.cons_cons _
        · cases hsome
  exact hsub.nodup self.table.keys_nodup

/-- The closing sweep leaves an entry alone or closes its connection. -/
theorem closeKeys_get {β : Type} (consume : TcpSegment .Out → TraceableResult β)
    (now : Instant) (keys : List ConnKey) (self : TcpConnections) :
    SameConfig self (closeKeys consume now keys self).1 ∧
    ∀ key, (closeKeys consume now keys self).1.get key = self.get key ∨
      ∃ conn conn' info, self.get key = some conn ∧ conn.close now = some (conn', info) ∧
        (closeKeys consume now keys self).1.get key = some conn' := by
  induction keys generalizing self with
  | nil => exact ⟨⟨rfl, rfl⟩, fun _ => .inl rfl⟩
  | cons k keys ih =>
    unfold closeKeys
    cases hclose : (self.get k).bind fun conn => conn.close now with
    | none => exact ih self
    | some r =>
      obtain ⟨conn', info⟩ := r
      obtain ⟨conn, hget, hcl⟩ := Option.bind_eq_some_iff.mp hclose
      -- whether the sweep stops here or goes on, the entry of `k` stays closed
      have hset : ∀ t : TcpConnections,
          (∀ key, t.get key = (self.set k conn').get key ∨
            ∃ c c' i, (self.set k conn').get key = some c ∧ c.close now = some (c', i) ∧
              t.get key = some c') →
          ∀ key, t.get key = self.get key ∨
            ∃ c c' i, self.get key = some c ∧ c.close now = some (c', i) ∧
              t.get key = some c' := by
        intro t ht key
        by_cases heq : key = k
        · subst heq
          rcases ht key with h | ⟨c, c', i, h, hc, -⟩
          · rw [get_set_self] at h
            exact .inr ⟨conn, conn', info, hget, hcl, h⟩
          · rw [get_set_self, Option.some.injEq] at h
            subst h
            rw [ConnState.close_close hcl] at hc; cases hc
        · rw [← self.get_set_ne conn' heq]; exact ht key
      simp only
      cases consume (k.outgoing info) with
      | error e => exact ⟨⟨rfl, rfl⟩, hset _ fun _ => .inl rfl⟩
      | ok item =>
        obtain ⟨hcfg, hget'⟩ := ih (self.set k conn')
        exact ⟨hcfg, hset _ hget'⟩

/-- What is done with the items of the closing sweep matters to the table only by where it
    fails. -/
theorem closeKeys_table {β : Type} (consume : TcpSegment .Out → TraceableResult β)
    (now : Instant) (keys : List ConnKey) (self : TcpConnections) :
    (closeKeys (fun seg => (consume seg).map fun _ => ()) now keys self).1
      = (closeKeys consume now keys self).1 := by
  induction keys generalizing self with
  | nil => rfl
  | cons key keys ih =>
    unfold closeKeys
    cases (self.get key).bind fun conn => conn.close now with
    | none => exact ih self
    | some r =>
      simp only
      cases consume (key.outgoing r.2) with
      | error e => rfl
      | ok item => exact ih (self.set key r.1)

end TcpConnections

/-! ### One event, one key -/

variable {A : Application σ}

/-- What one event may do to the entry of `key`, when a connection is there afterwards. -/
inductive EntryMove (A : Application σ) (h : Host σ) (key : ConnKey) (e : HostEvent σ)
    (conn' : ConnState) : Prop
  /-- The entry is left alone. -/
  | unchanged : h.get key = some conn' → EntryMove A h key e conn'
  /-- The connection takes its share of the event. -/
  | stepped {conn : ConnState} {ev : ConnEvent} : h.get key = some conn → e.at key = some ev →
      (conn.step A h.connections.rtoConfig h.connections.maxRetries h.app ev).conn
        = some conn' →
      (h.step A e).app
        = (conn.step A h.connections.rtoConfig h.connections.maxRetries h.app ev).app →
      EntryMove A h key e conn'
  /-- A SYN opens the connection. -/
  | opened {iss : SeqPoint .Out} {irs : SeqPoint .In} {now : Instant} : h.get key = none →
      conn' = ConnState.opened iss irs now → EntryMove A h key e conn'

/-- A segment of no known connection leaves the table alone or opens a connection. -/
theorem TcpConnections.handleUnknownConn_table (self : TcpConnections) (seg : TcpSegment .In)
    (key : ConnKey) (randomU32 : TraceableResult UInt32) (now : Instant) :
    (self.handleUnknownConn seg key randomU32 now).2 = self ∨
    ∃ iss, (self.handleUnknownConn seg key randomU32 now).2
      = self.set key (ConnState.opened iss seg.seqNum now) := by
  unfold handleUnknownConn
  split
  case h_1 =>
    cases randomU32 with
    | error e => exact .inl rfl
    | ok isn => exact .inr ⟨SeqPoint.new isn.toNat, rfl⟩
  all_goals exact .inl rfl

/-- **A segment of a known connection** is the connection's step, and leaves every other entry
    alone. -/
theorem Host.segment_known {h : Host σ} {seg : TcpSegment .In} {conn : ConnState}
    (hconn : h.get (ConnKey.ofSegment seg) = some conn) (A : Application σ)
    (randomU32 : TraceableResult UInt32) (now : Instant) :
    TcpConnections.SameConfig h.connections (h.step A (.segment seg randomU32 now)).connections ∧
    (h.step A (.segment seg randomU32 now)).app = (conn.step A h.connections.rtoConfig
      h.connections.maxRetries h.app (.segment seg now)).app ∧
    ∀ key, (h.step A (.segment seg randomU32 now)).get key
      = if key = ConnKey.ofSegment seg then (conn.step A h.connections.rtoConfig
          h.connections.maxRetries h.app (.segment seg now)).conn
        else h.get key := by
  have hget : h.connections.get (ConnKey.ofSegment seg) = some conn := hconn
  have hset : ∀ (key : ConnKey) (c : ConnState),
      (h.connections.set (ConnKey.ofSegment seg) c).get key
        = if key = ConnKey.ofSegment seg then some c else h.get key := by
    intro key c
    by_cases hk : key = ConnKey.ofSegment seg
    · rw [if_pos hk, hk, TcpConnections.get_set_self]
    · rw [if_neg hk, TcpConnections.get_set_ne _ _ hk]; rfl
  simp only [Host.step, Host.get, TcpConnections.createReply, TcpConnections.decideReply, hget,
    ConnState.step]
  cases hres : (SendInfo.handleKnownConn A h.app seg conn now).result with
  | error e => exact ⟨⟨rfl, rfl⟩, rfl, fun key => hset key _⟩
  | ok v =>
    obtain ⟨reply, removeConn⟩ := v
    cases removeConn with
    | false => exact ⟨⟨rfl, rfl⟩, rfl, fun key => hset key _⟩
    | true =>
      refine ⟨⟨rfl, rfl⟩, rfl, fun key => ?_⟩
      by_cases hk : key = ConnKey.ofSegment seg
      · rw [if_pos hk, hk]
        exact TcpConnections.get_remove_self _ _
      · rw [if_neg hk]
        exact (TcpConnections.get_remove_ne _ hk).trans ((hset key _).trans (if_neg hk))

/-- A segment of no known connection leaves every entry alone but its own, which a SYN opens. -/
theorem Host.segment_unknown {h : Host σ} {seg : TcpSegment .In}
    (hnone : h.get (ConnKey.ofSegment seg) = none) (A : Application σ)
    (randomU32 : TraceableResult UInt32) (now : Instant) :
    (h.step A (.segment seg randomU32 now)).app = h.app ∧
    ((h.step A (.segment seg randomU32 now)).connections = h.connections ∨
      ∃ iss, (h.step A (.segment seg randomU32 now)).connections
        = h.connections.set (ConnKey.ofSegment seg) (ConnState.opened iss seg.seqNum now)) := by
  have hget : h.connections.get (ConnKey.ofSegment seg) = none := hnone
  simp only [Host.step, TcpConnections.createReply, TcpConnections.decideReply, hget]
  exact ⟨trivial, h.connections.handleUnknownConn_table seg (ConnKey.ofSegment seg) randomU32 now⟩

/-- A segment leaves the connections alone to which it does not belong. -/
theorem Host.segment_other (h : Host σ) (A : Application σ) {seg : TcpSegment .In}
    (randomU32 : TraceableResult UInt32) (now : Instant) {key : ConnKey}
    (hk : ConnKey.ofSegment seg ≠ key) :
    (h.step A (.segment seg randomU32 now)).get key = h.get key := by
  cases hown : h.get (ConnKey.ofSegment seg) with
  | some c =>
    obtain ⟨-, -, hkeys⟩ := Host.segment_known hown A randomU32 now
    rw [hkeys, if_neg (Ne.symm hk)]
  | none =>
    obtain ⟨-, heq | ⟨iss, heq⟩⟩ := h.segment_unknown hown A randomU32 now
    · unfold Host.get
      rw [heq]
    · unfold Host.get
      rw [heq, TcpConnections.get_set_ne _ _ (Ne.symm hk)]

/-- **A segment and one key.** -/
theorem Host.segment_get (h : Host σ) (seg : TcpSegment .In)
    (randomU32 : TraceableResult UInt32) (now : Instant) (key : ConnKey) :
    TcpConnections.SameConfig h.connections (h.step A (.segment seg randomU32 now)).connections ∧
    ∀ conn', (h.step A (.segment seg randomU32 now)).get key = some conn' →
      EntryMove A h key (.segment seg randomU32 now) conn' := by
  cases hget : h.get (ConnKey.ofSegment seg) with
  | none =>
    obtain ⟨-, heq | ⟨iss, heq⟩⟩ := h.segment_unknown hget A randomU32 now
    · refine ⟨by rw [heq]; exact ⟨rfl, rfl⟩, fun conn' h' => .unchanged ?_⟩
      unfold Host.get at h' ⊢
      rw [← heq]; exact h'
    · refine ⟨by rw [heq]; exact ⟨rfl, rfl⟩, fun conn' h' => ?_⟩
      unfold Host.get at h'
      rw [heq] at h'
      by_cases hk : key = ConnKey.ofSegment seg
      · subst hk
        exact .opened hget (Option.some.inj (h'.symm.trans (TcpConnections.get_set_self _ _ _)))
      · exact .unchanged ((TcpConnections.get_set_ne _ _ hk).symm.trans h')
  | some conn =>
    obtain ⟨hcfg, happ, hkeys⟩ := Host.segment_known hget A randomU32 now
    refine ⟨hcfg, fun conn' h' => ?_⟩
    rw [hkeys] at h'
    by_cases hk : key = ConnKey.ofSegment seg
    · rw [if_pos hk] at h'
      subst hk
      exact .stepped hget (if_pos rfl) h' happ
    · rw [if_neg hk] at h'
      exact .unchanged h'

/-- **One event and one key**, for every event; the parameters of the table never change. -/
theorem Host.step_get (h : Host σ) (e : HostEvent σ) (key : ConnKey) :
    TcpConnections.SameConfig h.connections (h.step A e).connections ∧
    ∀ conn', (h.step A e).get key = some conn' → EntryMove A h key e conn' := by
  cases e with
  | segment seg randomU32 now => exact h.segment_get seg randomU32 now key
  | retransmit now late =>
    obtain ⟨hcfg, hget⟩ := TcpConnections.retransmitKeys_get now late
      (h.connections.dueKeys now late) (h.connections.dueKeys_nodup now late) h.connections
    refine ⟨hcfg, fun conn' h' => ?_⟩
    have h' := (hget key).symm.trans h'
    split at h'
    · obtain ⟨conn, hconn, hmap⟩ := Option.bind_eq_some_iff.mp h'
      obtain ⟨⟨c, resent⟩, hre, rfl⟩ := Option.map_eq_some_iff.mp hmap
      refine .stepped hconn rfl ?_ ?_
      · simp only [ConnState.step, hre]
      · simp only [ConnState.step, hre]; rfl
    · exact .unchanged h'
  | close consume now =>
    obtain ⟨hcfg, hget⟩ :=
      TcpConnections.closeKeys_get consume now h.connections.table.keys h.connections
    refine ⟨hcfg, fun conn' h' => ?_⟩
    rcases hget key with hsame | ⟨conn, c, info, hconn, hcl, hc⟩
    · exact .unchanged (hsame.symm.trans h')
    · obtain rfl := Option.some.inj (hc.symm.trans h')
      refine .stepped hconn rfl ?_ ?_
      · simp only [ConnState.step, hcl]
      · simp only [ConnState.step, hcl]; rfl
  | elsewhere app => exact ⟨⟨rfl, rfl⟩, fun conn' h' => .unchanged h'⟩

/-- An entry disappears only when its connection's share of the event removes it. -/
theorem Host.step_gone (h : Host σ) (e : HostEvent σ) {key : ConnKey} {conn : ConnState}
    (hconn : h.get key = some conn) (hgone : (h.step A e).get key = none) :
    ∃ ev, e.at key = some ev ∧ (conn.step A h.connections.rtoConfig h.connections.maxRetries
      h.app ev).conn = none := by
  cases e with
  | segment seg randomU32 now =>
    by_cases hk : key = ConnKey.ofSegment seg
    · subst hk
      obtain ⟨-, -, hkeys⟩ := Host.segment_known hconn A randomU32 now
      rw [hkeys, if_pos rfl] at hgone
      exact ⟨_, if_pos rfl, hgone⟩
    · rw [h.segment_other A randomU32 now (Ne.symm hk), hconn] at hgone
      cases hgone
  | retransmit now late =>
    refine ⟨_, rfl, ?_⟩
    obtain ⟨-, hget⟩ := TcpConnections.retransmitKeys_get now late
      (h.connections.dueKeys now late) (h.connections.dueKeys_nodup now late) h.connections
    have hnone := (hget key).symm.trans hgone
    have hconn' : h.connections.get key = some conn := hconn
    rw [hconn'] at hnone
    split at hnone
    · rw [Option.bind_some, Option.map_eq_none_iff] at hnone
      simp only [ConnState.step, hnone]
    · cases hnone
  | close consume now =>
    exfalso
    obtain ⟨-, hget⟩ :=
      TcpConnections.closeKeys_get consume now h.connections.table.keys h.connections
    rcases hget key with hsame | ⟨c, c', info, -, -, hsome⟩
    · cases hgone.symm.trans (hsame.trans hconn)
    · cases hgone.symm.trans hsome
  | elsewhere app => cases hgone.symm.trans hconn

/-! ### Invariants of every connection -/

/-- A condition on the connection's share of events, asked of every connection in the
    table. -/
def Host.Guard (G : ConnState → ConnEvent → Prop) (h : Host σ) (e : HostEvent σ) : Prop :=
  ∀ key conn ev, h.get key = some conn → e.at key = some ev → G conn ev

/-- A segment meets a guard that every entry of the table meets. -/
theorem Host.guard_segment {G : ConnState → ConnEvent → Prop} {h : Host σ}
    {seg : TcpSegment .In} {randomU32 : TraceableResult UInt32} {now : Instant}
    (hall : ∀ e ∈ h.connections.table.entries, G e.2 (.segment seg now)) :
    Host.Guard G h (.segment seg randomU32 now) := by
  intro key conn ev hget hev
  rw [HostEvent.at] at hev
  split at hev
  · obtain rfl := Option.some.inj hev
    exact hall _ (TcpConnections.mem_entries_of_get hget)
  · cases hev

/-- **Invariant rule for tables.** What holds of a connection just opened and is kept by the
    connection's share of every guarded event holds of every connection in every table
    reached. -/
theorem Host.conn_invariant {P : ConnState → Prop} {G : ConnState → ConnEvent → Prop}
    (h0 : ∀ iss irs now, P (ConnState.opened iss irs now))
    (hstep : ∀ rto maxRetries app conn ev conn', P conn → G conn ev →
      (conn.step A rto maxRetries app ev).conn = some conn' → P conn')
    {app : σ} {initialRto : Duration} {maxRetries : UInt8} {es : List (HostEvent σ)}
    {h : Host σ}
    (hrun : Runs.Run (Host.step A) (Host.Guard G) (Host.new app initialRto maxRetries) es h)
    {key : ConnKey} {conn : ConnState} (hconn : h.get key = some conn) : P conn := by
  have hall : ∀ key conn, h.get key = some conn → P conn := by
    refine hrun.state_invariant (I := fun h => ∀ key conn, h.get key = some conn → P conn)
      (fun key conn h => by cases h) fun h e ih hok key conn' h' => ?_
    cases (h.step_get e key).2 conn' h' with
    | unchanged hsame => exact ih key conn' hsame
    | stepped hget hev hconn happ =>
      exact hstep _ _ _ _ _ _ (ih _ _ hget) (hok _ _ _ hget hev) hconn
    | opened hget heq => rw [heq]; exact h0 _ _ _
  exact hall key conn hconn

/-! ### Connections of a table as sessions -/

/-- **Tables consist of sessions.** Every connection of every table reached is the connection
    of a session under the same guard, with the application in the same state. -/
theorem Host.session_of_run {G : ConnState → ConnEvent → Prop} {app : σ}
    {initialRto : Duration} {maxRetries : UInt8} {es : List (HostEvent σ)} {h : Host σ}
    (hrun : Runs.Run (Host.step A) (Host.Guard G) (Host.new app initialRto maxRetries) es h)
    {key : ConnKey} {conn : ConnState} (hconn : h.get key = some conn) :
    ∃ app₀ iss irs t₀ es' s,
      Runs.Run (Session.step A (TcpConnections.new initialRto maxRetries).rtoConfig maxRetries)
        (Session.Guard G) (Session.opened app₀ iss irs t₀) es' s ∧
      s.conn = some conn ∧ s.app.inner = h.app := by
  have hall : TcpConnections.SameConfig (TcpConnections.new initialRto maxRetries)
      h.connections ∧ ∀ key conn, h.get key = some conn → ∃ app₀ iss irs t₀ es' s,
        Runs.Run (Session.step A (TcpConnections.new initialRto maxRetries).rtoConfig maxRetries)
          (Session.Guard G) (Session.opened app₀ iss irs t₀) es' s ∧
        s.conn = some conn ∧ s.app.inner = h.app := by
    refine hrun.state_invariant (I := fun h => TcpConnections.SameConfig
      (TcpConnections.new initialRto maxRetries) h.connections ∧ ∀ key conn, h.get key = some conn →
        ∃ app₀ iss irs t₀ es' s,
          Runs.Run (Session.step A (TcpConnections.new initialRto maxRetries).rtoConfig maxRetries)
            (Session.Guard G) (Session.opened app₀ iss irs t₀) es' s ∧
          s.conn = some conn ∧ s.app.inner = h.app)
      ⟨⟨rfl, rfl⟩, fun key conn h => by cases h⟩ ?_
    intro h e ⟨hcfg, ih⟩ hok
    obtain ⟨hcfg', -⟩ := h.step_get (A := A) e key
    refine ⟨⟨hcfg'.1.trans hcfg.1, hcfg'.2.trans hcfg.2⟩, fun key conn' h' => ?_⟩
    cases (h.step_get e key).2 conn' h' with
    | unchanged hsame =>
      obtain ⟨app₀, iss, irs, t₀, es', s, hs, hc, happ⟩ := ih key conn' hsame
      have helse : Session.Guard G s (.elsewhere (h.step A e).app) := fun _ _ _ hev => by cases hev
      exact ⟨app₀, iss, irs, t₀, _, _, hs.snoc helse, hc, rfl⟩
    | @stepped conn ev hget hev hconn' happ' =>
      obtain ⟨app₀, iss, irs, t₀, es', s, hs, hc, happ⟩ := ih key conn hget
      have hobs := (observes_recorded A).step h.connections.rtoConfig h.connections.maxRetries
        s.app conn ev
      rw [happ] at hobs
      rw [hobs] at hconn' happ'
      rw [hcfg.1, hcfg.2] at hconn' happ'
      refine ⟨app₀, iss, irs, t₀, _, _, .snoc hs (e := .on ev) fun c ev' hc' hev' => ?_, ?_, ?_⟩
      · obtain rfl := Option.some.inj (hc.symm.trans hc')
        cases hev'
        exact hok key conn ev hget hev
      · simp only [Session.step, hc]; exact hconn'
      · simp only [Session.step, hc]; exact happ'.symm
    | @opened iss irs now hget heq =>
      exact ⟨(h.step A e).app, iss, irs, now, [], _, .nil, by rw [heq]; rfl, rfl⟩
  exact hall.2 key conn hconn

end Typenet
