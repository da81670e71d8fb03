import Typenet.Table.WireLog

namespace Typenet

/-!
# Backing off and giving up

With an initial timeout of whole milliseconds, the saturating operations of the code back off
exactly: for every number of retries the timeout is `backedOff`.  Three consequences for runs:

* `WireLog.timely` — the instants in the log of a connection lie apart by that much at least, and
  there are at most `1 + maxRetries` of them for each segment;
* `removed_by_dueSweeps` — without a segment from its peer a connection is gone once its oldest
  segment has been due in `maxRetries + 1` sweeps;
* `spacedSweeps_le` — which happens if enough sweeps lie `TCP_RTO_MAX` apart.
-/

variable {σ : Type} {A : Application σ} {key : ConnKey} {h h₀ : Host σ} {ms : Nat}
  {maxRetries : UInt8}

/-! ### Timeouts -/

/-- The timeout after `k` retransmissions: the initial one doubled each time, between the least
    and the greatest timeout that are allowed. -/
def backedOff (initial : Duration) (k : Nat) : Duration :=
  max TCP_RTO_MIN (min (initial * 2 ^ k) TCP_RTO_MAX)

/-- Saturating far enough up does not show behind a clamp. -/
theorem clamp_saturated (x : Nat) {lo hi top : Nat} (h : lo ≤ hi) (htop : hi ≤ top) :
    Duration.clamp (min x top) lo hi h = max lo (min x hi) := by
  show (if min x top < lo then lo else if hi < min x top then hi else min x top) = _
  split
  · omega
  · split <;> omega

/-- Neither does saturating the factor, as whole milliseconds times `u32::MAX` are more than the
    greatest timeout. -/
theorem min_saturated_mul (ms n : Nat) :
    min (ms * 10 ^ 6 * min n (2 ^ 32 - 1)) (120000 * 10 ^ 6)
      = min (ms * 10 ^ 6 * n) (120000 * 10 ^ 6) := by
  rcases Nat.le_total n (2 ^ 32 - 1) with hle | hge
  · rw [Nat.min_eq_left hle]
  · rw [Nat.min_eq_right hge]
    rcases Nat.eq_zero_or_pos ms with rfl | hpos
    · rw [Nat.zero_mul, Nat.zero_mul, Nat.zero_mul]
    · have hmul : ms * 10 ^ 6 * (2 ^ 32 - 1) ≤ ms * 10 ^ 6 * n := Nat.mul_le_mul_left _ hge
      have hone : 1 * 10 ^ 6 * (2 ^ 32 - 1) ≤ ms * 10 ^ 6 * (2 ^ 32 - 1) :=
        Nat.mul_le_mul_right _ (Nat.mul_le_mul_right _ hpos)
      have hbig : 120000 * 10 ^ 6 ≤ 1 * 10 ^ 6 * (2 ^ 32 - 1) := by decide
      rw [Nat.min_eq_right (hbig.trans hone), Nat.min_eq_right (hbig.trans (hone.trans hmul))]

/-- **The backoff is exact.**  It saturates only where it is clamped. -/
theorem delay_eq (p : PendingSegment) (ms : Nat) (maxRetries : UInt8) :
    p.delay (TcpConnections.new (Duration.fromMillis ms) maxRetries).rtoConfig
      = backedOff (Duration.fromMillis ms) p.retries.toNat := by
  have hclamp : TCP_RTO_MIN ≤ TCP_RTO_MAX := by decide
  have htop : TCP_RTO_MAX ≤ Duration.MAX := by decide
  refine (clamp_saturated (Duration.fromMillis ms * PendingSegment.backoff p.retries)
    hclamp htop).trans ?_
  exact congrArg (max TCP_RTO_MIN) (min_saturated_mul ms (2 ^ p.retries.toNat))

/-! ### One sweep -/

/-- What a sweep has done to a connection that it has kept. -/
theorem Host.get_of_retransmit {now late : Instant} {conn' : ConnState}
    (hkept : (h.step A (.retransmit now late)).get key = some conn') :
    ∃ conn, h.get key = some conn ∧
      conn'.pending = (conn.pending.map fun p =>
        if ConnState.isDue h.connections.rtoConfig now late p then p.retransmitted now else p) ∧
      ∀ p ∈ conn.pending, ConnState.isDue h.connections.rtoConfig now late p = true →
        ¬ h.connections.maxRetries ≤ p.retries := by
  obtain ⟨-, hafter, -⟩ := h.connections.makeRetransmissions_get now late key
  have hafter := hafter.symm.trans hkept
  obtain ⟨conn, hget, hmap⟩ := Option.bind_eq_some_iff.mp hafter
  obtain ⟨⟨c, resent⟩, hre, rfl⟩ := Option.map_eq_some_iff.mp hmap
  refine ⟨conn, hget, ?_, fun p hp hdue hle => ?_⟩
  · unfold ConnState.retransmit at hre
    split at hre
    case isTrue => cases hre
    case isFalse =>
      obtain ⟨rfl, -⟩ := Prod.mk.inj (Option.some.inj hre)
      rfl
  · have hnone := ConnState.retransmit_eq_none.mpr ⟨p, hp, hdue, decide_eq_true hle⟩
    rw [hnone] at hre
    cases hre

/-- A retransmission counts one retry, within the number that is allowed. -/
theorem retransmitted_retries {p : PendingSegment} (hle : ¬ maxRetries ≤ p.retries)
    (now : Instant) : (p.retransmitted now).retries.toNat = p.retries.toNat + 1 ∧
      (p.retransmitted now).retries ≤ maxRetries := by
  have hcount := (PendingSegment.resent_retransmitted hle now).retries
  refine ⟨hcount, ?_⟩
  have hlt := UInt8.lt_iff_toNat_lt.mp (UInt8.not_le.mp hle)
  rw [UInt8.le_iff_toNat_le, hcount]
  exact hlt

/-! ### The instants in a log -/

/-- A segment has been sent once and then once for each of its retries, of which there are no
    more than allowed, and its timeouts lie in between. -/
structure WireEntry.Timely (ms : Nat) (maxRetries : UInt8) (entry : WireEntry) : Prop where
  count : entry.sentAt.length = entry.segment.retries.toNat + 1
  last : entry.sentAt.getLast? = some entry.segment.lastSentAt
  retries : entry.segment.retries ≤ maxRetries
  gaps : ∀ k sent next, entry.sentAt[k]? = some sent → entry.sentAt[k + 1]? = some next →
    sent.nanos + backedOff (Duration.fromMillis ms) k ≤ next.nanos

/-- A new entry is timely. -/
theorem WireEntry.timely_new (info : SendInfo) (now : Instant) :
    (WireEntry.new info now).Timely ms maxRetries := by
  refine ⟨rfl, rfl, UInt8.le_iff_toNat_le.mpr (Nat.zero_le _), fun k sent next _ hnext => ?_⟩
  cases hnext

/-- **A sweep keeps the timeouts.** -/
theorem WireEntry.Timely.sweep {entry : WireEntry} (he : entry.Timely ms maxRetries)
    {now late : Instant}
    (hfit : entry.segment.Fits
      (TcpConnections.new (Duration.fromMillis ms) maxRetries).rtoConfig)
    (hkept : ConnState.isDue (TcpConnections.new (Duration.fromMillis ms) maxRetries).rtoConfig
      now late entry.segment = true → ¬ maxRetries ≤ entry.segment.retries) :
    (entry.sweep (TcpConnections.new (Duration.fromMillis ms) maxRetries).rtoConfig now
      late).Timely ms maxRetries := by
  unfold WireEntry.sweep
  split
  case isFalse => exact he
  case isTrue hdue =>
    obtain ⟨hcount, hle⟩ := retransmitted_retries (hkept hdue) now
    rw [hfit.isDue, decide_eq_true_eq, PendingSegment.Due, delay_eq] at hdue
    refine ⟨?_, List.getLast?_concat, hle, fun k sent next hsent hnext => ?_⟩
    · rw [List.length_append, he.count]
      exact congrArg (· + 1) hcount.symm
    · rcases Nat.lt_trichotomy (k + 1) entry.sentAt.length with hlt | heq | hgt
      · rw [List.getElem?_append_left (by omega)] at hsent hnext
        exact he.gaps k sent next hsent hnext
      · -- the gap before the retransmission is a timeout
        rw [List.getElem?_append_left (by omega)] at hsent
        rw [List.getElem?_append_right (by omega), heq, Nat.sub_self] at hnext
        have hlast := he.last
        have hk : entry.sentAt.length - 1 = k := by omega
        rw [List.getLast?_eq_getElem?, hk, hsent] at hlast
        obtain rfl := Option.some.inj hlast
        obtain rfl := Option.some.inj hnext
        have hretries : entry.segment.retries.toNat = k := by
          have hlen := he.count
          omega
        rw [hretries] at hdue
        exact hdue
      · rw [List.getElem?_eq_none (by rw [List.length_append]; exact hgt)] at hnext
        cases hnext

/-- A log ends in the host that its events lead to. -/
theorem WireLog.eq_foldl {es : List (HostEvent σ)} {l : List WireEntry}
    (hlog : WireLog A key h₀ es h l) : h = es.foldl (Host.step A) h₀ := by
  induction hlog with
  | start => rfl
  | step _ _ _ ih => rw [List.foldl_append, ← ih]; rfl

/-- No event changes the configuration. -/
theorem WireLog.config {es : List (HostEvent σ)} {l : List WireEntry}
    (hlog : WireLog A key h₀ es h l) :
    TcpConnections.SameConfig h₀.connections h.connections := by
  induction hlog with
  | start => exact ⟨rfl, rfl⟩
  | @step _ h _ _ e _ _ _ ih =>
    obtain ⟨hcfg, -⟩ := h.step_get (A := A) e key
    exact ⟨hcfg.1.trans ih.1, hcfg.2.trans ih.2⟩

/-- The instants at which something is due can be represented when an event happens. -/
def Host.FitsTimes (h : Host σ) (_ : HostEvent σ) : Prop := h.connections.DueTimesFit

/-- **The log of a run is timely.** -/
theorem WireLog.timely {app : σ} {es : List (HostEvent σ)} {l : List WireEntry}
    (hlog : WireLog A key (Host.new app (Duration.fromMillis ms) maxRetries) es h l)
    (hfits : Runs.Admits (Host.step A) Host.FitsTimes
      (Host.new app (Duration.fromMillis ms) maxRetries) es) :
    ∀ entry ∈ l, entry.Timely ms maxRetries := by
  induction hlog with
  | start => exact fun entry hentry => absurd hentry List.not_mem_nil
  | @step es h l l' e hlog hlogged hqueue ih =>
    have hpast := hfits.of_prefix (List.prefix_append es [e])
    have hold := ih hpast
    cases hlogged with
    | quiet hsub => exact fun entry hentry => hold entry (hsub.subset hentry)
    | queued hsub =>
      intro entry hentry
      rcases List.mem_append.mp hentry with hkept | hnew
      · exact hold entry (hsub.subset hkept)
      · rw [List.mem_singleton.mp hnew]
        exact WireEntry.timely_new _ _
    | @swept now late conn' hevent hkept =>
      subst hevent
      obtain ⟨conn, hget, -, hretries⟩ := Host.get_of_retransmit hkept
      obtain ⟨hrto, hmax⟩ := hlog.config
      have hpending := (hlog.queue rfl).trans (Host.queue_of_get hget)
      have hfit : h.connections.DueTimesFit := by
        rw [hlog.eq_foldl]
        exact Runs.admits_iff_prefix.mp hfits es _ (List.prefix_refl _)
      intro entry' hentry'
      obtain ⟨entry, hentry, rfl⟩ := List.mem_map.mp hentry'
      have hp : entry.segment ∈ conn.pending := by
        rw [← hpending]
        exact List.mem_map_of_mem hentry
      have hentryfit := hfit key conn hget _ hp
      have hentrykept := hretries _ hp
      rw [hrto] at hentryfit hentrykept ⊢
      rw [hmax] at hentrykept
      exact (hold entry hentry).sweep hentryfit hentrykept

/-! ### A peer that has gone silent -/

/-- The event is no segment of the connection. -/
def HostEvent.Silent (key : ConnKey) (e : HostEvent σ) : Prop :=
  ∀ seg randomU32 now, e = .segment seg randomU32 now → ConnKey.ofSegment seg ≠ key

/-- The event is a sweep at which the oldest segment of the connection is due. -/
def Host.oldestDue (h : Host σ) (key : ConnKey) : HostEvent σ → Bool
  | .retransmit now late =>
    (h.queue key).head?.any (ConnState.isDue h.connections.rtoConfig now late)
  | _ => false

/-- In how many sweeps the oldest segment of the connection is due. -/
def dueSweeps (A : Application σ) (key : ConnKey) : Host σ → List (HostEvent σ) → Nat
  | _, [] => 0
  | h, e :: es => (h.oldestDue key e).toNat + dueSweeps A key (h.step A e) es

/-- Without a segment, a connection that is gone does not come back. -/
theorem Host.get_silent_none {e : HostEvent σ} (hsilent : e.Silent key) (hget : h.get key = none) :
    (h.step A e).get key = none := by
  cases hafter : (h.step A e).get key with
  | none => rfl
  | some conn' =>
    exfalso
    cases e with
    | segment seg randomU32 now =>
      rw [h.segment_other A randomU32 now (hsilent seg randomU32 now rfl), hget] at hafter
      cases hafter
    | retransmit now late =>
      obtain ⟨conn, hsome, -⟩ := Host.get_of_retransmit hafter
      cases hget.symm.trans hsome
    | close consume now =>
      obtain ⟨-, hkeys⟩ :=
        TcpConnections.closeKeys_get consume now h.connections.table.keys h.connections
      rcases hkeys key with hsame | ⟨conn, c, info, hsome, -, -⟩
      · cases hget.symm.trans (hsame.symm.trans hafter)
      · cases hget.symm.trans hsome
    | elsewhere app => cases hget.symm.trans hafter

/-- No silent event opens a connection. -/
theorem Host.foldl_silent_none {es : List (HostEvent σ)} (hsilent : ∀ e ∈ es, e.Silent key)
    (hget : h.get key = none) : (es.foldl (Host.step A) h).get key = none := by
  induction es generalizing h with
  | nil => exact hget
  | cons e es ih =>
    exact ih (fun d hd => hsilent d (List.mem_cons_of_mem e hd))
      (Host.get_silent_none (hsilent e List.mem_cons_self) hget)

/-- What becomes of the oldest segment: it is sent again if it is due, and has retries left
    then. -/
def Host.NextOldest (h : Host σ) (key : ConnKey) (e : HostEvent σ) (p p' : PendingSegment) :
    Prop :=
  if h.oldestDue key e then
    ∃ now, e.clock = some now ∧ p' = p.retransmitted now ∧ ¬ h.connections.maxRetries ≤ p.retries
  else p' = p

/-- **One event without a segment** leaves the oldest segment at the head of the queue. -/
theorem Host.queue_silent {e : HostEvent σ} {p : PendingSegment} {rest : List PendingSegment}
    (hsilent : e.Silent key) (hqueue : h.queue key = p :: rest)
    (hafter : (h.step A e).get key ≠ none) :
    ∃ p' rest', (h.step A e).queue key = p' :: rest' ∧ h.NextOldest key e p p' := by
  obtain ⟨conn', hconn'⟩ := Option.ne_none_iff_exists'.mp hafter
  unfold Host.NextOldest
  cases e with
  | segment seg randomU32 now =>
    refine ⟨p, rest, ?_, rfl⟩
    rw [Host.queue, h.segment_other A randomU32 now (hsilent seg randomU32 now rfl)]
    exact hqueue
  | retransmit now late =>
    obtain ⟨conn, hget, hpending, hretries⟩ := Host.get_of_retransmit hconn'
    rw [Host.queue_of_get hget] at hqueue
    have hhead : h.oldestDue key (.retransmit now late)
        = ConnState.isDue h.connections.rtoConfig now late p := by
      rw [Host.oldestDue, Host.queue_of_get hget, hqueue]
      rfl
    rw [Host.queue_of_get hconn', hpending, hqueue, hhead]
    refine ⟨_, _, List.map_cons, ?_⟩
    by_cases hdue : ConnState.isDue h.connections.rtoConfig now late p = true
    · rw [if_pos hdue, if_pos hdue]
      exact ⟨now, rfl, rfl, hretries p (by rw [hqueue]; exact List.mem_cons_self) hdue⟩
    · rw [if_neg hdue, if_neg hdue]
  | close consume now =>
    obtain ⟨-, hkeys⟩ :=
      TcpConnections.closeKeys_get consume now h.connections.table.keys h.connections
    rcases hkeys key with hsame | ⟨conn, c, info, hget, hclose, hc⟩
    · exact ⟨p, rest, by rw [Host.queue, ← hqueue]; exact congrArg (fun r =>
        ((r : Option ConnState).map (·.pending)).getD []) hsame, rfl⟩
    · have hc' : (h.step A (.close consume now)).get key = some c := hc
      have hget' : h.get key = some conn := hget
      rw [Host.queue_of_get hget'] at hqueue
      rw [Host.queue_of_get hc', ConnState.close_pending hclose, hqueue]
      exact ⟨p, _, List.cons_append, rfl⟩
  | elsewhere app => exact ⟨p, rest, hqueue, rfl⟩

/-- The table keeps its parameters. -/
theorem Host.step_config (h : Host σ) (e : HostEvent σ) :
    TcpConnections.SameConfig h.connections (h.step A e).connections := (h.step_get e KEY).1

/-- **Giving up.**  A connection is gone once its oldest segment has been due more often than it
    has retries. -/
theorem Host.gone_of_dueSweeps {es : List (HostEvent σ)} {p : PendingSegment}
    {rest : List PendingSegment} (hsilent : ∀ e ∈ es, e.Silent key)
    (hqueue : h.queue key = p :: rest) (hle : p.retries ≤ h.connections.maxRetries)
    (hdue : h.connections.maxRetries.toNat < p.retries.toNat + dueSweeps A key h es) :
    (es.foldl (Host.step A) h).get key = none := by
  induction es generalizing h p rest with
  | nil =>
    have hle := UInt8.le_iff_toNat_le.mp hle
    rw [dueSweeps] at hdue
    omega
  | cons e es ih =>
    have hes := fun d hd => hsilent d (List.mem_cons_of_mem e hd)
    by_cases hgone : (h.step A e).get key = none
    · rw [List.foldl_cons]
      exact Host.foldl_silent_none hes hgone
    · obtain ⟨p', rest', hqueue', hnext⟩ :=
        Host.queue_silent (hsilent e List.mem_cons_self) hqueue hgone
      have hmax := (h.step_config (A := A) e).2
      unfold Host.NextOldest at hnext
      rw [dueSweeps] at hdue
      split at hnext
      case isTrue hold =>
        obtain ⟨now, -, rfl, hretries⟩ := hnext
        obtain ⟨hcount, hle'⟩ := retransmitted_retries hretries now
        rw [hold, Bool.toNat_true] at hdue
        exact ih hes hqueue' (by rw [hmax]; exact hle') (by rw [hmax, hcount]; omega)
      case isFalse hnot =>
        subst hnext
        rw [Bool.not_eq_true] at hnot
        rw [hnot, Bool.toNat_false] at hdue
        exact ih hes hqueue' (by rw [hmax]; exact hle) (by rw [hmax]; omega)

/-- How many sweeps there are if each of them counts only when the longest timeout has passed since
    the one counted before. -/
def spacedSweeps : Instant → List (HostEvent σ) → Nat
  | _, [] => 0
  | since, .retransmit now _ :: es =>
    if since.nanos + TCP_RTO_MAX ≤ now.nanos then spacedSweeps now es + 1
    else spacedSweeps since es
  | since, _ :: es => spacedSweeps since es

/-- A sweep that counts finds the oldest segment due, unless that has been sent since. -/
theorem Host.oldestDue_of_spaced {p : PendingSegment} {rest : List PendingSegment}
    {now since : Instant} (late : Instant) (hqueue : h.queue key = p :: rest)
    (hfit : h.connections.DueTimesFit) (hmax : h.connections.rtoConfig.max = TCP_RTO_MAX)
    (hspaced : since.nanos + TCP_RTO_MAX ≤ now.nanos) (hsent : p.lastSentAt ≤ since) :
    h.oldestDue key (.retransmit now late) = true := by
  have hp : p.Fits h.connections.rtoConfig := by
    cases hget : h.get key with
    | none =>
      rw [Host.queue_of_none hget] at hqueue
      cases hqueue
    | some conn =>
      rw [Host.queue_of_get hget] at hqueue
      exact hfit key conn hget p (by rw [hqueue]; exact List.mem_cons_self)
  rw [Host.oldestDue, hqueue]
  show ConnState.isDue h.connections.rtoConfig now late p = true
  rw [hp.isDue, decide_eq_true_eq]
  have hdelay := p.delay_le_max h.connections.rtoConfig
  rw [hmax] at hdelay
  calc p.lastSentAt.nanos + p.delay h.connections.rtoConfig
      ≤ since.nanos + TCP_RTO_MAX := Nat.add_le_add hsent hdelay
    _ ≤ now.nanos := hspaced

/-- Whether a segment has been sent after `since`, as the number of sweeps that this delays. -/
def PendingSegment.sentAfter (self : PendingSegment) (since : Instant) : Nat :=
  if self.lastSentAt ≤ since then 0 else 1

/-- A segment last sent by then has not been sent since. -/
theorem PendingSegment.sentAfter_eq_zero {self : PendingSegment} {since : Instant}
    (h : self.lastSentAt ≤ since) : self.sentAfter since = 0 := if_pos h

/-- The last sending counts once. -/
theorem PendingSegment.sentAfter_le (self : PendingSegment) (since : Instant) :
    self.sentAfter since ≤ 1 := by
  unfold sentAfter
  split <;> decide

/-- An event that does not count: if it sends the oldest segment again, that was due. -/
theorem Host.NextOldest.sentAfter_le {e : HostEvent σ} {p p' : PendingSegment}
    (hnext : h.NextOldest key e p p') (since : Instant) :
    p'.sentAfter since ≤ (h.oldestDue key e).toNat + p.sentAfter since := by
  unfold Host.NextOldest at hnext
  split at hnext
  case isTrue hdue =>
    rw [hdue, Bool.toNat_true]
    exact (p'.sentAfter_le since).trans (Nat.le_add_right 1 _)
  case isFalse =>
    rw [hnext]
    exact Nat.le_add_left _ _

/-- A sweep that counts: either the oldest segment was due, or it has been sent since the sweep
    that counted before. -/
theorem Host.NextOldest.spaced {p p' : PendingSegment} {rest : List PendingSegment}
    {now late since : Instant} (hnext : h.NextOldest key (.retransmit now late) p p')
    (hqueue : h.queue key = p :: rest) (hfit : h.connections.DueTimesFit)
    (hmax : h.connections.rtoConfig.max = TCP_RTO_MAX)
    (hspaced : since.nanos + TCP_RTO_MAX ≤ now.nanos) (hsent : p.lastSentAt ≤ now) :
    p'.sentAfter now + 1 ≤ (h.oldestDue key (.retransmit now late)).toNat + p.sentAfter since := by
  unfold Host.NextOldest at hnext
  split at hnext
  case isTrue hdue =>
    obtain ⟨now', hnow', rfl, -⟩ := hnext
    obtain rfl : now = now' := Option.some.inj hnow'
    have hagain : (p.retransmitted now).lastSentAt ≤ now := Nat.le_refl now.nanos
    rw [PendingSegment.sentAfter_eq_zero hagain, hdue, Bool.toNat_true]
    exact Nat.le_add_right 1 _
  case isFalse hnot =>
    have hsince : ¬ p.lastSentAt ≤ since := fun hold =>
      hnot (Host.oldestDue_of_spaced late hqueue hfit hmax hspaced hold)
    rw [hnext, PendingSegment.sentAfter_eq_zero hsent, PendingSegment.sentAfter, if_neg hsince]
    exact Nat.le_add_left 1 _

/-- **Sweeps that are spaced out** find the oldest segment due, or it has been due in between. -/
theorem spacedSweeps_le {es : List (HostEvent σ)} {p : PendingSegment}
    {rest : List PendingSegment} (since : Instant) (hsilent : ∀ e ∈ es, e.Silent key)
    (hfits : Runs.Admits (Host.step A) Host.FitsTimes h es)
    (hmax : h.connections.rtoConfig.max = TCP_RTO_MAX) (hqueue : h.queue key = p :: rest)
    (hsent : ∀ t ∈ es.filterMap HostEvent.clock, p.lastSentAt ≤ t)
    (hclock : (es.filterMap HostEvent.clock).Pairwise (· ≤ ·))
    (hthere : (es.foldl (Host.step A) h).get key ≠ none) :
    spacedSweeps since es ≤ dueSweeps A key h es + p.sentAfter since := by
  induction es generalizing h p rest since with
  | nil => exact Nat.zero_le _
  | cons e es ih =>
    have hes := fun d hd => hsilent d (List.mem_cons_of_mem e hd)
    rw [List.foldl_cons] at hthere
    have hnow : (h.step A e).get key ≠ none := fun hgone =>
      hthere (Host.foldl_silent_none hes hgone)
    obtain ⟨p', rest', hqueue', hnext⟩ :=
      Host.queue_silent (hsilent e List.mem_cons_self) hqueue hnow
    have hmax' : (h.step A e).connections.rtoConfig.max = TCP_RTO_MAX := by
      rw [(h.step_config (A := A) e).1]
      exact hmax
    have hsub : (es.filterMap HostEvent.clock).Sublist ((e :: es).filterMap HostEvent.clock) :=
      (List.sublist_cons_self e es).filterMap _
    -- the next time the oldest segment is sent is no later than the readings that follow
    have hsent' : ∀ t ∈ es.filterMap HostEvent.clock, p'.lastSentAt ≤ t := by
      intro t ht
      have hold := hnext
      unfold Host.NextOldest at hold
      split at hold
      case isTrue =>
        obtain ⟨now, hreads, rfl, -⟩ := hold
        rw [List.filterMap_cons_some hreads] at hclock
        exact (List.pairwise_cons.mp hclock).1 t ht
      case isFalse =>
        rw [hold]
        exact hsent t (hsub.subset ht)
    have hrest := fun since' =>
      ih since' hes hfits.2 hmax' hqueue' hsent' (hclock.sublist hsub) hthere
    have huncounted : spacedSweeps since es
        ≤ dueSweeps A key h (e :: es) + p.sentAfter since := by
      have hle := hrest since
      have hstep := hnext.sentAfter_le since
      rw [dueSweeps]
      omega
    cases e with
    | segment | close | elsewhere => exact huncounted
    | retransmit now late =>
      unfold spacedSweeps
      split
      case isFalse => exact huncounted
      case isTrue hspaced =>
        have hle := hrest now
        have hstep := hnext.spaced hqueue hfits.1 hmax hspaced (hsent now List.mem_cons_self)
        rw [dueSweeps]
        omega

/-! ### Whole runs -/

/-- The instants in a log are readings of the clock. -/
theorem WireLog.sentAt_mem {es : List (HostEvent σ)} {l : List WireEntry}
    (hlog : WireLog A key h₀ es h l) :
    ∀ entry ∈ l, ∀ t ∈ entry.sentAt, t ∈ es.filterMap HostEvent.clock := by
  induction hlog with
  | start => exact fun entry hentry => absurd hentry List.not_mem_nil
  | @step es h l l' e hlog hlogged hqueue ih =>
    rw [List.filterMap_append]
    have hold : ∀ entry ∈ l, ∀ t ∈ entry.sentAt,
        t ∈ es.filterMap HostEvent.clock ++ [e].filterMap HostEvent.clock :=
      fun entry hentry t ht => List.mem_append_left _ (ih entry hentry t ht)
    have hnew : ∀ now, e.clock = some now →
        now ∈ es.filterMap HostEvent.clock ++ [e].filterMap HostEvent.clock :=
      fun now hclock => List.mem_append_right _
        (List.mem_filterMap.mpr ⟨e, List.mem_singleton_self e, hclock⟩)
    cases hlogged with
    | quiet hsub => exact fun entry hentry => hold entry (hsub.subset hentry)
    | queued hsub hclock =>
      intro entry hentry t ht
      rcases List.mem_append.mp hentry with hkept | hfresh
      · exact hold entry (hsub.subset hkept) t ht
      · rw [List.mem_singleton.mp hfresh] at ht
        rw [List.mem_singleton.mp ht]
        exact hnew _ hclock
    | swept hevent =>
      subst hevent
      intro entry' hentry' t ht
      obtain ⟨entry, hentry, rfl⟩ := List.mem_map.mp hentry'
      unfold WireEntry.sweep at ht
      split at ht
      · rcases List.mem_append.mp ht with hpast | hnow
        · exact hold entry hentry t hpast
        · rw [List.mem_singleton.mp hnow]
          exact hnew _ rfl
      · exact hold entry hentry t ht

/-- The connection of a log's oldest segment gives up. -/
theorem WireLog.givesUp {app : σ} {es es' : List (HostEvent σ)} {entry : WireEntry}
    {rest : List WireEntry}
    (hlog : WireLog A key (Host.new app (Duration.fromMillis ms) maxRetries) es h (entry :: rest))
    (hentry : entry.Timely ms maxRetries) (hsilent : ∀ e ∈ es', e.Silent key)
    (hdue : maxRetries.toNat + 1 ≤ (entry.sentAt.length - 1) + dueSweeps A key h es') :
    (es'.foldl (Host.step A) h).get key = none := by
  have hmax : h.connections.maxRetries = maxRetries := hlog.config.2
  have hqueue : h.queue key = entry.segment :: rest.map (·.segment) := (hlog.queue rfl).symm
  have hcount := hentry.count
  refine Host.gone_of_dueSweeps hsilent hqueue (by rw [hmax]; exact hentry.retries) ?_
  rw [hmax]
  omega

/-- Enough sweeps that are spaced out make it give up. -/
theorem WireLog.leaves {app : σ} {es es' : List (HostEvent σ)} {entry : WireEntry}
    {rest : List WireEntry} {now : Instant}
    (hlog : WireLog A key (Host.new app (Duration.fromMillis ms) maxRetries) es h (entry :: rest))
    (hentry : entry.Timely ms maxRetries) (hsilent : ∀ e ∈ es', e.Silent key)
    (hfits : Runs.Admits (Host.step A) Host.FitsTimes h es')
    (hclock : (es.filterMap HostEvent.clock ++ now :: es'.filterMap HostEvent.clock).Pairwise
      (· ≤ ·))
    (hspaced : maxRetries.toNat + 1 ≤ spacedSweeps now es') :
    (es'.foldl (Host.step A) h).get key = none := by
  by_contra hthere
  obtain ⟨-, hlater, hpast⟩ := List.pairwise_append.mp hclock
  obtain ⟨-, hsorted⟩ := List.pairwise_cons.mp hlater
  -- the last time the oldest segment was sent is in the past
  have hsent := hlog.sentAt_mem entry List.mem_cons_self _ (List.mem_of_getLast? hentry.last)
  have hmax : h.connections.rtoConfig.max = TCP_RTO_MAX := by
    rw [hlog.config.1]
    rfl
  have hle := spacedSweeps_le now hsilent hfits hmax (hlog.queue rfl).symm
    (fun t ht => hpast _ hsent t (List.mem_cons_of_mem now ht)) hsorted hthere
  rw [PendingSegment.sentAfter_eq_zero (hpast _ hsent now List.mem_cons_self)] at hle
  exact hthere (hlog.givesUp hentry hsilent (by omega))

/-- What bounds the retransmissions of one connection in a run. -/
structure BacksOff (A : Application σ) (key : ConnKey) (ms : Nat) (maxRetries : UInt8)
    (h₀ : Host σ) (es : List (HostEvent σ)) : Prop where
  /-- There is a log of what goes on the wire, -/
  logged : ∃ l, WireLog A key h₀ es (es.foldl (Host.step A) h₀) l
  /-- by which no segment is sent more than `1 + maxRetries` times, nor before its timeout. -/
  bounded : ∀ l, WireLog A key h₀ es (es.foldl (Host.step A) h₀) l →
    ∀ entry ∈ l, entry.sentAt.length ≤ 1 + maxRetries.toNat ∧ entry.Timely ms maxRetries
  /-- If its peer is silent from now on, the connection is gone after the sweep at which its oldest
      segment is due for the time that follows the last retry. -/
  givesUp : ∀ l entry rest es', WireLog A key h₀ es (es.foldl (Host.step A) h₀) l →
    l = entry :: rest → (∀ e ∈ es', e.Silent key) →
    maxRetries.toNat + 1
      ≤ (entry.sentAt.length - 1) + dueSweeps A key (es.foldl (Host.step A) h₀) es' →
    ((es ++ es').foldl (Host.step A) h₀).get key = none
  /-- With a clock that reads `now` by then and never goes back, it is gone after `maxRetries + 1`
      sweeps that are `TCP_RTO_MAX` apart. -/
  leaves : ∀ now es', (es.foldl (Host.step A) h₀).queue key ≠ [] → (∀ e ∈ es', e.Silent key) →
    Runs.Admits (Host.step A) Host.FitsTimes (es.foldl (Host.step A) h₀) es' →
    (es.filterMap HostEvent.clock ++ now :: es'.filterMap HostEvent.clock).Pairwise (· ≤ ·) →
    maxRetries.toNat + 1 ≤ spacedSweeps now es' →
    ((es ++ es').foldl (Host.step A) h₀).get key = none

/-- **Retransmission is bounded and backs off.**  The timeouts are those of `backedOff`, whatever
    the number of retries, and with them every run backs off and gives up in the end. -/
theorem retransmission_backs_off (A : Application σ) (app : σ) (ms : Nat) (maxRetries : UInt8) :
    (∀ p : PendingSegment,
      p.delay (TcpConnections.new (Duration.fromMillis ms) maxRetries).rtoConfig
        = backedOff (Duration.fromMillis ms) p.retries.toNat) ∧
      ∀ es, Runs.Admits (Host.step A) Host.FitsTimes
          (Host.new app (Duration.fromMillis ms) maxRetries) es →
        ∀ key, BacksOff A key ms maxRetries (Host.new app (Duration.fromMillis ms) maxRetries)
          es := by
  refine ⟨fun p => delay_eq p ms maxRetries, fun es hfits key => ?_⟩
  have hlogged : ∃ l, WireLog A key (Host.new app (Duration.fromMillis ms) maxRetries) es
      (es.foldl (Host.step A) (Host.new app (Duration.fromMillis ms) maxRetries)) l :=
    exists_wireLog rfl (.of_foldl _ _)
  refine ⟨hlogged, fun l hlog entry hentry => ?_, fun l entry rest es' hlog heq hsilent hdue => ?_,
    fun now es' hqueue hsilent hfits' hclock hspaced => ?_⟩
  · have htimely := hlog.timely hfits entry hentry
    have hle := UInt8.le_iff_toNat_le.mp htimely.retries
    exact ⟨by rw [htimely.count]; omega, htimely⟩
  · subst heq
    rw [List.foldl_append]
    exact hlog.givesUp (hlog.timely hfits entry List.mem_cons_self) hsilent hdue
  · obtain ⟨l, hlog⟩ := hlogged
    have hsegments := hlog.queue rfl
    cases l with
    | nil => exact absurd hsegments.symm hqueue
    | cons entry rest =>
      rw [List.foldl_append]
      exact hlog.leaves (hlog.timely hfits entry List.mem_cons_self) hsilent hfits' hclock hspaced

/-- Four sweeps, two minutes apart. -/
def FOUR_SWEEPS : List (HostEvent ServerApp) :=
  [120, 240, 360, 480].map fun secs => .retransmit ⟨secs * 10 ^ 9⟩ ⟨secs * 10 ^ 9⟩

/-- A client that sends a SYN and nothing more is forgotten after three retries. -/
theorem retransmission_backs_off_silent :
    ((HostEvent.segment CLIENT_SYN (.ok 400) ⟨0⟩ :: FOUR_SWEEPS).foldl
      (Host.step ServerApp.application)
      (Host.new .Echo (Duration.fromMillis 1000) 3)).get KEY = none := by
  have hfits : Runs.Admits (Host.step ServerApp.application) Host.FitsTimes
      (Host.new .Echo (Duration.fromMillis 1000) 3) [.segment CLIENT_SYN (.ok 400) ⟨0⟩] :=
    ⟨TcpConnections.dueTimesFit_of_entries (by decide), trivial⟩
  have hfits' : Runs.Admits (Host.step ServerApp.application) Host.FitsTimes
      ((Host.new .Echo (Duration.fromMillis 1000) 3).step ServerApp.application
        (.segment CLIENT_SYN (.ok 400) ⟨0⟩)) FOUR_SWEEPS := by
    refine ⟨?_, ?_, ?_, ?_, trivial⟩
    all_goals
      apply TcpConnections.dueTimesFit_of_entries
      decide +kernel
  have hsilent : ∀ e ∈ FOUR_SWEEPS, e.Silent KEY := by
    intro e he seg randomU32 now heq
    obtain ⟨secs, -, rfl⟩ := List.mem_map.mp he
    cases heq
  exact ((retransmission_backs_off ServerApp.application .Echo 1000 3).2 _ hfits KEY).leaves ⟨0⟩
    FOUR_SWEEPS (by decide) hsilent hfits' (by decide) (by decide)

end Typenet
