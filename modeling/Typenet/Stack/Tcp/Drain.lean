import Mathlib.Data.List.Nodup
import Typenet.Stack.Tcp.Reassembly

namespace Typenet

/-!
# Draining, whatever the storage order

`drainContiguous` bounds the rounds of the iterator by the number of entries.  `Drains` is the
iterator run until it is exhausted, without a bound; the two agree because every round that
yields removes an entry (`drainContiguous_drains`).

`Greedy` is the chain of entries from RCV.NXT, each starting where the one before it ended.  With
distinct starts there is only one, so draining depends on the set of entries and not on the order
they are stored in (`drainContiguous_greedy`).
-/

namespace TcpReassembly

variable {segments kept kept' : List (SeqPoint .In × TcpPayload)}
  {rcvNxt rcvNxt' : SeqPoint .In} {payloads : List TcpPayload}

/-! ### The iterator, run to exhaustion -/

/-- The iterator yields `payloads` from the buffer `segments`, and is then exhausted, with `kept`
    left in the buffer. -/
inductive Drains : List (SeqPoint .In × TcpPayload) → SeqPoint .In → List TcpPayload →
    List (SeqPoint .In × TcpPayload) → SeqPoint .In → Prop
  | stop {segments kept : List (SeqPoint .In × TcpPayload)} {rcvNxt : SeqPoint .In} :
      nextContiguous rcvNxt segments = (none, kept) → Drains segments rcvNxt [] kept rcvNxt
  | next {segments kept kept' : List (SeqPoint .In × TcpPayload)} {rcvNxt rcvNxt' : SeqPoint .In}
      {payload : TcpPayload} {payloads : List TcpPayload} :
      nextContiguous rcvNxt segments = (some payload, kept) →
      Drains kept (rcvNxt + payload.len) payloads kept' rcvNxt' →
      Drains segments rcvNxt (payload :: payloads) kept' rcvNxt'

/-- A round that yields an entry removes it. -/
theorem nextContiguous_length {payload : TcpPayload}
    (h : nextContiguous rcvNxt segments = (some payload, kept)) :
    kept.length < segments.length := by
  induction segments generalizing kept with
  | nil => cases h
  | cons e rest ih =>
    obtain ⟨start, payload'⟩ := e
    unfold nextContiguous at h
    rw [List.length_cons]
    split at h
    · split at h
      · obtain ⟨-, rfl⟩ := Prod.mk.inj h
        exact Nat.lt_succ_self _
      · exact Nat.lt_succ_of_lt (ih h)
    · simp only [Prod.mk.injEq] at h
      obtain ⟨hfound, rfl⟩ := h
      exact Nat.succ_lt_succ (ih (Prod.ext hfound rfl))

/-- One round more than there are entries exhausts the iterator. -/
theorem drainRounds_drains {fuel : Nat} (hfuel : segments.length < fuel) :
    Drains segments rcvNxt (drainRounds fuel segments rcvNxt).1
      (drainRounds fuel segments rcvNxt).2.1 (drainRounds fuel segments rcvNxt).2.2 := by
  induction fuel generalizing segments rcvNxt with
  | zero => omega
  | succ fuel ih =>
    unfold drainRounds
    obtain ⟨⟨found, kept⟩, hround⟩ : ∃ r, nextContiguous rcvNxt segments = r := ⟨_, rfl⟩
    rw [hround]
    cases found with
    | none => exact .stop hround
    | some payload =>
      have hlen := nextContiguous_length hround
      exact .next hround (ih (by omega))

/-- **Draining ends**, with what `drainContiguous` returns. -/
theorem drainContiguous_drains (self : TcpReassembly) (rcvNxt : SeqPoint .In) :
    Drains self.segments rcvNxt (self.drainContiguous rcvNxt).1
      (self.drainContiguous rcvNxt).2.1.segments (self.drainContiguous rcvNxt).2.2 :=
  drainRounds_drains (Nat.lt_succ_self _)

/-! ### The greedy chain -/

/-- Starting at a point, repeatedly taking an entry that starts where the one before it ended
    yields the payloads and stops where no entry starts. -/
inductive Greedy (segments : List (SeqPoint .In × TcpPayload)) :
    SeqPoint .In → List TcpPayload → SeqPoint .In → Prop
  | stop {rcvNxt : SeqPoint .In} : (∀ p, (rcvNxt, p) ∉ segments) →
      Greedy segments rcvNxt [] rcvNxt
  | take {rcvNxt rcvNxt' : SeqPoint .In} {p : TcpPayload} {payloads : List TcpPayload} :
      (rcvNxt, p) ∈ segments → Greedy segments (rcvNxt + p.len) payloads rcvNxt' →
      Greedy segments rcvNxt (p :: payloads) rcvNxt'

/-- Entries with distinct starts are known by their start. -/
theorem eq_of_starts_nodup (h : (segments.map Prod.fst).Nodup) {start : SeqPoint .In}
    {p q : TcpPayload} (hp : (start, p) ∈ segments) (hq : (start, q) ∈ segments) : p = q :=
  (Prod.mk.inj (List.inj_on_of_nodup_map h hp hq rfl)).2

/-- **There is one chain** where the starts are distinct. -/
theorem Greedy.unique (hdistinct : (segments.map Prod.fst).Nodup) {payloads' : List TcpPayload}
    {stop : SeqPoint .In} (h : Greedy segments rcvNxt payloads rcvNxt')
    (h' : Greedy segments rcvNxt payloads' stop) : payloads' = payloads ∧ stop = rcvNxt' := by
  induction h generalizing payloads' with
  | stop hno =>
    cases h' with
    | stop => exact ⟨rfl, rfl⟩
    | take hmem => exact absurd hmem (hno _)
  | take hmem _ ih =>
    cases h' with
    | stop hno => exact absurd hmem (hno _)
    | take hmem' hrest =>
      obtain rfl := eq_of_starts_nodup hdistinct hmem hmem'
      obtain ⟨rfl, rfl⟩ := ih hrest
      exact ⟨rfl, rfl⟩

/-- A chain only depends on which entries there are. -/
theorem Greedy.congr {segments' : List (SeqPoint .In × TcpPayload)}
    (hmem : ∀ e, e ∈ segments ↔ e ∈ segments') (h : Greedy segments rcvNxt payloads rcvNxt') :
    Greedy segments' rcvNxt payloads rcvNxt' := by
  induction h with
  | stop hno => exact .stop fun p hp => hno p ((hmem _).mpr hp)
  | take hp _ ih => exact .take ((hmem _).mp hp) ih

/-- A chain of offsets within half the circle is a chain of entries. -/
theorem greedy_of_chain {base : SeqPoint .In} {n m : Nat} {outs : List (List UInt8)}
    (h : Stream.Chain (held base segments) n outs m) (hn : base.dist rcvNxt = n)
    (hm : base.dist rcvNxt' = m) (houts : payloads.map (·.data) = outs) :
    Greedy segments rcvNxt payloads rcvNxt' := by
  induction h generalizing rcvNxt payloads with
  | stop hno =>
    obtain rfl := List.map_eq_nil_iff.mp houts
    obtain rfl := SeqPoint.dist_inj.mp (hn.trans hm.symm)
    exact .stop fun p hp => hno p.data (mem_held.mpr ⟨_, hp, hn, rfl⟩)
  | take hmem hrest ih =>
    obtain ⟨p, payloads', rfl, rfl, hrest'⟩ := List.map_eq_cons_iff.mp houts
    obtain ⟨⟨start, q⟩, he, hstart, hdata⟩ := mem_held.mp hmem
    -- the held piece is the entry that starts at RCV.NXT
    obtain rfl := SeqPoint.dist_inj.mp (hstart.trans hn.symm)
    obtain rfl : q = p := by
      cases q; cases p; cases hdata; rfl
    have hle := hrest.le
    have hlt := base.dist_lt rcvNxt'
    have hlen : q.data.length = q.len := rfl
    refine .take he (ih ?_ hm hrest')
    rw [SeqPoint.dist_add, hn, Nat.mod_eq_of_lt (by omega), hlen]

/-! ### Draining near RCV.NXT -/

/-- The point `2 ^ 29` behind RCV.NXT, from which everything near RCV.NXT lies ahead. -/
def behind (rcvNxt : SeqPoint .In) : SeqPoint .In := rcvNxt + (2 ^ 32 - 2 ^ 29)

theorem dist_behind (rcvNxt : SeqPoint .In) : (behind rcvNxt).dist rcvNxt = 2 ^ 29 := by
  have h := SeqPoint.dist_eq rcvNxt (behind rcvNxt) rcvNxt
  rw [behind, SeqPoint.dist_self_add, SeqPoint.dist_self] at h
  exact h

/-- What is at most `2 ^ 29` away is at most twice as far ahead of that point. -/
theorem dist_behind_le {start : SeqPoint .In} (h : -2 ^ 29 ≤ start.sub rcvNxt)
    (h' : start.sub rcvNxt ≤ 2 ^ 29) : (behind rcvNxt).dist start ≤ 2 ^ 30 := by
  have hlt := rcvNxt.dist_lt start
  have hadd := SeqPoint.dist_add (behind rcvNxt) rcvNxt (rcvNxt.dist start)
  rw [SeqPoint.add_dist, dist_behind] at hadd
  rw [SeqPoint.sub_eq] at h h'
  split at h
  case isTrue hnear =>
    rw [if_pos hnear] at h'
    omega
  case isFalse hfar =>
    rw [if_neg hfar] at h'
    omega

/-- Every entry starts at most `2 ^ 29` away from RCV.NXT, in either direction. -/
def Near (rcvNxt : SeqPoint .In) (segments : List (SeqPoint .In × TcpPayload)) : Prop :=
  ∀ e ∈ segments, -2 ^ 29 ≤ e.1.sub rcvNxt ∧ e.1.sub rcvNxt ≤ 2 ^ 29

/-- The entries that start strictly after a point. -/
def startingAfter (rcvNxt : SeqPoint .In) (segments : List (SeqPoint .In × TcpPayload)) :
    List (SeqPoint .In × TcpPayload) :=
  segments.filter fun e => rcvNxt.precedes e.1

/-- **Draining a buffer near RCV.NXT** follows the chain and keeps what starts after its end. -/
theorem drainContiguous_near {self : TcpReassembly} (hnear : Near rcvNxt self.segments) :
    ∃ payloads rcvNxt', Greedy self.segments rcvNxt payloads rcvNxt' ∧
      self.drainContiguous rcvNxt
        = (payloads, { self with segments := startingAfter rcvNxt' self.segments }, rcvNxt') := by
  obtain ⟨⟨payloads, reassembly, rcvNxt'⟩, hdrain⟩ : ∃ r, self.drainContiguous rcvNxt = r :=
    ⟨_, rfl⟩
  have hbase := dist_behind rcvNxt
  have hends : ∀ e ∈ self.segments, (behind rcvNxt).dist e.1 + e.2.len ≤ 2 ^ 30 + 65535 := by
    intro e he
    have hstart := dist_behind_le (hnear e he).1 (hnear e he).2
    have hlen := e.2.len_lt
    omega
  obtain ⟨hchain, -, hkept⟩ := drainContiguous_chain
    (fun e he => Nat.le_trans (hends e he) (by decide)) (by omega) hdrain
  refine ⟨payloads, rcvNxt', greedy_of_chain hchain rfl rfl rfl, ?_⟩
  -- the chain ends less than half the circle ahead, where both comparisons agree
  have hend : (behind rcvNxt).dist rcvNxt' ≤ 2 ^ 30 + 65535 := by
    refine hchain.le_of_forall (fun o p hop => ?_) (by omega)
    obtain ⟨e, he, rfl, rfl⟩ := mem_held.mp hop
    exact hends e he
  have hafter : after (behind rcvNxt) ((behind rcvNxt).dist rcvNxt') self.segments
      = startingAfter rcvNxt' self.segments := by
    apply List.filter_congr
    intro e he
    have hlt := hends e he
    have hiff : rcvNxt'.precedes e.1 = true
        ↔ (behind rcvNxt).dist rcvNxt' < (behind rcvNxt).dist e.1 :=
      SeqPoint.precedes_iff_dist_lt (by omega) (by omega)
    rw [Bool.eq_iff_iff, decide_eq_true_iff, hiff]
  rw [hdrain, hkept, hafter]

/-- **Draining is the greedy chain, in any storage order.**  The iterator ends; it yields the
    one chain of entries from RCV.NXT and leaves RCV.NXT at its end, and exactly the entries that
    start after that are kept, in whichever order they were stored. -/
theorem drainContiguous_greedy (self : TcpReassembly) (rcvNxt : SeqPoint .In)
    (hdistinct : (self.segments.map Prod.fst).Nodup) (hnear : Near rcvNxt self.segments) :
    ∃ payloads rcvNxt', Greedy self.segments rcvNxt payloads rcvNxt' ∧
      (∀ payloads' stop, Greedy self.segments rcvNxt payloads' stop →
        payloads' = payloads ∧ stop = rcvNxt') ∧
      ∀ segments, segments.Perm self.segments →
        Drains segments rcvNxt payloads (startingAfter rcvNxt' segments) rcvNxt' ∧
        { self with segments := segments }.drainContiguous rcvNxt
          = (payloads, { self with segments := startingAfter rcvNxt' segments }, rcvNxt') := by
  obtain ⟨payloads, rcvNxt', hgreedy, -⟩ := drainContiguous_near hnear
  refine ⟨payloads, rcvNxt', hgreedy, fun payloads' stop => hgreedy.unique hdistinct, ?_⟩
  intro segments hperm
  -- the chain of the reordered buffer is a chain of the original one, so it is the same
  have hnear' : Near rcvNxt { self with segments := segments }.segments :=
    fun e he => hnear e (hperm.mem_iff.mp he)
  obtain ⟨payloads', stop, hgreedy', hdrain⟩ := drainContiguous_near hnear'
  obtain ⟨rfl, rfl⟩ := hgreedy.unique hdistinct (hgreedy'.congr fun e => hperm.mem_iff)
  have hdrains := drainContiguous_drains { self with segments := segments } rcvNxt
  rw [hdrain] at hdrains
  exact ⟨hdrains, hdrain⟩

/-- A stale entry, a chain of two stored back to front, and an entry behind a gap. -/
def OUT_OF_ORDER_BUFFER : TcpReassembly where
  segments := [(SeqPoint.new 3, ⟨[0x66], by decide, by decide⟩),
    (SeqPoint.new 0, ⟨[0x63], by decide, by decide⟩),
    (SeqPoint.new 4294967290, ⟨[0x61], by decide, by decide⟩),
    (SeqPoint.new 4294967295, ⟨[0x62], by decide, by decide⟩)]
  finSeq := none

/-- The chain is drained across the point where the sequence space wraps. -/
theorem drainContiguous_greedy_wrapping :
    ∃ payloads rcvNxt', Greedy OUT_OF_ORDER_BUFFER.segments (SeqPoint.new 4294967295) payloads
        rcvNxt' ∧
      OUT_OF_ORDER_BUFFER.drainContiguous (SeqPoint.new 4294967295)
        = (payloads, { OUT_OF_ORDER_BUFFER with
            segments := startingAfter rcvNxt' OUT_OF_ORDER_BUFFER.segments }, rcvNxt') := by
  have hnear : ∀ e ∈ OUT_OF_ORDER_BUFFER.segments,
      -2 ^ 29 ≤ e.1.sub (SeqPoint.new 4294967295) ∧
        e.1.sub (SeqPoint.new 4294967295) ≤ 2 ^ 29 := by decide
  obtain ⟨payloads, rcvNxt', hgreedy, -, hperm⟩ :=
    drainContiguous_greedy OUT_OF_ORDER_BUFFER (SeqPoint.new 4294967295) (by decide) hnear
  exact ⟨payloads, rcvNxt', hgreedy, (hperm _ (.refl _)).2⟩

example : (OUT_OF_ORDER_BUFFER.drainContiguous (SeqPoint.new 4294967295)).1.map (·.data)
    = [[0x62], [0x63]] := by decide

end TcpReassembly

end Typenet
