import Typenet.Stack.Tcp.Segment
import Typenet.Lib.Stream

namespace Typenet

/-!
# Reassembly of out-of-order segments

`TcpReassembly` buffers segments ahead of RCV.NXT and the position of a FIN seen ahead of
time.  `drainContiguous` is the iterator of that name run to exhaustion: each round is one
lazy `extract_if(..).find(..)` pass (`nextContiguous`), which drops entries at or before
RCV.NXT until it meets one that starts exactly there and leaves the rest alone.

The main result connects it to the greedy chain of the stream library:
`drainContiguous_chain` says that, seen as offsets from a base point, the iterator yields
the chain from RCV.NXT and keeps exactly the entries past its end.
-/

/-- Buffers segments that arrived ahead of RCV.NXT, releasing their bytes once the gap
    before them closes. -/
structure TcpReassembly where
  segments : List (SeqPoint .In × TcpPayload)
  /-- One past the last byte covered by the peer's FIN, if one has been seen but not yet
      reached by contiguous data. -/
  finSeq : Option (SeqPoint .In)
  deriving DecidableEq

namespace TcpReassembly

def new : TcpReassembly := ⟨[], none⟩

/-- Records the position of the peer's FIN; a position already recorded is kept. -/
def markFin (self : TcpReassembly) (seq : SeqPoint .In) : TcpReassembly :=
  { self with finSeq := some (self.finSeq.getD seq) }

/-- Whether a FIN has been recorded and `rcvNxt` has caught up to it. -/
def finReached (self : TcpReassembly) (rcvNxt : SeqPoint .In) : Bool :=
  match self.finSeq with
  | some finSeq => finSeq.precedesOrEq rcvNxt
  | none => false

/-- The list of `insert`: the first entry that starts at `seq` keeps the longer payload. -/
def insertSegment (seq : SeqPoint .In) (payload : TcpPayload) :
    List (SeqPoint .In × TcpPayload) → List (SeqPoint .In × TcpPayload)
  | [] => [(seq, payload)]
  | (start, existing) :: rest =>
    if start = seq then
      (start, if payload.len > existing.len then payload else existing) :: rest
    else (start, existing) :: insertSegment seq payload rest

/-- Buffers `payload` starting at `seq` for later reassembly. -/
def insert (self : TcpReassembly) (seq : SeqPoint .In) (payload : TcpPayload) :
    TcpReassembly :=
  { self with segments := insertSegment seq payload self.segments }

/-- One round of the iterator: entries at or before `rcvNxt` are extracted one by one until
    the extracted one starts at `rcvNxt`; the entries after it are not visited. -/
def nextContiguous (rcvNxt : SeqPoint .In) :
    List (SeqPoint .In × TcpPayload) → Option TcpPayload × List (SeqPoint .In × TcpPayload)
  | [] => (none, [])
  | (start, payload) :: rest =>
    if start.precedesOrEq rcvNxt then
      if start = rcvNxt then (some payload, rest) else nextContiguous rcvNxt rest
    else
      let (found, kept) := nextContiguous rcvNxt rest
      (found, (start, payload) :: kept)

/-- The rounds of the iterator, at most `fuel` of them. -/
def drainRounds : Nat → List (SeqPoint .In × TcpPayload) → SeqPoint .In →
    List TcpPayload × List (SeqPoint .In × TcpPayload) × SeqPoint .In
  | 0, segments, rcvNxt => ([], segments, rcvNxt)
  | fuel + 1, segments, rcvNxt =>
    match nextContiguous rcvNxt segments with
    | (none, kept) => ([], kept, rcvNxt)
    | (some payload, kept) =>
      let (payloads, kept', rcvNxt') := drainRounds fuel kept (rcvNxt + payload.len)
      (payload :: payloads, kept', rcvNxt')

/-- `drain_contiguous` run to exhaustion: the payloads yielded, the buffer left and the
    advanced RCV.NXT.  Every round but the last removes an entry, so one round more than
    there are entries exhausts the iterator. -/
def drainContiguous (self : TcpReassembly) (rcvNxt : SeqPoint .In) :
    List TcpPayload × TcpReassembly × SeqPoint .In :=
  let (payloads, kept, rcvNxt') := drainRounds (self.segments.length + 1) self.segments rcvNxt
  (payloads, { self with segments := kept }, rcvNxt')

/-- Draining leaves the recorded FIN in place. -/
theorem drainContiguous_finSeq {self reassembly : TcpReassembly} {payloads : List TcpPayload}
    {rcvNxt rcvNxt' : SeqPoint .In}
    (h : self.drainContiguous rcvNxt = (payloads, reassembly, rcvNxt')) :
    reassembly.finSeq = self.finSeq := by
  unfold drainContiguous at h
  obtain ⟨-, hrest⟩ := Prod.mk.inj h
  obtain ⟨hreassembly, -⟩ := Prod.mk.inj hrest
  rw [← hreassembly]

/-! ### What the buffer holds after an insertion -/

/-- An insertion adds nothing but the inserted segment. -/
theorem mem_insertSegment {seq : SeqPoint .In} {payload : TcpPayload}
    {segments : List (SeqPoint .In × TcpPayload)} {e : SeqPoint .In × TcpPayload}
    (h : e ∈ insertSegment seq payload segments) : e ∈ segments ∨ e = (seq, payload) := by
  induction segments with
  | nil => exact .inr (List.mem_singleton.mp h)
  | cons e' rest ih =>
    obtain ⟨start, existing⟩ := e'
    unfold insertSegment at h
    split at h
    case isTrue heq =>
      rcases List.mem_cons.mp h with rfl | hmem
      · split
        · exact .inr (by rw [heq])
        · exact .inl List.mem_cons_self
      · exact .inl (List.mem_cons_of_mem _ hmem)
    case isFalse =>
      rcases List.mem_cons.mp h with rfl | hmem
      · exact .inl List.mem_cons_self
      · exact (ih hmem).imp_left (List.mem_cons_of_mem _)

/-- After an insertion something starts at the inserted position. -/
theorem exists_insertSegment (seq : SeqPoint .In) (payload : TcpPayload)
    (segments : List (SeqPoint .In × TcpPayload)) :
    ∃ p, (seq, p) ∈ insertSegment seq payload segments := by
  induction segments with
  | nil => exact ⟨payload, List.mem_singleton.mpr rfl⟩
  | cons e rest ih =>
    obtain ⟨start, existing⟩ := e
    unfold insertSegment
    split
    case isTrue heq => exact ⟨_, by rw [heq]; exact List.mem_cons_self⟩
    case isFalse =>
      obtain ⟨p, hp⟩ := ih
      exact ⟨p, List.mem_cons_of_mem _ hp⟩

/-- An insertion never leaves a start position empty that was filled before. -/
theorem insertSegment_keeps {seq start : SeqPoint .In} {payload p : TcpPayload}
    {segments : List (SeqPoint .In × TcpPayload)} (h : (start, p) ∈ segments) :
    ∃ q, (start, q) ∈ insertSegment seq payload segments := by
  induction segments with
  | nil => cases h
  | cons e rest ih =>
    obtain ⟨start', existing⟩ := e
    unfold insertSegment
    split
    case isTrue =>
      rcases List.mem_cons.mp h with heq | hmem
      · obtain ⟨rfl, rfl⟩ := Prod.mk.inj heq
        exact ⟨_, List.mem_cons_self⟩
      · exact ⟨p, List.mem_cons_of_mem _ hmem⟩
    case isFalse =>
      rcases List.mem_cons.mp h with heq | hmem
      · obtain ⟨rfl, rfl⟩ := Prod.mk.inj heq
        exact ⟨_, List.mem_cons_self⟩
      · obtain ⟨q, hq⟩ := ih hmem
        exact ⟨q, List.mem_cons_of_mem _ hq⟩

/-! ### The iterator follows the greedy chain -/

/-- Buffered segments as pieces at offsets from `base`. -/
def held (base : SeqPoint .In) (segments : List (SeqPoint .In × TcpPayload)) :
    List (Nat × List UInt8) :=
  segments.map fun e => (base.dist e.1, e.2.data)

/-- The entries that start after offset `n` from `base`. -/
def after (base : SeqPoint .In) (n : Nat) (segments : List (SeqPoint .In × TcpPayload)) :
    List (SeqPoint .In × TcpPayload) :=
  segments.filter fun e => decide (n < base.dist e.1)

/-- Every entry lies within half the circle from `base`, its end included. -/
def Within (base : SeqPoint .In) (segments : List (SeqPoint .In × TcpPayload)) : Prop :=
  ∀ e ∈ segments, base.dist e.1 + e.2.len ≤ 2 ^ 31

variable {base rcvNxt rcvNxt' : SeqPoint .In}
  {segments kept : List (SeqPoint .In × TcpPayload)}

theorem mem_held {n : Nat} {p : List UInt8} :
    (n, p) ∈ held base segments ↔ ∃ e ∈ segments, base.dist e.1 = n ∧ e.2.data = p := by
  simp [held]

/-- Within half the circle, the comparison with RCV.NXT is one of offsets. -/
theorem precedesOrEq_iff_le {start : SeqPoint .In} (hs : base.dist start < 2 ^ 31)
    (hr : base.dist rcvNxt ≤ 2 ^ 31) :
    start.precedesOrEq rcvNxt = true ↔ base.dist start ≤ base.dist rcvNxt := by
  have hd := SeqPoint.dist_eq base start rcvNxt
  rw [SeqPoint.precedesOrEq_iff]
  rcases Nat.lt_or_ge (base.dist rcvNxt) (base.dist start) with h | h
  · rw [Nat.mod_eq_of_lt (by omega)] at hd
    omega
  · have hsplit : base.dist rcvNxt + (2 ^ 32 - base.dist start)
        = (base.dist rcvNxt - base.dist start) + 2 ^ 32 := by omega
    rw [hsplit, Nat.add_mod_right, Nat.mod_eq_of_lt (by omega)] at hd
    omega

theorem after_cons (base : SeqPoint .In) (n : Nat) (e : SeqPoint .In × TcpPayload)
    (segments : List (SeqPoint .In × TcpPayload)) :
    after base n (e :: segments)
      = if n < base.dist e.1 then e :: after base n segments else after base n segments := by
  unfold after
  by_cases h : n < base.dist e.1
  · rw [if_pos h, List.filter_cons_of_pos (by simpa using h)]
  · rw [if_neg h, List.filter_cons_of_neg (by simpa using h)]

/-- Looking further ahead forgets what a nearer look kept. -/
theorem after_after {m n : Nat} (h : m ≤ n) :
    after base n (after base m segments) = after base n segments := by
  unfold after
  rw [List.filter_filter]
  apply List.filter_congr
  intro e _
  simp only [Bool.and_eq_left_iff_imp, decide_eq_true_eq]
  omega

theorem after_subset {n : Nat} : ∀ e ∈ after base n segments, e ∈ segments := fun _ he =>
  (List.mem_filter.mp he).1

/-- What one round may leave of the buffer, for the entry it found. -/
structure Round (base rcvNxt : SeqPoint .In) (segments : List (SeqPoint .In × TcpPayload))
    (found : Option TcpPayload) (kept : List (SeqPoint .In × TcpPayload)) : Prop where
  subset : ∀ e ∈ kept, e ∈ segments
  after_eq : after base (base.dist rcvNxt) kept = after base (base.dist rcvNxt) segments
  some : ∀ p, found = some p → (rcvNxt, p) ∈ segments ∧ kept.length < segments.length
  none : found = none →
    (∀ e ∈ segments, e.1 ≠ rcvNxt) ∧ kept = after base (base.dist rcvNxt) segments

/-- **One round.** It yields an entry that starts at RCV.NXT if there is one; entries that
    start later are all kept, and earlier ones are gone once nothing is yielded. -/
theorem nextContiguous_round (hw : Within base segments) (hr : base.dist rcvNxt ≤ 2 ^ 31) :
    Round base rcvNxt segments (nextContiguous rcvNxt segments).1
      (nextContiguous rcvNxt segments).2 := by
  induction segments with
  | nil => exact ⟨by simp [nextContiguous], rfl, by simp [nextContiguous], by simp [after,
      nextContiguous]⟩
  | cons e rest ih =>
    obtain ⟨start, payload⟩ := e
    have ih := ih fun e he => hw e (List.mem_cons_of_mem _ he)
    have hlt : base.dist start < 2 ^ 31 := by
      have hstart := hw (start, payload) List.mem_cons_self
      have hpos := payload.len_pos
      simp only at hstart
      omega
    have hle := precedesOrEq_iff_le hlt hr
    have hcons := after_cons base (base.dist rcvNxt) (start, payload) rest
    unfold nextContiguous
    split
    case isTrue hpre =>
      -- the entry is extracted
      rw [if_neg (by have := hle.mp hpre; simp only; omega)] at hcons
      split
      case isTrue heq =>
        refine ⟨fun e he => List.mem_cons_of_mem _ he, hcons.symm, ?_, nofun⟩
        rintro p ⟨⟩
        exact ⟨by rw [heq]; exact List.mem_cons_self, by simp⟩
      case isFalse hne =>
        refine ⟨fun e he => List.mem_cons_of_mem _ (ih.subset e he), ih.after_eq.trans hcons.symm,
          fun p hp => ?_, fun hno => ?_⟩
        · obtain ⟨hmem, hlen⟩ := ih.some p hp
          exact ⟨List.mem_cons_of_mem _ hmem, by rw [List.length_cons]; omega⟩
        · obtain ⟨hne', hkept⟩ := ih.none hno
          refine ⟨fun e he => ?_, hkept.trans hcons.symm⟩
          rcases List.mem_cons.mp he with rfl | he
          · exact hne
          · exact hne' e he
    case isFalse hpre =>
      -- the entry lies ahead and stays
      have hahead : base.dist rcvNxt < base.dist start := by
        by_contra hno; exact hpre (hle.mpr (by omega))
      rw [if_pos hahead] at hcons
      have hkept := after_cons base (base.dist rcvNxt) (start, payload)
        (nextContiguous rcvNxt rest).2
      rw [if_pos hahead, ih.after_eq, ← hcons] at hkept
      refine ⟨fun e he => ?_, hkept, fun p hp => ?_, fun hno => ?_⟩
      · rcases List.mem_cons.mp he with rfl | he
        · exact List.mem_cons_self
        · exact List.mem_cons_of_mem _ (ih.subset e he)
      · obtain ⟨hmem, hlen⟩ := ih.some p hp
        exact ⟨List.mem_cons_of_mem _ hmem, by simpa using hlen⟩
      · obtain ⟨hne', hall⟩ := ih.none hno
        refine ⟨fun e he => ?_, ?_⟩
        · rcases List.mem_cons.mp he with rfl | he
          · rintro rfl; exact absurd hahead (lt_irrefl _)
          · exact hne' e he
        · rw [hcons]; exact congrArg _ hall

/-- Two buffers that agree past `m` hold the same pieces from any later offset on. -/
theorem held_congr {m n : Nat} (hmn : m < n) (h : after base m kept = after base m segments)
    (p : List UInt8) : (n, p) ∈ held base kept ↔ (n, p) ∈ held base segments := by
  have hafter : ∀ l : List (SeqPoint .In × TcpPayload),
      (n, p) ∈ held base l ↔ (n, p) ∈ held base (after base m l) := by
    intro l
    rw [mem_held, mem_held]
    constructor
    · rintro ⟨e, he, hn, hp⟩
      exact ⟨e, List.mem_filter.mpr ⟨he, by simpa using by omega⟩, hn, hp⟩
    · rintro ⟨e, he, hn, hp⟩
      exact ⟨e, after_subset e he, hn, hp⟩
  rw [hafter kept, hafter segments, h]

/-- The rounds together: a greedy chain that keeps exactly the entries past its end. -/
theorem drainRounds_chain (fuel : Nat) {payloads : List TcpPayload}
    (hfuel : segments.length < fuel) (hw : Within base segments)
    (hr : base.dist rcvNxt ≤ 2 ^ 31)
    (h : drainRounds fuel segments rcvNxt = (payloads, kept, rcvNxt')) :
    Stream.Chain (held base segments) (base.dist rcvNxt) (payloads.map (·.data))
        (base.dist rcvNxt') ∧
      base.dist rcvNxt' ≤ 2 ^ 31 ∧ kept = after base (base.dist rcvNxt') segments := by
  induction fuel generalizing segments rcvNxt payloads kept with
  | zero => omega
  | succ fuel ih =>
    have hround := nextContiguous_round hw hr
    rw [drainRounds] at h
    generalize nextContiguous rcvNxt segments = r at h hround
    obtain ⟨found, kept₁⟩ := r
    cases found with
    | none =>
      obtain ⟨rfl, hrest⟩ := Prod.mk.inj h
      obtain ⟨rfl, rfl⟩ := Prod.mk.inj hrest
      obtain ⟨hno, hkept⟩ := hround.none rfl
      refine ⟨.stop fun p hp => ?_, hr, hkept⟩
      obtain ⟨e, he, hn, -⟩ := mem_held.mp hp
      exact hno e he (SeqPoint.dist_inj.mp hn)
    | some p =>
      have hmem : (rcvNxt, p) ∈ segments := (hround.some p rfl).1
      have hlen : kept₁.length < segments.length := (hround.some p rfl).2
      have hp : base.dist rcvNxt + p.len ≤ 2 ^ 31 := hw _ hmem
      have hpos := p.len_pos
      have hnext : base.dist (rcvNxt + p.len) = base.dist rcvNxt + p.len := by
        rw [SeqPoint.dist_add, Nat.mod_eq_of_lt (by omega)]
      obtain ⟨⟨outs, kept₂, rcvNxt₂⟩, hrest⟩ : ∃ r,
        drainRounds fuel kept₁ (rcvNxt + p.len) = r := ⟨_, rfl⟩
      simp only [hrest, Prod.mk.injEq] at h
      obtain ⟨rfl, rfl, rfl⟩ := h
      have hfuel' : kept₁.length < fuel := by omega
      obtain ⟨hchain, hr', hkept⟩ := ih hfuel'
        (fun e he => hw e (hround.subset e he)) (by rw [hnext]; exact hp) hrest
      have hle := hchain.le
      rw [hnext] at hchain hle
      refine ⟨.take (mem_held.mpr ⟨_, hmem, rfl, rfl⟩) (hchain.congr fun o q ho => ?_), hr', ?_⟩
      · have ho' : base.dist rcvNxt + p.len ≤ o := ho
        exact held_congr (by omega) hround.after_eq q
      · have hpast : base.dist rcvNxt ≤ base.dist rcvNxt₂ := by omega
        rw [hkept, ← after_after hpast, hround.after_eq, after_after hpast]

/-- **The iterator is the greedy chain.** Seen as offsets from `base`, with everything
    within half the circle, draining from RCV.NXT yields the chain of held pieces, leaves
    RCV.NXT at its end, and keeps exactly the entries past that end. -/
theorem drainContiguous_chain {self reassembly : TcpReassembly} {payloads : List TcpPayload}
    (hw : Within base self.segments) (hr : base.dist rcvNxt ≤ 2 ^ 31)
    (h : self.drainContiguous rcvNxt = (payloads, reassembly, rcvNxt')) :
    Stream.Chain (held base self.segments) (base.dist rcvNxt) (payloads.map (·.data))
        (base.dist rcvNxt') ∧
      base.dist rcvNxt' ≤ 2 ^ 31 ∧
      reassembly = ⟨after base (base.dist rcvNxt') self.segments, self.finSeq⟩ := by
  unfold drainContiguous at h
  obtain ⟨⟨outs, kept, rcvNxt₁⟩, hrounds⟩ : ∃ r,
    drainRounds (self.segments.length + 1) self.segments rcvNxt = r := ⟨_, rfl⟩
  simp only [hrounds, Prod.mk.injEq] at h
  obtain ⟨rfl, rfl, rfl⟩ := h
  obtain ⟨hchain, hr', rfl⟩ := drainRounds_chain _ (Nat.lt_succ_self _) hw hr hrounds
  exact ⟨hchain, hr', rfl⟩

end TcpReassembly

end Typenet
