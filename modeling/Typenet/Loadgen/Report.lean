import Typenet.Lib.OrderStatistic
import Typenet.Stack.Tcp.PendingSegment

namespace Typenet

/-!
# The load generator's report

What the connections of a load test come to, and the report on all of them.  Throughput and CPU
load relative to the time are floating-point numbers; the report is the same function of them
whatever their arithmetic does, so it takes that as a parameter.

* `percentile_ok` — a percentile is an order statistic;
* `report_exact` — no outcomes make `summarize` fail, their order does not matter, and what it
  says of them is right.
-/

open OrderStatistic

variable {F : Type}

/-! ### One connection -/

/-- What a connection of the load generator comes to. -/
structure ConnectionOutcome where
  /-- Whether the echoed reply matched the sent payload byte for byte. -/
  verified : Bool
  /-- The number of bytes read back from the server. -/
  bytesEchoed : Nat
  /-- The time from just before connecting until the last byte of the reply was read. -/
  roundTrip : Duration
  deriving DecidableEq, Repr

def USIZE_MAX : Nat := 2 ^ 64 - 1

/-- `usize::saturating_add`. -/
def usizeSaturatingAdd (a b : Nat) : Nat := min (a + b) USIZE_MAX

/-- `usize::saturating_mul`. -/
def usizeSaturatingMul (a b : Nat) : Nat := min (a * b) USIZE_MAX

/-- The `pct`-th percentile of `sorted`, which must be non-empty and already sorted ascending. -/
def percentile (sorted : List Duration) (pct : Nat) : TraceableResult Duration :=
  if sorted.length = 0 then
    .error (.static "Cannot compute a percentile of an empty latency set")
  else
    let lastIndex := sorted.length - 1
    let index := usizeSaturatingMul lastIndex pct / 100
    match sorted[index]? with
    | some latency => .ok latency
    | none => .error (.dynamic s!"Index {index} out of range for {sorted.length} latencies")

/-- The connections whose reply was what they had sent. -/
def successes (outcomes : List (TraceableResult ConnectionOutcome)) : List ConnectionOutcome :=
  (outcomes.filterMap fun outcome => outcome.toOption).filter (·.verified)

/-- The arithmetic of `f64` that a report takes, on a type `F` that stands for its numbers. -/
structure F64Arith (F : Type) where
  /-- `usize as f64` -/
  ofUsize : Nat → F
  /-- `Duration::as_secs_f64` -/
  asSecs : Duration → F
  div : F → F → F
  mul : F → F → F
  /-- `100.0` -/
  hundred : F
  /-- `x > 0.0` -/
  isPositive : F → Bool

/-- Summary of a load test. -/
@[ext] structure Report (F : Type) where
  attempted : Nat
  verified : Nat
  mismatched : Nat
  errored : Nat
  bytesTransferred : Nat
  wallTime : Duration
  throughputBytesPerSec : Option F
  p50 : Option Duration
  p95 : Option Duration
  p99 : Option Duration
  max : Option Duration
  serverCpu : Option Duration
  serverCpuPctOfWall : Option F
  deriving DecidableEq, Repr

namespace Report

/-- The latencies of a report, none of them without a success. -/
def latencies (sorted : List Duration) :
    TraceableResult (Option Duration × Option Duration × Option Duration × Option Duration) :=
  if sorted.isEmpty then .ok (none, none, none, none)
  else do
    let p50 ← percentile sorted 50
    let p95 ← percentile sorted 95
    let p99 ← percentile sorted 99
    .ok (some p50, some p95, some p99, sorted.getLast?)

/-- Aggregates the outcomes into counts, throughput and latency percentiles, and relates the CPU
    time of the server, if measured, to the wall time. -/
def summarize (f64 : F64Arith F) (outcomes : List (TraceableResult ConnectionOutcome))
    (wallTime : Duration) (serverCpu : Option Duration) : TraceableResult (Report F) := do
  let mismatched := outcomes.countP fun outcome =>
    match outcome with
    | .ok o => !o.verified
    | .error _ => false
  let errored := outcomes.countP fun outcome => !outcome.isOk
  let successes := successes outcomes
  let bytesTransferred := successes.foldl (fun acc o => usizeSaturatingAdd acc o.bytesEchoed) 0
  let sorted := (successes.map (·.roundTrip)).insertionSort (· ≤ ·)
  let (p50, p95, p99, max) ← latencies sorted
  let wallSecs := f64.asSecs wallTime
  let throughputBytesPerSec :=
    if f64.isPositive wallSecs then some (f64.div (f64.ofUsize bytesTransferred) wallSecs) else none
  let serverCpuPctOfWall :=
    (if f64.isPositive wallSecs then
      some (serverCpu.map fun cpu => f64.mul (f64.div (f64.asSecs cpu) wallSecs) f64.hundred)
    else none).join
  .ok {
    attempted := outcomes.length
    verified := successes.length
    mismatched := mismatched
    errored := errored
    bytesTransferred := bytesTransferred
    wallTime := wallTime
    throughputBytesPerSec := throughputBytesPerSec
    p50 := p50
    p95 := p95
    p99 := p99
    max := max
    serverCpu := serverCpu
    serverCpuPctOfWall := serverCpuPctOfWall }

end Report

/-! ### Percentiles -/

/-- The rank of the `pct`-th percentile among `n` latencies. -/
def percentileRank (n pct : Nat) : Nat := usizeSaturatingMul (n - 1) pct / 100

theorem percentileRank_le (n : Nat) {pct : Nat} (hpct : pct ≤ 100) :
    percentileRank n pct ≤ n - 1 := by
  have hle : usizeSaturatingMul (n - 1) pct ≤ (n - 1) * 100 :=
    (Nat.min_le_left _ _).trans (Nat.mul_le_mul_left _ hpct)
  unfold percentileRank
  omega

/-- A higher percentile has no lower rank. -/
theorem percentileRank_mono (n : Nat) {pct pct' : Nat} (h : pct ≤ pct') :
    percentileRank n pct ≤ percentileRank n pct' := by
  have hmul : (n - 1) * pct ≤ (n - 1) * pct' := Nat.mul_le_mul_left _ h
  unfold percentileRank usizeSaturatingMul
  omega

/-- **A percentile of sorted latencies** is the order statistic of its rank. -/
theorem percentile_ok {sorted : List Duration} (hne : sorted ≠ [])
    (hsorted : sorted.Pairwise (· ≤ ·)) {pct : Nat} (hpct : pct ≤ 100) :
    ∃ latency, percentile sorted pct = .ok latency ∧
      IsNth sorted (percentileRank sorted.length pct) latency := by
  have hpos := List.length_pos_iff.mpr hne
  have hrank : percentileRank sorted.length pct < sorted.length := by
    have hle := percentileRank_le sorted.length hpct
    omega
  refine ⟨sorted[percentileRank sorted.length pct], ?_, isNth_getElem hsorted hrank⟩
  unfold percentile
  rw [if_neg hpos.ne']
  have hget := List.getElem?_eq_getElem hrank
  unfold percentileRank at hget
  simp only [hget]
  rfl

/-! ### What a report says -/

/-- A reported latency: none without a round trip, and otherwise the one of rank `k`. -/
def Ranked (trips : List Duration) (k : Nat) : Option Duration → Prop
  | none => trips = []
  | some latency => IsNth trips k latency

/-- What the report on `outcomes` says. -/
structure Report.Describes (f64 : F64Arith F) (report : Report F)
    (outcomes : List (TraceableResult ConnectionOutcome)) (wallTime : Duration)
    (serverCpu : Option Duration) : Prop where
  /-- Every attempt is counted once. -/
  attempted : report.attempted = outcomes.length
  parts : report.verified + report.mismatched + report.errored = report.attempted
  verified : report.verified = (successes outcomes).length
  errored : report.errored = outcomes.countP fun outcome => !outcome.isOk
  bytesTransferred : report.bytesTransferred
    = min ((successes outcomes).map (·.bytesEchoed)).sum USIZE_MAX
  /-- Bytes per second of the wall time, if it is positive. -/
  throughputBytesPerSec : report.throughputBytesPerSec
    = if f64.isPositive (f64.asSecs wallTime)
      then some (f64.div (f64.ofUsize report.bytesTransferred) (f64.asSecs wallTime)) else none
  /-- The CPU time in percent of the wall time, if it has been measured. -/
  serverCpuPctOfWall : report.serverCpuPctOfWall
    = if f64.isPositive (f64.asSecs wallTime)
      then serverCpu.map fun cpu =>
        f64.mul (f64.div (f64.asSecs cpu) (f64.asSecs wallTime)) f64.hundred
      else none
  wallTime : report.wallTime = wallTime
  serverCpu : report.serverCpu = serverCpu
  /-- The latencies are those of the successes. -/
  p50 : Ranked ((successes outcomes).map (·.roundTrip)) (percentileRank report.verified 50)
    report.p50
  p95 : Ranked ((successes outcomes).map (·.roundTrip)) (percentileRank report.verified 95)
    report.p95
  p99 : Ranked ((successes outcomes).map (·.roundTrip)) (percentileRank report.verified 99)
    report.p99
  max : Ranked ((successes outcomes).map (·.roundTrip)) (report.verified - 1) report.max

/-- A latency of a higher rank is no less. -/
theorem Ranked.le {trips : List Duration} {k l : Nat} {lower upper : Option Duration}
    (h : Ranked trips k lower) (h' : Ranked trips l upper) (hkl : k ≤ l) :
    ∀ s ∈ lower, ∀ t ∈ upper, s ≤ t := by
  rintro s rfl t rfl
  exact IsNth.le h h' hkl

/-- Each rank has one latency, in whichever order the round trips are listed. -/
theorem Ranked.unique {trips trips' : List Duration} {k : Nat} {latency latency' : Option Duration}
    (h : Ranked trips k latency) (h' : Ranked trips' k latency') (hperm : trips.Perm trips') :
    latency = latency' := by
  cases latency with
  | none =>
    obtain rfl : trips = [] := h
    cases latency' with
    | none => rfl
    | some t => exact absurd (IsNth.mem h') (hperm.nil_eq ▸ List.not_mem_nil)
  | some s =>
    have hs := IsNth.perm h hperm
    cases latency' with
    | none =>
      obtain rfl : trips' = [] := h'
      exact absurd hs.mem List.not_mem_nil
    | some t => exact congrArg some (hs.unique h')

/-- **The reported latencies** exist, and are those of the right ranks. -/
theorem latencies_ok (trips : List Duration) :
    ∃ p50 p95 p99 max,
      Report.latencies (trips.insertionSort (· ≤ ·)) = .ok (p50, p95, p99, max) ∧
      Ranked trips (percentileRank trips.length 50) p50 ∧
      Ranked trips (percentileRank trips.length 95) p95 ∧
      Ranked trips (percentileRank trips.length 99) p99 ∧
      Ranked trips (trips.length - 1) max := by
  by_cases hne : trips = []
  · subst hne
    exact ⟨none, none, none, none, rfl, rfl, rfl, rfl, rfl⟩
  · have hperm := List.perm_insertionSort (· ≤ ·) trips
    have hlen := hperm.length_eq
    have hsorted := List.pairwise_insertionSort (· ≤ ·) trips
    generalize trips.insertionSort (· ≤ ·) = sorted at hperm hlen hsorted
    have hne' : sorted ≠ [] := fun hnil => hne (List.nil_perm.mp (hnil ▸ hperm))
    obtain ⟨p50, h50, hnth50⟩ := percentile_ok hne' hsorted (by decide : 50 ≤ 100)
    obtain ⟨p95, h95, hnth95⟩ := percentile_ok hne' hsorted (by decide : 95 ≤ 100)
    obtain ⟨p99, h99, hnth99⟩ := percentile_ok hne' hsorted (by decide : 99 ≤ 100)
    have hlast := isNth_getElem hsorted (Nat.sub_one_lt (List.length_pos_iff.mpr hne').ne')
    rw [← List.getLast_eq_getElem hne'] at hlast
    rw [hlen] at hnth50 hnth95 hnth99 hlast
    refine ⟨some p50, some p95, some p99, some (sorted.getLast hne'), ?_, hnth50.perm hperm,
      hnth95.perm hperm, hnth99.perm hperm, hlast.perm hperm⟩
    unfold Report.latencies
    rw [if_neg (by simpa using hne'), h50, h95, h99, List.getLast?_eq_some_getLast hne']
    rfl

/-- An outcome is a success, a mismatch or an error. -/
theorem successes_partition (outcomes : List (TraceableResult ConnectionOutcome)) :
    (successes outcomes).length
      + (outcomes.countP fun outcome => match outcome with
        | .ok o => !o.verified
        | .error _ => false)
      + (outcomes.countP fun outcome => !outcome.isOk) = outcomes.length := by
  induction outcomes with
  | nil => rfl
  | cons outcome outcomes ih =>
    unfold successes at ih ⊢
    obtain e | ⟨verified, bytesEchoed, roundTrip⟩ := outcome
    · simp [Except.toOption, Except.isOk, Except.toBool] at ih ⊢
      omega
    · cases verified <;> simp [Except.toOption, Except.isOk, Except.toBool] at ih ⊢ <;> omega

/-- Saturating on the way is saturating at the end. -/
theorem foldl_saturatingAdd (outcomes : List ConnectionOutcome) (acc : Nat) :
    outcomes.foldl (fun acc o => usizeSaturatingAdd acc o.bytesEchoed) (min acc USIZE_MAX)
      = min (acc + (outcomes.map (·.bytesEchoed)).sum) USIZE_MAX := by
  induction outcomes generalizing acc with
  | nil => simp
  | cons o outcomes ih =>
    have hstep : usizeSaturatingAdd (min acc USIZE_MAX) o.bytesEchoed
        = min (acc + o.bytesEchoed) USIZE_MAX := by
      unfold usizeSaturatingAdd
      omega
    rw [List.foldl_cons, hstep, ih, List.map_cons, List.sum_cons, Nat.add_assoc]

/-- **The report** describes the outcomes, and no outcomes make it fail. -/
theorem summarize_describes (f64 : F64Arith F)
    (outcomes : List (TraceableResult ConnectionOutcome)) (wallTime : Duration)
    (serverCpu : Option Duration) :
    ∃ report, Report.summarize f64 outcomes wallTime serverCpu = .ok report ∧
      report.Describes f64 outcomes wallTime serverCpu := by
  obtain ⟨p50, p95, p99, max, hlatencies, h50, h95, h99, hmax⟩ :=
    latencies_ok ((successes outcomes).map (·.roundTrip))
  rw [List.length_map] at h50 h95 h99 hmax
  have hbytes := foldl_saturatingAdd (successes outcomes) 0
  rw [Nat.zero_min, Nat.zero_add] at hbytes
  unfold Report.summarize
  simp only [hlatencies]
  refine ⟨_, rfl, ⟨rfl, successes_partition outcomes, rfl, rfl, hbytes, rfl, ?_, rfl, rfl, h50, h95,
    h99, hmax⟩⟩
  -- the CPU time counts only over a positive wall time
  simp only
  split <;> rfl

/-- The reported latencies grow. -/
theorem Report.Describes.grow {f64 : F64Arith F} {report : Report F}
    {outcomes : List (TraceableResult ConnectionOutcome)} {wallTime : Duration}
    {serverCpu : Option Duration} (h : report.Describes f64 outcomes wallTime serverCpu) :
    [report.p50, report.p95, report.p99, report.max].Pairwise
      fun lower upper => ∀ s ∈ lower, ∀ t ∈ upper, s ≤ t := by
  have h5095 := percentileRank_mono report.verified (by decide : 50 ≤ 95)
  have h9599 := percentileRank_mono report.verified (by decide : 95 ≤ 99)
  have hlast := percentileRank_le report.verified (by decide : 99 ≤ 100)
  simp only [List.pairwise_cons, List.mem_cons, List.not_mem_nil, or_false, forall_eq_or_imp,
    forall_eq, List.Pairwise.nil, and_true, false_imp_iff, forall_const]
  refine ⟨⟨?_, ?_, ?_⟩, ⟨?_, ?_⟩, ?_⟩
  · exact h.p50.le h.p95 h5095
  · exact h.p50.le h.p99 (h5095.trans h9599)
  · exact h.p50.le h.max ((h5095.trans h9599).trans hlast)
  · exact h.p95.le h.p99 h9599
  · exact h.p95.le h.max (h9599.trans hlast)
  · exact h.p99.le h.max hlast

/-- What describes the same outcomes, in whichever order, is the same report. -/
theorem Report.Describes.unique {f64 : F64Arith F} {report report' : Report F}
    {outcomes outcomes' : List (TraceableResult ConnectionOutcome)} {wallTime : Duration}
    {serverCpu : Option Duration} (h : report.Describes f64 outcomes wallTime serverCpu)
    (h' : report'.Describes f64 outcomes' wallTime serverCpu) (hperm : outcomes.Perm outcomes') :
    report = report' := by
  have hsuccesses : (successes outcomes).Perm (successes outcomes') :=
    (hperm.filterMap _).filter _
  have htrips := hsuccesses.map (·.roundTrip)
  have hattempted : report.attempted = report'.attempted := by
    rw [h.attempted, h'.attempted, hperm.length_eq]
  have hverified : report.verified = report'.verified := by
    rw [h.verified, h'.verified, hsuccesses.length_eq]
  have herrored : report.errored = report'.errored := by
    rw [h.errored, h'.errored, hperm.countP_eq]
  have hmismatched : report.mismatched = report'.mismatched := by
    have hparts := h.parts
    have hparts' := h'.parts
    omega
  have hbytes : report.bytesTransferred = report'.bytesTransferred := by
    rw [h.bytesTransferred, h'.bytesTransferred, (hsuccesses.map (·.bytesEchoed)).sum_nat]
  have h50 := h.p50.unique (hverified ▸ h'.p50) htrips
  have h95 := h.p95.unique (hverified ▸ h'.p95) htrips
  have h99 := h.p99.unique (hverified ▸ h'.p99) htrips
  have hmax := h.max.unique (hverified ▸ h'.max) htrips
  have hwall := h.wallTime.trans h'.wallTime.symm
  have hcpu := h.serverCpu.trans h'.serverCpu.symm
  have hthroughput : report.throughputBytesPerSec = report'.throughputBytesPerSec := by
    rw [h.throughputBytesPerSec, h'.throughputBytesPerSec, hbytes]
  have hcpuPct := h.serverCpuPctOfWall.trans h'.serverCpuPctOfWall.symm
  exact Report.ext hattempted hverified hmismatched herrored hbytes hwall hthroughput h50 h95 h99
    hmax hcpu hcpuPct

/-- **The report is exact**, whatever floating-point arithmetic does.  No outcomes make it fail, it
    is the same in whichever order the outcomes come, and it says what they come to: every attempt
    is counted once, each latency is the order statistic of its rank among the round trips of the
    verified connections, and throughput and CPU load are there exactly over a positive time. -/
theorem report_exact (f64 : F64Arith F) (outcomes : List (TraceableResult ConnectionOutcome))
    (wallTime : Duration) (serverCpu : Option Duration) : ∃ report : Report F,
      (∀ outcomes', outcomes.Perm outcomes' →
        Report.summarize f64 outcomes' wallTime serverCpu = .ok report) ∧
      report.Describes f64 outcomes wallTime serverCpu ∧
      [report.p50, report.p95, report.p99, report.max].Pairwise
        fun lower upper => ∀ s ∈ lower, ∀ t ∈ upper, s ≤ t := by
  obtain ⟨report, -, hreport⟩ := summarize_describes f64 outcomes wallTime serverCpu
  refine ⟨report, fun outcomes' hperm => ?_, hreport, hreport.grow⟩
  obtain ⟨report', hok, hreport'⟩ := summarize_describes f64 outcomes' wallTime serverCpu
  rw [hok, hreport.unique hreport' hperm]

/-- Whole numbers in the place of `f64`, and ticks in the place of seconds. -/
def TICKS : F64Arith Nat := ⟨id, id, (· / ·), (· * ·), 100, (0 < ·)⟩

/-- One of four connections fails and one gets a wrong reply; the latencies are those of the
    others, and the server has kept two cores busy. -/
example : Report.summarize TICKS [.ok ⟨true, 400, 30⟩, .ok ⟨false, 4, 10⟩, .error .tryFromInt,
      .ok ⟨true, 400, 20⟩] 40 (some 80)
    = .ok { attempted := 4, verified := 2, mismatched := 1, errored := 1, bytesTransferred := 800,
            wallTime := 40, throughputBytesPerSec := some 20, p50 := some 20, p95 := some 20,
            p99 := some 20, max := some 30, serverCpu := some 80,
            serverCpuPctOfWall := some 200 } := by
  decide

end Typenet
