import Mathlib.Algebra.GroupWithZero.Nat
import Mathlib.Tactic.Common

namespace Typenet

/-!
# Errors, panics and checked slice access

`TraceableResult` is the code's own result type.  Operations on byte slices can also
panic, so they return `Res`, whose failures are either an error value or a panic; a panic
is never turned into an error value.

* `tryGet` — the checked reads of `TryGet`;
* `copyInto`, `writeAt` — a checked mutable borrow followed by `copy_from_slice` or by an
  assignment, as one operation on the whole buffer;
* `readIndexed`, `copyIndexed`, `writeIndexed` — the same with an index that panics out of
  bounds;
* `Res.Yields` — total correctness of such computations, with its rule for sequences.
-/

/-! ### Errors -/

/-- The causes of an error, without the optional backtrace. -/
inductive TraceableError
  | static (s : String)
  | dynamic (s : String)
  | io (e : String)
  | tryFromInt
  deriving DecidableEq, Repr

/-- The `Display` text of an error.  The words for a number that does not fit are those of the
    standard library, which other toolchains may put otherwise. -/
def TraceableError.display : TraceableError → String
  | .static s => s
  | .dynamic s => s
  | .io e => s!"I/O error: {e}"
  | .tryFromInt => "Integer conversion error: out of range integral type conversion attempted"

abbrev TraceableResult (α : Type) := Except TraceableError α

/-- How a computation on slices fails: with an error value or by panicking. -/
inductive Fault
  | err (e : TraceableError)
  | panic
  deriving DecidableEq, Repr

abbrev Res (α : Type) := Except Fault α

namespace Res

/-- An error value of the code's own result type. -/
def ofResult {α : Type} : TraceableResult α → Res α
  | .ok a => .ok a
  | .error e => .error (.err e)

/-- `Result::map_err`, which a panic passes by. -/
def mapErr {α : Type} (f : TraceableError → TraceableError) : Res α → Res α
  | .ok a => .ok a
  | .error (.err e) => .error (.err (f e))
  | .error .panic => .error .panic

@[simp] theorem ofResult_eq_ok {α : Type} {r : TraceableResult α} {a : α} :
    ofResult r = .ok a ↔ r = .ok a := by
  cases r <;> simp [ofResult]

@[simp] theorem mapErr_eq_ok {α : Type} {f : TraceableError → TraceableError} {r : Res α}
    {a : α} : mapErr f r = .ok a ↔ r = .ok a := by
  rcases r with (_ | _) | _ <;> simp [mapErr]

@[simp] theorem ok_bind {α β : Type} (a : α) (f : α → Res β) : (Except.ok a >>= f) = f a := rfl

/-- A sequence of two computations succeeds exactly when both do. -/
theorem bind_eq_ok {α β : Type} {r : Res α} {f : α → Res β} {b : β} :
    (r >>= f) = .ok b ↔ ∃ a, r = .ok a ∧ f a = .ok b := by
  cases r <;> simp [bind, Except.bind]

/-! ### Total correctness -/

/-- The computation returns a value, and the value satisfies `P`. -/
def Yields {α : Type} (r : Res α) (P : α → Prop) : Prop := ∃ a, r = .ok a ∧ P a

/-- A value that satisfies `P` yields it. -/
theorem yields_ok {α : Type} {a : α} {P : α → Prop} (h : P a) : Yields (.ok a) P := ⟨a, rfl, h⟩

/-- **Sequence rule.** -/
theorem Yields.bind {α β : Type} {r : Res α} {f : α → Res β} {P : α → Prop} {Q : β → Prop}
    (h : r.Yields P) (hf : ∀ a, P a → (f a).Yields Q) : (r >>= f).Yields Q := by
  obtain ⟨a, rfl, ha⟩ := h
  exact hf a ha

/-- Success of an error-valued computation carries over. -/
theorem yields_ofResult {α : Type} {r : TraceableResult α} {a : α} {P : α → Prop}
    (h : r = .ok a) (ha : P a) : Yields (ofResult r) P := ⟨a, ofResult_eq_ok.mpr h, ha⟩

/-! ### Freedom from panics -/

/-- An error-valued computation does not panic. -/
theorem ofResult_ne_panic {α : Type} (r : TraceableResult α) : ofResult r ≠ .error .panic := by
  cases r <;> simp [ofResult]

/-- The computation does not panic, and if it returns a value, the value satisfies `P`. -/
def Safe {α : Type} (r : Res α) (P : α → Prop) : Prop :=
  r ≠ .error .panic ∧ ∀ a, r = .ok a → P a

/-- A value that satisfies `P` is safe. -/
theorem safe_ok {α : Type} {a : α} {P : α → Prop} (h : P a) : Safe (.ok a) P := by
  refine ⟨by simp, ?_⟩
  rintro _ ⟨⟩
  exact h

/-- An error is safe, whatever is asked of values. -/
theorem safe_err {α : Type} (e : TraceableError) (P : α → Prop) :
    Safe (.error (.err e) : Res α) P := by
  constructor <;> simp

/-- **Sequence rule** for safe computations. -/
theorem Safe.bind {α β : Type} {r : Res α} {f : α → Res β} {P : α → Prop} {Q : β → Prop}
    (h : r.Safe P) (hf : ∀ a, P a → (f a).Safe Q) : (r >>= f).Safe Q := by
  obtain ⟨hr, hP⟩ := h
  cases r with
  | error fault =>
    refine ⟨fun heq => hr (congrArg _ (Except.error.inj heq)), fun b hb => ?_⟩
    cases hb
  | ok a => exact hf a (hP a rfl)

/-- What yields a value is safe. -/
theorem Yields.safe {α : Type} {r : Res α} {P : α → Prop} (h : r.Yields P) : r.Safe P := by
  obtain ⟨a, rfl, ha⟩ := h
  exact safe_ok ha

/-- An error-valued computation is safe. -/
theorem safe_ofResult {α : Type} (r : TraceableResult α) : Safe (ofResult r) fun a => r = .ok a :=
  ⟨ofResult_ne_panic r, fun _ ha => ofResult_eq_ok.mp ha⟩

/-- A sequence panics only where one of its computations does. -/
theorem bind_ne_panic {α β : Type} {r : Res α} {f : α → Res β} (h : r ≠ .error .panic)
    (hf : ∀ a, f a ≠ .error .panic) : (r >>= f) ≠ .error .panic := by
  cases r with
  | error fault => exact fun heq => h (congrArg _ (Except.error.inj heq))
  | ok a => exact hf a

end Res

/-! ### Checked arithmetic -/

/-- `u16::try_add`. -/
def tryAddU16 (a b : UInt16) : TraceableResult UInt16 :=
  if a.toNat + b.toNat < 2 ^ 16 then .ok (a + b)
  else .error (.dynamic s!"Overflowed `u16` adding {a} and {b}")

/-- `usize::try_add`. -/
def tryAddUsize (a b : Nat) : TraceableResult Nat :=
  if a + b < 2 ^ 64 then .ok (a + b)
  else .error (.dynamic s!"Overflowed `usize` adding {a} and {b}")

/-- `u16::try_from` on a `usize`. -/
def u16TryFrom (n : Nat) : TraceableResult UInt16 :=
  if n < 2 ^ 16 then .ok (UInt16.ofNat n) else .error .tryFromInt

/-- The sum is exact when the addition succeeds. -/
theorem tryAddU16_eq_ok {a b c : UInt16} :
    tryAddU16 a b = .ok c ↔ a.toNat + b.toNat < 2 ^ 16 ∧ c.toNat = a.toNat + b.toNat := by
  unfold tryAddU16
  split
  case isTrue h =>
    rw [Except.ok.injEq, ← UInt16.toNat_inj, UInt16.toNat_add, Nat.mod_eq_of_lt h, eq_comm]
    exact (and_iff_right h).symm
  case isFalse h => exact iff_of_false nofun fun hc => h hc.1

/-- A checked sum of `usize` exists below `2 ^ 64`, and is exact. -/
theorem tryAddUsize_eq_ok {a b c : Nat} :
    tryAddUsize a b = .ok c ↔ a + b < 2 ^ 64 ∧ c = a + b := by
  unfold tryAddUsize; split <;> simp [eq_comm] <;> omega

/-- A conversion to `u16` succeeds below `2 ^ 16`, and is exact. -/
theorem u16TryFrom_eq_ok {n : Nat} {m : UInt16} :
    u16TryFrom n = .ok m ↔ n < 2 ^ 16 ∧ m.toNat = n := by
  unfold u16TryFrom
  split
  case isTrue h =>
    rw [Except.ok.injEq, ← UInt16.toNat_inj, UInt16.toNat_ofNat_of_lt' h, eq_comm]
    exact (and_iff_right h).symm
  case isFalse h => exact iff_of_false nofun fun hc => h hc.1

/-- The converted value. -/
theorem u16TryFrom_of_lt {n : Nat} (h : n < 2 ^ 16) : u16TryFrom n = .ok (UInt16.ofNat n) :=
  u16TryFrom_eq_ok.mpr ⟨h, UInt16.toNat_ofNat_of_lt' h⟩

/-! ### Checked slice access -/

/-- The index expressions used with `try_get` and `try_get_mut`. -/
inductive SliceIndex
  | to (hi : Nat)
  | range (lo hi : Nat)
  deriving DecidableEq, Repr

namespace SliceIndex

def lo : SliceIndex → Nat
  | .to _ => 0
  | .range lo _ => lo

def hi : SliceIndex → Nat
  | .to hi => hi
  | .range _ hi => hi

/-- The `Debug` text of an index. -/
def debug : SliceIndex → String
  | .to hi => s!"..{hi}"
  | .range lo hi => s!"{lo}..{hi}"

end SliceIndex

/-- The error of an index out of bounds. -/
def outOfRange (index : String) (n : Nat) : TraceableError :=
  .dynamic s!"Index {index} out of range on `[u8]` of length {n}"

/-- `try_get` on a range. -/
def tryGet (data : List UInt8) (i : SliceIndex) : Res (List UInt8) :=
  if i.lo ≤ i.hi ∧ i.hi ≤ data.length then .ok ((data.take i.hi).drop i.lo)
  else .error (.err (outOfRange i.debug data.length))

/-- `buf.try_get_mut(i)?.copy_from_slice(src)`, which panics on unequal lengths. -/
def copyInto (buf : List UInt8) (i : SliceIndex) (src : List UInt8) : Res (List UInt8) :=
  if i.lo ≤ i.hi ∧ i.hi ≤ buf.length then
    if src.length = i.hi - i.lo then .ok (buf.take i.lo ++ src ++ buf.drop i.hi)
    else .error .panic
  else .error (.err (outOfRange i.debug buf.length))

/-- `*buf.try_get_mut(i)? = b`. -/
def writeAt (buf : List UInt8) (i : Nat) (b : UInt8) : Res (List UInt8) :=
  if i < buf.length then .ok (buf.set i b)
  else .error (.err (outOfRange s!"{i}" buf.length))

/-- `&data[i]`, which panics out of bounds. -/
def readIndexed (data : List UInt8) (i : SliceIndex) : Res (List UInt8) :=
  if i.lo ≤ i.hi ∧ i.hi ≤ data.length then .ok ((data.take i.hi).drop i.lo)
  else .error .panic

/-- `buf[i].copy_from_slice(src)`, which panics on an index out of bounds as well. -/
def copyIndexed (buf : List UInt8) (i : SliceIndex) (src : List UInt8) : Res (List UInt8) :=
  if i.lo ≤ i.hi ∧ i.hi ≤ buf.length ∧ src.length = i.hi - i.lo then
    .ok (buf.take i.lo ++ src ++ buf.drop i.hi)
  else .error .panic

/-- `buf[i] = b`. -/
def writeIndexed (buf : List UInt8) (i : Nat) (b : UInt8) : Res (List UInt8) :=
  if i < buf.length then .ok (buf.set i b) else .error .panic

/-! ### When slice access succeeds -/

/-- What a copy into `lo..hi` leaves behind is as long as the buffer was. -/
theorem length_splice {buf src : List UInt8} {lo hi : Nat} (hlo : lo ≤ hi)
    (hhi : hi ≤ buf.length) (hsrc : src.length = hi - lo) :
    (buf.take lo ++ src ++ buf.drop hi).length = buf.length := by
  simp only [List.length_append, List.length_take, List.length_drop]
  omega

/-- A read of the front succeeds inside the slice. -/
theorem yields_tryGet {data : List UInt8} {hi n : Nat} (hn : data.length = n) (hhi : hi ≤ n) :
    (tryGet data (.to hi)).Yields fun d => d.length = hi :=
  ⟨_, if_pos ⟨Nat.zero_le _, hn ▸ hhi⟩, List.length_take_of_le (hn ▸ hhi)⟩

/-- Reading a front part that is there yields it. -/
theorem yields_readIndexed {data : List UInt8} {hi n : Nat} (hn : data.length = n)
    (hhi : hi ≤ n) : (readIndexed data (.to hi)).Yields fun d => d.length = hi :=
  ⟨_, if_pos ⟨Nat.zero_le _, hn ▸ hhi⟩, List.length_take_of_le (hn ▸ hhi)⟩

/-- **A copy succeeds** when the range is inside the buffer and as long as its source. -/
theorem yields_copyInto {buf src : List UInt8} {lo hi n : Nat} (hn : buf.length = n)
    (hlo : lo ≤ hi) (hhi : hi ≤ n) (hsrc : src.length = hi - lo) :
    (copyInto buf (.range lo hi) src).Yields fun b => b.length = n := by
  subst hn
  exact ⟨_, (if_pos ⟨hlo, hhi⟩).trans (if_pos hsrc), length_splice hlo hhi hsrc⟩

/-- A copy to the front. -/
theorem yields_copyInto_to {buf src : List UInt8} {hi n : Nat} (hn : buf.length = n)
    (hhi : hi ≤ n) (hsrc : src.length = hi) :
    (copyInto buf (.to hi) src).Yields fun b => b.length = n := by
  subst hn
  exact ⟨_, (if_pos ⟨Nat.zero_le _, hhi⟩).trans (if_pos hsrc),
    length_splice (Nat.zero_le _) hhi hsrc⟩

/-- A write in bounds keeps the length. -/
theorem yields_writeAt {buf : List UInt8} {i n : Nat} (hn : buf.length = n) (b : UInt8)
    (h : i < n) : (writeAt buf i b).Yields fun b => b.length = n := by
  subst hn
  exact ⟨_, if_pos h, List.length_set⟩

/-- A copy into a range of its own length keeps the length. -/
theorem yields_copyIndexed {buf src : List UInt8} {lo hi n : Nat} (hn : buf.length = n)
    (hlo : lo ≤ hi) (hhi : hi ≤ n) (hsrc : src.length = hi - lo) :
    (copyIndexed buf (.range lo hi) src).Yields fun b => b.length = n := by
  subst hn
  exact ⟨_, if_pos ⟨hlo, hhi, hsrc⟩, length_splice hlo hhi hsrc⟩

/-- An indexed write in bounds keeps the length. -/
theorem yields_writeIndexed {buf : List UInt8} {i n : Nat} (hn : buf.length = n) (b : UInt8)
    (h : i < n) : (writeIndexed buf i b).Yields fun b => b.length = n := by
  subst hn
  exact ⟨_, if_pos h, List.length_set⟩

/-- **A checked copy is safe** when its range is as long as its source, wherever the range
    lies. -/
theorem safe_copyInto {buf src : List UInt8} {i : SliceIndex} {n : Nat} (hn : buf.length = n)
    (hsrc : i.lo ≤ i.hi → src.length = i.hi - i.lo) :
    (copyInto buf i src).Safe fun b => b.length = n := by
  subst hn
  unfold copyInto
  split
  case isTrue hi =>
    rw [if_pos (hsrc hi.1)]
    exact Res.safe_ok (length_splice hi.1 hi.2 (hsrc hi.1))
  case isFalse => exact Res.safe_err _ _

/-- A checked write never panics. -/
theorem safe_writeAt {buf : List UInt8} {n : Nat} (hn : buf.length = n) (i : Nat) (b : UInt8) :
    (writeAt buf i b).Safe fun b => b.length = n := by
  subst hn
  unfold writeAt
  split
  · exact Res.safe_ok List.length_set
  · exact Res.safe_err _ _

/-- A copy succeeds only inside the buffer, whose length it keeps. -/
theorem copyInto_eq_ok {buf src buf' : List UInt8} {i : SliceIndex}
    (h : copyInto buf i src = .ok buf') : i.hi ≤ buf.length ∧ buf'.length = buf.length := by
  unfold copyInto at h
  split at h
  case isTrue hi =>
    split at h
    case isTrue hsrc =>
      obtain rfl := Except.ok.inj h
      exact ⟨hi.2, length_splice hi.1 hi.2 hsrc⟩
    case isFalse => cases h
  case isFalse => cases h

/-- A write keeps the length. -/
theorem writeAt_length {buf buf' : List UInt8} {i : Nat} {b : UInt8}
    (h : writeAt buf i b = .ok buf') : buf'.length = buf.length := by
  unfold writeAt at h
  split at h
  · obtain rfl := Except.ok.inj h
    exact List.length_set
  · cases h

/-- A read succeeds only inside the slice. -/
theorem tryGet_le {data covered : List UInt8} {i : SliceIndex} (h : tryGet data i = .ok covered) :
    i.hi ≤ data.length := by
  unfold tryGet at h
  split at h
  case isTrue hi => exact hi.2
  case isFalse => cases h

/-- A checked read never panics, and succeeds only in bounds. -/
theorem safe_tryGet (data : List UInt8) (i : SliceIndex) :
    (tryGet data i).Safe fun _ => i.hi ≤ data.length := by
  refine ⟨?_, fun _ h => tryGet_le h⟩
  unfold tryGet
  split <;> simp

/-! ### Fixed-size front of a slice -/

/-- UDP and ICMP headers have a first byte. -/
instance neZeroEight : NeZero 8 := ⟨by decide⟩

/-- IPv4 and TCP headers have a first byte. -/
instance neZeroTwenty : NeZero 20 := ⟨by decide⟩

/-- `slice::first_chunk`. -/
def firstChunk (n : Nat) (data : List UInt8) : Option (Vector UInt8 n) :=
  if h : n ≤ data.length then some ⟨(data.take n).toArray, by simp [h]⟩ else none

/-- The bytes of a chunk are those of the slice. -/
theorem firstChunk_get {n : Nat} {data : List UInt8} {chunk : Vector UInt8 n}
    (h : firstChunk n data = some chunk) (i : Fin n) : chunk.get i = data.getD i 0 := by
  unfold firstChunk at h
  split at h
  case isTrue hlen =>
    obtain rfl := Option.some.inj h
    have hi : i.val < data.length := Nat.lt_of_lt_of_le i.isLt hlen
    simp [Vector.get, List.getElem_take, hi]
  case isFalse => cases h

/-- The first byte of a chunk is that of the slice. -/
theorem firstChunk_head {n : Nat} {data : List UInt8} {chunk : Vector UInt8 n}
    (h : firstChunk n data = some chunk) (hn : 0 < n) :
    chunk.get ⟨0, hn⟩ = data.headD 0 := by
  rw [firstChunk_get h, List.headD_eq_head?_getD, List.head?_eq_getElem?]
  rfl

/-- A chunk put in front of a slice is its first chunk. -/
theorem firstChunk_append {n : Nat} (chunk : Vector UInt8 n) (rest : List UInt8) :
    firstChunk n (chunk.toList ++ rest) = some chunk := by
  have hlen : chunk.toList.length = n := by simp
  have htake : (chunk.toList ++ rest).take n = chunk.toList := by
    rw [List.take_append_of_le_length (by omega), List.take_of_length_le (by omega)]
  have hle : n ≤ (chunk.toList ++ rest).length := by rw [List.length_append]; omega
  rw [firstChunk, dif_pos hle, Option.some.injEq, ← Vector.toList_inj]
  exact htake

/-- `slice::split_first_chunk`. -/
def splitFirstChunk (n : Nat) (data : List UInt8) : Option (Vector UInt8 n × List UInt8) :=
  (firstChunk n data).map fun chunk => (chunk, data.drop n)

/-- A chunk is split off what it is put before. -/
theorem splitFirstChunk_append {n : Nat} (chunk : Vector UInt8 n) (rest : List UInt8) :
    splitFirstChunk n (chunk.toList ++ rest) = some (chunk, rest) := by
  have hlen : chunk.toList.length = n := by simp
  rw [splitFirstChunk, firstChunk_append, Option.map_some, List.drop_left' hlen]

/-- A slice has a first chunk exactly when it is long enough. -/
theorem firstChunk_exists {n : Nat} {data : List UInt8} (h : n ≤ data.length) :
    ∃ chunk, firstChunk n data = some chunk := ⟨_, dif_pos h⟩

/-- A first chunk consists of the first bytes. -/
theorem firstChunk_eq_some {n : Nat} {data : List UInt8} {chunk : Vector UInt8 n}
    (h : firstChunk n data = some chunk) : n ≤ data.length ∧ chunk.toList = data.take n := by
  unfold firstChunk at h
  split at h
  case isTrue hn =>
    obtain rfl := Option.some.inj h
    exact ⟨hn, rfl⟩
  case isFalse => cases h

end Typenet
