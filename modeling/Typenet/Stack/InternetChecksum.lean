import Typenet.Lib.OnesComplement
import Typenet.Stack.Addr
import Typenet.Stack.Checksum

namespace Typenet

open OnesComplement

/-!
# The Internet checksum of RFC 1071

`Checksum.rfc1071` adds the 16-bit words of some data with end-around carry and complements the
sum.  The code's three ways of computing it all keep the residue of the same total modulo
`0xFFFF`, so they agree with it and with each other (`Checksum.calculate_eq`,
`Checksum.alwaysFoldedCksum_eq`, `Checksum.rangeCheckedCksum_eq`).  Storing the result in a
clear field completes the sum to negative zero, and the checksum of the whole is then zero
(`Checksum.calculate_stored`).
-/

namespace Checksum

/-! ### The definition -/

/-- The big-endian 16-bit words of some data; an odd byte is the high byte of the last one. -/
def words : List UInt8 → List Nat
  | hi :: lo :: rest => (hi.toNat * 256 + lo.toNat) :: words rest
  | [hi] => [hi.toNat * 256]
  | [] => []

/-- The one's complement of the end-around-carry sum of the words. -/
def rfc1071 (data : List UInt8) : UInt16 :=
  ~~~ UInt16.ofNat (endAroundSum 0xFFFF (words data))

/-! ### The implementations for comparison -/

/-- Splits data into pairs of bytes and the odd byte that remains (`as_chunks`). -/
def asPairs : List UInt8 → List (UInt8 × UInt8) × List UInt8
  | hi :: lo :: rest =>
    let (pairs, odd) := asPairs rest
    ((hi, lo) :: pairs, odd)
  | odd => ([], odd)

/-- `u16::overflowing_add`. -/
def overflowingAdd16 (a b : UInt16) : UInt16 × Bool := (a + b, decide (2 ^ 16 ≤ a.toNat + b.toNat))

/-- `always_folded_cksum`, with a 16-bit accumulator. -/
def alwaysFoldedCksum (data : List UInt8) : UInt16 :=
  let (bytePairs, maybeOddByte) := asPairs data
  ~~~ bytePairs.foldl (fun sum bytePair =>
      let (newSum, overflowed) := overflowingAdd16 sum (fromBeBytes16 bytePair.1 bytePair.2)
      newSum + UInt16.ofNat overflowed.toNat)
    (maybeOddByte.head?.elim 0 fun b => fromBeBytes16 b 0)

/-- Folds the high half of a 32-bit accumulator into the low half. -/
def oneCarryFold (x : Nat) : Nat := (x % 2 ^ 16 + x / 2 ^ 16) % 2 ^ 32

/-- The lowest 32-bit value to which `u16::MAX` cannot be added. -/
def WOULD_OVERFLOW : Nat := 2 ^ 32 - 1 - (2 ^ 16 - 1) + 1

/-- One step of `range_checked_cksum`, whose accumulator has 32 bits. -/
def rangeCheckedAdd (sum : Nat) (bytePair : UInt8 × UInt8) : Nat :=
  let sum := (sum + fromBeBytes32 0 0 bytePair.1 bytePair.2) % 2 ^ 32
  if sum < WOULD_OVERFLOW then sum else oneCarryFold sum

/-- `range_checked_cksum`. -/
def rangeCheckedCksum (data : List UInt8) : UInt16 :=
  let (bytePairs, maybeOddByte) := asPairs data
  let sum := bytePairs.foldl rangeCheckedAdd
    (maybeOddByte.head?.elim 0 fun b => fromBeBytes32 0 0 b 0)
  ~~~ UInt16.ofNat (oneCarryFold (oneCarryFold sum))

/-! ### Totals of words -/

/-- The sum of the words of some data, with all its carries. -/
def total (data : List UInt8) : Nat := (words data).sum

@[simp] theorem total_nil : total [] = 0 := rfl

/-- A single byte is the high half of a word. -/
theorem total_singleton (hi : UInt8) : total [hi] = hi.toNat * 256 := by simp [total, words]

@[simp] theorem total_cons (hi lo : UInt8) (rest : List UInt8) :
    total (hi :: lo :: rest) = hi.toNat * 256 + lo.toNat + total rest := by
  simp [total, words]

/-- Every word fits sixteen bits. -/
theorem words_le (data : List UInt8) : ∀ w ∈ words data, w ≤ 0xFFFF := by
  fun_induction words data with
  | case1 hi lo rest ih =>
    have hhi := hi.toNat_lt
    have hlo := lo.toNat_lt
    intro w hw
    rcases List.mem_cons.mp hw with rfl | hw
    · omega
    · exact ih w hw
  | case2 hi =>
    have hhi := hi.toNat_lt
    intro w hw
    rw [List.mem_singleton.mp hw]
    omega
  | case3 => simp

/-- **The checksum is known by the total.** -/
theorem rfc1071_eq (data : List UInt8) :
    rfc1071 data = ~~~ UInt16.ofNat (residue 0xFFFF (total data)) := by
  rw [rfc1071, endAroundSum_eq (by omega) (words_le data), total]

/-- Words on both sides of an even position add up. -/
theorem total_append {front : List UInt8} (h : front.length % 2 = 0) (back : List UInt8) :
    total (front ++ back) = total front + total back := by
  fun_induction words front with
  | case1 hi lo rest ih =>
    rw [List.length_cons, List.length_cons] at h
    show total (hi :: lo :: (rest ++ back)) = _
    rw [total_cons, total_cons, ih (by omega)]
    omega
  | case2 hi => cases h
  | case3 => simp

/-- Zeros add nothing. -/
theorem total_replicate (n : Nat) : total (List.replicate n 0) = 0 := by
  induction n using Nat.strongRecOn with
  | ind n ih =>
    match n, ih with
    | 0, _ => rfl
    | 1, _ => rfl
    | n + 2, ih =>
      show total (0 :: 0 :: List.replicate n 0) = 0
      rw [total_cons, ih n (by omega)]
      rfl

/-- Padding with zeros adds nothing. -/
theorem total_padded (data : List UInt8) (n : Nat) :
    total (data ++ List.replicate n 0) = total data := by
  fun_induction words data with
  | case1 hi lo rest ih =>
    show total (hi :: lo :: (rest ++ List.replicate n 0)) = _
    rw [total_cons, total_cons, ih]
  | case2 hi =>
    cases n with
    | zero => simp
    | succ n =>
      show total (hi :: 0 :: List.replicate n 0) = _
      simp [total_cons, total_replicate, total_singleton]
  | case3 => rw [List.nil_append, total_replicate, total_nil]

/-- The bytes of a wider word add up to its 16-bit lanes. -/
theorem residue_fromBeBytes (bytes : List UInt8) (acc : Nat) (h : bytes.length % 2 = 0) :
    residue 0xFFFF (bytes.foldl (fun acc b => acc * 256 + b.toNat) acc)
      = residue 0xFFFF (acc + total bytes) := by
  fun_induction words bytes generalizing acc with
  | case1 hi lo rest ih =>
    rw [List.length_cons, List.length_cons] at h
    rw [List.foldl_cons, List.foldl_cons, ih _ (by omega), total_cons]
    have hlane : (acc * 256 + hi.toNat) * 256 + lo.toNat + total rest
        = (0xFFFF + 1) * acc + (hi.toNat * 256 + lo.toNat + total rest) := by omega
    rw [hlane, residue_lanes]
  | case2 hi => cases h
  | case3 => simp

/-! ### The 128-bit accumulator -/

/-- Each further byte multiplies the bound by 256. -/
theorem foldl_fromBeBytes_lt (bytes : List UInt8) (acc : Nat) :
    bytes.foldl (fun acc b => acc * 256 + b.toNat) acc < (acc + 1) * 256 ^ bytes.length := by
  induction bytes generalizing acc with
  | nil => simp
  | cons b bytes ih =>
    have hb := b.toNat_lt
    have hstep : (acc * 256 + b.toNat + 1) * 256 ^ bytes.length
        ≤ (acc + 1) * 256 * 256 ^ bytes.length := Nat.mul_le_mul_right _ (by omega)
    rw [List.foldl_cons, List.length_cons, Nat.pow_succ', ← Nat.mul_assoc]
    exact Nat.lt_of_lt_of_le (ih _) hstep

/-- Eight bytes make a number below `2 ^ 64`. -/
theorem fromBeBytes64_lt {bytes : List UInt8} (h : bytes.length = 8) :
    fromBeBytes64 bytes < 2 ^ 64 := by
  have hlt := foldl_fromBeBytes_lt bytes 0
  rw [h] at hlt
  exact hlt

/-- What `as_chunks` splits data into. -/
theorem asChunks_spec (data : List UInt8) :
    (∀ chunk ∈ (asChunks data).1, chunk.length = 8) ∧ (asChunks data).2.length < 8
      ∧ 8 * (asChunks data).1.length + (asChunks data).2.length = data.length
      ∧ ((asChunks data).1.map total).sum + total (asChunks data).2 = total data := by
  fun_induction asChunks data with
  | case1 a b c d e f g h rest groups remainder heq ih =>
    rw [heq] at ih
    obtain ⟨hchunk, hrem, hlen, htotal⟩ := ih
    refine ⟨fun chunk hmem => ?_, hrem, by simp only [List.length_cons] at *; omega, ?_⟩
    · rcases List.mem_cons.mp hmem with rfl | hmem
      · rfl
      · exact hchunk chunk hmem
    · simp only [List.map_cons, List.sum_cons, total_cons, total_nil] at *
      omega
  | case2 remainder hshort =>
    refine ⟨by simp, ?_, by simp, by simp⟩
    rcases remainder with
      _ | ⟨a, _ | ⟨b, _ | ⟨c, _ | ⟨d, _ | ⟨e, _ | ⟨f, _ | ⟨g, _ | ⟨h, rest⟩⟩⟩⟩⟩⟩⟩⟩
    case cons.cons.cons.cons.cons.cons.cons.cons =>
      exact (hshort a b c d e f g h rest rfl).elim
    all_goals simp only [List.length_cons, List.length_nil]; omega

/-- The lane that the accumulator starts from: the bytes that remain, padded with zeros. -/
def remainderLane (data : List UInt8) : Nat :=
  fromBeBytes64 ((List.range 8).map fun i => (asChunks data).2.getD i 0)

/-- The accumulator of `calculate` after its first `k` groups. -/
def accumulator (data : List UInt8) (k : Nat) : Nat :=
  ((asChunks data).1.take k).foldl (fun acc chunk => (acc + fromBeBytes64 chunk) % 2 ^ 128)
    (remainderLane data)

/-- Folding the accumulator after the last group gives the result. -/
theorem calculate_accumulator (data : List UInt8) :
    calculate data = foldAndFlip 8 (accumulator data (asChunks data).1.length) := by
  rw [accumulator, List.take_length]
  rfl

/-! ### No addition wraps -/

/-- The last lane is the remainder, filled up with zeros. -/
theorem remainderLane_eq (data : List UInt8) :
    remainderLane data
      = fromBeBytes64 ((asChunks data).2
          ++ List.replicate (8 - (asChunks data).2.length) 0) := by
  have hrem := (asChunks_spec data).2.1
  apply congrArg fromBeBytes64
  apply List.ext_getElem
  · simp only [List.length_map, List.length_range, List.length_append, List.length_replicate]
    omega
  · intro i _ hi
    rw [List.getElem_append]
    split <;> rename_i h <;> simp [h]

/-- The last lane fits 64 bits. -/
theorem remainderLane_lt (data : List UInt8) : remainderLane data < 2 ^ 64 :=
  fromBeBytes64_lt (by simp)

/-- The last lane weighs as much as the words of the remainder. -/
theorem residue_remainderLane (data : List UInt8) :
    residue 0xFFFF (remainderLane data) = residue 0xFFFF (total (asChunks data).2) := by
  have hrem := (asChunks_spec data).2.1
  rw [remainderLane_eq, fromBeBytes64, residue_fromBeBytes, Nat.zero_add, total_padded]
  rw [List.length_append, List.length_replicate]
  omega

/-- Before the first chunk only the remainder has been added. -/
theorem accumulator_zero (data : List UInt8) : accumulator data 0 = remainderLane data := by
  rw [accumulator, List.take_zero, List.foldl_nil]

/-- A chunk is added as one lane. -/
theorem accumulator_succ {data : List UInt8} {k : Nat} {chunk : List UInt8}
    (h : (asChunks data).1[k]? = some chunk) :
    accumulator data (k + 1) = (accumulator data k + fromBeBytes64 chunk) % 2 ^ 128 := by
  rw [accumulator, List.take_add_one, h, Option.toList_some, List.foldl_append]
  rfl

/-- After `k` chunks at most `k + 1` lanes have been added. -/
theorem accumulator_lt {data : List UInt8} {k : Nat} (h : k ≤ (asChunks data).1.length) :
    accumulator data k < (k + 1) * 2 ^ 64 := by
  induction k with
  | zero =>
    have hlane := remainderLane_lt data
    rw [accumulator_zero]
    omega
  | succ k ih =>
    obtain ⟨chunk, hget⟩ : ∃ chunk, (asChunks data).1[k]? = some chunk :=
      ⟨_, List.getElem?_eq_getElem (by omega)⟩
    have hlt := fromBeBytes64_lt ((asChunks_spec data).1 chunk (List.mem_of_getElem? hget))
    have hacc := ih (by omega)
    have hmod := Nat.mod_le (accumulator data k + fromBeBytes64 chunk) (2 ^ 128)
    rw [accumulator_succ hget]
    omega

/-- **No addition to the accumulator wraps.** -/
theorem accumulator_add_lt {data : List UInt8} (hlen : data.length ≤ 2 ^ 63 - 1) {k : Nat}
    {chunk : List UInt8} (h : (asChunks data).1[k]? = some chunk) :
    accumulator data k + fromBeBytes64 chunk < 2 ^ 128 := by
  obtain ⟨hchunks, -, hsplit, -⟩ := asChunks_spec data
  have hk : k < (asChunks data).1.length := (List.getElem?_eq_some_iff.mp h).1
  have hlt := fromBeBytes64_lt (hchunks chunk (List.mem_of_getElem? h))
  have hacc : accumulator data k < (k + 1) * 2 ^ 64 := accumulator_lt (by omega)
  omega

/-- The accumulator weighs as much as the words added so far. -/
theorem residue_accumulator {data : List UInt8} (hlen : data.length ≤ 2 ^ 63 - 1) {k : Nat}
    (hk : k ≤ (asChunks data).1.length) :
    residue 0xFFFF (accumulator data k) = residue 0xFFFF
      (total (asChunks data).2 + (((asChunks data).1.take k).map total).sum) := by
  induction k with
  | zero =>
    rw [accumulator_zero, residue_remainderLane, List.take_zero, List.map_nil, List.sum_nil,
      Nat.add_zero]
  | succ k ih =>
    obtain ⟨chunk, hget⟩ : ∃ chunk, (asChunks data).1[k]? = some chunk :=
      ⟨_, List.getElem?_eq_getElem (by omega)⟩
    have hchunk := (asChunks_spec data).1 chunk (List.mem_of_getElem? hget)
    have hlanes : residue 0xFFFF (fromBeBytes64 chunk) = residue 0xFFFF (total chunk) := by
      rw [fromBeBytes64, residue_fromBeBytes _ _ (by omega), Nat.zero_add]
    rw [accumulator_succ hget, Nat.mod_eq_of_lt (accumulator_add_lt hlen hget),
      residue_add_congr hlanes, ← residue_residue_add, ih (by omega), residue_residue_add,
      List.take_add_one, hget, Option.toList_some, List.map_append, List.sum_append,
      List.map_singleton, List.sum_singleton, Nat.add_assoc]

/-- **The accumulator has the residue of the data.** -/
theorem residue_calculate {data : List UInt8} (hlen : data.length ≤ 2 ^ 63 - 1) :
    residue 0xFFFF (accumulator data (asChunks data).1.length)
      = residue 0xFFFF (total data) := by
  rw [residue_accumulator hlen (Nat.le_refl _), List.take_length, Nat.add_comm,
    (asChunks_spec data).2.2.2]

/-- No slice makes the accumulator wrap. -/
theorem accumulator_lt_pow {data : List UInt8} (hlen : data.length ≤ 2 ^ 63 - 1) :
    accumulator data (asChunks data).1.length < 2 ^ 128 := by
  have hsplit := (asChunks_spec data).2.2.1
  have hlt := accumulator_lt (Nat.le_refl (asChunks data).1.length)
  omega

/-! ### Folding -/

/-- A fold adds the low word to what is above it. -/
theorem fold_eq {x : Nat} (h : x < 2 ^ 128) : fold x = x % 2 ^ 16 + x / 2 ^ 16 :=
  Nat.mod_eq_of_lt (by omega)

/-- Folding keeps the residue. -/
theorem residue_iterate_fold {x : Nat} (h : x < 2 ^ 128) (n : Nat) :
    residue 0xFFFF (fold^[n] x) = residue 0xFFFF x := by
  induction n generalizing x with
  | zero => rfl
  | succ n ih =>
    have hfold : fold x < 2 ^ 128 := Nat.mod_lt _ (by omega)
    rw [Function.iterate_succ_apply, ih hfold, fold_eq h]
    exact residue_halves x

/-- **Folding ends** as soon as one lane is left, after no more folds than there are lanes, and
    more steps than that change nothing. -/
theorem exists_folds {k x : Nat} (h : x ≤ (2 ^ 16) ^ k + (2 ^ 16 - 2)) :
    ∃ n ≤ k, fold^[n] x ≤ 0xFFFF ∧ (∀ i < n, 0xFFFF < fold^[i] x)
      ∧ ∀ fuel, n ≤ fuel → foldAndFlip fuel x = ~~~ UInt16.ofNat (fold^[n] x) := by
  induction k generalizing x with
  | zero =>
    rw [Nat.pow_zero] at h
    exact ⟨0, Nat.le_refl 0, by simp; omega, by simp, fun fuel _ =>
      foldAndFlip_of_le (by omega) fuel⟩
  | succ k ih =>
    by_cases hx : x ≤ 0xFFFF
    · exact ⟨0, Nat.zero_le _, hx, by simp, fun fuel _ => foldAndFlip_of_le hx fuel⟩
    · have hfold : fold x ≤ (2 ^ 16) ^ k + (2 ^ 16 - 2) :=
        fold_le (by rw [Nat.pow_succ, Nat.mul_comm] at h; exact h)
      obtain ⟨n, hn, hend, hbefore, hfuel⟩ := ih hfold
      refine ⟨n + 1, by omega, hend, fun i hi => ?_, fun fuel hle => ?_⟩
      · cases i with
        | zero => exact Nat.lt_of_not_le hx
        | succ i => exact hbefore i (by omega)
      · cases fuel with
        | zero => omega
        | succ fuel =>
          rw [foldAndFlip, if_pos (by omega)]
          exact hfuel fuel (by omega)

/-- **The code computes the Internet checksum.** -/
theorem calculate_eq {data : List UInt8} (hlen : data.length ≤ 2 ^ 63 - 1) :
    calculate data = rfc1071 data := by
  have hacc := accumulator_lt_pow hlen
  obtain ⟨n, hn, hend, -, hfuel⟩ := exists_folds (k := 8)
    (x := accumulator data (asChunks data).1.length) (by omega)
  rw [calculate_accumulator, hfuel 8 hn, rfc1071_eq, ← residue_calculate hlen,
    ← residue_iterate_fold hacc n, residue_of_le hend]

/-! ### The other implementations -/

/-- What `as_chunks` splits data into, two bytes at a time. -/
theorem asPairs_spec (data : List UInt8) :
    ((asPairs data).1.map fun pair => pair.1.toNat * 256 + pair.2.toNat).sum
      + ((asPairs data).2.head?.elim 0 fun b => b.toNat * 256) = total data := by
  fun_induction asPairs data with
  | case1 hi lo rest pairs odd heq ih =>
    rw [heq] at ih
    rw [List.map_cons, List.sum_cons, total_cons, ← ih]
    exact Nat.add_assoc _ _ _
  | case2 odd hshort =>
    rcases odd with _ | ⟨hi, _ | ⟨lo, rest⟩⟩
    · rfl
    · rw [total_singleton]
      simp
    · exact (hshort hi lo rest rfl).elim

/-- Adding the carry back in at once is end-around addition. -/
theorem alwaysFoldedAdd_toNat (sum word : UInt16) :
    ((overflowingAdd16 sum word).1 + UInt16.ofNat (overflowingAdd16 sum word).2.toNat).toNat
      = endAroundAdd 0xFFFF sum.toNat word.toNat := by
  have hsum := sum.toNat_lt
  have hword := word.toNat_lt
  unfold overflowingAdd16 endAroundAdd
  simp only [UInt16.toNat_add]
  by_cases h : 2 ^ 16 ≤ sum.toNat + word.toNat
  · rw [decide_eq_true h, if_neg (by omega)]
    show ((sum.toNat + word.toNat) % 2 ^ 16 + 1) % 2 ^ 16 = _
    omega
  · rw [decide_eq_false h, if_pos (by omega)]
    show ((sum.toNat + word.toNat) % 2 ^ 16 + 0) % 2 ^ 16 = _
    omega

/-- A word is its complement's complement to all ones. -/
theorem toNat_flip {s : Nat} (h : s ≤ 0xFFFF) : (~~~ UInt16.ofNat s).toNat = 0xFFFF - s := by
  rw [UInt16.toNat_not, UInt16.toNat_ofNat_of_lt' (by show _ < 2 ^ 16; omega)]
  rfl

/-- **A 16-bit accumulator with end-around carry** computes the same. -/
theorem alwaysFoldedCksum_eq (data : List UInt8) : alwaysFoldedCksum data = rfc1071 data := by
  have hstep : ∀ acc : UInt16, ∀ pair ∈ (asPairs data).1, True → True
      ∧ residue 0xFFFF ((overflowingAdd16 acc (fromBeBytes16 pair.1 pair.2)).1
          + UInt16.ofNat (overflowingAdd16 acc (fromBeBytes16 pair.1 pair.2)).2.toNat).toNat
        = residue 0xFFFF (acc.toNat + (pair.1.toNat * 256 + pair.2.toNat)) := by
    intro acc pair _ _
    have hacc := acc.toNat_lt
    have hword := (fromBeBytes16 pair.1 pair.2).toNat_lt
    rw [alwaysFoldedAdd_toNat, endAroundAdd_eq (by omega) (by omega), fromBeBytes16_toNat]
    exact ⟨trivial, residue_of_le (residue_le (by omega) _)⟩
  have hodd : ((asPairs data).2.head?.elim 0 fun b => fromBeBytes16 b 0).toNat
      = (asPairs data).2.head?.elim 0 fun b => b.toNat * 256 := by
    cases (asPairs data).2.head? with
    | none => rfl
    | some b =>
      show (fromBeBytes16 b 0).toNat = _
      simp [fromBeBytes16_toNat]
  have hres := (foldl_residue (asPairs data).1 hstep
    ((asPairs data).2.head?.elim 0 fun b => fromBeBytes16 b 0) trivial).2
  rw [hodd, Nat.add_comm, asPairs_spec] at hres
  rw [rfc1071_eq, ← hres, residue_of_le (Nat.le_of_lt_succ (UInt16.toNat_lt _)),
    UInt16.ofNat_toNat]
  rfl

/-- One fold of a 32-bit sum. -/
theorem oneCarryFold_eq {x : Nat} (h : x < 2 ^ 32) :
    oneCarryFold x = x % 2 ^ 16 + x / 2 ^ 16 := Nat.mod_eq_of_lt (by omega)

/-- One fold keeps the residue. -/
theorem residue_oneCarryFold {x : Nat} (h : x < 2 ^ 32) :
    residue 0xFFFF (oneCarryFold x) = residue 0xFFFF x := by
  rw [oneCarryFold_eq h]
  exact residue_halves x

/-- A checked step leaves room for the next one. -/
theorem rangeCheckedAdd_spec {acc : Nat} (hacc : acc < WOULD_OVERFLOW) (pair : UInt8 × UInt8) :
    rangeCheckedAdd acc pair < WOULD_OVERFLOW
      ∧ residue 0xFFFF (rangeCheckedAdd acc pair)
        = residue 0xFFFF (acc + (pair.1.toNat * 256 + pair.2.toNat)) := by
  have hWOULD : WOULD_OVERFLOW = 2 ^ 32 - 0xFFFF := rfl
  have hhi := pair.1.toNat_lt
  have hlo := pair.2.toNat_lt
  have hword : fromBeBytes32 0 0 pair.1 pair.2 = pair.1.toNat * 256 + pair.2.toNat := by
    simp [fromBeBytes32]
  have hsum : (acc + fromBeBytes32 0 0 pair.1 pair.2) % 2 ^ 32
      = acc + (pair.1.toNat * 256 + pair.2.toNat) := by
    rw [hword]
    omega
  unfold rangeCheckedAdd
  rw [hsum]
  simp only
  split
  case isTrue h => exact ⟨h, rfl⟩
  case isFalse h =>
    refine ⟨?_, residue_oneCarryFold (by omega)⟩
    rw [oneCarryFold_eq (by omega)]
    omega

/-- **A 32-bit accumulator that is folded before it overflows** computes the same. -/
theorem rangeCheckedCksum_eq (data : List UInt8) : rangeCheckedCksum data = rfc1071 data := by
  have hWOULD : WOULD_OVERFLOW = 2 ^ 32 - 0xFFFF := rfl
  have hodd : ((asPairs data).2.head?.elim 0 fun b => fromBeBytes32 0 0 b 0)
      = (asPairs data).2.head?.elim 0 fun b => b.toNat * 256 := by
    simp [fromBeBytes32]
  have hfirst : ((asPairs data).2.head?.elim 0 fun b => b.toNat * 256) < WOULD_OVERFLOW := by
    cases (asPairs data).2.head? with
    | none => decide
    | some b =>
      have hb := b.toNat_lt
      show b.toNat * 256 < _
      omega
  have hstep : ∀ acc, ∀ pair ∈ (asPairs data).1, acc < WOULD_OVERFLOW →
      rangeCheckedAdd acc pair < WOULD_OVERFLOW
        ∧ residue 0xFFFF (id (rangeCheckedAdd acc pair))
          = residue 0xFFFF (id acc + (pair.1.toNat * 256 + pair.2.toNat)) :=
    fun acc pair _ hacc => rangeCheckedAdd_spec hacc pair
  obtain ⟨hlt, hres⟩ := foldl_residue (asPairs data).1 hstep _ hfirst
  rw [id, id, Nat.add_comm, asPairs_spec] at hres
  unfold rangeCheckedCksum
  simp only [hodd]
  generalize ((asPairs data).1.foldl rangeCheckedAdd _) = sum at hlt hres
  -- two folds bring every 32-bit accumulator down to one lane
  have hone := oneCarryFold_eq (x := sum) (by omega)
  have htwo := oneCarryFold_eq (x := oneCarryFold sum) (by omega)
  rw [rfc1071_eq, ← hres, ← residue_oneCarryFold (x := sum) (by omega),
    ← residue_oneCarryFold (x := oneCarryFold sum) (by omega), residue_of_le (by omega)]

/-! ### Storing the result -/

/-- The checksum of data is zero exactly when its words add up to negative zero. -/
theorem rfc1071_eq_zero {data : List UInt8} :
    rfc1071 data = 0 ↔ residue 0xFFFF (total data) = 0xFFFF := by
  have hle := residue_le (m := 0xFFFF) (by omega) (total data)
  rw [rfc1071_eq, ← UInt16.toNat_inj, toNat_flip hle]
  show _ = 0 ↔ _
  omega

/-- A word stored at an even position adds to the total of a clear field. -/
theorem total_stored {front : List UInt8} (h : front.length % 2 = 0) (word : UInt16)
    (back : List UInt8) :
    total (front ++ toBeBytes16 word ++ back) = total (front ++ [0, 0] ++ back) + word.toNat := by
  rw [List.append_assoc, List.append_assoc, total_append h, total_append h]
  show _ + total ((word >>> 8).toUInt8 :: word.toUInt8 :: back) = _ + total (0 :: 0 :: back) + _
  rw [total_cons, total_cons, toBeBytes16_toNat]
  simp
  omega

/-- **Storing the checksum** in a clear field makes the checksum of the whole zero. -/
theorem rfc1071_stored {front : List UInt8} (h : front.length % 2 = 0) (back : List UInt8) :
    rfc1071 (front ++ toBeBytes16 (rfc1071 (front ++ [0, 0] ++ back)) ++ back) = 0 := by
  have hle := residue_le (m := 0xFFFF) (by omega) (total (front ++ [0, 0] ++ back))
  rw [rfc1071_eq_zero, total_stored h, rfc1071_eq, toNat_flip hle]
  exact residue_complement (by omega) _

/-- So does storing all ones where the checksum is zero. -/
theorem rfc1071_stored_ones {front : List UInt8} (h : front.length % 2 = 0) (back : List UInt8)
    (hzero : rfc1071 (front ++ [0, 0] ++ back) = 0) :
    rfc1071 (front ++ toBeBytes16 0xFFFF ++ back) = 0 := by
  rw [rfc1071_eq_zero, total_stored h]
  exact residue_add_self (rfc1071_eq_zero.mp hzero)

/-! ### Correctness -/

/-- What it takes for `calculate` to be the Internet checksum of some data. -/
structure Correct (data : List UInt8) : Prop where
  rfc1071 : calculate data = rfc1071 data
  /-- The result is folded from the accumulator, -/
  accumulates : calculate data = foldAndFlip 8 (accumulator data (asChunks data).1.length)
  /-- to which no addition wraps, -/
  never_wraps : ∀ k chunk, (asChunks data).1[k]? = some chunk →
    accumulator data k + fromBeBytes64 chunk < 2 ^ 128
  /-- and folding it goes on until one lane is left, which takes at most eight folds. -/
  ends : ∃ n ≤ 8, fold^[n] (accumulator data (asChunks data).1.length) ≤ 0xFFFF
    ∧ (∀ i < n, 0xFFFF < fold^[i] (accumulator data (asChunks data).1.length))
    ∧ ∀ fuel, n ≤ fuel →
      foldAndFlip fuel (accumulator data (asChunks data).1.length) = calculate data
  always_folded : alwaysFoldedCksum data = calculate data
  range_checked : rangeCheckedCksum data = calculate data
  /-- Stored in a clear aligned field, the result makes the checksum zero. -/
  stored : data.length % 2 = 0 → ∀ i, i % 2 = 0 → data[i]? = some 0 → data[i + 1]? = some 0 →
    calculate (data.take i ++ toBeBytes16 (calculate data) ++ data.drop (i + 2)) = 0

/-- Data with a clear field is what is in front of the field, the field and what is behind. -/
theorem split_field {data : List UInt8} {i : Nat} (hhi : data[i]? = some 0)
    (hlo : data[i + 1]? = some 0) : data.take i ++ [0, 0] ++ data.drop (i + 2) = data := by
  have hfield : data.drop i = [0, 0] ++ data.drop (i + 2) := by
    obtain ⟨hi, hget⟩ := List.getElem?_eq_some_iff.mp hhi
    obtain ⟨hi', hget'⟩ := List.getElem?_eq_some_iff.mp hlo
    rw [List.drop_eq_getElem_cons hi, List.drop_eq_getElem_cons hi', hget, hget']
    rfl
  rw [List.append_assoc, ← hfield, List.take_append_drop]

/-- **`calculate` is the Internet checksum** of every slice. -/
theorem calculate_correct (data : List UInt8) (hlen : data.length ≤ 2 ^ 63 - 1) :
    Correct data where
  rfc1071 := calculate_eq hlen
  accumulates := calculate_accumulator data
  never_wraps := by
    intro k chunk h
    exact accumulator_add_lt hlen h
  ends := by
    have hacc := accumulator_lt_pow hlen
    obtain ⟨n, hn, hend, hbefore, hfuel⟩ := exists_folds (k := 8)
      (x := accumulator data (asChunks data).1.length) (by omega)
    refine ⟨n, hn, hend, hbefore, fun fuel hle => ?_⟩
    rw [calculate_accumulator, hfuel 8 hn, hfuel fuel hle]
  always_folded := by rw [alwaysFoldedCksum_eq, calculate_eq hlen]
  range_checked := by rw [rangeCheckedCksum_eq, calculate_eq hlen]
  stored := by
    intro _ i heven hhi hlo
    have hsplit := split_field hhi hlo
    have hi := (List.getElem?_eq_some_iff.mp hlo).1
    have hfront : (data.take i).length % 2 = 0 := by
      rw [List.length_take, Nat.min_eq_left (by omega)]
      exact heven
    have hlen' : (data.take i ++ toBeBytes16 (calculate data) ++ data.drop (i + 2)).length
        ≤ 2 ^ 63 - 1 := by
      rw [List.length_append, List.length_append, List.length_take, List.length_drop,
        toBeBytes16_length]
      omega
    have hstored := rfc1071_stored hfront (data.drop (i + 2))
    rw [hsplit, ← calculate_eq hlen] at hstored
    rw [calculate_eq hlen', hstored]

/-- A slice of seven bytes, whose last word is half empty. -/
theorem calculate_correct_odd : [0x12, 0x34, 0x56, 0x78, 0xAB, 0xFF, 0xEE].length ≤ 2 ^ 63 - 1
    ∧ Correct [0x12, 0x34, 0x56, 0x78, 0xAB, 0xFF, 0xEE] :=
  ⟨by decide, calculate_correct _ (by decide)⟩

example : calculate [0x12, 0x34, 0x56] = 0x97CB := by decide

end Checksum

end Typenet
