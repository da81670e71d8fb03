import Typenet.Stack.InternetChecksum

namespace Typenet

open OnesComplement

/-!
# How far carries can be deferred

The implementation that the benchmarks compare against adds the words of some data in 32 bits and
looks for no overflow.  What it folds is the total modulo `2 ^ 32` (`Checksum.naiveWrappingCksum_eq`),
so it is right for as long as the total of the worst data fits.  That is up to
`DEFERRED_CARRIES_MAX_BYTES`, and from the next byte on it is wrong on some data of every length
(`Checksum.naiveWrappingCksum_correct_iff`).
-/

namespace Checksum

/-- `DEFERRED_CARRIES_MAX_BYTES`. -/
def DEFERRED_CARRIES_MAX_BYTES : Nat := (2 ^ 32 - 1) / (2 ^ 16 - 1) * 2

/-- One step of `naive_wrapping_cksum`, whose accumulator has 32 bits. -/
def naiveWrappingAdd (sum : Nat) (bytePair : UInt8 × UInt8) : Nat :=
  (sum + fromBeBytes32 0 0 bytePair.1 bytePair.2) % 2 ^ 32

/-- `naive_wrapping_cksum`. -/
def naiveWrappingCksum (data : List UInt8) : UInt16 :=
  let (bytePairs, maybeOddByte) := asPairs data
  let sum := bytePairs.foldl naiveWrappingAdd
    (maybeOddByte.head?.elim 0 fun b => fromBeBytes32 0 0 b 0)
  ~~~ UInt16.ofNat (oneCarryFold (oneCarryFold sum))

/-! ### What is folded -/

/-- The steps add up modulo `2 ^ 32`. -/
theorem foldl_naiveWrappingAdd (pairs : List (UInt8 × UInt8)) (acc : Nat) (h : acc < 2 ^ 32) :
    pairs.foldl naiveWrappingAdd acc
      = ((pairs.map fun pair => pair.1.toNat * 256 + pair.2.toNat).sum + acc) % 2 ^ 32 := by
  induction pairs generalizing acc with
  | nil =>
    show acc = (0 + acc) % 2 ^ 32
    rw [Nat.zero_add, Nat.mod_eq_of_lt h]
  | cons pair pairs ih =>
    have hword : fromBeBytes32 0 0 pair.1 pair.2 = pair.1.toNat * 256 + pair.2.toNat := by
      simp [fromBeBytes32]
    rw [List.foldl_cons, List.map_cons, List.sum_cons, naiveWrappingAdd, hword,
      ih _ (Nat.mod_lt _ (by decide))]
    omega

/-- Two folds bring every 32-bit accumulator down to its residue. -/
theorem oneCarryFold_twice {x : Nat} (h : x < 2 ^ 32) :
    oneCarryFold (oneCarryFold x) = residue 0xFFFF x := by
  have hone := oneCarryFold_eq h
  have hlt : oneCarryFold x < 2 ^ 32 := by omega
  have htwo := oneCarryFold_eq hlt
  rw [← residue_oneCarryFold h, ← residue_oneCarryFold hlt, residue_of_le (by omega)]

/-- **What the naive implementation computes.** -/
theorem naiveWrappingCksum_eq (data : List UInt8) :
    naiveWrappingCksum data = ~~~ UInt16.ofNat (residue 0xFFFF (total data % 2 ^ 32)) := by
  have hodd : ((asPairs data).2.head?.elim 0 fun b => fromBeBytes32 0 0 b 0)
      = (asPairs data).2.head?.elim 0 fun b => b.toNat * 256 := by
    simp [fromBeBytes32]
  have hfirst : ((asPairs data).2.head?.elim 0 fun b => b.toNat * 256) < 2 ^ 32 := by
    cases (asPairs data).2.head? with
    | none => decide
    | some b =>
      have hb := b.toNat_lt
      show b.toNat * 256 < _
      omega
  unfold naiveWrappingCksum
  simp only [hodd]
  rw [foldl_naiveWrappingAdd _ _ hfirst, asPairs_spec,
    oneCarryFold_twice (Nat.mod_lt _ (by decide))]

/-- It is right where what has wrapped leaves the residue as it was. -/
theorem naiveWrappingCksum_eq_rfc1071_iff (data : List UInt8) :
    naiveWrappingCksum data = rfc1071 data ↔
      residue 0xFFFF (total data % 2 ^ 32) = residue 0xFFFF (total data) := by
  have hle := residue_le (m := 0xFFFF) (by decide) (total data % 2 ^ 32)
  have hle' := residue_le (m := 0xFFFF) (by decide) (total data)
  rw [naiveWrappingCksum_eq, rfc1071_eq]
  constructor
  · intro h
    have hflip := congrArg UInt16.toNat h
    rw [toNat_flip hle, toNat_flip hle'] at hflip
    omega
  · intro h
    rw [h]

/-! ### The worst case -/

/-- A slice has a word for every two bytes, and no word is more than `u16::MAX`. -/
theorem total_le (data : List UInt8) : total data ≤ 0xFFFF * ((data.length + 1) / 2) := by
  fun_induction words data with
  | case1 hi lo rest ih =>
    have hhi := hi.toNat_lt
    have hlo := lo.toNat_lt
    rw [total_cons, List.length_cons, List.length_cons]
    omega
  | case2 hi =>
    have hhi := hi.toNat_lt
    rw [total_singleton, List.length_singleton]
    omega
  | case3 => exact Nat.zero_le _

/-- Two bytes of all ones add `u16::MAX`. -/
theorem total_replicate_ones (k : Nat) : total (List.replicate (2 * k) 0xFF) = 0xFFFF * k := by
  induction k with
  | zero => rfl
  | succ k ih =>
    show total (0xFF :: 0xFF :: List.replicate (2 * k) 0xFF) = _
    rw [total_cons, ih]
    show 255 * 256 + 255 + 0xFFFF * k = _
    omega

/-- The shortest data whose total does not fit: one byte more than the limit, all ones. -/
def OVERFLOWING : List UInt8 := List.replicate DEFERRED_CARRIES_MAX_BYTES 0xFF ++ [0xFF]

theorem length_overflowing : OVERFLOWING.length = DEFERRED_CARRIES_MAX_BYTES + 1 := by
  simp [OVERFLOWING]

theorem total_overflowing : total OVERFLOWING = 2 ^ 32 - 1 + 0xFF00 := by
  have hlimit : DEFERRED_CARRIES_MAX_BYTES = 2 * 65537 := rfl
  unfold OVERFLOWING
  rw [hlimit, total_append (by rw [List.length_replicate]), total_replicate_ones,
    total_singleton]
  rfl

/-- **The limit of deferred carries** is exact: a 32-bit accumulator computes the checksum of every
    slice of some length if and only if the length is within it. -/
theorem naiveWrappingCksum_correct_iff (n : Nat) (hlen : n ≤ 2 ^ 63 - 1) :
    (∀ data : List UInt8, data.length = n → naiveWrappingCksum data = calculate data) ↔
      n ≤ DEFERRED_CARRIES_MAX_BYTES := by
  have hlimit : DEFERRED_CARRIES_MAX_BYTES = 131074 := rfl
  constructor
  · intro h
    by_contra hlong
    -- the worst data, padded with zeros, has a total that wraps to another residue
    have hpadded := h (OVERFLOWING ++ List.replicate (n - OVERFLOWING.length) 0)
      (by rw [List.length_append, List.length_replicate, length_overflowing]; omega)
    rw [calculate_eq (by
        rw [List.length_append, List.length_replicate, length_overflowing]; omega),
      naiveWrappingCksum_eq_rfc1071_iff, total_padded, total_overflowing] at hpadded
    exact absurd hpadded (by decide)
  · rintro hle data rfl
    have htotal := total_le data
    rw [calculate_eq hlen, naiveWrappingCksum_eq_rfc1071_iff, Nat.mod_eq_of_lt (by omega)]

/-- The first length at which some slice is computed wrongly. -/
theorem naiveWrappingCksum_wrong : DEFERRED_CARRIES_MAX_BYTES + 1 ≤ 2 ^ 63 - 1 ∧
    ¬ ∀ data : List UInt8, data.length = DEFERRED_CARRIES_MAX_BYTES + 1 →
      naiveWrappingCksum data = calculate data :=
  ⟨by decide, fun h =>
    absurd ((naiveWrappingCksum_correct_iff _ (by decide)).mp h) (Nat.not_succ_le_self _)⟩

end Checksum

end Typenet
