import Typenet.Utils.Fallible

namespace Typenet

/-!
# Writing over the front of a buffer

An encoder writes the fields of a message one after the other over whatever the buffer held
before.  `overlay front buf` is a buffer with its front written over, and a write whose target
is as long as its source (`Writes`) either lengthens the front (`Writes.append`) or changes a
field of it (`Writes.field`).  So what an encoder leaves in front depends on its message only.
-/

/-- The buffer `buf` with its front written over. -/
def overlay (front buf : List UInt8) : List UInt8 := front ++ buf.drop front.length

variable {front src buf : List UInt8}

theorem overlay_nil (buf : List UInt8) : overlay [] buf = buf := List.drop_zero

/-- Bytes laid over a buffer that holds them keep its length. -/
theorem overlay_length (h : front.length ≤ buf.length) :
    (overlay front buf).length = buf.length := by
  rw [overlay, List.length_append, List.length_drop]
  omega

/-- What was in the buffer may be counted to the front. -/
theorem overlay_gap (front buf : List UInt8) (n : Nat) :
    overlay front buf = overlay (front ++ (buf.drop front.length).take n) buf := by
  unfold overlay
  rw [List.append_assoc, List.append_cancel_left_eq]
  by_cases h : n ≤ (buf.drop front.length).length
  · have hlen : (front ++ (buf.drop front.length).take n).length = front.length + n := by
      rw [List.length_append, List.length_take_of_le h]
    rw [hlen, ← List.drop_drop, List.take_append_drop]
  · have hall : (buf.drop front.length).take n = buf.drop front.length :=
      List.take_of_length_le (by omega)
    have hnil : buf.drop (front ++ buf.drop front.length).length = [] := by
      apply List.drop_eq_nil_of_le
      rw [List.length_append, List.length_drop]
      omega
    rw [hall, hnil, List.append_nil]

/-- The next bytes of the buffer may be counted to the front, whatever they are. -/
theorem exists_gap {n : Nat} (h : front.length + n ≤ buf.length) :
    ∃ gap : List UInt8, gap.length = n ∧ overlay front buf = overlay (front ++ gap) buf := by
  refine ⟨(buf.drop front.length).take n, ?_, overlay_gap front buf n⟩
  apply List.length_take_of_le
  rw [List.length_drop]
  omega

/-- A front that is written over another one, before what the other goes on with. -/
theorem overlay_overlay (front : List UInt8) {old : List UInt8} (h : old.length = front.length)
    (back buf : List UInt8) :
    overlay front (overlay (old ++ back) buf) = overlay (front ++ back) buf := by
  unfold overlay
  rw [← h, List.append_assoc old, List.drop_left, List.append_assoc, List.length_append,
    List.length_append, h]

/-- Writing over the front of what is behind the first `n` bytes. -/
theorem take_append_overlay {n : Nat} (h : n ≤ buf.length) (front : List UInt8) :
    buf.take n ++ overlay front (buf.drop n) = overlay (buf.take n ++ front) buf := by
  rw [overlay, overlay, List.append_assoc, List.drop_drop, List.length_append,
    List.length_take_of_le h]

/-- Reading the front back. -/
theorem tryGet_overlay {n : Nat} (hn : front.length = n) (buf : List UInt8) :
    tryGet (overlay front buf) (.to n) = .ok front := by
  have hle : n ≤ (overlay front buf).length := by rw [overlay, List.length_append]; omega
  rw [tryGet, if_pos ⟨Nat.zero_le _, hle⟩]
  show Except.ok (((front ++ _).take n).drop 0) = _
  rw [List.drop_zero, List.take_left' hn]

/-- What has been laid over is read back. -/
theorem readIndexed_overlay {n : Nat} (hn : front.length = n) (buf : List UInt8) :
    readIndexed (overlay front buf) (.to n) = .ok front := by
  have hle : n ≤ (overlay front buf).length := by rw [overlay, List.length_append]; omega
  rw [readIndexed, if_pos ⟨Nat.zero_le _, hle⟩]
  show Except.ok (((front ++ _).take n).drop 0) = _
  rw [List.drop_zero, List.take_left' hn]

/-! ### Writes -/

/-- The operation replaces the bytes at `lo` by `src`. -/
def Writes (op : List UInt8 → Res (List UInt8)) (lo : Nat) (src : List UInt8) : Prop :=
  ∀ before old after : List UInt8, before.length = lo → old.length = src.length →
    op (before ++ old ++ after) = .ok (before ++ src ++ after)

/-- What a splice at the field `old` leaves behind. -/
theorem splice_field {lo hi : Nat} {before old : List UInt8} (hbefore : before.length = lo)
    (hold : lo + old.length = hi) (src after : List UInt8) :
    (before ++ old ++ after).take lo ++ src ++ (before ++ old ++ after).drop hi
      = before ++ src ++ after := by
  have hdrop : (before ++ old ++ after).drop hi = after :=
    List.drop_left' (by rw [List.length_append]; omega)
  rw [hdrop, List.append_assoc before old, List.take_left' hbefore]

/-- A copy into a range writes the source there. -/
theorem writes_copyInto {i : SliceIndex} (h : i.lo + src.length = i.hi) :
    Writes (copyInto · i src) i.lo src := by
  intro before old after hbefore hold
  have hin : i.lo ≤ i.hi ∧ i.hi ≤ (before ++ old ++ after).length := by
    simp only [List.length_append]
    omega
  have hend : i.lo + old.length = i.hi := by omega
  have hsplice := splice_field hbefore hend src after
  exact ((if_pos hin).trans (if_pos (by omega))).trans (congrArg Except.ok hsplice)

/-- So does an indexed copy. -/
theorem writes_copyIndexed {i : SliceIndex} (h : i.lo + src.length = i.hi) :
    Writes (copyIndexed · i src) i.lo src := by
  intro before old after hbefore hold
  have hin : i.lo ≤ i.hi ∧ i.hi ≤ (before ++ old ++ after).length
      ∧ src.length = i.hi - i.lo := by
    simp only [List.length_append]
    omega
  have hend : i.lo + old.length = i.hi := by omega
  have hsplice := splice_field hbefore hend src after
  exact (if_pos hin).trans (congrArg Except.ok hsplice)

/-- An assignment writes one byte. -/
theorem writes_writeAt (i : Nat) (b : UInt8) : Writes (writeAt · i b) i [b] := by
  intro before old after hbefore hold
  obtain ⟨x, rfl⟩ := List.length_eq_one_iff.mp hold
  subst hbefore
  show writeAt (before ++ [x] ++ after) before.length b = _
  rw [writeAt, if_pos (by simp)]
  simp

/-- So does an indexed assignment. -/
theorem writes_writeIndexed (i : Nat) (b : UInt8) : Writes (writeIndexed · i b) i [b] := by
  intro before old after hbefore hold
  obtain ⟨x, rfl⟩ := List.length_eq_one_iff.mp hold
  subst hbefore
  show writeIndexed (before ++ [x] ++ after) before.length b = _
  rw [writeIndexed, if_pos (by simp)]
  simp

/-- **A field behind the front** is added to it. -/
theorem Writes.append {op : List UInt8 → Res (List UInt8)} {lo : Nat} (h : Writes op lo src)
    (hlo : front.length = lo) (hfit : lo + src.length ≤ buf.length) :
    op (overlay front buf) = .ok (overlay (front ++ src) buf) := by
  have hold : ((buf.drop front.length).take src.length).length = src.length := by
    rw [List.length_take_of_le]
    rw [List.length_drop]
    omega
  rw [overlay_gap front buf src.length, overlay, h front _ _ hlo hold]
  simp only [overlay, List.length_append, hold]

/-- **A field of the front** is changed in place. -/
theorem Writes.field {op : List UInt8 → Res (List UInt8)} {lo : Nat} (h : Writes op lo src)
    (hlo : front.length = lo) {old : List UInt8} (hold : old.length = src.length)
    (back buf : List UInt8) :
    op (overlay (front ++ old ++ back) buf) = .ok (overlay (front ++ src ++ back) buf) := by
  have hwrite := h front old (back ++ buf.drop (front ++ old ++ back).length) hlo hold
  rw [overlay, List.append_assoc (front ++ old), hwrite]
  simp only [overlay, List.length_append, hold, List.append_assoc]

end Typenet
