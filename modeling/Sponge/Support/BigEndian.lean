import Mathlib.Algebra.GroupWithZero.Nat
import Mathlib.Data.List.Induction
import Mathlib.Tactic.NormNum

/-!
# Big-endian numbers

A natural number as a list of bytes, the most significant byte first.  Reading
is total; writing takes a width and drops what does not fit into it.  A record
of numbers of fixed widths is read field by field, each at its position.
-/

namespace Sponge

/-- The number that a list of bytes denotes. -/
def ofBigEndian (bs : List UInt8) : ℕ :=
  bs.foldl (fun n b => n * 256 + b.toNat) 0

/-- The number in the `width` bytes at a position, and zero if the list ends
before them. -/
def fieldAt (bs : List UInt8) (position width : ℕ) : ℕ :=
  if position + width ≤ bs.length then
    ofBigEndian ((bs.drop position).take width)
  else 0

/-- The last `width` bytes of a number. -/
def toBigEndian (width n : ℕ) : List UInt8 :=
  (List.range width).map fun i => UInt8.ofNat (n >>> ((width - i - 1) * 8))

@[simp] theorem ofBigEndian_nil : ofBigEndian [] = 0 := rfl

theorem ofBigEndian_concat (bs : List UInt8) (b : UInt8) :
    ofBigEndian (bs ++ [b]) = ofBigEndian bs * 256 + b.toNat := by
  rw [ofBigEndian, ofBigEndian, List.foldl_append, List.foldl_cons,
    List.foldl_nil]

@[simp] theorem toBigEndian_zero (n : ℕ) : toBigEndian 0 n = [] := rfl

@[simp] theorem length_toBigEndian (width n : ℕ) :
    (toBigEndian width n).length = width := by
  rw [toBigEndian, List.length_map, List.length_range]

/-- The last byte is written last. -/
theorem toBigEndian_succ (width n : ℕ) :
    toBigEndian (width + 1) n =
      toBigEndian width (n / 256) ++ [UInt8.ofNat n] := by
  rw [toBigEndian, List.range_succ, List.map_append, toBigEndian]
  congr 1
  · refine List.map_congr_left fun i hi => ?_
    rw [List.mem_range] at hi
    have hexp : (width + 1 - i - 1) * 8 = 8 + (width - i - 1) * 8 := by
      omega
    rw [hexp, Nat.shiftRight_add, Nat.shiftRight_eq_div_pow n 8]
  · simp

/-- Reading what was written gives the number back, as far as it fits. -/
theorem ofBigEndian_toBigEndian (width n : ℕ) :
    ofBigEndian (toBigEndian width n) = n % 256 ^ width := by
  induction width generalizing n with
  | zero => rw [toBigEndian_zero, ofBigEndian_nil, pow_zero, Nat.mod_one]
  | succ width ih =>
      rw [toBigEndian_succ, ofBigEndian_concat, ih, UInt8.toNat_ofNat',
        pow_succ' 256 width, Nat.mod_mul]
      omega

/-- Writing what was read gives the bytes back. -/
theorem toBigEndian_ofBigEndian (bs : List UInt8) :
    toBigEndian bs.length (ofBigEndian bs) = bs := by
  induction bs using List.reverseRecOn with
  | nil => rfl
  | append_singleton bs b ih =>
      have hbyte := b.toNat_lt
      have hhigh : (ofBigEndian bs * 256 + b.toNat) / 256 =
          ofBigEndian bs := by
        omega
      have hlow : UInt8.ofNat (ofBigEndian bs * 256 + b.toNat) = b := by
        rw [← UInt8.toNat_inj, UInt8.toNat_ofNat']
        omega
      rw [List.length_append, List.length_singleton, ofBigEndian_concat,
        toBigEndian_succ, hhigh, hlow, ih]

/-! ## Fields -/

/-- The field that was written first. -/
theorem fieldAt_toBigEndian
    (width n : ℕ) (rest : List UInt8) :
    fieldAt (toBigEndian width n ++ rest) 0 width = n % 256 ^ width := by
  have hlen : 0 + width ≤ (toBigEndian width n ++ rest).length := by
    rw [List.length_append, length_toBigEndian]
    omega
  rw [fieldAt, if_pos hlen, List.drop_zero,
    List.take_left' (length_toBigEndian width n), ofBigEndian_toBigEndian]

/-- A field behind the first bytes. -/
theorem fieldAt_append
    {bs : List UInt8} {position : ℕ} (h : bs.length ≤ position)
    (rest : List UInt8) (width : ℕ) :
    fieldAt (bs ++ rest) position width =
      fieldAt rest (position - bs.length) width := by
  have hdrop : (bs ++ rest).drop position =
      rest.drop (position - bs.length) := by
    rw [List.drop_append, List.drop_eq_nil_of_le h, List.nil_append]
  have hlen : position + width ≤ (bs ++ rest).length ↔
      position - bs.length + width ≤ rest.length := by
    rw [List.length_append]
    omega
  simp only [fieldAt, hdrop, hlen]

/-- Writing a field gives its bytes back. -/
theorem toBigEndian_fieldAt
    {bs : List UInt8} {position width : ℕ}
    (h : position + width ≤ bs.length) :
    toBigEndian width (fieldAt bs position width) =
      bs.extract position (position + width) := by
  have hlen : ((bs.drop position).take width).length = width := by
    rw [List.length_take, List.length_drop]
    omega
  have hback := toBigEndian_ofBigEndian ((bs.drop position).take width)
  rw [hlen] at hback
  rw [fieldAt, if_pos h, hback, List.extract_eq_take_drop,
    Nat.add_sub_cancel_left]

theorem ofBigEndian_lt (bs : List UInt8) :
    ofBigEndian bs < 256 ^ bs.length := by
  induction bs using List.reverseRecOn with
  | nil => exact Nat.one_pos
  | append_singleton bs b ih =>
      have hbyte := b.toNat_lt
      rw [ofBigEndian_concat, List.length_append, List.length_singleton,
        pow_succ]
      omega

theorem fieldAt_lt (bs : List UInt8) (position width : ℕ) :
    fieldAt bs position width < 256 ^ width := by
  unfold fieldAt
  split
  · refine (ofBigEndian_lt _).trans_le (Nat.pow_le_pow_right (by decide) ?_)
    exact List.length_take_le _ _
  · exact Nat.pow_pos (by decide)

end Sponge
