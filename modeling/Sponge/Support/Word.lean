import Mathlib.Order.Lattice
import Mathlib.Tactic.NormNum

/-!
# Unsigned machine arithmetic on natural numbers

A value of an unsigned type of `w` bits is a natural number below `2 ^ w`, and
the operators of the type are the operators on `ℕ` followed by a reduction
modulo `2 ^ w`.  Only subtraction needs care, because subtraction on `ℕ`
truncates at zero.
-/

namespace Sponge

/-- Addition of two 64-bit unsigned integers. -/
def add64 (a b : ℕ) : ℕ := (a + b) % 2 ^ 64

/-- Subtraction of two 64-bit unsigned integers. -/
def sub64 (a b : ℕ) : ℕ := (a + (2 ^ 64 - b % 2 ^ 64)) % 2 ^ 64

/-- Multiplication of two 64-bit unsigned integers. -/
def mul64 (a b : ℕ) : ℕ := (a * b) % 2 ^ 64

/-- Subtraction of two 16-bit unsigned integers. -/
def sub16 (a b : ℕ) : ℕ := (a + (2 ^ 16 - b % 2 ^ 16)) % 2 ^ 16

theorem add64_lt (a b : ℕ) : add64 a b < 2 ^ 64 :=
  Nat.mod_lt _ (by norm_num)

theorem add64_eq {a b : ℕ} (h : a + b < 2 ^ 64) : add64 a b = a + b :=
  Nat.mod_eq_of_lt h

theorem sub64_eq {a b : ℕ} (ha : a < 2 ^ 64) (h : b ≤ a) :
    sub64 a b = a - b := by
  unfold sub64
  omega

/-- The difference of the difference undoes a wrap-around: `a -= b - c` with
`b ≤ c` adds `c - b`. -/
theorem sub64_sub64
    {a b c : ℕ} (hbc : b ≤ a + c) (h : a + c - b < 2 ^ 64) :
    sub64 a (sub64 b c) = a + c - b := by
  unfold sub64
  omega

theorem sub16_lt (a b : ℕ) : sub16 a b < 2 ^ 16 :=
  Nat.mod_lt _ (by norm_num)

theorem sub16_eq {a b : ℕ} (ha : a < 2 ^ 16) (h : b ≤ a) :
    sub16 a b = a - b := by
  unfold sub16
  omega

/-- The order of the 32-bit unsigned integers is linear. -/
instance linearOrderUInt32 : LinearOrder UInt32 where
  le_refl := UInt32.le_refl
  le_trans _ _ _ := UInt32.le_trans
  le_antisymm _ _ := UInt32.le_antisymm
  le_total := UInt32.le_total
  lt_iff_le_not_ge a b := by
    rw [UInt32.lt_iff_toNat_lt, UInt32.le_iff_toNat_le,
      UInt32.le_iff_toNat_le]
    omega
  toDecidableLE := inferInstance
  toDecidableEq := inferInstance
  toDecidableLT := inferInstance

/-- A flag is determined by the number it is added as. -/
theorem eq_of_toNat_eq {a b : Bool} (h : a.toNat = b.toNat) : a = b := by
  cases a <;> cases b <;> simp at h ⊢

/-- Masking the lower bits rounds down. -/
theorem and_two_pow_sub {x m w : ℕ} (hm : m ≤ w) (hx : x < 2 ^ w) :
    x &&& (2 ^ w - 2 ^ m) = x / 2 ^ m * 2 ^ m := by
  have hmask : 2 ^ w - 2 ^ m = (2 ^ (w - m) - 1) <<< m := by
    rw [Nat.shiftLeft_eq, Nat.sub_mul, ← pow_add, Nat.sub_add_cancel hm,
      one_mul]
  have hround : x / 2 ^ m * 2 ^ m = (x >>> m) <<< m := by
    rw [Nat.shiftLeft_eq, Nat.shiftRight_eq_div_pow]
  rw [hmask, hround]
  apply Nat.eq_of_testBit_eq
  intro i
  rw [Nat.testBit_and, Nat.testBit_shiftLeft, Nat.testBit_shiftLeft,
    Nat.testBit_two_pow_sub_one, Nat.testBit_shiftRight]
  by_cases hi : m ≤ i
  · have hback : m + (i - m) = i := by omega
    rw [hback]
    by_cases hw : i < w
    · have hlow : i - m < w - m := by omega
      simp [hi, hlow]
    · have hbit : x.testBit i = false := by
        apply Nat.testBit_lt_two_pow
        exact lt_of_lt_of_le hx (Nat.pow_le_pow_right two_pos (not_lt.mp hw))
      simp [hbit]
  · simp [hi]

end Sponge
