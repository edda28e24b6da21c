import Mathlib.Algebra.Group.Nat.Even
import Sponge.Support.BigEndian

/-!
# Sums in 16-bit ones' complement

Bytes are summed as big-endian 16-bit words, where an odd last byte is the
high byte of a word.  In ones' complement arithmetic a carry out of the word
is added back at its low end.  So a sum counts modulo `2 ^ 16 - 1`, and of the
two representatives of zero the sum of a list of words is the zero word only
if all words are.
-/

namespace Sponge

/-- The sum of the 16-bit words of a list of bytes. -/
def wordSum : List UInt8 → ℕ
  | [] => 0
  | [a] => a.toNat * 256
  | a :: b :: rest => a.toNat * 256 + b.toNat + wordSum rest

/-- The word that is left of a sum when all carries have been added back. -/
def endAround (n : ℕ) : ℕ :=
  if n = 0 then 0 else (n - 1) % 65535 + 1

/-- The complement of the sum of the words, starting from `initial`. -/
def onesChecksum (initial : ℕ) (bs : List UInt8) : ℕ :=
  65535 - endAround (initial + wordSum bs)

section EndAround

variable {n m : ℕ}

theorem endAround_le (n : ℕ) : endAround n ≤ 65535 := by
  have hmod := Nat.mod_lt (n - 1) (by decide : 65535 > 0)
  unfold endAround
  split <;> omega

theorem endAround_of_le (h : n ≤ 65535) : endAround n = n := by
  unfold endAround
  split
  · omega
  · rw [Nat.mod_eq_of_lt (by omega)]
    omega

/-- Adding one carry back does not change the word. -/
theorem endAround_carry (n : ℕ) :
    endAround (n / 65536 + n % 65536) = endAround n := by
  unfold endAround
  split
  · rw [if_pos (by omega)]
  · rw [if_neg (by omega)]
    omega

/-- The complement fills a sum up to the word of ones. -/
theorem endAround_add_complement (n : ℕ) :
    endAround (n + (65535 - endAround n)) = 65535 := by
  unfold endAround
  split
  · rw [if_neg (by omega)]
    omega
  · rw [if_neg (by omega)]
    omega

end EndAround

section WordSum

variable {xs ys zs : List UInt8}

/-- The words of two lists are summed separately if the first ends at a word
boundary. -/
theorem wordSum_append (h : Even xs.length) (ys : List UInt8) :
    wordSum (xs ++ ys) = wordSum xs + wordSum ys := by
  induction xs using wordSum.induct with
  | case1 => exact (Nat.zero_add _).symm
  | case2 a => exact absurd h Nat.not_even_one
  | case3 a b rest ih =>
      have hrest : Even rest.length := by
        rw [List.length_cons, List.length_cons, Nat.even_add_one,
          Nat.even_add_one, not_not] at h
        exact h
      rw [List.cons_append, List.cons_append, wordSum, wordSum, ih hrest]
      omega

theorem wordSum_le (xs : List UInt8) :
    2 * wordSum xs ≤ 65535 * (xs.length + 1) := by
  induction xs using wordSum.induct with
  | case1 => decide
  | case2 a =>
      have ha := a.toNat_lt
      simp only [wordSum, List.length_singleton]
      omega
  | case3 a b rest ih =>
      have ha := a.toNat_lt
      have hb := b.toNat_lt
      simp only [wordSum, List.length_cons]
      omega

theorem wordSum_toBigEndian {v : ℕ} (h : v < 65536) :
    wordSum (toBigEndian 2 v) = v := by
  have hbytes : toBigEndian 2 v = [UInt8.ofNat (v / 256), UInt8.ofNat v] := by
    rw [toBigEndian_succ, toBigEndian_succ]
    rfl
  rw [hbytes, wordSum, wordSum, UInt8.toNat_ofNat', UInt8.toNat_ofNat']
  omega

/-- A word at a word boundary adds its value. -/
theorem wordSum_insert
    (h : Even xs.length) {v : ℕ} (hv : v < 65536) (ys : List UInt8) :
    wordSum (xs ++ toBigEndian 2 v ++ ys) =
      wordSum (xs ++ toBigEndian 2 0 ++ ys) + v := by
  have heven : ∀ n, Even (xs ++ toBigEndian 2 n).length := by
    intro n
    rw [List.length_append, length_toBigEndian]
    exact h.add even_two
  rw [wordSum_append (heven v), wordSum_append (heven 0), wordSum_append h,
    wordSum_append h, wordSum_toBigEndian hv,
    wordSum_toBigEndian (by decide)]
  omega

end WordSum

theorem onesChecksum_eq_zero_iff {initial : ℕ} {bs : List UInt8} :
    onesChecksum initial bs = 0 ↔
      endAround (initial + wordSum bs) = 65535 := by
  have hle := endAround_le (initial + wordSum bs)
  rw [onesChecksum]
  omega

/-- Bytes whose checksum has been put at a word boundary have the checksum
zero. -/
theorem onesChecksum_insert
    {xs : List UInt8} (h : Even xs.length) (ys : List UInt8)
    (initial : ℕ) :
    onesChecksum initial
      (xs ++ toBigEndian 2
        (onesChecksum initial (xs ++ toBigEndian 2 0 ++ ys)) ++ ys) = 0 := by
  have hlt : onesChecksum initial (xs ++ toBigEndian 2 0 ++ ys) < 65536 := by
    rw [onesChecksum]
    omega
  rw [onesChecksum_eq_zero_iff, wordSum_insert h hlt, ← Nat.add_assoc]
  exact endAround_add_complement _

end Sponge
