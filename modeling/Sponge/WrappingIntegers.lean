import Mathlib.Data.Nat.Basic
import Mathlib.Data.Nat.Dist
import Sponge.Support.Word

/-!
# Wrapping 32-bit sequence numbers

Sequence numbers travel as 32-bit integers relative to an initial sequence
number.  `wrap` computes them from an absolute 64-bit sequence number, and
`unwrap` recovers the absolute number that is closest to a checkpoint.
-/

namespace Sponge

/-- A 32-bit integer, relative to an initial sequence number. -/
structure WrappingInt32 where
  rawValue : UInt32
deriving DecidableEq

/-- The relative sequence number of the absolute sequence number `n`. -/
def wrap (n : ℕ) (isn : WrappingInt32) : WrappingInt32 :=
  ⟨UInt32.ofNat (add64 isn.rawValue.toNat n % 2 ^ 32)⟩

/-- The distance from `isn` to `n`, as a 32-bit unsigned integer. -/
def relativeSeqno (n isn : WrappingInt32) : ℕ :=
  (n.rawValue - isn.rawValue).toNat

/-- The absolute sequence number that wraps to `n`, near `checkpoint`. -/
def unwrap (n isn : WrappingInt32) (checkpoint : ℕ) : ℕ :=
  let reSq := relativeSeqno n isn
  let max32 := 2 ^ 32
  let halfMax32 := 2 ^ 31
  let k := checkpoint / max32
  if checkpoint ≤ reSq then reSq
  else if add64 reSq (mul64 max32 k) > add64 checkpoint halfMax32 then
    add64 reSq (mul64 max32 (sub64 k 1))
  else if add64 (add64 reSq (mul64 max32 k)) halfMax32 < checkpoint then
    add64 reSq (mul64 max32 (add64 k 1))
  else add64 reSq (mul64 max32 k)

theorem relativeSeqno_lt (n isn : WrappingInt32) :
    relativeSeqno n isn < 2 ^ 32 :=
  (n.rawValue - isn.rawValue).toNat_lt

theorem relativeSeqno_inj {n m isn : WrappingInt32} :
    relativeSeqno n isn = relativeSeqno m isn ↔ n = m := by
  obtain ⟨n⟩ := n
  obtain ⟨m⟩ := m
  have hn := n.toNat_lt
  have hm := m.toNat_lt
  rw [WrappingInt32.mk.injEq, ← UInt32.toNat_inj]
  simp only [relativeSeqno, UInt32.toNat_sub]
  omega

theorem relativeSeqno_eq_zero_iff {n isn : WrappingInt32} :
    relativeSeqno n isn = 0 ↔ n = isn := by
  have hself : relativeSeqno isn isn = 0 := by
    rw [relativeSeqno, UInt32.sub_self, UInt32.toNat_zero]
  rw [← @relativeSeqno_inj n isn isn, hself]

theorem unwrap_of_checkpoint_zero (n isn : WrappingInt32) :
    unwrap n isn 0 = relativeSeqno n isn := by
  simp only [unwrap, if_pos (Nat.zero_le _)]

theorem unwrap_lt (n isn : WrappingInt32) (checkpoint : ℕ) :
    unwrap n isn checkpoint < 2 ^ 64 := by
  have hrel := relativeSeqno_lt n isn
  simp only [unwrap]
  split
  · omega
  · split
    · exact add64_lt _ _
    · split <;> exact add64_lt _ _

/-- The relative number of a wrapped absolute number is its remainder. -/
theorem relativeSeqno_wrap (x : ℕ) (isn : WrappingInt32) :
    relativeSeqno (wrap x isn) isn = x % 2 ^ 32 := by
  have hisn := isn.rawValue.toNat_lt
  simp only [relativeSeqno, wrap, add64, UInt32.toNat_sub,
    UInt32.toNat_ofNat']
  omega

theorem wrap_zero (isn : WrappingInt32) : wrap 0 isn = isn := by
  have hisn := isn.rawValue.toNat_lt
  obtain ⟨raw⟩ := isn
  simp only [wrap, add64, WrappingInt32.mk.injEq]
  apply UInt32.toNat_inj.mp
  rw [UInt32.toNat_ofNat']
  simp only at hisn
  omega

/-- For a checkpoint in the first half of the first round, `unwrap` returns
the number of the first round. -/
theorem unwrap_of_checkpoint_lt
    {checkpoint : ℕ} (n isn : WrappingInt32)
    (hcheckpoint : checkpoint < 2 ^ 31) :
    unwrap n isn checkpoint = relativeSeqno n isn := by
  have hrel := relativeSeqno_lt n isn
  have hk : checkpoint / 2 ^ 32 = 0 := by omega
  have hbase : add64 (relativeSeqno n isn) (mul64 (2 ^ 32) 0) =
      relativeSeqno n isn := by
    unfold add64 mul64
    omega
  simp only [unwrap, hk, hbase]
  split
  · rfl
  next hlt =>
    have hlow : ¬ relativeSeqno n isn > add64 checkpoint (2 ^ 31) := by
      unfold add64
      omega
    have hhigh : ¬ add64 (relativeSeqno n isn) (2 ^ 31) < checkpoint := by
      unfold add64
      omega
    rw [if_neg hlow, if_neg hhigh]

/-- Far below `2 ^ 32`, unwrapping undoes wrapping whatever the checkpoint in
the same range. -/
theorem unwrap_wrap_of_lt
    {x checkpoint : ℕ} (isn : WrappingInt32)
    (hx : x < 2 ^ 31) (hcheckpoint : checkpoint < 2 ^ 31) :
    unwrap (wrap x isn) isn checkpoint = x := by
  rw [unwrap_of_checkpoint_lt _ _ hcheckpoint, relativeSeqno_wrap]
  omega

/-- Whatever the checkpoint, `unwrap` returns a number with the right
remainder. -/
theorem unwrap_mod (n isn : WrappingInt32) (checkpoint : ℕ) :
    unwrap n isn checkpoint % 2 ^ 32 = relativeSeqno n isn := by
  have hrel := relativeSeqno_lt n isn
  have hadd : ∀ k, add64 (relativeSeqno n isn) (mul64 (2 ^ 32) k) % 2 ^ 32 =
      relativeSeqno n isn := by
    intro k
    unfold add64 mul64
    omega
  simp only [unwrap]
  split
  · exact Nat.mod_eq_of_lt hrel
  · split
    · exact hadd _
    · split
      · exact hadd _
      · exact hadd _

theorem wrap_eq_iff {x : ℕ} {n isn : WrappingInt32} :
    wrap x isn = n ↔ x % 2 ^ 32 = relativeSeqno n isn := by
  have hinj := @relativeSeqno_inj (wrap x isn) n isn
  rw [← hinj, relativeSeqno_wrap]

/-- In the lower half of the 64-bit range the comparisons of `unwrap` do not
overflow: its result is at most half a round away from the checkpoint, unless
there is no number below it. -/
theorem unwrap_near
    {checkpoint : ℕ} (hcheckpoint : checkpoint ≤ 2 ^ 63)
    (n isn : WrappingInt32) :
    (checkpoint ≤ unwrap n isn checkpoint ∧
        unwrap n isn checkpoint < 2 ^ 32) ∨
      (unwrap n isn checkpoint ≤ checkpoint + 2 ^ 31 ∧
        checkpoint ≤ unwrap n isn checkpoint + 2 ^ 31) := by
  have hrel := relativeSeqno_lt n isn
  simp only [unwrap]
  split
  next hle => exact Or.inl ⟨hle, hrel⟩
  next hlt =>
    refine Or.inr ?_
    unfold add64 mul64 sub64
    split
    · omega
    · split
      · omega
      · omega

/-- In the lower half of the 64-bit range, `unwrap` returns the nearest number
that wraps to `n`, and so it recovers every number less than half a round away
from the checkpoint. -/
theorem unwrap_nearest
    {checkpoint : ℕ} (hcheckpoint : checkpoint ≤ 2 ^ 63)
    (n isn : WrappingInt32) :
    wrap (unwrap n isn checkpoint) isn = n ∧
      (∀ y < 2 ^ 64, wrap y isn = n →
        (unwrap n isn checkpoint).dist checkpoint ≤ y.dist checkpoint) ∧
      ∀ x : ℕ, x.dist checkpoint < 2 ^ 31 →
        unwrap (wrap x isn) isn checkpoint = x := by
  refine ⟨wrap_eq_iff.mpr (unwrap_mod n isn checkpoint), ?_, ?_⟩
  · intro y _ hy
    have hnear := unwrap_near hcheckpoint n isn
    have hmod := unwrap_mod n isn checkpoint
    rw [wrap_eq_iff] at hy
    unfold Nat.dist
    omega
  · intro x hx
    have hnear := unwrap_near hcheckpoint (wrap x isn) isn
    have hmod := unwrap_mod (wrap x isn) isn checkpoint
    rw [relativeSeqno_wrap] at hmod
    unfold Nat.dist at hx
    omega

/-- Just below a multiple of `2 ^ 32`. -/
theorem unwrap_nearest_boundary :
    2 ^ 32 - 1 ≤ 2 ^ 63 ∧
      unwrap (wrap (2 ^ 32 + 5) ⟨7⟩) ⟨7⟩ (2 ^ 32 - 1) = 2 ^ 32 + 5 :=
  ⟨by decide,
    (unwrap_nearest (by decide) ⟨7⟩ ⟨7⟩).2.2 (2 ^ 32 + 5) (by decide)⟩

/-- The checkpoints at which an absolute sequence number of at most `2 ^ 31`
is recovered.  Besides those within `2 ^ 31` above it there is one stretch at
the top of the 64-bit range, where the sum that `unwrap` compares with the
checkpoint overflows to zero. -/
def Recoverable (x checkpoint : ℕ) : Prop :=
  (checkpoint ≤ x + 2 ^ 31 ∧ checkpoint < 2 ^ 32) ∨
    (x = 2 ^ 31 ∧ 2 ^ 64 - 2 ^ 32 ≤ checkpoint ∧
      checkpoint < 2 ^ 64 - 2 ^ 31)

instance recoverableDecidable (x checkpoint : ℕ) :
    Decidable (Recoverable x checkpoint) :=
  inferInstanceAs (Decidable (_ ∨ _))

theorem unwrap_wrap_iff
    {x checkpoint : ℕ} (isn : WrappingInt32)
    (hx : x ≤ 2 ^ 31) (hcheckpoint : checkpoint < 2 ^ 64) :
    unwrap (wrap x isn) isn checkpoint = x ↔ Recoverable x checkpoint := by
  have hrel : relativeSeqno (wrap x isn) isn = x := by
    rw [relativeSeqno_wrap]
    omega
  simp only [unwrap, hrel, Recoverable]
  by_cases hle : checkpoint ≤ x
  · rw [if_pos hle]
    omega
  · rw [if_neg hle]
    unfold add64 mul64 sub64
    split
    · omega
    · split
      · omega
      · omega

end Sponge
