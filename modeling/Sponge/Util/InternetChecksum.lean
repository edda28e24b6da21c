import Sponge.Support.OnesComplement
import Sponge.Util.Buffer

/-!
# The Internet checksum

The accumulator of the source has 32 bits.  Bytes are added alternately as
the high and the low byte of a word, also across several calls of `add`, and
the carries are only added back when the value is asked for.  As long as the
accumulator does not overflow, the value is the ones' complement checksum.
-/

namespace Sponge

/-- The running sum, and whether the next byte is the low byte of a word. -/
structure InternetChecksum where
  sum : ℕ
  parity : Bool
  sum_lt : sum < 2 ^ 32

namespace InternetChecksum

def new (initialSum : UInt32) : InternetChecksum where
  sum := initialSum.toNat
  parity := false
  sum_lt := initialSum.toNat_lt

/-- One round of the loop of `add`. -/
def addByte (check : InternetChecksum) (byte : UInt8) : InternetChecksum where
  sum :=
    (check.sum +
      if check.parity then byte.toNat else byte.toNat <<< 8) % 2 ^ 32
  parity := !check.parity
  sum_lt := Nat.mod_lt _ (Nat.two_pow_pos 32)

def add (check : InternetChecksum) (data : Bytes) : InternetChecksum :=
  data.foldl addByte check

/-- The loop of `value`.  Two rounds are enough for 32 bits. -/
def foldCarries : ℕ → ℕ → ℕ
  | 0, ret => ret
  | fuel + 1, ret =>
      if ret > 0xffff then foldCarries fuel ((ret >>> 16) + (ret &&& 0xffff))
      else ret

def value (check : InternetChecksum) : UInt16 :=
  UInt16.ofNat (2 ^ 32 - 1 - foldCarries 2 check.sum)

/-! ## The loops -/

/-- It does not matter how the data are cut into pieces. -/
theorem add_append
    (check : InternetChecksum) (data more : Bytes) :
    check.add (data ++ more) = (check.add data).add more :=
  List.foldl_append

/-- At a word boundary, the sum of the words is added. -/
theorem add_sum
    {check : InternetChecksum} (h : check.parity = false) (data : Bytes) :
    (check.add data).sum = (check.sum + wordSum data) % 2 ^ 32 := by
  induction data using wordSum.induct generalizing check with
  | case1 => exact (Nat.mod_eq_of_lt check.sum_lt).symm
  | case2 a =>
      simp only [add, List.foldl_cons, List.foldl_nil, addByte, h,
        Bool.false_eq_true, if_false, wordSum, Nat.shiftLeft_eq]
  | case3 a b rest ih =>
      have hpair : (check.addByte a).addByte b =
          { sum := (check.sum + (a.toNat * 256 + b.toNat)) % 2 ^ 32
            parity := false
            sum_lt := Nat.mod_lt _ (Nat.two_pow_pos 32) } := by
        simp only [addByte, h, Bool.not_false, Bool.not_true, if_true,
          Bool.false_eq_true, if_false, Nat.shiftLeft_eq,
          InternetChecksum.mk.injEq, and_true]
        omega
      have hstep : check.add (a :: b :: rest) =
          ((check.addByte a).addByte b).add rest := rfl
      rw [hstep, hpair, ih rfl, wordSum]
      simp only
      omega

/-- Two rounds add all carries of 32 bits back. -/
theorem foldCarries_eq {n : ℕ} (h : n < 2 ^ 32) :
    foldCarries 2 n = endAround n := by
  have hround : ∀ m : ℕ, (m >>> 16) + (m &&& 0xffff) =
      m / 65536 + m % 65536 := by
    intro m
    rw [Nat.shiftRight_eq_div_pow, Nat.and_two_pow_sub_one_eq_mod m 16]
  simp only [foldCarries, hround]
  split
  next hlarge =>
    rw [← endAround_carry n]
    split
    next hcarry =>
      rw [← endAround_carry (n / 65536 + n % 65536)]
      exact (endAround_of_le (by omega)).symm
    next hdone => exact (endAround_of_le (not_lt.mp hdone)).symm
  next hsmall => exact (endAround_of_le (not_lt.mp hsmall)).symm

theorem value_toNat (check : InternetChecksum) :
    check.value.toNat = 65535 - endAround check.sum := by
  have hle := endAround_le check.sum
  rw [value, foldCarries_eq check.sum_lt, UInt16.toNat_ofNat']
  omega

/-- The value is the ones' complement checksum, unless the accumulator
overflows. -/
theorem value_add
    {initialSum : UInt32} {data : Bytes}
    (h : initialSum.toNat + wordSum data < 2 ^ 32) :
    (((new initialSum).add data).value).toNat =
      onesChecksum initialSum.toNat data := by
  rw [value_toNat, add_sum rfl, onesChecksum]
  simp only [new]
  rw [Nat.mod_eq_of_lt h]

/-- A packet of at most 65535 bytes does not overflow the accumulator. -/
theorem sum_lt_of_length_le
    {initialSum : UInt32} {data : Bytes}
    (hinitial : initialSum.toNat < 2 ^ 31)
    (hdata : data.length ≤ 65535) :
    initialSum.toNat + wordSum data < 2 ^ 32 := by
  have hsum := wordSum_le data
  omega

/-! ## Data in chunks -/

/-- Adding the chunks of some data one after the other. -/
theorem foldl_add (check : InternetChecksum) (chunks : List Bytes) :
    chunks.foldl add check = check.add chunks.flatten := by
  induction chunks generalizing check with
  | nil => rfl
  | cons chunk chunks ih =>
      rw [List.foldl_cons, ih, List.flatten_cons, add_append]

/-- The chunks do not matter, the accumulator does not overflow at any byte,
and data into which their checksum has been put have the checksum zero. -/
theorem checksum_of_chunks
    {initialSum : UInt32} (hinitial : initialSum.toNat < 2 ^ 31)
    {chunks : List Bytes} (hlength : chunks.flatten.length ≤ 65535) :
    (∀ added : Bytes, added <+: chunks.flatten →
      ((new initialSum).add added).sum =
        initialSum.toNat + wordSum added) ∧
    (chunks.foldl add (new initialSum)).value.toNat =
      onesChecksum initialSum.toNat chunks.flatten ∧
    ∀ before after : Bytes,
      chunks.flatten = before ++ [0, 0] ++ after → Even before.length →
        let filled := before ++
          toBigEndian 2 (chunks.foldl add (new initialSum)).value.toNat ++
          after
        ∀ chunks' : List Bytes, chunks'.flatten = filled →
          (chunks'.foldl add (new initialSum)).value = 0 := by
  have hvalue : ∀ chunks : List Bytes, chunks.flatten.length ≤ 65535 →
      (chunks.foldl add (new initialSum)).value.toNat =
        onesChecksum initialSum.toNat chunks.flatten := by
    intro chunks hlength
    rw [foldl_add, value_add (sum_lt_of_length_le hinitial hlength)]
  refine ⟨?_, hvalue chunks hlength, ?_⟩
  · intro added hadded
    have hlt := sum_lt_of_length_le hinitial
      (hadded.length_le.trans hlength)
    rw [add_sum rfl]
    exact Nat.mod_eq_of_lt hlt
  · intro before after hzeros heven filled chunks' hchunks'
    have hlength' : chunks'.flatten.length ≤ 65535 := by
      rw [hzeros] at hlength
      simp only [List.length_append, List.length_cons, List.length_nil]
        at hlength
      simp only [hchunks', filled, List.length_append, length_toBigEndian]
      exact hlength
    have hinsert := onesChecksum_insert heven after initialSum.toNat
    rw [← UInt16.toNat_inj, hvalue chunks' hlength', hchunks']
    simp only [filled]
    rw [hvalue chunks hlength, hzeros]
    exact hinsert

/-- Four chunks, one of them empty and two of odd length. -/
theorem checksum_of_chunks_four :
    ([[0x45], [], [0x00, 0x12, 0x34], [0, 0]] : List Bytes).flatten.length =
        6 ∧
      (([[0x45], [], [0x00, 0x12, 0x34], [0, 0]] : List Bytes).foldl add
          (new 7)).value.toNat =
        onesChecksum 7 [0x45, 0x00, 0x12, 0x34, 0, 0] :=
  ⟨by decide, (@checksum_of_chunks 7 (by decide)
    [[0x45], [], [0x00, 0x12, 0x34], [0, 0]] (by decide)).2.1⟩

end InternetChecksum

end Sponge
