import Mathlib.Algebra.GroupWithZero.Nat
import Mathlib.Data.List.Basic

/-!
# Buffers and lists of buffers

A `Buffer` is a read-only string that can discard bytes from the front: the
string itself is shared and only the offset of the first visible byte moves.
Once everything has been discarded the string is released, and the offset no
longer means anything.  A `BufferList` is a string stored in several buffers.

An exception of the source is the result `none`, or an error with its text.
-/

namespace Sponge

/-- The contents of a `std::string`. -/
abbrev Bytes := List UInt8

/-- A string, or no string after its release, with the offset of the first
byte that has not been discarded. -/
structure Buffer where
  storage : Option Bytes
  startingOffset : ℕ
  offset_le : ∀ s ∈ storage, startingOffset ≤ s.length
deriving DecidableEq

namespace Buffer

/-- The default constructor. -/
def empty : Buffer := ⟨none, 0, by simp⟩

/-- Construction by taking ownership of a string. -/
def ofString (s : Bytes) : Buffer := ⟨some s, 0, by simp⟩

/-- The bytes that have not been discarded. -/
def str (b : Buffer) : Bytes :=
  match b.storage with
  | none => []
  | some s => s.drop b.startingOffset

/-- The number of bytes that have not been discarded. -/
def size (b : Buffer) : ℕ := b.str.length

@[simp] theorem str_ofString (s : Bytes) : (ofString s).str = s := rfl

theorem offset_add_le
    {b : Buffer} {n : ℕ} (hn : n ≤ b.str.length) :
    ∀ s ∈ b.storage, b.startingOffset + n ≤ s.length := by
  intro s hs
  have hoffset := b.offset_le s hs
  rw [Option.mem_def] at hs
  simp only [str, hs, List.length_drop] at hn
  omega

/-- Discard the first `n` bytes; throws when there are fewer. -/
def removePrefix (b : Buffer) (n : ℕ) : Option Buffer :=
  if hn : n ≤ b.str.length then
    if b.storage.any fun s => b.startingOffset + n = s.length then
      some ⟨none, b.startingOffset + n, by simp⟩
    else
      some ⟨b.storage, b.startingOffset + n, offset_add_le hn⟩
  else none

theorem removePrefix_eq
    {b : Buffer} {n : ℕ} (hn : n ≤ b.str.length) :
    ∃ b', b.removePrefix n = some b' ∧ b'.str = b.str.drop n := by
  unfold removePrefix
  rw [dif_pos hn]
  split
  next hend =>
    refine ⟨_, rfl, ?_⟩
    cases hs : b.storage with
    | none => simp [str, hs]
    | some s =>
        have hlen : b.startingOffset + n = s.length := by
          simpa [hs] using hend
        simp [str, hs, List.drop_drop, hlen]
  next =>
    refine ⟨_, rfl, ?_⟩
    obtain ⟨storage, offset, hoffset⟩ := b
    cases storage with
    | none => simp [str]
    | some s => simp [str, List.drop_drop]

end Buffer

/-- A string stored in several buffers. -/
structure BufferList where
  buffers : List Buffer
deriving DecidableEq

namespace BufferList

/-- The empty list of buffers. -/
def empty : BufferList := ⟨[]⟩

/-- Construction from one buffer. -/
def ofBuffer (b : Buffer) : BufferList := ⟨[b]⟩

/-- Append the buffers of another list. -/
def append (l other : BufferList) : BufferList :=
  ⟨l.buffers ++ other.buffers⟩

/-- The number of bytes in all buffers. -/
def size (l : BufferList) : ℕ := (l.buffers.map Buffer.size).sum

/-- The whole string. -/
def concatenate (l : BufferList) : Bytes := l.buffers.flatMap Buffer.str

/-- The conversion to a single buffer. -/
def toBuffer (l : BufferList) : Except String Buffer :=
  match l.buffers with
  | [] => .ok Buffer.empty
  | [b] => .ok b
  | _ => .error ("BufferList: please use concatenate() to combine a " ++
      "multi-Buffer BufferList into one Buffer")

theorem str_of_toBuffer
    {l : BufferList} {b : Buffer} (h : l.toBuffer = .ok b) :
    b.str = l.concatenate := by
  obtain ⟨buffers⟩ := l
  match buffers, h with
  | [], rfl => rfl
  | [_], rfl => exact (List.append_nil _).symm

theorem length_concatenate (l : BufferList) :
    l.concatenate.length = l.size := by
  simp only [concatenate, size, List.length_flatMap]
  rfl

@[simp] theorem concatenate_ofBuffer (b : Buffer) :
    (ofBuffer b).concatenate = b.str := by
  simp [concatenate, ofBuffer]

@[simp] theorem concatenate_append (l other : BufferList) :
    (l.append other).concatenate = l.concatenate ++ other.concatenate := by
  simp [concatenate, append]

/-- The loop of `remove_prefix`: drop whole buffers from the front while they
are too short, then shorten the one that is long enough. -/
def removePrefixLoop : List Buffer → ℕ → Option (List Buffer)
  | bs, 0 => some bs
  | [], _ + 1 => none
  | b :: bs, n + 1 =>
      if n + 1 < b.str.length then
        (b.removePrefix (n + 1)).map (· :: bs)
      else removePrefixLoop bs (n + 1 - b.str.length)

/-- Discard the first `n` bytes; throws when there are fewer. -/
def removePrefix (l : BufferList) (n : ℕ) : Option BufferList :=
  (removePrefixLoop l.buffers n).map BufferList.mk

theorem removePrefixLoop_eq
    (bs : List Buffer) (n : ℕ) (hn : n ≤ (bs.flatMap Buffer.str).length) :
    ∃ bs', removePrefixLoop bs n = some bs' ∧
      bs'.flatMap Buffer.str = (bs.flatMap Buffer.str).drop n := by
  induction bs generalizing n with
  | nil =>
      have hzero : n = 0 := by simpa using hn
      subst hzero
      exact ⟨[], rfl, rfl⟩
  | cons b bs ih =>
      cases n with
      | zero => exact ⟨b :: bs, rfl, rfl⟩
      | succ n =>
          rw [List.flatMap_cons, List.length_append] at hn
          by_cases hb : n + 1 < b.str.length
          · obtain ⟨b', hb', hstr⟩ := Buffer.removePrefix_eq (Nat.le_of_lt hb)
            refine ⟨b' :: bs, by simp [removePrefixLoop, hb, hb'], ?_⟩
            rw [List.flatMap_cons, List.flatMap_cons, hstr,
              List.drop_append_of_le_length (Nat.le_of_lt hb)]
          · obtain ⟨bs', hbs', hstr⟩ :=
              ih (n + 1 - b.str.length) (by omega)
            refine ⟨bs', by simp [removePrefixLoop, hb, hbs'], ?_⟩
            have hdrop : b.str.drop (n + 1) = [] :=
              List.drop_eq_nil_of_le (by omega)
            rw [List.flatMap_cons, List.drop_append, hdrop, hstr]
            rfl

/-- Discarding at most the whole string succeeds, whatever the way the string
is cut into buffers. -/
theorem removePrefix_eq
    {l : BufferList} {n : ℕ} (hn : n ≤ l.size) :
    ∃ l', l.removePrefix n = some l' ∧
      l'.concatenate = l.concatenate.drop n := by
  rw [← length_concatenate] at hn
  obtain ⟨bs, hbs, hstr⟩ := removePrefixLoop_eq l.buffers n hn
  exact ⟨⟨bs⟩, by simp [removePrefix, hbs], hstr⟩

theorem isSome_removePrefix
    {l : BufferList} {n : ℕ} (hn : n ≤ l.size) :
    (l.removePrefix n).isSome := by
  obtain ⟨l', hl', -⟩ := removePrefix_eq hn
  simp [hl']

theorem concatenate_get_removePrefix
    {l : BufferList} {n : ℕ} (hn : n ≤ l.size) :
    ((l.removePrefix n).get (isSome_removePrefix hn)).concatenate =
      l.concatenate.drop n := by
  obtain ⟨l', hl', hconcat⟩ := removePrefix_eq hn
  simp only [hl', Option.get_some]
  exact hconcat

end BufferList

end Sponge
