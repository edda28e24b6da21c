import Sponge.Support.BigEndian
import Sponge.Support.Slice
import Sponge.Util.Buffer

/-!
# Reading and writing packet fields

A `NetParser` reads big-endian integers from the front of a buffer.  Reading
past the end sets an error that stays, and every read after an error gives
zero and consumes nothing.

The rules for `Reads` describe a sequence of reads without a case split on the
length of the packet: a read takes the parser from one position of the packet
to the next one, even where the position lies behind the end, and its value is
the field at the position, which is zero behind the end.
-/

namespace Sponge

/-- The outcome of parsing. -/
inductive ParseResult where
  | noError
  | badChecksum
  | packetTooShort
  | wrongIPVersion
  | headerTooShort
  | truncatedPacket
  | unsupported
deriving DecidableEq

/-- The bytes that have not been read, and the outcome so far. -/
structure NetParser where
  buffer : Buffer
  error : ParseResult := .noError

namespace NetParser

def setError (res : ParseResult) (p : NetParser) : NetParser :=
  { p with error := res }

def checkSize (size : ℕ) (p : NetParser) : NetParser :=
  if size > p.buffer.size then p.setError .packetTooShort else p

/-- Discard the first bytes of the buffer.  The buffer throws when it is too
short, but this is only called when it is not. -/
def discard (n : ℕ) (p : NetParser) : NetParser :=
  { p with buffer := (p.buffer.removePrefix n).getD p.buffer }

/-- The integer of `len` bytes at the front. -/
def parseInt (len : ℕ) : StateM NetParser ℕ := fun p =>
  let p := p.checkSize len
  if p.error ≠ .noError then (0, p)
  else (ofBigEndian (p.buffer.str.take len), p.discard len)

def u32 : StateM NetParser UInt32 := do
  return UInt32.ofNat (← parseInt 4)

def u16 : StateM NetParser UInt16 := do
  return UInt16.ofNat (← parseInt 2)

def u8 : StateM NetParser UInt8 := do
  return UInt8.ofNat (← parseInt 1)

def removePrefix (n : ℕ) : StateM NetParser Unit := fun p =>
  let p := p.checkSize n
  if p.error ≠ .noError then ((), p) else ((), p.discard n)

def getError : StateM NetParser ParseResult := do
  return (← get).error

end NetParser

namespace NetUnparser

/-- The bytes that `u32` appends to the string. -/
def u32 (val : UInt32) : Bytes := toBigEndian 4 val.toNat

/-- The bytes that `u16` appends to the string. -/
def u16 (val : UInt16) : Bytes := toBigEndian 2 val.toNat

/-- The bytes that `u8` appends to the string. -/
def u8 (val : UInt8) : Bytes := toBigEndian 1 val.toNat

@[simp] theorem length_u32 (val : UInt32) : (u32 val).length = 4 :=
  length_toBigEndian 4 _

@[simp] theorem length_u16 (val : UInt16) : (u16 val).length = 2 :=
  length_toBigEndian 2 _

@[simp] theorem length_u8 (val : UInt8) : (u8 val).length = 1 :=
  length_toBigEndian 1 _

theorem fieldAt_u32 (val : UInt32) (rest : Bytes) :
    fieldAt (u32 val ++ rest) 0 4 = val.toNat := by
  rw [u32, fieldAt_toBigEndian]
  exact Nat.mod_eq_of_lt val.toNat_lt

/-- A field behind a `u32`. -/
theorem fieldAt_u32_add (val : UInt32) (rest : Bytes) (n width : ℕ) :
    fieldAt (u32 val ++ rest) (n + 4) width = fieldAt rest n width :=
  fieldAt_append (by simp) rest width

theorem fieldAt_u16 (val : UInt16) (rest : Bytes) :
    fieldAt (u16 val ++ rest) 0 2 = val.toNat := by
  rw [u16, fieldAt_toBigEndian]
  exact Nat.mod_eq_of_lt val.toNat_lt

/-- A field behind a `u16`. -/
theorem fieldAt_u16_add (val : UInt16) (rest : Bytes) (n width : ℕ) :
    fieldAt (u16 val ++ rest) (n + 2) width = fieldAt rest n width :=
  fieldAt_append (by simp) rest width

theorem fieldAt_u8 (val : UInt8) (rest : Bytes) :
    fieldAt (u8 val ++ rest) 0 1 = val.toNat := by
  rw [u8, fieldAt_toBigEndian]
  exact Nat.mod_eq_of_lt val.toNat_lt

/-- A field behind a `u8`. -/
theorem fieldAt_u8_add (val : UInt8) (rest : Bytes) (n width : ℕ) :
    fieldAt (u8 val ++ rest) (n + 1) width = fieldAt rest n width :=
  fieldAt_append (by simp) rest width

/-! Writing a field that was read gives its bytes back. -/

section Slices

variable {bs : Bytes} {position : ℕ}

theorem u32_fieldAt (h : position + 4 ≤ bs.length) :
    u32 (UInt32.ofNat (fieldAt bs position 4)) =
      bs.extract position (position + 4) := by
  have hlt : fieldAt bs position 4 < 2 ^ 32 := fieldAt_lt bs position 4
  rw [u32, UInt32.toNat_ofNat', Nat.mod_eq_of_lt hlt, toBigEndian_fieldAt h]

theorem u16_fieldAt (h : position + 2 ≤ bs.length) :
    u16 (UInt16.ofNat (fieldAt bs position 2)) =
      bs.extract position (position + 2) := by
  have hlt : fieldAt bs position 2 < 2 ^ 16 := fieldAt_lt bs position 2
  rw [u16, UInt16.toNat_ofNat', Nat.mod_eq_of_lt hlt, toBigEndian_fieldAt h]

theorem u8_fieldAt (h : position + 1 ≤ bs.length) :
    u8 (UInt8.ofNat (fieldAt bs position 1)) =
      bs.extract position (position + 1) := by
  have hlt : fieldAt bs position 1 < 2 ^ 8 := fieldAt_lt bs position 1
  rw [u8, UInt8.toNat_ofNat', Nat.mod_eq_of_lt hlt, toBigEndian_fieldAt h]

end Slices

end NetUnparser

/-- `std::string::resize`, which fills up with zero bytes. -/
def resize (s : Bytes) (n : ℕ) : Bytes :=
  s.take n ++ List.replicate (n - s.length) 0

theorem resize_of_le {s : Bytes} {n : ℕ} (h : s.length ≤ n) :
    resize s n = s ++ List.replicate (n - s.length) 0 := by
  rw [resize, List.take_of_length_le h]

@[simp] theorem length_resize (s : Bytes) (n : ℕ) :
    (resize s n).length = n := by
  rw [resize, List.length_append, List.length_take, List.length_replicate]
  omega

namespace NetParser

/-! ## Positions -/

/-- The outcome of reading up to a position of a packet. -/
def errorAt (bs : Bytes) (position : ℕ) : ParseResult :=
  if position ≤ bs.length then .noError else .packetTooShort

/-- The parser has read a packet up to a position, or tried to. -/
structure At (p : NetParser) (bs : Bytes) (position : ℕ) : Prop where
  error_eq : p.error = errorAt bs position
  str_eq : position ≤ bs.length → p.buffer.str = bs.drop position

theorem errorAt_of_le {bs : Bytes} {position : ℕ} (h : position ≤ bs.length) :
    errorAt bs position = .noError :=
  if_pos h

theorem errorAt_of_lt {bs : Bytes} {position : ℕ} (h : bs.length < position) :
    errorAt bs position = .packetTooShort :=
  if_neg (by omega)

theorem errorAt_eq_noError_iff {bs : Bytes} {position : ℕ} :
    errorAt bs position = .noError ↔ position ≤ bs.length := by
  unfold errorAt
  split
  next h => exact ⟨fun _ => h, fun _ => rfl⟩
  next h => exact ⟨nofun, fun hle => absurd hle h⟩

/-- A new parser stands at the beginning. -/
theorem at_zero (b : Buffer) : (NetParser.mk b .noError).At b.str 0 where
  error_eq := rfl
  str_eq := fun _ => rfl

section Positions

variable {p : NetParser} {bs : Bytes} {position n : ℕ}

/-- When the next bytes are there, they are not an error. -/
theorem At.checkSize_of_le (h : p.At bs position)
    (hn : position + n ≤ bs.length) :
    p.checkSize n = p ∧ p.error = .noError := by
  have hstr := h.str_eq (by omega)
  have hsize : ¬ n > p.buffer.size := by
    rw [Buffer.size, hstr, List.length_drop]
    omega
  refine ⟨if_neg hsize, ?_⟩
  rw [h.error_eq, errorAt_of_le (by omega)]

theorem At.discard (h : p.At bs position) (hn : position + n ≤ bs.length) :
    (p.discard n).At bs (position + n) := by
  have hstr := h.str_eq (by omega)
  have hsize : n ≤ p.buffer.str.length := by
    rw [hstr, List.length_drop]
    omega
  obtain ⟨b, hb, hdrop⟩ := Buffer.removePrefix_eq hsize
  constructor
  · change p.error = _
    rw [h.error_eq, errorAt_of_le (by omega), errorAt_of_le hn]
  · intro _
    change ((p.buffer.removePrefix n).getD p.buffer).str = _
    rw [hb, Option.getD_some, hdrop, hstr, List.drop_drop]

/-- When they are not all there, the error is set, unless it was before. -/
theorem At.checkSize_of_lt (h : p.At bs position)
    (hn : bs.length < position + n) :
    (p.checkSize n).error = .packetTooShort := by
  unfold checkSize
  split
  next => rfl
  next hsize =>
    have hend : bs.length < position := by
      by_contra hle
      rw [not_lt] at hle
      rw [Buffer.size, h.str_eq hle, List.length_drop] at hsize
      omega
    rw [h.error_eq, errorAt_of_lt hend]

theorem At.of_lt (hend : bs.length < position)
    (herror : p.error = .packetTooShort) :
    p.At bs position where
  error_eq := by rw [herror, errorAt_of_lt hend]
  str_eq := fun hle => absurd hle (by omega)

end Positions

/-! ## Sequences of reads -/

/-- From one position of a packet, `m` gives `a` and goes to another one. -/
def Reads {α : Type} (m : StateM NetParser α) (bs : Bytes) (start : ℕ) (a : α)
    (stop : ℕ) : Prop :=
  ∀ p : NetParser, p.At bs start → ∃ p', m p = (a, p') ∧ p'.At bs stop

section Reads

variable {α β : Type} {m : StateM NetParser α} {f : α → StateM NetParser β}
  {bs : Bytes} {start mid stop : ℕ} {a : α} {b : β}

theorem reads_pure (a : α) (bs : Bytes) (start : ℕ) :
    Reads (pure a) bs start a start :=
  fun p hp => ⟨p, rfl, hp⟩

theorem Reads.bind
    (hm : Reads m bs start a mid) (hf : Reads (f a) bs mid b stop) :
    Reads (m >>= f) bs start b stop := by
  intro p hp
  obtain ⟨q, hq, hmid⟩ := hm p hp
  obtain ⟨r, hr, hstop⟩ := hf q hmid
  refine ⟨r, ?_, hstop⟩
  change f (m p).1 (m p).2 = _
  rw [hq, hr]

/-- Looking at the parser itself. -/
theorem reads_get_bind
    {f : NetParser → StateM NetParser β}
    (h : ∀ p : NetParser, p.At bs start → Reads (f p) bs start b stop) :
    Reads (get >>= f) bs start b stop :=
  fun p hp => h p hp p hp

theorem reads_parseInt (len : ℕ) (bs : Bytes) (start : ℕ) :
    Reads (parseInt len) bs start (fieldAt bs start len) (start + len) := by
  intro p hp
  by_cases hn : start + len ≤ bs.length
  · obtain ⟨hcheck, hnoError⟩ := hp.checkSize_of_le hn
    refine ⟨p.discard len, ?_, hp.discard hn⟩
    simp only [parseInt, hcheck, hnoError, ne_eq, not_true_eq_false, if_false]
    rw [fieldAt, if_pos hn, hp.str_eq (by omega)]
  · have herror := hp.checkSize_of_lt (not_le.mp hn)
    refine ⟨p.checkSize len, ?_, At.of_lt (not_le.mp hn) herror⟩
    simp only [parseInt, herror, fieldAt, if_neg hn]
    rfl

theorem reads_u32 (bs : Bytes) (start : ℕ) :
    Reads u32 bs start (UInt32.ofNat (fieldAt bs start 4)) (start + 4) :=
  (reads_parseInt 4 bs start).bind (reads_pure _ _ _)

theorem reads_u16 (bs : Bytes) (start : ℕ) :
    Reads u16 bs start (UInt16.ofNat (fieldAt bs start 2)) (start + 2) :=
  (reads_parseInt 2 bs start).bind (reads_pure _ _ _)

theorem reads_u8 (bs : Bytes) (start : ℕ) :
    Reads u8 bs start (UInt8.ofNat (fieldAt bs start 1)) (start + 1) :=
  (reads_parseInt 1 bs start).bind (reads_pure _ _ _)

theorem reads_removePrefix (n : ℕ) (bs : Bytes) (start : ℕ) :
    Reads (removePrefix n) bs start () (start + n) := by
  intro p hp
  by_cases hn : start + n ≤ bs.length
  · obtain ⟨hcheck, hnoError⟩ := hp.checkSize_of_le hn
    refine ⟨p.discard n, ?_, hp.discard hn⟩
    simp only [removePrefix, hcheck, hnoError, ne_eq, not_true_eq_false,
      if_false]
  · have herror := hp.checkSize_of_lt (not_le.mp hn)
    refine ⟨p.checkSize n, ?_, At.of_lt (not_le.mp hn) herror⟩
    simp only [removePrefix, herror]
    rfl

theorem reads_getError (bs : Bytes) (start : ℕ) :
    Reads getError bs start (errorAt bs start) start :=
  fun p hp => ⟨p, Prod.ext hp.error_eq rfl, hp⟩

end Reads

end NetParser

end Sponge
