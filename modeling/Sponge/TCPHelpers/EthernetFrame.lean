import Sponge.Util.Buffer
import Sponge.Util.Parser

/-!
# Ethernet frames

The addresses and the frames of the link layer.

The parser of a frame does not look at the verdict of the parser of its header.
That parser refuses a buffer without a full header before it reads anything, so
no read fails and the frame is accepted all the same: its header is what it was
before, and all of the buffer is its payload.
-/

namespace Sponge

open NetParser

/-- Six bytes. -/
structure EthernetAddress where
  bytes : Bytes
  length_bytes : bytes.length = 6
deriving DecidableEq

namespace EthernetAddress

def zero : EthernetAddress := ⟨[0, 0, 0, 0, 0, 0], rfl⟩

/-- The address of all hosts. -/
def broadcast : EthernetAddress := ⟨[0xff, 0xff, 0xff, 0xff, 0xff, 0xff], rfl⟩

/-- Read the six bytes of an address. -/
def parse : StateM NetParser EthernetAddress := do
  let b0 ← NetParser.u8
  let b1 ← NetParser.u8
  let b2 ← NetParser.u8
  let b3 ← NetParser.u8
  let b4 ← NetParser.u8
  let b5 ← NetParser.u8
  return ⟨[b0, b1, b2, b3, b4, b5], rfl⟩

/-- The address in the six bytes at a position. -/
def decode (bs : Bytes) (position : ℕ) : EthernetAddress :=
  ⟨[UInt8.ofNat (fieldAt bs position 1),
    UInt8.ofNat (fieldAt bs (position + 1) 1),
    UInt8.ofNat (fieldAt bs (position + 2) 1),
    UInt8.ofNat (fieldAt bs (position + 3) 1),
    UInt8.ofNat (fieldAt bs (position + 4) 1),
    UInt8.ofNat (fieldAt bs (position + 5) 1)], rfl⟩

theorem reads_parse (bs : Bytes) (position : ℕ) :
    Reads parse bs position (decode bs position) (position + 6) := by
  refine (reads_u8 bs position).bind ?_
  refine (reads_u8 bs (position + 1)).bind ?_
  refine (reads_u8 bs (position + 2)).bind ?_
  refine (reads_u8 bs (position + 3)).bind ?_
  refine (reads_u8 bs (position + 4)).bind ?_
  refine (reads_u8 bs (position + 5)).bind ?_
  exact reads_pure (decode bs position) bs (position + 6)

theorem length_flatMap_u8 (a : EthernetAddress) :
    (a.bytes.flatMap NetUnparser.u8).length = 6 := by
  simp [List.length_flatMap, a.length_bytes]

/-- A field behind an address. -/
theorem fieldAt_add (a : EthernetAddress) (rest : Bytes) (n width : ℕ) :
    fieldAt (a.bytes.flatMap NetUnparser.u8 ++ rest) (n + 6) width =
      fieldAt rest n width := by
  rw [fieldAt_append, length_flatMap_u8, Nat.add_sub_cancel]
  rw [length_flatMap_u8]
  exact Nat.le_add_left 6 n

theorem exists_bytes (a : EthernetAddress) :
    ∃ b0 b1 b2 b3 b4 b5, a = ⟨[b0, b1, b2, b3, b4, b5], rfl⟩ := by
  obtain ⟨bytes, hlength⟩ := a
  match bytes, hlength with
  | [b0, b1, b2, b3, b4, b5], _ => exact ⟨b0, b1, b2, b3, b4, b5, rfl⟩

/-- An address that was written is read again. -/
theorem decode_flatMap_u8 (a : EthernetAddress) (rest : Bytes) :
    decode (a.bytes.flatMap NetUnparser.u8 ++ rest) 0 = a := by
  obtain ⟨b0, b1, b2, b3, b4, b5, rfl⟩ := a.exists_bytes
  simp only [decode, List.flatMap_cons, List.flatMap_nil, List.append_assoc,
    Nat.zero_add, NetUnparser.fieldAt_u8, NetUnparser.fieldAt_u8_add,
    UInt8.ofNat_toNat]

/-- Writing an address that was read gives its bytes back. -/
theorem flatMap_u8_decode
    {bs : Bytes} {position : ℕ} (h : position + 6 ≤ bs.length) :
    (decode bs position).bytes.flatMap NetUnparser.u8 =
      bs.extract position (position + 6) := by
  simp only [decode, List.flatMap_cons, List.flatMap_nil, List.append_nil]
  rw [NetUnparser.u8_fieldAt (by omega), NetUnparser.u8_fieldAt (by omega),
    NetUnparser.u8_fieldAt (by omega), NetUnparser.u8_fieldAt (by omega),
    NetUnparser.u8_fieldAt (by omega), NetUnparser.u8_fieldAt (by omega)]
  simp (disch := omega) only [Nat.add_assoc, Nat.reduceAdd,
    extract_append_extract]

end EthernetAddress

/-- The header of a frame. -/
structure EthernetHeader where
  dst : EthernetAddress := EthernetAddress.zero
  src : EthernetAddress := EthernetAddress.zero
  type : UInt16 := 0
deriving DecidableEq

namespace EthernetHeader

/-- The number of bytes of a header. -/
def length : ℕ := 14

def typeIPv4 : UInt16 := 0x800

def typeArp : UInt16 := 0x806

/-- Read the fields into `h`, which stays as it is if there are not enough
bytes. -/
def parse (h : EthernetHeader) :
    StateM NetParser (ParseResult × EthernetHeader) := do
  let p ← get
  if p.buffer.size < length then
    return (.packetTooShort, h)
  else
    let dst ← EthernetAddress.parse
    let src ← EthernetAddress.parse
    let type ← u16
    let error ← getError
    return (error, { dst := dst, src := src, type := type })

/-- The header as a string. -/
def serialize (h : EthernetHeader) : Bytes :=
  h.dst.bytes.flatMap NetUnparser.u8 ++
  (h.src.bytes.flatMap NetUnparser.u8 ++
  NetUnparser.u16 h.type)

/-- The header in the first bytes of a packet. -/
def decode (bs : Bytes) : EthernetHeader where
  dst := EthernetAddress.decode bs 0
  src := EthernetAddress.decode bs 6
  type := UInt16.ofNat (fieldAt bs 12 2)

theorem reads_parse_of_lt
    {bs : Bytes} (hlength : bs.length < 14) (h : EthernetHeader) :
    Reads h.parse bs 0 (.packetTooShort, h) 0 := by
  refine reads_get_bind fun p hp => ?_
  have hstr : p.buffer.str = bs := hp.str_eq (Nat.zero_le _)
  simp only [Buffer.size, hstr, length, hlength, if_true]
  exact reads_pure _ _ _

theorem reads_parse
    {bs : Bytes} (hlength : 14 ≤ bs.length) (h : EthernetHeader) :
    Reads h.parse bs 0 (.noError, decode bs) 14 := by
  refine reads_get_bind fun p hp => ?_
  have hstr : p.buffer.str = bs := hp.str_eq (Nat.zero_le _)
  simp only [Buffer.size, hstr, length, not_lt.mpr hlength, if_false]
  refine (EthernetAddress.reads_parse bs 0).bind ?_
  refine (EthernetAddress.reads_parse bs 6).bind ?_
  refine (reads_u16 bs 12).bind ?_
  refine (reads_getError bs 14).bind ?_
  rw [errorAt_of_le hlength]
  exact reads_pure (ParseResult.noError, decode bs) bs 14

theorem length_serialize (h : EthernetHeader) : h.serialize.length = 14 := by
  rw [serialize, List.length_append, List.length_append,
    EthernetAddress.length_flatMap_u8, EthernetAddress.length_flatMap_u8,
    NetUnparser.length_u16]

theorem decode_serialize (h : EthernetHeader) (rest : Bytes) :
    decode (h.serialize ++ rest) = h := by
  obtain ⟨dst, src, type⟩ := h
  have hdst := EthernetAddress.decode_flatMap_u8 dst
  have hsrc := EthernetAddress.decode_flatMap_u8 src
  simp only [EthernetAddress.decode] at hdst hsrc
  simp only [decode, serialize, EthernetAddress.decode, List.append_assoc,
    EthernetAddress.fieldAt_add, Nat.reduceAdd, NetUnparser.fieldAt_u16,
    UInt16.ofNat_toNat]
  rw [hdst, hsrc]

theorem serialize_decode {bs : Bytes} (hlength : 14 ≤ bs.length) :
    (decode bs).serialize = bs.take 14 := by
  simp only [serialize, decode]
  rw [EthernetAddress.flatMap_u8_decode (by omega),
    EthernetAddress.flatMap_u8_decode (by omega),
    NetUnparser.u16_fieldAt (by omega), extract_append_extract _ (by omega)
    (by omega), extract_append_extract _ (by omega) (by omega), extract_zero]

end EthernetHeader

/-- A header and a payload. -/
structure EthernetFrame where
  header : EthernetHeader := {}
  payload : BufferList := BufferList.empty
deriving DecidableEq

namespace EthernetFrame

/-- Parse a buffer into the frame `frame`. -/
def parse (frame : EthernetFrame) (buffer : Buffer) :
    ParseResult × EthernetFrame :=
  let ((_, header), p) := (frame.header.parse).run ⟨buffer, .noError⟩
  (p.error, ⟨header, BufferList.ofBuffer p.buffer⟩)

/-- The header and the payload. -/
def serialize (frame : EthernetFrame) : BufferList :=
  (BufferList.empty.append
    (BufferList.ofBuffer (Buffer.ofString frame.header.serialize))).append
      frame.payload

/-- The result of a parse, from what the parser of the header did. -/
theorem parse_eq
    {frame : EthernetFrame} {b : Buffer} {result : ParseResult}
    {header : EthernetHeader} {stop : ℕ}
    (h : Reads frame.header.parse b.str 0 (result, header) stop)
    (hstop : stop ≤ b.str.length) :
    ∃ rest : Buffer, rest.str = b.str.drop stop ∧
      frame.parse b = (.noError, ⟨header, .ofBuffer rest⟩) := by
  obtain ⟨p, hp, hat⟩ := h _ (at_zero b)
  refine ⟨p.buffer, hat.str_eq hstop, ?_⟩
  simp only [parse, StateT.run, hp, hat.error_eq, errorAt_of_le hstop]

/-- A buffer that is too short for a header is accepted. -/
theorem parse_of_lt
    (frame : EthernetFrame) {b : Buffer} (h : b.str.length < 14) :
    ∃ rest : Buffer, rest.str = b.str ∧
      frame.parse b = (.noError, ⟨frame.header, .ofBuffer rest⟩) :=
  parse_eq (EthernetHeader.reads_parse_of_lt h frame.header) (Nat.zero_le _)

theorem parse_of_le
    (frame : EthernetFrame) {b : Buffer} (h : 14 ≤ b.str.length) :
    ∃ rest : Buffer, rest.str = b.str.drop 14 ∧
      frame.parse b = (.noError, ⟨.decode b.str, .ofBuffer rest⟩) :=
  parse_eq (EthernetHeader.reads_parse h frame.header) h

theorem concatenate_serialize (frame : EthernetFrame) :
    frame.serialize.concatenate =
      frame.header.serialize ++ frame.payload.concatenate := by
  rw [serialize, BufferList.concatenate_append, BufferList.concatenate_append,
    BufferList.concatenate_ofBuffer, Buffer.str_ofString]
  rfl

theorem parse_fst (frame : EthernetFrame) (b : Buffer) :
    (frame.parse b).1 = .noError := by
  rcases lt_or_ge b.str.length 14 with hlt | hle
  · obtain ⟨rest, -, hparse⟩ := frame.parse_of_lt hlt
    rw [hparse]
  · obtain ⟨rest, -, hparse⟩ := frame.parse_of_le hle
    rw [hparse]

/-- A frame with a full header is serialized as it was received. -/
theorem serialize_parse
    (frame : EthernetFrame) {b : Buffer} (h : 14 ≤ b.str.length) :
    (frame.parse b).2.serialize.concatenate = b.str := by
  obtain ⟨rest, hrest, hparse⟩ := frame.parse_of_le h
  rw [hparse, concatenate_serialize, BufferList.concatenate_ofBuffer, hrest,
    EthernetHeader.serialize_decode h, List.take_append_drop]

/-- A frame that was serialized is received as it was. -/
theorem parse_serialize
    (frame old : EthernetFrame) {b : Buffer}
    (hb : b.str = frame.serialize.concatenate) :
    (old.parse b).2.header = frame.header ∧
      (old.parse b).2.payload.concatenate = frame.payload.concatenate := by
  rw [concatenate_serialize] at hb
  have hlength : 14 ≤ b.str.length := by
    rw [hb, List.length_append, EthernetHeader.length_serialize]
    omega
  obtain ⟨rest, hrest, hparse⟩ := old.parse_of_le hlength
  rw [hparse, hb, EthernetHeader.decode_serialize,
    BufferList.concatenate_ofBuffer, hrest, hb]
  exact ⟨rfl, List.drop_left' (EthernetHeader.length_serialize _)⟩

/-- Among the buffers, all of which are accepted, those with a full header are
serialized again as they were, and every frame survives being serialized and
parsed, whatever frame it is parsed into. -/
theorem codec_iff_fits (frame : EthernetFrame) (b : Buffer) :
    ((((frame.parse b).1 = .noError ↔ EthernetHeader.length ≤ b.size) ∧
        ((frame.parse b).1 = .noError →
          (frame.parse b).2.serialize.concatenate = b.str)) ↔
      EthernetHeader.length ≤ b.size) ∧
    ∀ sent : EthernetFrame, b.str = sent.serialize.concatenate →
      (frame.parse b).1 = .noError ∧ (frame.parse b).2.header = sent.header ∧
        (frame.parse b).2.payload.concatenate = sent.payload.concatenate := by
  refine ⟨?_, ?_⟩
  · constructor
    · rintro ⟨haccepted, -⟩
      exact haccepted.mp (frame.parse_fst b)
    · intro hfits
      refine ⟨⟨fun _ => hfits, fun _ => frame.parse_fst b⟩, ?_⟩
      intro _
      exact frame.serialize_parse hfits
  · intro sent hb
    exact ⟨frame.parse_fst b, sent.parse_serialize frame hb⟩

/-- A payload in two buffers is received as one. -/
theorem codec_iff_fits_split :
    let frame : EthernetFrame :=
      { header := { dst := EthernetAddress.broadcast }
        payload := ⟨[Buffer.ofString [1, 2], Buffer.ofString [3]]⟩ }
    let b := Buffer.ofString frame.serialize.concatenate
    b.size = 17 ∧ (frame.parse b).1 = .noError ∧
      (frame.parse b).2.header = frame.header ∧
      (frame.parse b).2.payload.concatenate = [1, 2, 3] :=
  ⟨by decide, (codec_iff_fits _ _).2 _ rfl⟩

/-- Thirteen bytes. -/
def runtBytes : Bytes := List.replicate 13 0xff

/-- A frame of thirteen bytes is accepted with a header that was not read from
it. -/
theorem runt_accepted :
    let parsed := EthernetFrame.parse {} (Buffer.ofString runtBytes)
    parsed.1 = .noError ∧
      ¬ EthernetHeader.length ≤ (Buffer.ofString runtBytes).size ∧
      parsed.2.header.dst = EthernetAddress.zero ∧
      parsed.2.serialize.concatenate ≠ runtBytes := by
  decide

end EthernetFrame

end Sponge
