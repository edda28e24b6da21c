import Sponge.Support.Word
import Sponge.Util.InternetChecksum
import Sponge.Util.Parser

/-!
# IPv4 headers

Parsing and serializing the header of an IPv4 datagram.  `decode` is the
layout of the twenty fixed bytes; the parser reads exactly that, and a
serialized header decodes to itself.  `Framed` and `Grammar` say which packets
are IPv4 datagrams: the parser of the header gives the right verdict on all of
them.
-/

namespace Sponge

/-- The fields of an IPv4 header. -/
structure IPv4Header where
  ver : UInt8 := 4
  hlen : UInt8 := 5
  tos : UInt8 := 0
  len : UInt16 := 0
  id : UInt16 := 0
  df : Bool := true
  mf : Bool := false
  offset : UInt16 := 0
  ttl : UInt8 := 128
  proto : UInt8 := 6
  cksum : UInt16 := 0
  src : UInt32 := 0
  dst : UInt32 := 0
deriving DecidableEq

namespace IPv4Header

open NetParser

/-- The length of a header without options. -/
def length : ℕ := 20

def protoTcp : UInt8 := 6

/-- The reads of `parse`, in their order. -/
def parseFields : StateM NetParser IPv4Header := do
  let firstByte ← u8
  let tos ← u8
  let len ← u16
  let id ← u16
  let foVal ← u16
  let ttl ← u8
  let proto ← u8
  let cksum ← u16
  let src ← u32
  let dst ← u32
  return {
    ver := firstByte >>> 4
    hlen := firstByte &&& 0x0f
    tos := tos
    len := len
    id := id
    df := (foVal &&& 0x4000) ≠ 0
    mf := (foVal &&& 0x2000) ≠ 0
    offset := foVal &&& 0x1fff
    ttl := ttl
    proto := proto
    cksum := cksum
    src := src
    dst := dst }

/-- The checks of `parse` after the reads, on a packet with the bytes
`original`. -/
def checkFields (original : Bytes) (h : IPv4Header) :
    StateM NetParser ParseResult := do
  if original.length < 4 * h.hlen.toNat then
    return .packetTooShort
  else if h.ver ≠ 4 then
    return .wrongIPVersion
  else if h.hlen < 5 then
    return .headerTooShort
  else if original.length ≠ h.len.toNat then
    return .truncatedPacket
  else
    removePrefix (h.hlen.toNat * 4 - length)
    let error ← getError
    if error ≠ .noError then
      return error
    else
      let check :=
        (InternetChecksum.new 0).add (original.take (4 * h.hlen.toNat))
      if check.value ≠ 0 then
        return .badChecksum
      else
        return .noError

/-- Read the fields into `h`.  A packet that is too short leaves `h` as it
is; every other error leaves the fields that were read in it. -/
def parse (h : IPv4Header) : StateM NetParser (ParseResult × IPv4Header) := do
  let p ← get
  let original := p.buffer.str
  if original.length < length then
    return (.packetTooShort, h)
  else
    let h ← parseFields
    let result ← checkFields original h
    return (result, h)

/-- The bytes that `serialize` writes before the checksum. -/
def beforeCksum (h : IPv4Header) : Bytes :=
  NetUnparser.u8 ((h.ver <<< 4) ||| (h.hlen &&& 0xf)) ++
  (NetUnparser.u8 h.tos ++
  (NetUnparser.u16 h.len ++
  (NetUnparser.u16 h.id ++
  (NetUnparser.u16
    ((if h.df then 0x4000 else 0) ||| (if h.mf then 0x2000 else 0) |||
      (h.offset &&& 0x1fff)) ++
  (NetUnparser.u8 h.ttl ++
  NetUnparser.u8 h.proto)))))

/-- The bytes that `serialize` writes after the checksum. -/
def afterCksum (h : IPv4Header) : Bytes :=
  NetUnparser.u32 h.src ++ NetUnparser.u32 h.dst

/-- The bytes that `serialize` writes before the string is resized. -/
def encode (h : IPv4Header) : Bytes :=
  h.beforeCksum ++ (NetUnparser.u16 h.cksum ++ h.afterCksum)

/-- The header as a string; the checksum is not computed again. -/
def serialize (h : IPv4Header) : Except String Bytes :=
  if h.ver ≠ 4 then .error "wrong IP version"
  else if 4 * h.hlen.toNat < length then .error "IP header too short"
  else .ok (resize h.encode (4 * h.hlen.toNat))

/-- The length of the payload, in 16 bits. -/
def payloadLength (h : IPv4Header) : UInt16 :=
  h.len - 4 * h.hlen.toUInt16

/-- What the pseudo-header adds to the checksum of a TCP segment. -/
def pseudoCksum (h : IPv4Header) : UInt32 :=
  ((h.src >>> 16) + (h.src &&& (0xffff : UInt32))) +
    ((h.dst >>> 16) + (h.dst &&& 0xffff)) + h.proto.toUInt32 +
    h.payloadLength.toUInt32

/-! ## The layout of the fixed bytes -/

/-- The header in the first twenty bytes of a packet. -/
def decode (bs : Bytes) : IPv4Header :=
  let firstByte := UInt8.ofNat (fieldAt bs 0 1)
  let foVal := UInt16.ofNat (fieldAt bs 6 2)
  { ver := firstByte >>> 4
    hlen := firstByte &&& 0x0f
    tos := UInt8.ofNat (fieldAt bs 1 1)
    len := UInt16.ofNat (fieldAt bs 2 2)
    id := UInt16.ofNat (fieldAt bs 4 2)
    df := (foVal &&& 0x4000) ≠ 0
    mf := (foVal &&& 0x2000) ≠ 0
    offset := foVal &&& 0x1fff
    ttl := UInt8.ofNat (fieldAt bs 8 1)
    proto := UInt8.ofNat (fieldAt bs 9 1)
    cksum := UInt16.ofNat (fieldAt bs 10 2)
    src := UInt32.ofNat (fieldAt bs 12 4)
    dst := UInt32.ofNat (fieldAt bs 16 4) }

theorem reads_parseFields (bs : Bytes) :
    Reads parseFields bs 0 (decode bs) 20 := by
  refine (reads_u8 bs 0).bind ?_
  refine (reads_u8 bs 1).bind ?_
  refine (reads_u16 bs 2).bind ?_
  refine (reads_u16 bs 4).bind ?_
  refine (reads_u16 bs 6).bind ?_
  refine (reads_u8 bs 8).bind ?_
  refine (reads_u8 bs 9).bind ?_
  refine (reads_u16 bs 10).bind ?_
  refine (reads_u32 bs 12).bind ?_
  refine (reads_u32 bs 16).bind ?_
  exact reads_pure (decode bs) bs 20

/-- The version number of a packet. -/
def version (bs : Bytes) : ℕ := fieldAt bs 0 1 / 16

/-- The length of the header of a packet, in words of four bytes. -/
def ihl (bs : Bytes) : ℕ := fieldAt bs 0 1 % 16

/-- The length that a packet says it has. -/
def totalLength (bs : Bytes) : ℕ := fieldAt bs 2 2

theorem ihl_le (bs : Bytes) : ihl bs ≤ 15 := by
  rw [ihl]
  omega

theorem decode_ver (bs : Bytes) : (decode bs).ver.toNat = version bs := by
  have hlt := fieldAt_lt bs 0 1
  change (UInt8.ofNat (fieldAt bs 0 1) >>> 4).toNat = _
  rw [UInt8.toNat_shiftRight, UInt8.toNat_ofNat',
    Nat.mod_eq_of_lt (by omega)]
  exact Nat.shiftRight_eq_div_pow _ 4

theorem decode_hlen (bs : Bytes) : (decode bs).hlen.toNat = ihl bs := by
  have hlt := fieldAt_lt bs 0 1
  change (UInt8.ofNat (fieldAt bs 0 1) &&& 0x0f).toNat = _
  rw [UInt8.toNat_and, UInt8.toNat_ofNat', Nat.mod_eq_of_lt (by omega)]
  exact Nat.and_two_pow_sub_one_eq_mod _ 4

theorem decode_len (bs : Bytes) : (decode bs).len.toNat = totalLength bs := by
  have hlt := fieldAt_lt bs 2 2
  change (UInt16.ofNat (fieldAt bs 2 2)).toNat = _
  rw [UInt16.toNat_ofNat']
  exact Nat.mod_eq_of_lt (by omega)

theorem payloadLength_toNat (h : IPv4Header) :
    h.payloadLength.toNat = sub16 h.len.toNat (4 * h.hlen.toNat) := by
  have hlen := h.len.toNat_lt
  have hhlen := h.hlen.toNat_lt
  have hwords : (4 * h.hlen.toUInt16).toNat = 4 * h.hlen.toNat := by
    rw [UInt16.toNat_mul, UInt8.toNat_toUInt16]
    change 4 * h.hlen.toNat % 2 ^ 16 = _
    exact Nat.mod_eq_of_lt (by omega)
  rw [payloadLength, UInt16.toNat_sub, hwords, sub16]
  omega

/-! ## The verdict of the parser -/

/-- The lengths of a packet fit together, and it is of version 4. -/
structure Framed (bs : Bytes) : Prop where
  length_le : 20 ≤ bs.length
  version_eq : version bs = 4
  five_le_ihl : 5 ≤ ihl bs
  header_le : 4 * ihl bs ≤ bs.length
  totalLength_eq : totalLength bs = bs.length

/-- The packets that are IPv4 datagrams. -/
structure Grammar (bs : Bytes) : Prop extends Framed bs where
  checksum_eq : onesChecksum 0 (bs.take (4 * ihl bs)) = 0

/-- The checksum of the header does not overflow. -/
theorem header_checksum (bs : Bytes) :
    (((InternetChecksum.new 0).add (bs.take (4 * ihl bs))).value).toNat =
      onesChecksum 0 (bs.take (4 * ihl bs)) := by
  apply InternetChecksum.value_add
  apply InternetChecksum.sum_lt_of_length_le
  · decide
  · have hihl := ihl_le bs
    have htake := List.length_take_le (4 * ihl bs) bs
    omega

/-- On a framed packet, the checksum decides. -/
theorem reads_checkFields
    {bs : Bytes} (h : Framed bs) :
    ∃ result, Reads (checkFields bs (decode bs)) bs 20 result (4 * ihl bs) ∧
      (result = .noError ↔ Grammar bs) := by
  have hver : (decode bs).ver = 4 := by
    rw [← UInt8.toNat_inj, decode_ver, h.version_eq]
    rfl
  have hfive : ¬ (decode bs).hlen < 5 := by
    rw [UInt8.lt_iff_toNat_lt, decode_hlen]
    exact not_lt.mpr h.five_le_ihl
  have hstop : 20 + (ihl bs * 4 - length) = 4 * ihl bs := by
    have hge := h.five_le_ihl
    rw [length]
    omega
  have hchecked : ∀ m : ParseResult → StateM NetParser ParseResult,
      ∀ r, Reads (m .noError) bs (4 * ihl bs) r (4 * ihl bs) →
      Reads (do
        removePrefix (ihl bs * 4 - length)
        let error ← getError
        m error) bs 20 r (4 * ihl bs) := by
    intro m r hm
    refine (reads_removePrefix _ bs 20).bind ?_
    rw [hstop]
    refine (reads_getError bs _).bind ?_
    rw [errorAt_of_le h.header_le]
    exact hm
  simp only [checkFields, hver, hfive, decode_hlen, decode_len,
    h.totalLength_eq, not_lt.mpr h.header_le, ne_eq, not_true_eq_false,
    if_false]
  by_cases hsum : ((InternetChecksum.new 0).add
      (bs.take (4 * ihl bs))).value = 0
  · refine ⟨.noError, hchecked _ _ ?_, ?_⟩
    · simp only [hsum, not_true_eq_false, if_false]
      exact reads_pure _ _ _
    · have hzero : onesChecksum 0 (bs.take (4 * ihl bs)) = 0 := by
        rw [← header_checksum, hsum]
        rfl
      exact ⟨fun _ => ⟨h, hzero⟩, fun _ => rfl⟩
  · refine ⟨.badChecksum, hchecked _ _ ?_, ?_⟩
    · simp only [hsum, not_true_eq_false, not_false_eq_true, if_true,
        if_false]
      exact reads_pure _ _ _
    · refine ⟨nofun, fun hgrammar => absurd ?_ hsum⟩
      rw [← UInt16.toNat_inj, header_checksum, hgrammar.checksum_eq]
      rfl

/-- A packet that is not framed is refused before anything else is read. -/
theorem reads_checkFields_of_not_framed
    {bs : Bytes} (hlength : 20 ≤ bs.length) (h : ¬ Framed bs) :
    ∃ result, Reads (checkFields bs (decode bs)) bs 20 result 20 ∧
      result ≠ .noError := by
  have hver : (decode bs).ver = 4 ↔ version bs = 4 := by
    rw [← UInt8.toNat_inj, decode_ver]
    rfl
  have hfive : (decode bs).hlen < 5 ↔ ihl bs < 5 := by
    rw [UInt8.lt_iff_toNat_lt, decode_hlen]
    rfl
  simp only [checkFields, hver, hfive, decode_hlen, decode_len, ne_eq]
  split
  · exact ⟨_, reads_pure _ _ _, nofun⟩
  next hheader =>
    split
    · exact ⟨_, reads_pure _ _ _, nofun⟩
    next hversion =>
      split
      · exact ⟨_, reads_pure _ _ _, nofun⟩
      next hihl =>
        split
        · exact ⟨_, reads_pure _ _ _, nofun⟩
        next htotal =>
          refine absurd ⟨hlength, not_not.mp hversion, not_lt.mp hihl,
            not_lt.mp hheader, ?_⟩ h
          exact (not_not.mp htotal).symm

theorem reads_parse_of_lt
    {bs : Bytes} (hlength : bs.length < 20) (h : IPv4Header) :
    Reads h.parse bs 0 (.packetTooShort, h) 0 := by
  refine reads_get_bind fun p hp => ?_
  have hstr : p.buffer.str = bs := hp.str_eq (Nat.zero_le _)
  simp only [hstr, length, hlength, if_true]
  exact reads_pure _ _ _

theorem reads_parse
    {bs : Bytes} (hlength : 20 ≤ bs.length) (h : IPv4Header)
    {result : ParseResult} {stop : ℕ}
    (hcheck : Reads (checkFields bs (decode bs)) bs 20 result stop) :
    Reads h.parse bs 0 (result, decode bs) stop := by
  refine reads_get_bind fun p hp => ?_
  have hstr : p.buffer.str = bs := hp.str_eq (Nat.zero_le _)
  simp only [hstr, length, not_lt.mpr hlength, if_false]
  refine (reads_parseFields bs).bind ?_
  refine hcheck.bind ?_
  exact reads_pure _ _ _

/-! ## Serialized headers -/

/-- The headers whose fields fit into their places. -/
structure Canonical (h : IPv4Header) : Prop where
  ver_eq : h.ver = 4
  five_le_hlen : 5 ≤ h.hlen.toNat
  hlen_le : h.hlen.toNat ≤ 15
  offset_lt : h.offset.toNat < 2 ^ 13

theorem length_beforeCksum (h : IPv4Header) : h.beforeCksum.length = 10 := by
  simp [beforeCksum]

@[simp] theorem length_encode (h : IPv4Header) : h.encode.length = 20 := by
  simp [encode, beforeCksum, afterCksum]

theorem firstByte_roundTrip
    {ver hlen : UInt8} (hver : ver = 4) (hhlen : hlen.toNat ≤ 15) :
    ((ver <<< 4) ||| (hlen &&& 0xf)) >>> 4 = ver ∧
      ((ver <<< 4) ||| (hlen &&& 0xf)) &&& 0x0f = hlen := by
  have hall : ∀ n : Fin 16,
      (((4 : UInt8) <<< 4) ||| (UInt8.ofNat n &&& 0xf)) >>> 4 = 4 ∧
        (((4 : UInt8) <<< 4) ||| (UInt8.ofNat n &&& 0xf)) &&& 0x0f =
          UInt8.ofNat n := by
    decide
  have hfit := hall ⟨hlen.toNat, by omega⟩
  rw [UInt8.ofNat_toNat] at hfit
  rw [hver]
  exact hfit

/-- Masking the union of some bits and a masked word. -/
theorem or_and_mask (bits word mask mask' : UInt16) :
    (bits ||| (word &&& mask)) &&& mask' =
      (bits &&& mask') ||| (word &&& (mask &&& mask')) := by
  rw [← UInt16.toNat_inj]
  simp only [UInt16.toNat_and, UInt16.toNat_or]
  rw [Nat.and_or_distrib_right, Nat.and_assoc]

/-- The two flags and the fragment offset share 16 bits. -/
theorem foVal_roundTrip
    (df mf : Bool) {offset : UInt16} (h : offset.toNat < 2 ^ 13) :
    let foVal : UInt16 :=
      (if df then 0x4000 else 0) ||| (if mf then 0x2000 else 0) |||
        (offset &&& 0x1fff)
    decide ((foVal &&& 0x4000) ≠ 0) = df ∧
      decide ((foVal &&& 0x2000) ≠ 0) = mf ∧ foVal &&& 0x1fff = offset := by
  have hoffset : offset &&& 0x1fff = offset := by
    rw [← UInt16.toNat_inj, UInt16.toNat_and]
    change offset.toNat &&& (2 ^ 13 - 1) = _
    rw [Nat.and_two_pow_sub_one_eq_mod, Nat.mod_eq_of_lt h]
  have hdf : (0x1fff : UInt16) &&& 0x4000 = 0 := by decide
  have hmf : (0x1fff : UInt16) &&& 0x2000 = 0 := by decide
  have hmask : (0x1fff : UInt16) &&& 0x1fff = 0x1fff := by decide
  have hflags : ∀ df mf : Bool,
      let bits : UInt16 :=
        (if df then 0x4000 else 0) ||| (if mf then 0x2000 else 0)
      decide ((bits &&& 0x4000) ≠ 0) = df ∧
        decide ((bits &&& 0x2000) ≠ 0) = mf ∧ bits &&& 0x1fff = 0 := by
    decide
  obtain ⟨hdfBit, hmfBit, hclear⟩ := hflags df mf
  simp only [or_and_mask, hdf, hmf, hmask, UInt16.and_zero, UInt16.or_zero]
  refine ⟨hdfBit, hmfBit, ?_⟩
  rw [hclear, hoffset, UInt16.zero_or]

/-- A serialized header decodes to itself. -/
theorem decode_encode {h : IPv4Header} (hc : Canonical h) (rest : Bytes) :
    decode (h.encode ++ rest) = h := by
  obtain ⟨hver, hhlen⟩ := firstByte_roundTrip hc.ver_eq hc.hlen_le
  obtain ⟨hdf, hmf, hoffset⟩ := foVal_roundTrip h.df h.mf hc.offset_lt
  obtain ⟨ver, hlen, tos, len, id, df, mf, offset, ttl, proto, cksum, src,
    dst⟩ := h
  simp only [decode, encode, beforeCksum, afterCksum, List.append_assoc,
    NetUnparser.fieldAt_u8, NetUnparser.fieldAt_u16,
    NetUnparser.fieldAt_u32, NetUnparser.fieldAt_u8_add,
    NetUnparser.fieldAt_u16_add, NetUnparser.fieldAt_u32_add,
    UInt8.ofNat_toNat, UInt16.ofNat_toNat, UInt32.ofNat_toNat, hver, hhlen, hdf, hmf, hoffset]

end IPv4Header

end Sponge
