import Sponge.TCPHelpers.TCPSegment
import Sponge.Util.InternetChecksum
import Sponge.Util.Parser

/-!
# Parsing and serializing TCP segments

A segment is parsed if its checksum, together with what the network layer adds
to it, is zero.  The verdict of the parser of the header is then not looked
at, only the error of the reads.  The header is refused without such an error
when its data offset is too small, so these segments are accepted too.
-/

namespace Sponge

open NetParser

namespace TCPHeader

/-- The length of a header without options. -/
def length : ℕ := 20

/-- The reads of `parse`, in their order. -/
def parseFields : StateM NetParser TCPHeader := do
  let sport ← u16
  let dport ← u16
  let seqno ← u32
  let ackno ← u32
  let offsetByte ← u8
  let flB ← u8
  let win ← u16
  let cksum ← u16
  let uptr ← u16
  return {
    sport := sport
    dport := dport
    seqno := ⟨seqno⟩
    ackno := ⟨ackno⟩
    doff := offsetByte >>> 4
    urg := (flB &&& 0b00100000) ≠ 0
    ack := (flB &&& 0b00010000) ≠ 0
    psh := (flB &&& 0b00001000) ≠ 0
    rst := (flB &&& 0b00000100) ≠ 0
    syn := (flB &&& 0b00000010) ≠ 0
    fin := (flB &&& 0b00000001) ≠ 0
    win := win
    cksum := cksum
    uptr := uptr }

/-- Read all fields of a header, and skip the options. -/
def parse : StateM NetParser (ParseResult × TCPHeader) := do
  let h ← parseFields
  if h.doff < 5 then
    return (.headerTooShort, h)
  else
    removePrefix (h.doff.toNat * 4 - length)
    let error ← getError
    if error ≠ .noError then
      return (error, h)
    else
      return (.noError, h)

/-- The byte with the flags. -/
def flB (h : TCPHeader) : UInt8 :=
  (if h.urg then 0b00100000 else 0) ||| (if h.ack then 0b00010000 else 0) |||
    (if h.psh then 0b00001000 else 0) ||| (if h.rst then 0b00000100 else 0) |||
    (if h.syn then 0b00000010 else 0) ||| (if h.fin then 0b00000001 else 0)

/-- The bytes that `serialize` writes before the checksum. -/
def beforeCksum (h : TCPHeader) : Bytes :=
  NetUnparser.u16 h.sport ++
  (NetUnparser.u16 h.dport ++
  (NetUnparser.u32 h.seqno.rawValue ++
  (NetUnparser.u32 h.ackno.rawValue ++
  (NetUnparser.u8 (h.doff <<< 4) ++
  (NetUnparser.u8 h.flB ++
  NetUnparser.u16 h.win)))))

/-- The bytes that `serialize` writes before the string is resized. -/
def encode (h : TCPHeader) : Bytes :=
  h.beforeCksum ++ (NetUnparser.u16 h.cksum ++ NetUnparser.u16 h.uptr)

/-- The header as a string; the checksum is not computed again. -/
def serialize (h : TCPHeader) : Except String Bytes :=
  if h.doff < 5 then .error "TCP header too short"
  else .ok (resize h.encode (4 * h.doff.toNat))

/-! ## The layout of the fixed bytes -/

/-- The header in the first twenty bytes of a segment. -/
def decode (bs : Bytes) : TCPHeader :=
  let flB := UInt8.ofNat (fieldAt bs 13 1)
  { sport := UInt16.ofNat (fieldAt bs 0 2)
    dport := UInt16.ofNat (fieldAt bs 2 2)
    seqno := ⟨UInt32.ofNat (fieldAt bs 4 4)⟩
    ackno := ⟨UInt32.ofNat (fieldAt bs 8 4)⟩
    doff := UInt8.ofNat (fieldAt bs 12 1) >>> 4
    urg := (flB &&& 0b00100000) ≠ 0
    ack := (flB &&& 0b00010000) ≠ 0
    psh := (flB &&& 0b00001000) ≠ 0
    rst := (flB &&& 0b00000100) ≠ 0
    syn := (flB &&& 0b00000010) ≠ 0
    fin := (flB &&& 0b00000001) ≠ 0
    win := UInt16.ofNat (fieldAt bs 14 2)
    cksum := UInt16.ofNat (fieldAt bs 16 2)
    uptr := UInt16.ofNat (fieldAt bs 18 2) }

theorem reads_parseFields (bs : Bytes) :
    Reads parseFields bs 0 (decode bs) 20 := by
  refine (reads_u16 bs 0).bind ?_
  refine (reads_u16 bs 2).bind ?_
  refine (reads_u32 bs 4).bind ?_
  refine (reads_u32 bs 8).bind ?_
  refine (reads_u8 bs 12).bind ?_
  refine (reads_u8 bs 13).bind ?_
  refine (reads_u16 bs 14).bind ?_
  refine (reads_u16 bs 16).bind ?_
  refine (reads_u16 bs 18).bind ?_
  exact reads_pure (decode bs) bs 20

/-- The length of the header of a segment, in words of four bytes. -/
def dataOffset (bs : Bytes) : ℕ := fieldAt bs 12 1 / 16

theorem decode_doff (bs : Bytes) :
    (decode bs).doff.toNat = dataOffset bs := by
  have hlt := fieldAt_lt bs 12 1
  change (UInt8.ofNat (fieldAt bs 12 1) >>> 4).toNat = _
  rw [UInt8.toNat_shiftRight, UInt8.toNat_ofNat',
    Nat.mod_eq_of_lt (by omega)]
  exact Nat.shiftRight_eq_div_pow _ 4

/-- Where the parser of the header stops. -/
def headerStop (bs : Bytes) : ℕ :=
  if dataOffset bs < 5 then 20 else 4 * dataOffset bs

theorem headerStop_of_le {bs : Bytes} (h : 5 ≤ dataOffset bs) :
    headerStop bs = 4 * dataOffset bs :=
  if_neg (not_lt.mpr h)

theorem twenty_le_headerStop (bs : Bytes) : 20 ≤ headerStop bs := by
  unfold headerStop
  split <;> omega

theorem reads_parse (bs : Bytes) :
    ∃ result, Reads parse bs 0 (result, decode bs) (headerStop bs) := by
  have hdoff : (decode bs).doff < 5 ↔ dataOffset bs < 5 := by
    rw [UInt8.lt_iff_toNat_lt, decode_doff]
    rfl
  by_cases hfive : dataOffset bs < 5
  · refine ⟨.headerTooShort, (reads_parseFields bs).bind ?_⟩
    rw [if_pos (hdoff.mpr hfive), headerStop, if_pos hfive]
    exact reads_pure _ _ _
  · have hstop : 20 + (dataOffset bs * 4 - length) = headerStop bs := by
      rw [headerStop_of_le (not_lt.mp hfive), length]
      omega
    refine ⟨errorAt bs (headerStop bs), (reads_parseFields bs).bind ?_⟩
    rw [if_neg (hdoff.not.mpr hfive), decode_doff]
    refine (reads_removePrefix _ bs 20).bind ?_
    rw [hstop]
    refine (reads_getError bs _).bind ?_
    by_cases herror : errorAt bs (headerStop bs) = .noError
    · rw [herror]
      exact reads_pure _ _ _
    · rw [if_pos herror]
      exact reads_pure _ _ _

/-! ## Serialized headers -/

theorem length_beforeCksum (h : TCPHeader) : h.beforeCksum.length = 16 := by
  simp [beforeCksum]

@[simp] theorem length_encode (h : TCPHeader) : h.encode.length = 20 := by
  simp [encode, beforeCksum]

theorem doff_roundTrip {doff : UInt8} (h : doff.toNat ≤ 15) :
    (doff <<< 4) >>> 4 = doff := by
  have hall : ∀ n : Fin 16, (UInt8.ofNat n <<< 4) >>> 4 = UInt8.ofNat n := by
    decide
  have hfit := hall ⟨doff.toNat, by omega⟩
  rw [UInt8.ofNat_toNat] at hfit
  exact hfit

/-- The six flags share a byte. -/
theorem flB_roundTrip (h : TCPHeader) :
    decide ((h.flB &&& 0b00100000) ≠ 0) = h.urg ∧
      decide ((h.flB &&& 0b00010000) ≠ 0) = h.ack ∧
      decide ((h.flB &&& 0b00001000) ≠ 0) = h.psh ∧
      decide ((h.flB &&& 0b00000100) ≠ 0) = h.rst ∧
      decide ((h.flB &&& 0b00000010) ≠ 0) = h.syn ∧
      decide ((h.flB &&& 0b00000001) ≠ 0) = h.fin := by
  unfold flB
  generalize h.urg = urg, h.ack = ack, h.psh = psh, h.rst = rst,
    h.syn = syn, h.fin = fin
  revert urg ack psh rst syn fin
  decide

/-- A serialized header decodes to itself. -/
theorem decode_encode {h : TCPHeader} (hdoff : h.doff.toNat ≤ 15)
    (rest : Bytes) :
    decode (h.encode ++ rest) = h := by
  obtain ⟨hurg, hack, hpsh, hrst, hsyn, hfin⟩ := flB_roundTrip h
  have hoffset := doff_roundTrip hdoff
  simp only [decode, encode, beforeCksum, List.append_assoc,
    NetUnparser.fieldAt_u8, NetUnparser.fieldAt_u16, NetUnparser.fieldAt_u32,
    NetUnparser.fieldAt_u8_add, NetUnparser.fieldAt_u16_add,
    NetUnparser.fieldAt_u32_add, UInt8.ofNat_toNat, UInt16.ofNat_toNat,
    UInt32.ofNat_toNat, hoffset, hurg, hack, hpsh, hrst, hsyn, hfin]

end TCPHeader

namespace TCPSegment

open TCPHeader (decode dataOffset headerStop)

/-- Parse the bytes of a segment into the segment `seg`. -/
def parse (seg : TCPSegment) (buffer : Buffer)
    (datagramLayerChecksum : UInt32) : ParseResult × TCPSegment :=
  let check := (InternetChecksum.new datagramLayerChecksum).add buffer.str
  if check.value ≠ 0 then (.badChecksum, seg)
  else
    let ((_, header), p) := TCPHeader.parse.run ⟨buffer, .noError⟩
    (p.error, ⟨header, p.buffer⟩)

/-- The header, with its checksum, and the payload. -/
def serialize (seg : TCPSegment) (datagramLayerChecksum : UInt32) :
    Except String BufferList := do
  let headerOut := { seg.header with cksum := 0 }
  let headerZeroChecksum ← headerOut.serialize
  let check := ((InternetChecksum.new datagramLayerChecksum).add
    headerZeroChecksum).add seg.payload.str
  let headerOut := { headerOut with cksum := check.value }
  let header ← headerOut.serialize
  return (BufferList.empty.append
    (BufferList.ofBuffer (Buffer.ofString header))).append
      (BufferList.ofBuffer seg.payload)

/-! ## What is accepted -/

/-- The bytes that are a TCP segment, where the network layer adds `initial`
to the checksum. -/
structure Grammar (initial : ℕ) (bs : Bytes) : Prop where
  checksum_eq : onesChecksum initial bs = 0
  length_le : 20 ≤ bs.length
  five_le_dataOffset : 5 ≤ dataOffset bs
  header_le : 4 * dataOffset bs ≤ bs.length

section Accepted

variable {b : Buffer} {datagramLayerChecksum : UInt32}

theorem checksum_eq_zero_iff
    (hb : b.str.length ≤ 65535)
    (hsum : datagramLayerChecksum.toNat < 2 ^ 31) :
    ((InternetChecksum.new datagramLayerChecksum).add b.str).value = 0 ↔
      onesChecksum datagramLayerChecksum.toNat b.str = 0 := by
  have hlt := InternetChecksum.sum_lt_of_length_le hsum hb
  rw [← UInt16.toNat_inj, InternetChecksum.value_add hlt]
  rfl

/-- The result of a parse, when the checksum is zero. -/
theorem parse_of_checksum
    (seg : TCPSegment)
    (hsum : ((InternetChecksum.new datagramLayerChecksum).add b.str).value =
      0) :
    ∃ rest : Buffer,
      (headerStop b.str ≤ b.str.length →
        rest.str = b.str.drop (headerStop b.str)) ∧
      seg.parse b datagramLayerChecksum =
        (errorAt b.str (headerStop b.str), ⟨decode b.str, rest⟩) := by
  obtain ⟨result, hreads⟩ := TCPHeader.reads_parse b.str
  obtain ⟨p, hp, hat⟩ := hreads _ (at_zero b)
  refine ⟨p.buffer, hat.str_eq, ?_⟩
  rw [parse]
  simp only [hsum, ne_eq, not_true_eq_false, if_false, StateT.run, hp,
    hat.error_eq]

theorem parse_of_bad_checksum
    (seg : TCPSegment)
    (hsum : ((InternetChecksum.new datagramLayerChecksum).add b.str).value ≠
      0) :
    seg.parse b datagramLayerChecksum = (.badChecksum, seg) :=
  if_pos hsum

theorem header_of_parse
    {seg : TCPSegment}
    (h : (seg.parse b datagramLayerChecksum).1 = .noError) :
    (seg.parse b datagramLayerChecksum).2.header = decode b.str := by
  by_cases hzero : ((InternetChecksum.new datagramLayerChecksum).add
      b.str).value = 0
  · obtain ⟨rest, -, hparse⟩ := parse_of_checksum seg hzero
    rw [hparse]
  · rw [parse_of_bad_checksum seg hzero] at h
    exact nomatch h

/-- A segment is accepted if its checksum is zero and the reads of the header
did not reach the end. -/
theorem parse_eq_noError_iff
    (seg : TCPSegment)
    (hb : b.str.length ≤ 65535)
    (hsum : datagramLayerChecksum.toNat < 2 ^ 31) :
    (seg.parse b datagramLayerChecksum).1 = .noError ↔
      onesChecksum datagramLayerChecksum.toNat b.str = 0 ∧
        headerStop b.str ≤ b.str.length := by
  rw [← checksum_eq_zero_iff hb hsum]
  by_cases hzero : ((InternetChecksum.new datagramLayerChecksum).add
      b.str).value = 0
  · obtain ⟨rest, -, hparse⟩ := parse_of_checksum seg hzero
    rw [hparse, errorAt_eq_noError_iff]
    exact ⟨fun hle => ⟨hzero, hle⟩, fun h => h.2⟩
  · rw [parse_of_bad_checksum seg hzero]
    exact ⟨nofun, fun h => absurd h.1 hzero⟩

theorem grammar_iff {initial : ℕ} {bs : Bytes} (h : 5 ≤ dataOffset bs) :
    Grammar initial bs ↔
      onesChecksum initial bs = 0 ∧ headerStop bs ≤ bs.length := by
  rw [TCPHeader.headerStop_of_le h]
  constructor
  · exact fun hgrammar => ⟨hgrammar.checksum_eq, hgrammar.header_le⟩
  · rintro ⟨hzero, hle⟩
    exact ⟨hzero, by omega, h, hle⟩

end Accepted

/-- The parser accepts exactly the grammar, with the right payload, unless the
data offset of a segment with a good checksum is too small. -/
theorem parse_accepts_grammar_iff
    (seg : TCPSegment) {b : Buffer} {datagramLayerChecksum : UInt32}
    (hb : b.str.length ≤ 65535)
    (hsum : datagramLayerChecksum.toNat < 2 ^ 31) :
    (((seg.parse b datagramLayerChecksum).1 = .noError ↔
        Grammar datagramLayerChecksum.toNat b.str) ∧
      ((seg.parse b datagramLayerChecksum).1 = .noError →
        (seg.parse b datagramLayerChecksum).2.payload.str =
          b.str.drop (4 * dataOffset b.str))) ↔
      ¬ (onesChecksum datagramLayerChecksum.toNat b.str = 0 ∧
        20 ≤ b.str.length ∧ dataOffset b.str < 5) := by
  constructor
  · rintro ⟨hiff, -⟩ ⟨hzero, hlength, hdoff⟩
    have hstop : headerStop b.str ≤ b.str.length := by
      rw [headerStop, if_pos hdoff]
      exact hlength
    have haccepted := (parse_eq_noError_iff seg hb hsum).mpr
      ⟨hzero, hstop⟩
    exact absurd (hiff.mp haccepted).five_le_dataOffset (not_le.mpr hdoff)
  · intro hcondition
    have hdoff : ∀ h : onesChecksum datagramLayerChecksum.toNat b.str = 0 ∧
        headerStop b.str ≤ b.str.length, 5 ≤ dataOffset b.str := by
      rintro ⟨hzero, hstop⟩
      have hlength := (TCPHeader.twenty_le_headerStop b.str).trans hstop
      by_contra hlt
      exact hcondition ⟨hzero, hlength, not_le.mp hlt⟩
    rw [parse_eq_noError_iff seg hb hsum]
    refine ⟨⟨fun h => (grammar_iff (hdoff h)).mpr h, fun h =>
      (grammar_iff h.five_le_dataOffset).mp h⟩, ?_⟩
    intro h
    obtain ⟨rest, hrest, hparse⟩ := parse_of_checksum seg
      ((checksum_eq_zero_iff hb hsum).mpr h.1)
    rw [hparse, ← TCPHeader.headerStop_of_le (hdoff h)]
    exact hrest h.2

/-- Twenty bytes with the checksum zero and the data offset zero. -/
def zeroOffsetBytes : Bytes := 0xff :: 0xff :: List.replicate 18 0

/-- Twenty bytes with the checksum zero and the data offset five. -/
def bareHeaderBytes : Bytes :=
  [0xaf, 0xff, 0, 0, 0, 0, 0, 0, 0, 0, 0, 0, 0x50, 0, 0, 0, 0, 0, 0, 0]

theorem parse_accepts_grammar_iff_bareHeader :
    let b := Buffer.ofString bareHeaderBytes
    b.str.length ≤ 65535 ∧
      ((TCPSegment.parse {} b 0).1 = .noError ↔ Grammar 0 b.str) := by
  refine ⟨by decide, ?_⟩
  have hiff := @parse_accepts_grammar_iff {}
    (Buffer.ofString bareHeaderBytes) 0 (by decide) (by decide)
  exact (hiff.mpr (by decide)).1

/-- A segment outside of the grammar that is accepted. -/
theorem parse_accepts_zeroOffset :
    (TCPSegment.parse {} (Buffer.ofString zeroOffsetBytes) 0).1 = .noError ∧
      ¬ Grammar 0 zeroOffsetBytes := by
  refine ⟨by decide, fun h => ?_⟩
  exact absurd h.five_le_dataOffset (by decide)

/-! ## Round trip -/

/-- The bytes of a header that is written with some checksum. -/
def headerBytes (h : TCPHeader) (cksum : UInt16) : Bytes :=
  resize { h with cksum := cksum }.encode (4 * h.doff.toNat)

/-- The checksum that `serialize` puts into the header. -/
def segmentCksum (seg : TCPSegment) (datagramLayerChecksum : UInt32) :
    UInt16 :=
  (((InternetChecksum.new datagramLayerChecksum).add
    (headerBytes seg.header 0)).add seg.payload.str).value

theorem length_headerBytes (h : TCPHeader) (cksum : UInt16) :
    (headerBytes h cksum).length = 4 * h.doff.toNat :=
  length_resize _ _

theorem headerBytes_eq
    {h : TCPHeader} (hdoff : 5 ≤ h.doff.toNat) (cksum : UInt16) :
    headerBytes h cksum = { h with cksum := cksum }.encode ++
      List.replicate (4 * h.doff.toNat - 20) 0 := by
  have hle : { h with cksum := cksum }.encode.length ≤
      4 * h.doff.toNat := by
    rw [TCPHeader.length_encode]
    omega
  rw [headerBytes, resize_of_le hle, TCPHeader.length_encode]

theorem decode_headerBytes
    {h : TCPHeader} (hdoff : 5 ≤ h.doff.toNat) (hdoff' : h.doff.toNat ≤ 15)
    (cksum : UInt16) (rest : Bytes) :
    decode (headerBytes h cksum ++ rest) = { h with cksum := cksum } := by
  rw [headerBytes_eq hdoff, List.append_assoc]
  exact TCPHeader.decode_encode (h := { h with cksum := cksum }) hdoff' _

section RoundTrip

variable {seg : TCPSegment} {datagramLayerChecksum : UInt32}

/-- What `serialize` writes, when it does not throw. -/
theorem serialize_eq
    (hdoff : 5 ≤ seg.header.doff.toNat) (datagramLayerChecksum : UInt32) :
    ∃ l, seg.serialize datagramLayerChecksum = .ok l ∧
      l.concatenate =
        headerBytes seg.header (seg.segmentCksum datagramLayerChecksum) ++
          seg.payload.str := by
  have hserialize : ∀ c : UInt16,
      { seg.header with cksum := c }.serialize =
        .ok (headerBytes seg.header c) := by
    intro c
    refine if_neg ?_
    rw [UInt8.lt_iff_toNat_lt]
    exact not_lt.mpr hdoff
  simp only [serialize, hserialize, bind, Except.bind, pure, Except.pure]
  refine ⟨_, rfl, ?_⟩
  rw [BufferList.concatenate_append, BufferList.concatenate_append,
    BufferList.concatenate_ofBuffer, BufferList.concatenate_ofBuffer,
    Buffer.str_ofString]
  rfl

/-- A serialized segment has the checksum zero. -/
theorem onesChecksum_serialize
    (hdoff : 5 ≤ seg.header.doff.toNat)
    (hsize : 4 * seg.header.doff.toNat + seg.payload.size ≤ 65535)
    (hsum : datagramLayerChecksum.toNat < 2 ^ 31) :
    onesChecksum datagramLayerChecksum.toNat
      (headerBytes seg.header (seg.segmentCksum datagramLayerChecksum) ++
        seg.payload.str) = 0 := by
  have hsplit : ∀ c : UInt16, headerBytes seg.header c ++ seg.payload.str =
      seg.header.beforeCksum ++ toBigEndian 2 c.toNat ++
        (NetUnparser.u16 seg.header.uptr ++
          (List.replicate (4 * seg.header.doff.toNat - 20) 0 ++
            seg.payload.str)) := by
    intro c
    rw [headerBytes_eq hdoff, TCPHeader.encode]
    simp only [List.append_assoc]
    rfl
  have hvalue : (seg.segmentCksum datagramLayerChecksum).toNat =
      onesChecksum datagramLayerChecksum.toNat
        (headerBytes seg.header 0 ++ seg.payload.str) := by
    rw [segmentCksum, ← InternetChecksum.add_append]
    apply InternetChecksum.value_add
    apply InternetChecksum.sum_lt_of_length_le hsum
    rw [List.length_append, length_headerBytes]
    exact hsize
  have heven : Even seg.header.beforeCksum.length := by
    rw [TCPHeader.length_beforeCksum]
    decide
  rw [hsplit, hvalue, hsplit]
  exact onesChecksum_insert heven _ _

/-- Parsing a serialized segment gives the segment back, with the
checksum. -/
theorem parse_serialize
    (hdoff : 5 ≤ seg.header.doff.toNat) (hdoff' : seg.header.doff.toNat ≤ 15)
    (hsize : 4 * seg.header.doff.toNat + seg.payload.size ≤ 65535)
    (hsum : datagramLayerChecksum.toNat < 2 ^ 31) :
    ∃ l, seg.serialize datagramLayerChecksum = .ok l ∧
      l.size = 4 * seg.header.doff.toNat + seg.payload.size ∧
      ∀ (other : TCPSegment) (b : Buffer), b.str = l.concatenate →
        ∃ rest : Buffer, rest.str = seg.payload.str ∧
          other.parse b datagramLayerChecksum =
            (.noError, ⟨{ seg.header with
              cksum := seg.segmentCksum datagramLayerChecksum }, rest⟩) := by
  obtain ⟨l, hl, hconcat⟩ := serialize_eq hdoff datagramLayerChecksum
  have hheader := length_headerBytes seg.header
    (seg.segmentCksum datagramLayerChecksum)
  have hlsize : l.size = 4 * seg.header.doff.toNat + seg.payload.size := by
    rw [← BufferList.length_concatenate, hconcat, List.length_append, hheader]
    rfl
  refine ⟨l, hl, hlsize, ?_⟩
  intro other b hb
  have hlength : b.str.length =
      4 * seg.header.doff.toNat + seg.payload.size := by
    rw [hb, BufferList.length_concatenate, hlsize]
  rw [hconcat] at hb
  have hdecode : decode b.str = { seg.header with
      cksum := seg.segmentCksum datagramLayerChecksum } := by
    rw [hb, decode_headerBytes hdoff hdoff']
  have hoffset : dataOffset b.str = seg.header.doff.toNat := by
    rw [← TCPHeader.decode_doff, hdecode]
  have hstop : headerStop b.str = 4 * seg.header.doff.toNat := by
    rw [TCPHeader.headerStop_of_le (hoffset ▸ hdoff), hoffset]
  have hzero : ((InternetChecksum.new datagramLayerChecksum).add
      b.str).value = 0 := by
    rw [checksum_eq_zero_iff (hlength ▸ hsize) hsum, hb]
    exact onesChecksum_serialize hdoff hsize hsum
  obtain ⟨rest, hrest, hparse⟩ := parse_of_checksum other hzero
  rw [hstop] at hrest hparse
  refine ⟨rest, ?_, ?_⟩
  · rw [hrest (by omega), hb]
    exact List.drop_left' hheader
  · rw [hparse, errorAt_of_le (by omega), hdecode]

/-- Every field but the checksum survives being serialized and parsed. -/
theorem parse_concatenate_serialize
    (hdoff : 5 ≤ seg.header.doff.toNat) (hdoff' : seg.header.doff.toNat ≤ 15)
    (hsize : 4 * seg.header.doff.toNat + seg.payload.size ≤ 65535)
    (hsum : datagramLayerChecksum.toNat < 2 ^ 31) :
    ∃ l, seg.serialize datagramLayerChecksum = .ok l ∧
      ∀ (other : TCPSegment) (b : Buffer), b.str = l.concatenate →
        let parsed := other.parse b datagramLayerChecksum
        parsed.1 = .noError ∧
          { parsed.2.header with cksum := seg.header.cksum } = seg.header ∧
          parsed.2.payload.str = seg.payload.str := by
  obtain ⟨l, hl, -, hround⟩ := parse_serialize hdoff hdoff' hsize hsum
  refine ⟨l, hl, ?_⟩
  intro other b hb
  obtain ⟨rest, hrest, hparse⟩ := hround other b hb
  simp only [hparse]
  exact ⟨trivial, trivial, hrest⟩

end RoundTrip

/-- A segment with options, three flags and a payload of odd length. -/
def optionsSegment : TCPSegment where
  header :=
    { sport := 80
      seqno := ⟨0xfffffffe⟩
      doff := 7
      ack := true
      psh := true
      fin := true
      win := 1000 }
  payload := Buffer.ofString [1, 2, 3]

theorem parse_concatenate_serialize_options :
    4 * optionsSegment.header.doff.toNat + optionsSegment.payload.size = 31 ∧
      ∃ l, optionsSegment.serialize 0x7fffffff = .ok l ∧
        ∀ (other : TCPSegment) (b : Buffer), b.str = l.concatenate →
          let parsed := other.parse b 0x7fffffff
          parsed.1 = .noError ∧
            { parsed.2.header with cksum := optionsSegment.header.cksum } =
              optionsSegment.header ∧
            parsed.2.payload.str = optionsSegment.payload.str :=
  ⟨by decide, parse_concatenate_serialize (by decide) (by decide) (by decide)
    (by decide)⟩

end TCPSegment

end Sponge
