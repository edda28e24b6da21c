import Sponge.TCPHelpers.IPv4Header

/-!
# IPv4 datagrams

The parser of a datagram does not look at the verdict of the parser of its
header: only a payload of the wrong length, or an error of the reads, makes it
fail.  The payload starts where the reads of the header stopped, which is after
the twenty fixed bytes if the header was refused.
-/

namespace Sponge

/-- A header and a payload. -/
structure IPv4Datagram where
  header : IPv4Header := {}
  payload : BufferList := BufferList.empty
deriving DecidableEq

/-- The datagrams of the network layer. -/
abbrev InternetDatagram := IPv4Datagram

namespace IPv4Datagram

open NetParser
open IPv4Header (Framed Grammar Canonical decode version ihl)

/-- Parse a packet into the datagram `d`. -/
def parse (d : IPv4Datagram) (buffer : Buffer) : ParseResult × IPv4Datagram :=
  let ((_, header), p) := (d.header.parse).run ⟨buffer, .noError⟩
  let payload := BufferList.ofBuffer p.buffer
  if payload.size ≠ header.payloadLength.toNat then
    (.packetTooShort, ⟨header, payload⟩)
  else
    (p.error, ⟨header, payload⟩)

/-- The header, with its checksum, and the payload. -/
def serialize (d : IPv4Datagram) : Except String BufferList :=
  if d.payload.size ≠ d.header.payloadLength.toNat then
    .error "IPv4Datagram::serialize: payload is wrong size"
  else do
    let headerOut := { d.header with cksum := 0 }
    let headerZeroChecksum ← headerOut.serialize
    let check := (InternetChecksum.new 0).add headerZeroChecksum
    let headerOut := { headerOut with cksum := check.value }
    let header ← headerOut.serialize
    return (BufferList.empty.append
      (BufferList.ofBuffer (Buffer.ofString header))).append d.payload

/-- Serializing does not throw. -/
def Serializable (d : IPv4Datagram) : Prop :=
  d.serialize.isOk = true

instance (d : IPv4Datagram) : Decidable d.Serializable :=
  inferInstanceAs (Decidable (_ = true))

/-! ## What is accepted -/

@[simp] theorem size_ofBuffer (b : Buffer) :
    (BufferList.ofBuffer b).size = b.str.length := by
  rw [← BufferList.length_concatenate, BufferList.concatenate_ofBuffer]

/-- The result of a parse, from what the parser of the header did. -/
theorem parse_eq
    {d : IPv4Datagram} {b : Buffer} {result : ParseResult}
    {header : IPv4Header} {stop : ℕ}
    (h : Reads d.header.parse b.str 0 (result, header) stop)
    (hstop : stop ≤ b.str.length) :
    ∃ rest : Buffer, rest.str = b.str.drop stop ∧
      d.parse b =
        (if b.str.length - stop = header.payloadLength.toNat then .noError
          else .packetTooShort, ⟨header, .ofBuffer rest⟩) := by
  obtain ⟨p, hp, hat⟩ := h _ (at_zero b)
  have hstr := hat.str_eq hstop
  have herror : p.error = .noError := by
    rw [hat.error_eq, errorAt_of_le hstop]
  refine ⟨p.buffer, hstr, ?_⟩
  simp only [parse, StateT.run, hp, size_ofBuffer, hstr, List.length_drop,
    herror]
  by_cases hlen : b.str.length - stop = header.payloadLength.toNat
  · rw [if_neg (not_not.mpr hlen), if_pos hlen]
  · rw [if_pos hlen, if_neg hlen]

theorem payloadLength_decode (bs : Bytes) :
    (decode bs).payloadLength.toNat =
      sub16 (IPv4Header.totalLength bs) (4 * ihl bs) := by
  rw [IPv4Header.payloadLength_toNat, IPv4Header.decode_len,
    IPv4Header.decode_hlen]

/-- A packet that is too short for a header leaves the header as it was. -/
theorem parse_of_lt
    (d : IPv4Datagram) {b : Buffer} (h : b.str.length < 20) :
    ∃ rest : Buffer, rest.str = b.str ∧
      d.parse b =
        (if b.str.length = d.header.payloadLength.toNat then .noError
          else .packetTooShort, ⟨d.header, .ofBuffer rest⟩) := by
  have hreads := IPv4Header.reads_parse_of_lt h d.header
  exact parse_eq hreads (Nat.zero_le _)

/-- A framed packet is accepted, whatever its checksum. -/
theorem parse_of_framed
    (d : IPv4Datagram) {b : Buffer} (h : Framed b.str) :
    ∃ rest : Buffer, rest.str = b.str.drop (4 * ihl b.str) ∧
      d.parse b = (.noError, ⟨decode b.str, .ofBuffer rest⟩) := by
  obtain ⟨result, hcheck, -⟩ := IPv4Header.reads_checkFields h
  have hreads := IPv4Header.reads_parse h.length_le d.header hcheck
  obtain ⟨rest, hrest, hparse⟩ := parse_eq hreads h.header_le
  have hlen : b.str.length - 4 * ihl b.str =
      (decode b.str).payloadLength.toNat := by
    have htotal : IPv4Header.totalLength b.str < 2 ^ 16 := fieldAt_lt b.str 2 2
    rw [payloadLength_decode, sub16_eq htotal, h.totalLength_eq]
    rw [h.totalLength_eq]
    exact h.header_le
  refine ⟨rest, hrest, ?_⟩
  rw [hparse, if_pos hlen]

/-- Any other packet is accepted if the bytes after the fixed ones happen to
be as many as the header says, in 16 bits. -/
theorem parse_of_not_framed
    (d : IPv4Datagram) {b : Buffer} (hlength : 20 ≤ b.str.length)
    (h : ¬ Framed b.str) :
    ∃ rest : Buffer, rest.str = b.str.drop 20 ∧
      d.parse b =
        (if b.str.length - 20 =
            sub16 (IPv4Header.totalLength b.str) (4 * ihl b.str)
          then .noError else .packetTooShort,
          ⟨decode b.str, .ofBuffer rest⟩) := by
  obtain ⟨result, hcheck, -⟩ :=
    IPv4Header.reads_checkFields_of_not_framed hlength h
  have hreads := IPv4Header.reads_parse hlength d.header hcheck
  rw [← payloadLength_decode]
  exact parse_eq hreads hlength

/-- The packets outside of the grammar that the parser accepts into a datagram
with the header `h`. -/
def Misread (h : IPv4Header) (bs : Bytes) : Prop :=
  (Framed bs ∧ onesChecksum 0 (bs.take (4 * ihl bs)) ≠ 0) ∨
  (20 ≤ bs.length ∧ ¬ Framed bs ∧
    bs.length - 20 = sub16 (IPv4Header.totalLength bs) (4 * ihl bs)) ∨
  (bs.length < 20 ∧ bs.length = h.payloadLength.toNat)

/-- The parser accepts the grammar and the packets that it misreads. -/
theorem parse_eq_noError_iff (d : IPv4Datagram) (b : Buffer) :
    (d.parse b).1 = .noError ↔ Grammar b.str ∨ Misread d.header b.str := by
  have hresult : ∀ c : Prop, [Decidable c] →
      ((if c then .noError else .packetTooShort : ParseResult) = .noError ↔
        c) := by
    intro c _
    by_cases hc : c <;> simp [hc]
  by_cases hlength : b.str.length < 20
  · obtain ⟨rest, -, hparse⟩ := parse_of_lt d hlength
    rw [hparse, hresult]
    constructor
    · exact fun heq => Or.inr (Or.inr (Or.inr ⟨hlength, heq⟩))
    · rintro (hgrammar | ⟨hframed, -⟩ | ⟨hge, -⟩ | ⟨-, heq⟩)
      · exact absurd hgrammar.length_le (not_le.mpr hlength)
      · exact absurd hframed.length_le (not_le.mpr hlength)
      · exact absurd hge (not_le.mpr hlength)
      · exact heq
  · rw [not_lt] at hlength
    by_cases hframed : Framed b.str
    · obtain ⟨rest, -, hparse⟩ := parse_of_framed d hframed
      rw [hparse]
      refine ⟨fun _ => ?_, fun _ => rfl⟩
      by_cases hsum : onesChecksum 0 (b.str.take (4 * ihl b.str)) = 0
      · exact Or.inl ⟨hframed, hsum⟩
      · exact Or.inr (Or.inl ⟨hframed, hsum⟩)
    · obtain ⟨rest, -, hparse⟩ := parse_of_not_framed d hlength hframed
      rw [hparse, hresult]
      constructor
      · exact fun heq => Or.inr (Or.inr (Or.inl ⟨hlength, hframed, heq⟩))
      · rintro (hgrammar | ⟨h, -⟩ | ⟨-, -, heq⟩ | ⟨hlt, -⟩)
        · exact absurd hgrammar.toFramed hframed
        · exact absurd h hframed
        · exact heq
        · exact absurd hlt (not_lt.mpr hlength)

theorem not_grammar_of_misread
    {h : IPv4Header} {bs : Bytes} (hmisread : Misread h bs) :
    ¬ Grammar bs := by
  intro hgrammar
  rcases hmisread with ⟨-, hsum⟩ | ⟨-, hframed, -⟩ | ⟨hlt, -⟩
  · exact hsum hgrammar.checksum_eq
  · exact hframed hgrammar.toFramed
  · exact absurd hgrammar.length_le (not_le.mpr hlt)

/-! ## What can be serialized -/

theorem serialize_header
    {h : IPv4Header} (hver : h.ver = 4) (hhlen : 5 ≤ h.hlen.toNat) :
    h.serialize = .ok (resize h.encode (4 * h.hlen.toNat)) := by
  have hlength : ¬ 4 * h.hlen.toNat < IPv4Header.length := by
    rw [IPv4Header.length]
    omega
  rw [IPv4Header.serialize, if_neg (not_not.mpr hver), if_neg hlength]

/-- The bytes of a header that is written with some checksum. -/
def headerBytes (h : IPv4Header) (cksum : UInt16) : Bytes :=
  resize { h with cksum := cksum }.encode (4 * h.hlen.toNat)

/-- The checksum that `serialize` puts into the header. -/
def headerCksum (h : IPv4Header) : UInt16 :=
  ((InternetChecksum.new 0).add (headerBytes h 0)).value

/-- What `serialize` writes, when it does not throw. -/
theorem serialize_eq
    {d : IPv4Datagram} (hsize : d.payload.size = d.header.payloadLength.toNat)
    (hver : d.header.ver = 4) (hhlen : 5 ≤ d.header.hlen.toNat) :
    ∃ l, d.serialize = .ok l ∧
      l.concatenate = headerBytes d.header (headerCksum d.header) ++
        d.payload.concatenate := by
  have hserialize : ∀ c : UInt16,
      { d.header with cksum := c }.serialize =
        .ok (headerBytes d.header c) := by
    intro c
    exact serialize_header hver hhlen
  rw [serialize, if_neg (not_not.mpr hsize)]
  simp only [hserialize, bind, Except.bind, pure, Except.pure]
  refine ⟨_, rfl, ?_⟩
  rw [BufferList.concatenate_append, BufferList.concatenate_append,
    BufferList.concatenate_ofBuffer, Buffer.str_ofString]
  rfl

theorem serializable_iff (d : IPv4Datagram) :
    d.Serializable ↔ d.payload.size = d.header.payloadLength.toNat ∧
      d.header.ver = 4 ∧ 5 ≤ d.header.hlen.toNat := by
  constructor
  · intro h
    by_cases hsize : d.payload.size = d.header.payloadLength.toNat
    · rw [Serializable, serialize, if_neg (not_not.mpr hsize)] at h
      refine ⟨hsize, ?_, ?_⟩
      · by_contra hver
        simp [IPv4Header.serialize, hver, bind, Except.bind, Except.isOk,
          Except.toBool] at h
      · by_contra hhlen
        have hlength : 4 * d.header.hlen.toNat < IPv4Header.length := by
          rw [IPv4Header.length]
          omega
        by_cases hver : d.header.ver = 4 <;>
          simp [IPv4Header.serialize, hver, hlength, bind, Except.bind,
            Except.isOk, Except.toBool] at h
    · rw [Serializable, serialize, if_pos hsize] at h
      exact absurd h Bool.false_ne_true
  · rintro ⟨hsize, hver, hhlen⟩
    obtain ⟨l, hl, -⟩ := serialize_eq hsize hver hhlen
    rw [Serializable, hl]
    rfl

/-- A datagram of the grammar can be serialized after parsing. -/
theorem serializable_of_grammar
    (d : IPv4Datagram) {b : Buffer} (h : Grammar b.str) :
    (d.parse b).2.Serializable := by
  obtain ⟨rest, hrest, hparse⟩ := parse_of_framed d h.toFramed
  rw [hparse, serializable_iff]
  refine ⟨?_, ?_, ?_⟩
  · have htotal : IPv4Header.totalLength b.str < 2 ^ 16 := fieldAt_lt b.str 2 2
    have hheader : 4 * ihl b.str ≤ IPv4Header.totalLength b.str := by
      rw [h.totalLength_eq]
      exact h.header_le
    rw [size_ofBuffer, hrest, payloadLength_decode, sub16_eq htotal hheader,
      List.length_drop, h.totalLength_eq]
  · rw [← UInt8.toNat_inj, IPv4Header.decode_ver, h.version_eq]
    rfl
  · rw [IPv4Header.decode_hlen]
    exact h.five_le_ihl

/-- The time to live does not matter for serializing. -/
theorem serializable_ttl (d : IPv4Datagram) (ttl : UInt8) :
    Serializable ⟨{ d.header with ttl := ttl }, d.payload⟩ ↔
      d.Serializable := by
  rw [serializable_iff, serializable_iff]
  rfl

/-! ## Round trip -/

theorem length_headerBytes (h : IPv4Header) (cksum : UInt16) :
    (headerBytes h cksum).length = 4 * h.hlen.toNat :=
  length_resize _ _

theorem headerBytes_eq
    {h : IPv4Header} (hhlen : 5 ≤ h.hlen.toNat) (cksum : UInt16) :
    headerBytes h cksum = { h with cksum := cksum }.encode ++
      List.replicate (4 * h.hlen.toNat - 20) 0 := by
  have hle : { h with cksum := cksum }.encode.length ≤
      4 * h.hlen.toNat := by
    rw [IPv4Header.length_encode]
    omega
  rw [headerBytes, resize_of_le hle, IPv4Header.length_encode]

/-- The header that `serialize` writes has the checksum zero. -/
theorem onesChecksum_headerBytes
    {h : IPv4Header} (hc : Canonical h) :
    onesChecksum 0 (headerBytes h (headerCksum h)) = 0 := by
  have hsplit : ∀ c : UInt16, headerBytes h c =
      h.beforeCksum ++ toBigEndian 2 c.toNat ++
        (h.afterCksum ++ List.replicate (4 * h.hlen.toNat - 20) 0) := by
    intro c
    rw [headerBytes_eq hc.five_le_hlen, IPv4Header.encode,
      List.append_assoc, List.append_assoc, List.append_assoc]
    rfl
  have hvalue : (headerCksum h).toNat =
      onesChecksum 0 (headerBytes h 0) := by
    apply InternetChecksum.value_add
    apply InternetChecksum.sum_lt_of_length_le
    · decide
    · have hle := hc.hlen_le
      rw [length_headerBytes]
      omega
  have heven : Even h.beforeCksum.length := by
    rw [IPv4Header.length_beforeCksum]
    decide
  rw [hsplit, hvalue, hsplit]
  exact onesChecksum_insert heven _ 0

/-- A serialized datagram belongs to the grammar, and its header and payload
are found in it. -/
theorem grammar_serialize
    {d : IPv4Datagram} {bs : Bytes} (hc : Canonical d.header)
    (hlen : d.header.len.toNat = 4 * d.header.hlen.toNat + d.payload.size)
    (hbs : bs = headerBytes d.header (headerCksum d.header) ++
      d.payload.concatenate) :
    Grammar bs ∧ ihl bs = d.header.hlen.toNat ∧
      decode bs = { d.header with cksum := headerCksum d.header } := by
  have hhlen := hc.five_le_hlen
  have hdecode : decode bs =
      { d.header with cksum := headerCksum d.header } := by
    have hc' : Canonical { d.header with cksum := headerCksum d.header } :=
      ⟨hc.ver_eq, hhlen, hc.hlen_le, hc.offset_lt⟩
    rw [hbs, headerBytes_eq hhlen, List.append_assoc]
    exact IPv4Header.decode_encode hc' _
  have hihl : ihl bs = d.header.hlen.toNat := by
    rw [← IPv4Header.decode_hlen, hdecode]
  have hversion : version bs = 4 := by
    rw [← IPv4Header.decode_ver, hdecode]
    change d.header.ver.toNat = 4
    rw [hc.ver_eq]
    rfl
  have htotal : IPv4Header.totalLength bs = d.header.len.toNat := by
    rw [← IPv4Header.decode_len, hdecode]
  have hheader := length_headerBytes d.header (headerCksum d.header)
  have hlength : bs.length = 4 * d.header.hlen.toNat + d.payload.size := by
    rw [hbs, List.length_append, hheader, BufferList.length_concatenate]
  have hsum : onesChecksum 0 (bs.take (4 * ihl bs)) = 0 := by
    rw [hihl, hbs, List.take_left' hheader]
    exact onesChecksum_headerBytes hc
  refine ⟨⟨⟨?_, hversion, ?_, ?_, ?_⟩, hsum⟩, hihl, hdecode⟩
  · omega
  · rw [hihl]
    exact hhlen
  · rw [hihl]
    omega
  · rw [htotal, hlen, hlength]

/-- Parsing a serialized datagram gives the datagram back, with the
checksum. -/
theorem parse_serialize
    {d : IPv4Datagram} (hc : Canonical d.header)
    (hlen : d.header.len.toNat = 4 * d.header.hlen.toNat + d.payload.size) :
    ∃ l, d.serialize = .ok l ∧ ∀ (e : IPv4Datagram) (b : Buffer),
      b.str = l.concatenate → ∃ rest : Buffer,
        rest.str = d.payload.concatenate ∧ e.parse b =
          (.noError, ⟨{ d.header with cksum := headerCksum d.header },
            .ofBuffer rest⟩) := by
  have hsize : d.payload.size = d.header.payloadLength.toNat := by
    have htotal := d.header.len.toNat_lt
    rw [IPv4Header.payloadLength_toNat, sub16_eq htotal] <;> omega
  obtain ⟨l, hl, hconcat⟩ := serialize_eq hsize hc.ver_eq hc.five_le_hlen
  refine ⟨l, hl, ?_⟩
  intro e b hb
  rw [hconcat] at hb
  obtain ⟨hgrammar, hihl, hdecode⟩ := grammar_serialize hc hlen hb
  obtain ⟨rest, hrest, hparse⟩ := parse_of_framed e hgrammar.toFramed
  refine ⟨rest, ?_, ?_⟩
  · rw [hrest, hihl, hb]
    exact List.drop_left' (length_headerBytes _ _)
  · rw [hparse, hdecode]

/-- Every field but the checksum survives being serialized and parsed. -/
theorem parse_concatenate_serialize_of_canonical
    {d : IPv4Datagram} (hver : d.header.ver = 4)
    (hhlen : 5 ≤ d.header.hlen.toNat) (hhlen' : d.header.hlen.toNat ≤ 15)
    (hoffset : d.header.offset.toNat < 2 ^ 13)
    (hlen : d.header.len.toNat = 4 * d.header.hlen.toNat + d.payload.size) :
    ∃ l, d.serialize = .ok l ∧
      ∀ (e : IPv4Datagram) (b : Buffer), b.str = l.concatenate →
        let parsed := e.parse b
        parsed.1 = .noError ∧
          { parsed.2.header with cksum := d.header.cksum } = d.header ∧
          parsed.2.payload.concatenate = d.payload.concatenate := by
  have hcanonical : Canonical d.header := ⟨hver, hhlen, hhlen', hoffset⟩
  obtain ⟨l, hl, hround⟩ := parse_serialize hcanonical hlen
  refine ⟨l, hl, ?_⟩
  intro e b hb
  obtain ⟨rest, hrest, hparse⟩ := hround e b hb
  simp only [hparse, BufferList.concatenate_ofBuffer]
  exact ⟨trivial, trivial, hrest⟩

/-- A datagram with options, a fragment offset and a payload in two
buffers. -/
def fragmentDatagram : IPv4Datagram where
  header :=
    { hlen := 6
      len := 27
      mf := true
      offset := 0x1fff
      src := 0x0a000001
      dst := 0x0a000002 }
  payload := ⟨[Buffer.ofString [1, 2], Buffer.ofString [3]]⟩

theorem parse_concatenate_serialize_of_canonical_fragment :
    fragmentDatagram.payload.size = 3 ∧
      ∃ l, fragmentDatagram.serialize = .ok l ∧
        ∀ (e : IPv4Datagram) (b : Buffer), b.str = l.concatenate →
          let parsed := e.parse b
          parsed.1 = .noError ∧
            { parsed.2.header with cksum := fragmentDatagram.header.cksum } =
              fragmentDatagram.header ∧
            parsed.2.payload.concatenate = [1, 2, 3] :=
  ⟨by decide, parse_concatenate_serialize_of_canonical (by decide) (by decide)
    (by decide) (by decide) (by decide)⟩

end IPv4Datagram

end Sponge
