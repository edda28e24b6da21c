import Sponge.TCPHelpers.EthernetFrame

/-!
# ARP messages

Requests for, and announcements of, the Ethernet address that belongs to an
IPv4 address.

The messages that the parser accepts and the messages that can be serialized
are the same, and between these and the strings of 28 bytes with one of two
beginnings the two functions are inverse to each other.
-/

namespace Sponge

/-- The fields of an ARP message. -/
structure ARPMessage where
  hardwareType : UInt16 := 1
  protocolType : UInt16 := EthernetHeader.typeIPv4
  hardwareAddressSize : UInt8 := 6
  protocolAddressSize : UInt8 := 4
  opcode : UInt16 := 0
  senderEthernetAddress : EthernetAddress := EthernetAddress.zero
  senderIpAddress : UInt32 := 0
  targetEthernetAddress : EthernetAddress := EthernetAddress.zero
  targetIpAddress : UInt32 := 0
deriving DecidableEq

namespace ARPMessage

open NetParser

/-- The length of a message. -/
def length : ℕ := 28

def typeEthernet : UInt16 := 1

def opcodeRequest : UInt16 := 1

def opcodeReply : UInt16 := 2

/-- Only requests and replies for IPv4 over Ethernet are supported. -/
def supported (m : ARPMessage) : Bool :=
  m.hardwareType = typeEthernet ∧ m.protocolType = EthernetHeader.typeIPv4 ∧
    m.hardwareAddressSize = 6 ∧ m.protocolAddressSize = 4 ∧
    (m.opcode = opcodeRequest ∨ m.opcode = opcodeReply)

/-- Read the fields of a message that has the full length into `m`. -/
def parseFields (m : ARPMessage) :
    StateM NetParser (ParseResult × ARPMessage) := do
  let hardwareType ← u16
  let protocolType ← u16
  let hardwareAddressSize ← u8
  let protocolAddressSize ← u8
  let opcode ← u16
  let m : ARPMessage := { m with
    hardwareType := hardwareType
    protocolType := protocolType
    hardwareAddressSize := hardwareAddressSize
    protocolAddressSize := protocolAddressSize
    opcode := opcode }
  if ¬ m.supported then
    return (.unsupported, m)
  else
    let senderEthernetAddress ← EthernetAddress.parse
    let senderIpAddress ← u32
    let targetEthernetAddress ← EthernetAddress.parse
    let targetIpAddress ← u32
    let m : ARPMessage := { m with
      senderEthernetAddress := senderEthernetAddress
      senderIpAddress := senderIpAddress
      targetEthernetAddress := targetEthernetAddress
      targetIpAddress := targetIpAddress }
    let error ← getError
    return (error, m)

/-- Parse the bytes of a message into `m`. -/
def parse (m : ARPMessage) (buffer : Buffer) : ParseResult × ARPMessage :=
  if buffer.size < length then (.packetTooShort, m)
  else ((parseFields m).run ⟨buffer, .noError⟩).1

/-- The bytes that `serialize` writes. -/
def encode (m : ARPMessage) : Bytes :=
  NetUnparser.u16 m.hardwareType ++
  (NetUnparser.u16 m.protocolType ++
  (NetUnparser.u8 m.hardwareAddressSize ++
  (NetUnparser.u8 m.protocolAddressSize ++
  (NetUnparser.u16 m.opcode ++
  (m.senderEthernetAddress.bytes.flatMap NetUnparser.u8 ++
  (NetUnparser.u32 m.senderIpAddress ++
  (m.targetEthernetAddress.bytes.flatMap NetUnparser.u8 ++
  NetUnparser.u32 m.targetIpAddress)))))))

/-- The message as a string. -/
def serialize (m : ARPMessage) : Except String Bytes :=
  if ¬ m.supported then
    .error ("ARPMessage::serialize(): unsupported field combination " ++
      "(must be Ethernet/IP, and request or reply)")
  else .ok m.encode

theorem serialize_of_supported {m : ARPMessage} (h : m.supported = true) :
    m.serialize = .ok m.encode :=
  if_neg (not_not.mpr h)

/-! ## The layout of the bytes -/

/-- The message in the first bytes of a packet. -/
def decode (bs : Bytes) : ARPMessage where
  hardwareType := UInt16.ofNat (fieldAt bs 0 2)
  protocolType := UInt16.ofNat (fieldAt bs 2 2)
  hardwareAddressSize := UInt8.ofNat (fieldAt bs 4 1)
  protocolAddressSize := UInt8.ofNat (fieldAt bs 5 1)
  opcode := UInt16.ofNat (fieldAt bs 6 2)
  senderEthernetAddress := EthernetAddress.decode bs 8
  senderIpAddress := UInt32.ofNat (fieldAt bs 14 4)
  targetEthernetAddress := EthernetAddress.decode bs 18
  targetIpAddress := UInt32.ofNat (fieldAt bs 24 4)

theorem length_encode (m : ARPMessage) : m.encode.length = 28 := by
  simp only [encode, List.length_append, NetUnparser.length_u16,
    NetUnparser.length_u8, NetUnparser.length_u32,
    EthernetAddress.length_flatMap_u8]

theorem decode_encode (m : ARPMessage) (rest : Bytes) :
    decode (m.encode ++ rest) = m := by
  obtain ⟨hardwareType, protocolType, hardwareSize, protocolSize, opcode,
    senderEthernet, senderIp, targetEthernet, targetIp⟩ := m
  have hsender := EthernetAddress.decode_flatMap_u8 senderEthernet
  have htarget := EthernetAddress.decode_flatMap_u8 targetEthernet
  simp only [EthernetAddress.decode] at hsender htarget
  simp only [decode, encode, EthernetAddress.decode, List.append_assoc,
    Nat.reduceAdd, NetUnparser.fieldAt_u8, NetUnparser.fieldAt_u16,
    NetUnparser.fieldAt_u32, NetUnparser.fieldAt_u8_add,
    NetUnparser.fieldAt_u16_add, NetUnparser.fieldAt_u32_add,
    EthernetAddress.fieldAt_add, UInt8.ofNat_toNat, UInt16.ofNat_toNat,
    UInt32.ofNat_toNat]
  rw [hsender, htarget]

theorem encode_decode {bs : Bytes} (h : 28 ≤ bs.length) :
    (decode bs).encode = bs.take 28 := by
  simp only [encode, decode]
  rw [NetUnparser.u16_fieldAt (by omega), NetUnparser.u16_fieldAt (by omega),
    NetUnparser.u8_fieldAt (by omega), NetUnparser.u8_fieldAt (by omega),
    NetUnparser.u16_fieldAt (by omega),
    EthernetAddress.flatMap_u8_decode (by omega),
    NetUnparser.u32_fieldAt (by omega),
    EthernetAddress.flatMap_u8_decode (by omega),
    NetUnparser.u32_fieldAt (by omega)]
  simp (disch := omega) only [Nat.reduceAdd, extract_append_extract]
  rw [extract_zero]

/-! ## What is accepted -/

/-- The first eight bytes say Ethernet and IPv4, the sizes of their addresses,
and request or reply. -/
def StartsSupported (bs : Bytes) : Prop :=
  bs.take 8 = [0, 1, 8, 0, 6, 4, 0, 1] ∨ bs.take 8 = [0, 1, 8, 0, 6, 4, 0, 2]

theorem supported_iff {m : ARPMessage} :
    m.supported = true ↔ m.hardwareType = typeEthernet ∧
      m.protocolType = EthernetHeader.typeIPv4 ∧ m.hardwareAddressSize = 6 ∧
      m.protocolAddressSize = 4 ∧
      (m.opcode = opcodeRequest ∨ m.opcode = opcodeReply) :=
  decide_eq_true_iff

/-- Only the opcode is free in the first eight bytes of a supported
message. -/
theorem take_encode {m : ARPMessage} (h : m.supported = true) :
    m.encode.take 8 = [0, 1, 8, 0, 6, 4] ++ NetUnparser.u16 m.opcode := by
  obtain ⟨hhardware, hprotocol, hhardwareSize, hprotocolSize, -⟩ :=
    supported_iff.mp h
  simp only [encode, hhardware, hprotocol, hhardwareSize, hprotocolSize]
  rfl

theorem startsSupported_encode {m : ARPMessage} (h : m.supported = true) :
    StartsSupported m.encode := by
  obtain ⟨-, -, -, -, hrequest | hreply⟩ := supported_iff.mp h
  · refine Or.inl ?_
    rw [take_encode h, hrequest]
    decide
  · refine Or.inr ?_
    rw [take_encode h, hreply]
    decide

/-- The support of a message is decided by its first eight bytes. -/
theorem supported_decode_of_take
    {bs : Bytes} {opcode : UInt16}
    (hopcode : opcode = opcodeRequest ∨ opcode = opcodeReply)
    (h : bs.take 8 = [0, 1, 8, 0, 6, 4] ++ NetUnparser.u16 opcode) :
    (decode bs).supported = true := by
  have hbs : bs = NetUnparser.u16 typeEthernet ++
      (NetUnparser.u16 EthernetHeader.typeIPv4 ++ (NetUnparser.u8 6 ++
        (NetUnparser.u8 4 ++ (NetUnparser.u16 opcode ++ bs.drop 8)))) := by
    conv_lhs => rw [← List.take_append_drop 8 bs, h]
    rfl
  rw [supported_iff, hbs]
  simp only [decode, NetUnparser.fieldAt_u8, NetUnparser.fieldAt_u16,
    NetUnparser.fieldAt_u8_add, NetUnparser.fieldAt_u16_add,
    UInt8.ofNat_toNat, UInt16.ofNat_toNat, true_and]
  exact hopcode

theorem supported_decode_iff {bs : Bytes} (h : 28 ≤ bs.length) :
    (decode bs).supported = true ↔ StartsSupported bs := by
  constructor
  · intro hsupported
    have hstarts := startsSupported_encode hsupported
    rw [encode_decode h, StartsSupported, List.take_take] at hstarts
    exact hstarts
  · rintro (hrequest | hreply)
    · exact supported_decode_of_take (Or.inl rfl) hrequest
    · exact supported_decode_of_take (Or.inr rfl) hreply

section Parse

variable {bs : Bytes}

theorem reads_parseFields
    (h : (decode bs).supported = true) (m : ARPMessage) :
    Reads m.parseFields bs 0 (errorAt bs 28, decode bs) 28 := by
  refine (reads_u16 bs 0).bind ?_
  refine (reads_u16 bs 2).bind ?_
  refine (reads_u8 bs 4).bind ?_
  refine (reads_u8 bs 5).bind ?_
  refine (reads_u16 bs 6).bind ?_
  change Reads (if ¬ (decode bs).supported = true then _ else _) bs 8 _ 28
  rw [if_neg (not_not.mpr h)]
  refine (EthernetAddress.reads_parse bs 8).bind ?_
  refine (reads_u32 bs 14).bind ?_
  refine (EthernetAddress.reads_parse bs 18).bind ?_
  refine (reads_u32 bs 24).bind ?_
  refine (reads_getError bs 28).bind ?_
  exact reads_pure (errorAt bs 28, decode bs) bs 28

theorem reads_parseFields_of_not_supported
    (h : ¬ (decode bs).supported = true) (m : ARPMessage) :
    ∃ m', Reads m.parseFields bs 0 (.unsupported, m') 8 := by
  refine ⟨{ decode bs with
    senderEthernetAddress := m.senderEthernetAddress
    senderIpAddress := m.senderIpAddress
    targetEthernetAddress := m.targetEthernetAddress
    targetIpAddress := m.targetIpAddress }, ?_⟩
  refine (reads_u16 bs 0).bind ?_
  refine (reads_u16 bs 2).bind ?_
  refine (reads_u8 bs 4).bind ?_
  refine (reads_u8 bs 5).bind ?_
  refine (reads_u16 bs 6).bind ?_
  change Reads (if ¬ (decode bs).supported = true then _ else _) bs 8 _ 8
  rw [if_pos h]
  exact reads_pure _ _ _

end Parse

/-- A supported message of the full length is read as it is written. -/
theorem parse_of_supported
    (m : ARPMessage) {b : Buffer} (hlength : 28 ≤ b.str.length)
    (h : (decode b.str).supported = true) :
    m.parse b = (.noError, decode b.str) := by
  have hsize : ¬ b.size < length := not_lt.mpr hlength
  obtain ⟨p, hp, -⟩ := reads_parseFields h m _ (at_zero b)
  rw [parse, if_neg hsize, StateT.run, hp, errorAt_of_le hlength]

theorem parse_fst_eq_noError_iff (m : ARPMessage) (b : Buffer) :
    (m.parse b).1 = .noError ↔
      28 ≤ b.str.length ∧ (decode b.str).supported = true := by
  constructor
  · intro haccepted
    by_cases hsize : b.size < length
    · rw [parse, if_pos hsize] at haccepted
      cases haccepted
    · refine ⟨not_lt.mp hsize, ?_⟩
      by_contra hunsupported
      obtain ⟨m', hreads⟩ := reads_parseFields_of_not_supported hunsupported m
      obtain ⟨p, hp, -⟩ := hreads _ (at_zero b)
      rw [parse, if_neg hsize, StateT.run, hp] at haccepted
      cases haccepted
  · rintro ⟨hlength, hsupported⟩
    rw [m.parse_of_supported hlength hsupported]

/-- Parsing a serialized message gives the message back, whatever follows. -/
theorem parse_encode
    {m : ARPMessage} (h : m.supported = true) (old : ARPMessage)
    {b : Buffer} {trailing : Bytes} (hb : b.str = m.encode ++ trailing) :
    old.parse b = (.noError, m) := by
  have hdecode : decode b.str = m := by
    rw [hb, decode_encode]
  have hlength : 28 ≤ b.str.length := by
    rw [hb, List.length_append, length_encode]
    exact Nat.le_add_right _ _
  rw [old.parse_of_supported hlength (hdecode.symm ▸ h), hdecode]

/-- Serializing and parsing are inverse to each other on the supported
messages and the strings that begin like one. -/
theorem codec_bijection :
    (∀ m : ARPMessage, m.supported = true →
      ∃ bytes, m.serialize = .ok bytes ∧ bytes.length = length ∧
        ∀ (old : ARPMessage) (trailing : Bytes) (b : Buffer),
          b.str = bytes ++ trailing → old.parse b = (.noError, m)) ∧
    ∀ (old : ARPMessage) (b : Buffer),
      ((old.parse b).1 = .noError ↔
        length ≤ b.size ∧ StartsSupported b.str) ∧
      ((old.parse b).1 = .noError →
        (old.parse b).2.serialize = .ok (b.str.take length)) := by
  refine ⟨?_, ?_⟩
  · intro m hm
    refine ⟨m.encode, serialize_of_supported hm, m.length_encode, ?_⟩
    intro old trailing b hb
    exact parse_encode hm old hb
  · intro old b
    refine ⟨?_, ?_⟩
    · rw [parse_fst_eq_noError_iff]
      exact and_congr_right supported_decode_iff
    · intro haccepted
      obtain ⟨hlength, hsupported⟩ :=
        (old.parse_fst_eq_noError_iff b).mp haccepted
      rw [old.parse_of_supported hlength hsupported,
        serialize_of_supported hsupported, encode_decode hlength]
      rfl

/-- A request for the address of another host. -/
def requestMessage : ARPMessage where
  opcode := opcodeRequest
  senderEthernetAddress := EthernetAddress.broadcast
  senderIpAddress := 0x0a000001
  targetIpAddress := 0x0a000002

theorem codec_bijection_request :
    requestMessage.supported = true ∧
      ∃ bytes, requestMessage.serialize = .ok bytes ∧ bytes.length = length ∧
        ∀ (old : ARPMessage) (trailing : Bytes) (b : Buffer),
          b.str = bytes ++ trailing →
            old.parse b = (.noError, requestMessage) :=
  ⟨by decide, codec_bijection.1 requestMessage (by decide)⟩

end ARPMessage

end Sponge
