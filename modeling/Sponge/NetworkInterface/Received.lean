import Sponge.NetworkInterface.Model

/-!
# Received datagrams

An interface hands up what the parser of datagrams accepts.  That is more than
the grammar of IPv4: a wrong checksum goes unnoticed, and so does a header of
the wrong version, or of the wrong length, if the numbers of bytes happen to
agree.  A datagram that was misread may be impossible to serialize again.
-/

namespace Sponge

namespace NetworkInterface

open IPv4Datagram (Misread)
open IPv4Header (Grammar)

/-- The interface hands a datagram up when it receives the frame. -/
def HandsUp (n : NetworkInterface) (frame : EthernetFrame)
    (dgram : InternetDatagram) : Prop :=
  (n.recvFrame frame).1 = .ok (some dgram)

/-- The payload of a frame that is handed up was accepted by the parser. -/
theorem handsUp_iff
    {n : NetworkInterface} {frame : EthernetFrame}
    {dgram : InternetDatagram} :
    n.HandsUp frame dgram ↔ n.Accepts frame ∧
      frame.header.type = EthernetHeader.typeIPv4 ∧
      IPv4Datagram.parse {} (Buffer.ofString frame.payload.concatenate) =
        (.noError, dgram) := by
  unfold HandsUp recvFrame
  simp only []
  by_cases haccepts : n.Accepts frame
  · by_cases htype : frame.header.type = EthernetHeader.typeIPv4
    · rw [if_neg (not_not.mpr haccepts), if_pos htype]
      by_cases hresult : (IPv4Datagram.parse {}
          (Buffer.ofString frame.payload.concatenate)).1 = .noError
      · simp [haccepts, htype, hresult, Prod.ext_iff]
      · simp [hresult, Prod.ext_iff]
    · rw [if_neg (not_not.mpr haccepts), if_neg htype]
      -- an ARP message is never handed up
      have hmap : ∀ outcome : Except String Unit,
          outcome.map (fun _ => (none : Option InternetDatagram)) ≠
            .ok (some dgram) := by
        rintro (_ | _) <;> simp [Except.map]
      refine ⟨fun h => ?_, fun hand => absurd hand.2.1 htype⟩
      split at h
      · split at h
        · exact absurd h (hmap _)
        · exact absurd h (by simp)
      · exact absurd h (by simp)
  · simp [haccepts]

/-- A fresh datagram does not hide a short packet. -/
theorem misread_of_fresh {h : IPv4Header} {bs : Bytes}
    (hmisread : Misread {} bs) : Misread h bs := by
  rcases hmisread with hsum | hframe | ⟨hlt, hlength⟩
  · exact Or.inl hsum
  · exact Or.inr (Or.inl hframe)
  · have hfresh : ({} : IPv4Header).payloadLength.toNat = 65516 := by decide
    omega

/-- Datagrams of the grammar can be serialized again, with any time to
live. -/
theorem HandsUp.serializable
    {n : NetworkInterface} {frame : EthernetFrame} {dgram : InternetDatagram}
    (h : n.HandsUp frame dgram) (hgrammar : Grammar frame.payload.concatenate)
    (ttl : UInt8) :
    IPv4Datagram.Serializable
      ⟨{ dgram.header with ttl := ttl }, dgram.payload⟩ := by
  obtain ⟨-, -, hparse⟩ := handsUp_iff.mp h
  rw [← Buffer.str_ofString frame.payload.concatenate] at hgrammar
  have hparsed := IPv4Datagram.serializable_of_grammar {} hgrammar
  rw [hparse] at hparsed
  exact (IPv4Datagram.serializable_ttl dgram ttl).mpr hparsed

/-- Parsing accepts the grammar, and what is handed up can be serialized with
any time to live, exactly for the packets that are not misread. -/
theorem accepts_grammar_iff_not_misread (d : IPv4Datagram) (b : Buffer) :
    (((d.parse b).1 = .noError ↔ Grammar b.str) ∧
      ∀ (n : NetworkInterface) (frame : EthernetFrame)
        (dgram : InternetDatagram) (ttl : UInt8),
        frame.payload.concatenate = b.str → n.HandsUp frame dgram →
        IPv4Datagram.Serializable
          ⟨{ dgram.header with ttl := ttl }, dgram.payload⟩) ↔
      ¬ Misread d.header b.str := by
  rw [IPv4Datagram.parse_eq_noError_iff]
  constructor
  · rintro ⟨haccepts, -⟩ hmisread
    exact IPv4Datagram.not_grammar_of_misread hmisread
      (haccepts.mp (Or.inr hmisread))
  · intro hread
    refine ⟨or_iff_left hread, ?_⟩
    intro n frame dgram ttl hpayload hup
    apply hup.serializable
    obtain ⟨-, -, hparse⟩ := handsUp_iff.mp hup
    have haccepted := (IPv4Datagram.parse_eq_noError_iff {} _).mp
      (congrArg Prod.fst hparse)
    rw [Buffer.str_ofString] at haccepted
    rcases haccepted with hgrammar | hmisread
    · exact hgrammar
    · rw [hpayload] at hmisread
      exact absurd (misread_of_fresh hmisread) hread

/-- A packet of twenty bytes that claims to be of version 6. -/
def wrongVersionBytes : Bytes :=
  [0x65, 0, 0, 20] ++ List.replicate 16 0

def wrongVersionFrame : EthernetFrame where
  header := { type := EthernetHeader.typeIPv4, src := neighbourEth,
              dst := ownEth }
  payload := BufferList.ofBuffer (Buffer.ofString wrongVersionBytes)

/-- It is accepted and handed up, and cannot be serialized again. -/
theorem handsUp_wrongVersion :
    (IPv4Datagram.parse {} (Buffer.ofString wrongVersionBytes)).1 =
        .noError ∧
      ¬ Grammar wrongVersionBytes ∧
      ∃ dgram, (new ownEth ownIp).HandsUp wrongVersionFrame dgram ∧
        ¬ dgram.Serializable := by
  refine ⟨by decide, fun h => absurd h.version_eq (by decide),
    (IPv4Datagram.parse {} (Buffer.ofString wrongVersionBytes)).2,
    handsUp_iff.mpr ⟨Or.inr rfl, rfl, by decide⟩, by decide⟩

/-- A datagram that one interface emits is handed up by another one that has
the address, with the checksum in its header. -/
theorem handsUp_ipv4Frame
    {d : InternetDatagram} (hc : IPv4Header.Canonical d.header)
    (hlen : d.header.len.toNat = 4 * d.header.hlen.toNat + d.payload.size)
    (x y : NetworkInterface) :
    ∃ l, d.serialize = .ok l ∧ ∃ rest : Buffer,
      rest.str = d.payload.concatenate ∧
      y.HandsUp (x.ipv4Frame y.ethernetAddress l)
        ⟨{ d.header with cksum := IPv4Datagram.headerCksum d.header },
          .ofBuffer rest⟩ := by
  obtain ⟨l, hl, hround⟩ := IPv4Datagram.parse_serialize hc hlen
  obtain ⟨rest, hrest, hparse⟩ := hround {} (Buffer.ofString l.concatenate)
    (Buffer.str_ofString _)
  exact ⟨l, hl, rest, hrest, handsUp_iff.mpr ⟨Or.inr rfl, rfl, hparse⟩⟩

end NetworkInterface

end Sponge
