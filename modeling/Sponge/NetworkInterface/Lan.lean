import Mathlib.Data.List.Forall2
import Mathlib.Logic.Function.Basic
import Sponge.NetworkInterface.Queueing
import Sponge.NetworkInterface.Received

/-!
# Hosts on one Ethernet

Any number of interfaces share an Ethernet.  They learn each other's
addresses with ARP, and exchange datagrams.  All frames come from these
interfaces.  The network hands a frame of a host to any host, at any time, any
number of times or never.

Whatever it does, the tables of the hosts hold true addresses only, and a
datagram that a host hands up was sent to it.  If the network does not reorder
or repeat the frames between two hosts, neither are the datagrams, even though
they may wait for an address on their way.
-/

namespace Sponge

open NetworkInterface (new arpFrame arpRequest arpReply ipv4Frame HandsUp
  handsUp_iff WellLogged sentTo)

/-- What is related to the members of a list is related, piece by piece, to
the members of its sublists. -/
theorem exists_sublist_of_forall₂ {α β : Type*} {R : α → β → Prop}
    {xs : List α} {ys part : List β} (h : List.Forall₂ R xs ys)
    (hpart : part.Sublist ys) :
    ∃ part', part'.Sublist xs ∧ List.Forall₂ R part' part := by
  induction hpart generalizing xs with
  | slnil => exact ⟨[], List.nil_sublist xs, List.Forall₂.nil⟩
  | cons y _ ih =>
      obtain ⟨x, rest, -, hrest, rfl⟩ := List.forall₂_cons_right_iff.mp h
      obtain ⟨part', hsub, hrel⟩ := ih hrest
      exact ⟨part', hsub.cons x, hrel⟩
  | cons_cons y _ ih =>
      obtain ⟨x, rest, hxy, hrest, rfl⟩ := List.forall₂_cons_right_iff.mp h
      obtain ⟨part', hsub, hrel⟩ := ih hrest
      exact ⟨x :: part', hsub.cons_cons x, List.Forall₂.cons hxy hrel⟩

/-! ## Frames between hosts -/

namespace NetworkInterface

section Frames

variable (n m : NetworkInterface) (dst : EthernetAddress)

theorem acceptedArp_arpFrame {arp : ARPMessage} (h : arp.supported = true) :
    n.acceptedArp (m.arpFrame dst arp.encode) =
      if dst = EthernetAddress.broadcast ∨ dst = n.ethernetAddress then
        some arp
      else none := by
  have hstr : (Buffer.ofString
      (m.arpFrame dst arp.encode).payload.concatenate).str =
      arp.encode ++ [] := by
    rw [Buffer.str_ofString, arpFrame, BufferList.concatenate_ofBuffer,
      Buffer.str_ofString, List.append_nil]
  have hparse := ARPMessage.parse_encode h {} hstr
  by_cases hdst : dst = EthernetAddress.broadcast ∨ dst = n.ethernetAddress
  · have haccepts : n.Accepts (m.arpFrame dst arp.encode) := hdst
    rw [if_pos hdst, acceptedArp, if_pos ⟨haccepts, rfl, by rw [hparse]⟩,
      hparse]
  · have hrefuses : ¬ n.Accepts (m.arpFrame dst arp.encode) := hdst
    rw [if_neg hdst, acceptedArp, if_neg fun hand => hrefuses hand.1]

theorem acceptedArp_ipv4Frame (payload : BufferList) :
    n.acceptedArp (m.ipv4Frame dst payload) = none :=
  if_neg fun hand => absurd hand.2.1 (by decide : EthernetHeader.typeIPv4 ≠ _)

end Frames

/-- The datagram that is handed up for a frame. -/
def handedUp (n : NetworkInterface) (frame : EthernetFrame) :
    Option InternetDatagram :=
  (n.recvFrame frame).1.toOption.join

theorem handedUp_eq_some_iff {n : NetworkInterface} {frame : EthernetFrame}
    {dgram : InternetDatagram} :
    n.handedUp frame = some dgram ↔ n.HandsUp frame dgram := by
  unfold handedUp HandsUp
  cases (n.recvFrame frame).1 <;> simp [Except.toOption]

/-- What is handed up depends on the Ethernet address only. -/
theorem handedUp_congr {n m : NetworkInterface}
    (h : n.ethernetAddress = m.ethernetAddress) :
    n.handedUp = m.handedUp := by
  funext frame
  ext dgram
  rw [handedUp_eq_some_iff, handedUp_eq_some_iff, handsUp_iff, handsUp_iff,
    Accepts, Accepts, h]

theorem step_ipAddress (n : NetworkInterface) (op : Op) :
    (n.step op).ipAddress = n.ipAddress := by
  apply step_rule (P := fun n' => n'.ipAddress = n.ipAddress)
  · rfl
  · intro dgram nextHop
    exact (sendEffect n dgram nextHop).ipAddress_eq
  · intro frameSrc arp n' heffect
    exact heffect.ipAddress_eq
  · intro ms _
    rfl

end NetworkInterface

/-- The addresses of the hosts: no two hosts share an address, and no host
uses the broadcast address. -/
structure Addressing (ι : Type) where
  eth : ι → EthernetAddress
  ip : ι → Address
  eth_injective : Function.Injective eth
  hop_injective : Function.Injective fun x => (ip x).ipv4Numeric
  unicast : ∀ x, eth x ≠ EthernetAddress.broadcast

namespace Addressing

variable {ι : Type} (a : Addressing ι)

/-- The address that leads to a host. -/
def hop (x : ι) : UInt32 := (a.ip x).ipv4Numeric

/-- The interface of a host before its first call. -/
def host (x : ι) : NetworkInterface := new (a.eth x) (a.ip x)

/-- The frame in which a host asks for an address. -/
def requestFrame (x : ι) (target : UInt32) : EthernetFrame :=
  (a.host x).arpFrame EthernetAddress.broadcast
    ((a.host x).arpRequest target).encode

/-- The message with which the host `x` answers the host `y`. -/
def reply (x y : ι) : ARPMessage :=
  (a.host x).arpReply (a.eth y) ((a.host y).arpRequest (a.hop x))

def replyFrame (x y : ι) : EthernetFrame :=
  (a.host x).arpFrame (a.eth y) (a.reply x y).encode

/-- The events of a host that tells the truth: it gives its own addresses,
and a datagram for a host goes to the Ethernet address of that host. -/
def Honest (x : ι) : Event → Prop
  | .accepted _ => True
  | .learned _ _ _ => True
  | .request _ target frame => frame = a.requestFrame x target
  | .reply frame => ∃ y, frame = a.replyFrame x y
  | .datagram e => ∃ y payload, e.hop = a.hop y ∧
      e.dgram.serialize = .ok payload ∧
      e.frame = (a.host x).ipv4Frame (a.eth y) payload

/-- The frame is one of an honest host. -/
def Sent (x : ι) (frame : EthernetFrame) : Prop :=
  ∃ e, a.Honest x e ∧ e.frame? = some frame

variable {a}

/-- A frame of a host asks, answers or carries a datagram. -/
theorem Sent.cases {x : ι} {frame : EthernetFrame} (h : a.Sent x frame) :
    (∃ target, frame = a.requestFrame x target) ∨
      (∃ y, frame = a.replyFrame x y) ∨
      ∃ y payload, frame = (a.host x).ipv4Frame (a.eth y) payload := by
  obtain ⟨e, he, hframe⟩ := h
  cases e with
  | accepted m => exact absurd hframe (by simp [Event.frame?])
  | learned time ip eth => exact absurd hframe (by simp [Event.frame?])
  | request time target sent =>
      obtain rfl := Option.some.inj hframe
      exact Or.inl ⟨target, he⟩
  | reply sent =>
      obtain rfl := Option.some.inj hframe
      exact Or.inr (Or.inl he)
  | datagram e =>
      obtain rfl := Option.some.inj hframe
      obtain ⟨y, payload, -, -, heq⟩ := he
      exact Or.inr (Or.inr ⟨y, payload, heq⟩)

/-- An ARP message from a host is about this host. -/
theorem Sent.truthful {x : ι} {frame : EthernetFrame} (h : a.Sent x frame)
    {n : NetworkInterface} {arp : ARPMessage}
    (harp : n.acceptedArp frame = some arp) :
    frame.header.src = a.eth x ∧ arp.senderIpAddress = a.hop x ∧
      arp.senderEthernetAddress = a.eth x := by
  rcases h.cases with ⟨target, rfl⟩ | ⟨y, rfl⟩ | ⟨y, payload, rfl⟩
  · rw [requestFrame, NetworkInterface.acceptedArp_arpFrame _ _ _ rfl,
      if_pos (Or.inl rfl)] at harp
    obtain rfl := Option.some.inj harp
    exact ⟨rfl, rfl, rfl⟩
  · rw [replyFrame, NetworkInterface.acceptedArp_arpFrame _ _ _ rfl] at harp
    split at harp
    · obtain rfl := Option.some.inj harp
      exact ⟨rfl, rfl, rfl⟩
    · exact absurd harp (by simp)
  · rw [NetworkInterface.acceptedArp_ipv4Frame] at harp
    exact absurd harp (by simp)

/-! ## Honest hosts -/

/-- The interface of a host that tells the truth and knows the truth. -/
structure Truthful (a : Addressing ι) (x : ι) (n : NetworkInterface) :
    Prop where
  ethernetAddress_eq : n.ethernetAddress = a.eth x
  ipAddress_eq : n.ipAddress = a.ip x
  logged : n.WellLogged
  mapping : ∀ ip eth, n.mapping ip = some eth →
    ∃ y, a.hop y = ip ∧ a.eth y = eth
  events : ∀ e ∈ n.history, a.Honest x e

section Truthful

variable {x : ι} {n : NetworkInterface}

theorem truthful_host (x : ι) : a.Truthful x (a.host x) where
  ethernetAddress_eq := rfl
  ipAddress_eq := rfl
  logged := NetworkInterface.wellLogged_new _ _
  mapping := fun ip eth h => by
    have hnone : (a.host x).mapping ip = none := rfl
    exact absurd (hnone.symm.trans h) (Option.some_ne_none eth).symm
  events := fun _ he => absurd he List.not_mem_nil

/-- A datagram goes to the host with the address. -/
theorem Truthful.honest_emission (h : a.Truthful x n) {ip : UInt32} {y : ι}
    (hip : a.hop y = ip) {d : InternetDatagram} (hd : d.Serializable) :
    a.Honest x (.datagram (n.emission ip (a.eth y) d)) := by
  refine ⟨y, d.serialize.toOption.getD BufferList.empty, hip.symm,
    NetworkInterface.serialize_getD hd, ?_⟩
  simp only [NetworkInterface.emission, ipv4Frame, h.ethernetAddress_eq]
  rfl

theorem Truthful.honest_request (h : a.Truthful x n) (ip : UInt32) :
    a.Honest x (n.requestEvent ip) := by
  change n.arpFrame _ _ = a.requestFrame x ip
  simp only [requestFrame, arpFrame, arpRequest, h.ethernetAddress_eq,
    h.ipAddress_eq]
  rfl

theorem Truthful.replyFrame_eq (h : a.Truthful x n) {y : ι}
    {arp : ARPMessage} (harp : arp.senderIpAddress = a.hop y) :
    n.arpFrame (a.eth y) (n.arpReply (a.eth y) arp).encode =
      a.replyFrame x y := by
  simp only [replyFrame, reply, arpFrame, arpReply, h.ethernetAddress_eq,
    h.ipAddress_eq, harp]
  rfl

/-- What a call adds to the history is honest, if the frames that are received
come from honest hosts. -/
theorem Truthful.honest_opEvents (h : a.Truthful x n)
    {op : NetworkInterface.Op}
    (hop : ∀ frame, op = .recvFrame frame → ∃ y, a.Sent y frame) :
    ∀ e ∈ n.opEvents op, a.Honest x e := by
  cases op with
  | sendDatagram dgram nextHop =>
      refine NetworkInterface.forall_sendEvents (fun eth d hmap hd => ?_)
        (h.honest_request _)
      obtain ⟨y, hip, rfl⟩ := h.mapping _ _ hmap
      exact h.honest_emission hip hd
  | recvFrame frame =>
      obtain ⟨y, hsent⟩ := hop frame rfl
      cases harp : n.acceptedArp frame with
      | none =>
          rw [NetworkInterface.opEvents, harp]
          exact List.forall_mem_nil _
      | some arp =>
          obtain ⟨hsrc, hip, heth⟩ := hsent.truthful harp
          simp only [NetworkInterface.opEvents, harp, hsrc]
          rw [NetworkInterface.arpEvents_eq_cons, List.forall_mem_cons]
          refine ⟨trivial, NetworkInterface.forall_answerEvents trivial
            ⟨y, h.replyFrame_eq hip⟩ fun d hd => ?_⟩
          rw [heth]
          exact h.honest_emission hip.symm hd
  | tick ms => exact List.forall_mem_nil _

theorem Truthful.mapping_step (h : a.Truthful x n)
    {op : NetworkInterface.Op}
    (hop : ∀ frame, op = .recvFrame frame → ∃ y, a.Sent y frame)
    {ip : UInt32} {eth : EthernetAddress}
    (hmap : (n.step op).mapping ip = some eth) :
    ∃ y, a.hop y = ip ∧ a.eth y = eth := by
  cases op with
  | sendDatagram dgram nextHop =>
      rw [NetworkInterface.step,
        (NetworkInterface.sendEffect n dgram nextHop).mapping_eq] at hmap
      exact h.mapping ip eth hmap
  | recvFrame frame =>
      obtain ⟨y, hsent⟩ := hop frame rfl
      cases harp : n.acceptedArp frame with
      | none =>
          rw [NetworkInterface.step_recvFrame_of_none harp] at hmap
          exact h.mapping ip eth hmap
      | some arp =>
          obtain ⟨hsrc, hip, -⟩ := hsent.truthful harp
          rw [(NetworkInterface.step_recvFrame_of_some harp).mapping_eq]
            at hmap
          split at hmap
          next heq =>
            -- an address that is known is kept, any other one is learned
            cases hold : n.mapping ip with
            | some known =>
                rw [hold] at hmap
                obtain rfl := Option.some.inj hmap
                exact h.mapping ip _ hold
            | none =>
                rw [hold, hsrc] at hmap
                exact ⟨y, hip.symm.trans heq.symm, Option.some.inj hmap⟩
          next => exact h.mapping ip eth hmap
  | tick ms =>
      rw [NetworkInterface.step, NetworkInterface.mapping_tick] at hmap
      split at hmap
      · exact absurd hmap (by simp)
      · exact h.mapping ip eth hmap

theorem Truthful.step (h : a.Truthful x n) {op : NetworkInterface.Op}
    (hop : ∀ frame, op = .recvFrame frame → ∃ y, a.Sent y frame) :
    a.Truthful x (n.step op) where
  ethernetAddress_eq :=
    (NetworkInterface.step_ethernetAddress n op).trans h.ethernetAddress_eq
  ipAddress_eq :=
    (NetworkInterface.step_ipAddress n op).trans h.ipAddress_eq
  logged := h.logged.step op
  mapping := fun _ _ => h.mapping_step hop
  events := by
    rw [(NetworkInterface.step_logs n op).history_eq, List.forall_mem_append]
    exact ⟨h.events, h.honest_opEvents hop⟩

theorem Truthful.sent (h : a.Truthful x n) {frame : EthernetFrame}
    (hframe : frame ∈ n.framesOut) : a.Sent x frame := by
  rw [h.logged.framesOut_eq, List.mem_filterMap] at hframe
  obtain ⟨e, he, heq⟩ := hframe
  exact ⟨e, h.events e he, heq⟩

end Truthful

end Addressing

/-! ## From the emitted to the handed up datagrams -/

/-- The header and the length of the datagram are in order. -/
structure IPv4Datagram.Proper (d : IPv4Datagram) : Prop where
  canonical : IPv4Header.Canonical d.header
  length : d.header.len.toNat = 4 * d.header.hlen.toNat + d.payload.size

/-- The second datagram is the first one, with the checksum in its header. -/
structure IPv4Datagram.Delivered (d d' : IPv4Datagram) : Prop where
  header : d'.header =
    { d.header with cksum := IPv4Datagram.headerCksum d.header }
  payload : d'.payload.concatenate = d.payload.concatenate

namespace Addressing

open IPv4Datagram (Proper Delivered)

variable {ι : Type} {a : Addressing ι}

/-- The datagrams that a host hands up for some frames. -/
def handed (a : Addressing ι) (x : ι) (frames : List EthernetFrame) :
    List InternetDatagram :=
  frames.filterMap (a.host x).handedUp

theorem handed_append (x : ι) (frames more : List EthernetFrame) :
    a.handed x (frames ++ more) = a.handed x frames ++ a.handed x more :=
  List.filterMap_append

theorem handedUp_arpFrame (n m : NetworkInterface) (dst : EthernetAddress)
    (payload : Bytes) : n.handedUp (m.arpFrame dst payload) = none := by
  rw [Option.eq_none_iff_forall_ne_some]
  intro dgram h
  obtain ⟨-, htype, -⟩ := handsUp_iff.mp (NetworkInterface.handedUp_eq_some_iff.mp h)
  exact absurd htype (by decide : EthernetHeader.typeArp ≠ _)

/-- A datagram is handed up by the host it was sent to. -/
theorem handedUp_self {d : InternetDatagram} (hd : d.Proper) {payload : BufferList}
    (hpayload : d.serialize = .ok payload) (x y : ι) :
    ∃ d', d.Delivered d' ∧
      (a.host x).handedUp ((a.host y).ipv4Frame (a.eth x) payload) =
        some d' := by
  obtain ⟨l, hl, rest, hrest, hup⟩ := NetworkInterface.handsUp_ipv4Frame
    hd.canonical hd.length (a.host y) (a.host x)
  obtain rfl := Except.ok.inj (hl.symm.trans hpayload)
  refine ⟨_, ⟨rfl, ?_⟩, NetworkInterface.handedUp_eq_some_iff.mpr hup⟩
  exact (BufferList.concatenate_ofBuffer rest).trans hrest

/-- Another host does not hand it up. -/
theorem handedUp_other {x z : ι} (hne : z ≠ x) (y : ι) (payload : BufferList) :
    (a.host x).handedUp ((a.host y).ipv4Frame (a.eth z) payload) = none := by
  rw [Option.eq_none_iff_forall_ne_some]
  intro dgram h
  obtain ⟨haccepts, -⟩ :=
    handsUp_iff.mp (NetworkInterface.handedUp_eq_some_iff.mp h)
  rcases haccepts with hbroadcast | heth
  · exact a.unicast z hbroadcast
  · exact hne (a.eth_injective heth)

/-- An event emits a datagram for a host exactly if the host hands up the
datagram for the frame of the event. -/
theorem Honest.delivered {x y : ι} {e : Event} (h : a.Honest y e)
    (hproper : ∀ d ∈ emittedIn [e] (a.hop x), d.Proper) :
    List.Forall₂ Delivered (emittedIn [e] (a.hop x))
      (a.handed x e.frame?.toList) := by
  cases e with
  | accepted m => exact List.Forall₂.nil
  | learned time ip eth => exact List.Forall₂.nil
  | request time target frame =>
      obtain rfl := h
      have hnone : a.handed x [a.requestFrame y target] = [] := by
        rw [handed, requestFrame, List.filterMap_cons, handedUp_arpFrame]
        rfl
      exact hnone ▸ List.Forall₂.nil
  | reply frame =>
      obtain ⟨z, rfl⟩ := h
      have hnone : a.handed x [a.replyFrame y z] = [] := by
        rw [handed, replyFrame, List.filterMap_cons, handedUp_arpFrame]
        rfl
      exact hnone ▸ List.Forall₂.nil
  | datagram e =>
      obtain ⟨z, payload, hhop, hpayload, hframe⟩ := h
      have hhanded : a.handed x (Event.datagram e).frame?.toList =
          ((a.host x).handedUp
            ((a.host y).ipv4Frame (a.eth z) payload)).toList := by
        rw [← hframe]
        change [e.frame].filterMap _ = _
        rw [List.filterMap_cons]
        cases (a.host x).handedUp e.frame <;> rfl
      rw [hhanded]
      by_cases hz : z = x
      · subst hz
        have hemitted : emittedIn [.datagram e] (a.hop z) = [e.dgram] := by
          simp [emittedIn, Event.emission?, hhop]
        rw [hemitted] at hproper ⊢
        obtain ⟨d', hdelivered, hup⟩ := handedUp_self (a := a)
          (hproper e.dgram List.mem_cons_self) hpayload z y
        rw [hup]
        exact List.Forall₂.cons hdelivered List.Forall₂.nil
      · have hother : e.hop ≠ a.hop x :=
          fun heq => hz (a.hop_injective (hhop.symm.trans heq))
        have hemitted : emittedIn [.datagram e] (a.hop x) = [] := by
          simp [emittedIn, Event.emission?, hother]
        rw [hemitted, handedUp_other hz]
        exact List.Forall₂.nil

/-- What a host hands up for all frames of another one is what was emitted for
it, in the same order. -/
theorem forall₂_delivered {x y : ι} {events : List Event}
    (h : ∀ e ∈ events, a.Honest y e)
    (hproper : ∀ d ∈ emittedIn events (a.hop x), d.Proper) :
    List.Forall₂ Delivered (emittedIn events (a.hop x))
      (a.handed x (events.filterMap Event.frame?)) := by
  induction events with
  | nil => exact List.Forall₂.nil
  | cons e events ih =>
      rw [List.forall_mem_cons] at h
      have hevents : e :: events = [e] ++ events := rfl
      have hframes : [e].filterMap Event.frame? = e.frame?.toList := by
        rw [List.filterMap_cons]
        cases e.frame? <;> rfl
      rw [hevents, emittedIn_append, List.forall_mem_append] at hproper
      rw [hevents, emittedIn_append, List.filterMap_append, handed_append,
        hframes]
      exact List.rel_append (h.1.delivered hproper.1) (ih h.2 hproper.2)

end Addressing

/-! ## The hosts and the network -/

/-- A host on the network.  Besides the interface there are the calls that
were made, the frames of each host that arrived, what was handed up for them,
and how many frames of that host are behind the one that arrived last. -/
structure Station (ι : Type) where
  interface : NetworkInterface
  calls : List NetworkInterface.Op := []
  arrived : ι → List EthernetFrame := fun _ => []
  received : ι → List InternetDatagram := fun _ => []
  taken : ι → ℕ := fun _ => 0

namespace Station

variable {ι : Type}

def call (s : Station ι) (op : NetworkInterface.Op) : Station ι :=
  { s with interface := s.interface.step op, calls := s.calls ++ [op] }

/-- Receive the frame with the number `i` of the host `y`. -/
def receive [DecidableEq ι] (s : Station ι) (y : ι) (i : ℕ)
    (frame : EthernetFrame) : Station ι :=
  { s.call (.recvFrame frame) with
    arrived := Function.update s.arrived y (s.arrived y ++ [frame])
    received := Function.update s.received y
      (s.received y ++ (s.interface.handedUp frame).toList)
    taken := Function.update s.taken y (i + 1) }

/-- The state of a host is the result of its calls, and it is truthful.  What
it handed up is what stands in the frames that arrived. -/
structure Sound (a : Addressing ι) (x : ι) (s : Station ι) : Prop where
  interface_eq : s.interface = run NetworkInterface.step (a.host x) s.calls
  truthful : a.Truthful x s.interface
  received_eq : ∀ y, s.received y = a.handed x (s.arrived y)

theorem Sound.call {a : Addressing ι} {x : ι} {s : Station ι}
    (h : Sound a x s) {op : NetworkInterface.Op}
    (hop : ∀ frame, op = .recvFrame frame → ∃ y, a.Sent y frame) :
    Sound a x (s.call op) where
  interface_eq := by
    rw [Station.call, run_concat, ← h.interface_eq]
  truthful := h.truthful.step hop
  received_eq := h.received_eq

theorem Sound.handedUp {a : Addressing ι} {x : ι} {s : Station ι}
    (h : Sound a x s) (frame : EthernetFrame) :
    (s.interface.handedUp frame).toList = a.handed x [frame] := by
  rw [NetworkInterface.handedUp_congr h.truthful.ethernetAddress_eq
    (m := a.host x), Addressing.handed, List.filterMap_cons]
  cases (a.host x).handedUp frame <;> rfl

theorem Sound.receive [DecidableEq ι] {a : Addressing ι} {x y : ι}
    {s : Station ι} (h : Sound a x s) {frame : EthernetFrame}
    (hsent : a.Sent y frame) (i : ℕ) : Sound a x (s.receive y i frame) := by
  have hcall : Sound a x (s.call (.recvFrame frame)) := by
    refine h.call fun frame' heq => ?_
    obtain rfl := NetworkInterface.Op.recvFrame.inj heq
    exact ⟨y, hsent⟩
  refine ⟨hcall.interface_eq, hcall.truthful, fun z => ?_⟩
  by_cases hz : z = y
  · subst hz
    simp only [Station.receive, Function.update_self]
    rw [Addressing.handed_append, h.handedUp, h.received_eq]
  · simp only [Station.receive, Function.update_of_ne hz]
    exact h.received_eq z

/-- What was sent to a next hop has been emitted, or waits. -/
theorem Sound.emittedFor_append_queue {a : Addressing ι} {x : ι}
    {s : Station ι} (h : Sound a x s) (hop : UInt32) :
    s.interface.emittedFor hop ++ s.interface.queue hop =
      sentTo hop s.calls := by
  rw [h.interface_eq]
  exact NetworkInterface.emittedFor_append_queue_run (a.host x) s.calls hop

/-- What another host hands up for all frames of a host is what was emitted
for it. -/
theorem Sound.forall₂_delivered {a : Addressing ι} {x y : ι} {s : Station ι}
    (h : Sound a y s) (hproper : ∀ d ∈ sentTo (a.hop x) s.calls, d.Proper) :
    List.Forall₂ IPv4Datagram.Delivered (s.interface.emittedFor (a.hop x))
      (a.handed x s.interface.framesOut) := by
  rw [h.truthful.logged.framesOut_eq]
  apply Addressing.forall₂_delivered h.truthful.events
  intro d hd
  apply hproper
  rw [← h.emittedFor_append_queue]
  exact List.mem_append_left _ hd

end Station

/-- All hosts. -/
abbrev Lan (ι : Type) := ι → Station ι

namespace Lan

open IPv4Datagram (Proper Delivered)
open Station (Sound)

/-- A host sends a datagram, its clock advances, or the network hands it a
frame of a host. -/
inductive Op (ι : Type) where
  | send (x : ι) (dgram : InternetDatagram) (nextHop : Address)
  | tick (x : ι) (msSinceLastTick : ℕ)
  | deliver (x y : ι) (i : ℕ)

variable {ι : Type}

def new (a : Addressing ι) : Lan ι :=
  fun x => { interface := a.host x }

/-- The frames that a host has sent. -/
def frames (l : Lan ι) (y : ι) : List EthernetFrame :=
  (l y).interface.framesOut

/-- The datagrams that the host `y` was asked to send to the host `x`. -/
def sent (a : Addressing ι) (l : Lan ι) (x y : ι) : List InternetDatagram :=
  sentTo (a.hop x) (l y).calls

/-- The network does not reorder or repeat the frames between two hosts. -/
def Ordered (l : Lan ι) : Op ι → Prop
  | .deliver x y i => (l x).taken y ≤ i
  | _ => True

instance orderedDecidable (l : Lan ι) : ∀ op, Decidable (l.Ordered op)
  | .deliver _ _ _ => inferInstanceAs (Decidable (_ ≤ _))
  | .send _ _ _ => isTrue trivial
  | .tick _ _ => isTrue trivial

variable [DecidableEq ι]

def step (l : Lan ι) : Op ι → Lan ι
  | .send x dgram nextHop =>
      Function.update l x ((l x).call (.sendDatagram dgram nextHop))
  | .tick x msSinceLastTick =>
      Function.update l x ((l x).call (.tick msSinceLastTick))
  | .deliver x y i =>
      match (l y).interface.framesOut[i]? with
      | some frame => Function.update l x ((l x).receive y i frame)
      | none => l

theorem step_deliver {l : Lan ι} {x y : ι} {i : ℕ} {frame : EthernetFrame}
    (h : (l.frames y)[i]? = some frame) :
    l.step (.deliver x y i) =
      Function.update l x ((l x).receive y i frame) := by
  rw [frames] at h
  rw [step, h]

/-- A step is a call at a host, the delivery of a frame, or nothing. -/
theorem step_cases (l : Lan ι) (op : Op ι) :
    l.step op = l ∨
      (∃ x call, (∀ frame, call ≠ .recvFrame frame) ∧
        (∀ z y i, op ≠ .deliver z y i) ∧
        l.step op = Function.update l x ((l x).call call)) ∨
      ∃ x y i frame, op = .deliver x y i ∧ (l.frames y)[i]? = some frame ∧
        l.step op = Function.update l x ((l x).receive y i frame) := by
  cases op with
  | send x dgram nextHop =>
      exact Or.inr (Or.inl
        ⟨x, .sendDatagram dgram nextHop, by simp, by simp, rfl⟩)
  | tick x ms =>
      exact Or.inr (Or.inl ⟨x, .tick ms, by simp, by simp, rfl⟩)
  | deliver x y i =>
      cases hframe : (l.frames y)[i]? with
      | none =>
          left
          rw [frames] at hframe
          rw [step, hframe]
      | some frame =>
          exact Or.inr (Or.inr
            ⟨x, y, i, frame, rfl, hframe, step_deliver hframe⟩)

/-! ## Every host tells the truth -/

variable {a : Addressing ι} {l : Lan ι}

theorem sound_step (h : ∀ x, Sound a x (l x)) (op : Op ι) :
    ∀ x, Sound a x (l.step op x) := by
  rcases l.step_cases op with heq | ⟨x, call, hlocal, -, heq⟩ |
    ⟨x, y, i, frame, -, hframe, heq⟩
  · rw [heq]
    exact h
  · rw [heq, Function.forall_update_iff l fun x s => Sound a x s]
    exact ⟨(h x).call fun frame hrecv => absurd hrecv (hlocal frame),
      fun z _ => h z⟩
  · rw [heq, Function.forall_update_iff l fun x s => Sound a x s]
    have hsent : a.Sent y frame :=
      (h y).truthful.sent (List.mem_of_getElem? hframe)
    exact ⟨(h x).receive hsent i, fun z _ => h z⟩

theorem run_sound (a : Addressing ι) (ops : List (Op ι)) :
    ∀ x, Sound a x (run step (new a) ops x) :=
  run_preserves (P := fun l : Lan ι => ∀ x, Sound a x (l x))
    (fun _ op h => sound_step h op)
    (fun x => ⟨rfl, Addressing.truthful_host x, fun _ => rfl⟩) ops

/-- Whatever the network does with the frames, an Ethernet address in the
table of a host is the one of the host with the IP address. -/
theorem mappings_true
    (a : Addressing ι) (ops : List (Op ι)) (x : ι) {ip : UInt32}
    {eth : EthernetAddress}
    (h : (run step (new a) ops x).interface.mapping ip = some eth) :
    ∃ y, (a.ip y).ipv4Numeric = ip ∧ a.eth y = eth :=
  (run_sound a ops x).truthful.mapping ip eth h

/-- Two hosts. -/
def twoHosts : Addressing Bool where
  eth := fun x => if x then NetworkInterface.neighbourEth
    else NetworkInterface.ownEth
  ip := fun x => if x then NetworkInterface.neighbourIp
    else NetworkInterface.ownIp
  eth_injective := by
    intro x y h
    cases x <;> cases y <;> first | rfl | exact absurd h (by decide)
  hop_injective := by
    intro x y h
    cases x <;> cases y <;> first | rfl | exact absurd h (by decide)
  unicast := by decide

/-- A host sends two datagrams to the other one.  The first one waits for the
address, which the second one does not have to ask for. -/
def resolvingRun : List (Op Bool) :=
  [.send false NetworkInterface.bareDatagram NetworkInterface.neighbourIp,
    .deliver true false 0, .deliver false true 0, .deliver true false 1,
    .send false NetworkInterface.bareDatagram NetworkInterface.neighbourIp,
    .deliver true false 2]

theorem mappings_true_resolvingRun :
    (run step (new twoHosts) resolvingRun false).interface.mapping 2 =
        some NetworkInterface.neighbourEth ∧
      ∃ y, (twoHosts.ip y).ipv4Numeric = 2 ∧
        twoHosts.eth y = NetworkInterface.neighbourEth :=
  ⟨by decide, mappings_true twoHosts resolvingRun false (by decide)⟩

/-! ## What is handed up was sent -/

theorem frames_step (l : Lan ι) (op : Op ι) (y : ι) :
    ∃ more, (l.step op).frames y = l.frames y ++ more := by
  have hcall : ∀ x call s, s.interface = ((l x).call call).interface →
      ∃ more, frames (Function.update l x s) y = l.frames y ++ more := by
    intro x call s hs
    by_cases hxy : y = x
    · subst hxy
      have hlogs := NetworkInterface.step_logs (l y).interface call
      rw [frames, Function.update_self, hs]
      exact ⟨_, hlogs.framesOut_eq⟩
    · refine ⟨[], ?_⟩
      rw [frames, Function.update_of_ne hxy, List.append_nil]
      rfl
  rcases l.step_cases op with heq | ⟨x, call, -, -, heq⟩ |
    ⟨x, z, i, frame, -, -, heq⟩
  · exact ⟨[], by rw [heq, List.append_nil]⟩
  · rw [heq]
    exact hcall x call _ rfl
  · rw [heq]
    exact hcall x (.recvFrame frame) _ rfl

section Arrived

variable {P : List EthernetFrame → ℕ → List EthernetFrame → Prop}

/-- To follow which frames of a host arrive at another one, it is enough to
look at more frames and at one delivery. -/
theorem arrived_rule {op : Op ι}
    (hgrow : ∀ fs k frames more, P fs k frames → P fs k (frames ++ more))
    (hdeliver : ∀ x y i frame, op = .deliver x y i →
      (l.frames y)[i]? = some frame →
      P ((l x).arrived y) ((l x).taken y) (l.frames y) →
      P ((l x).arrived y ++ [frame]) (i + 1) (l.frames y))
    (h : ∀ x y, P ((l x).arrived y) ((l x).taken y) (l.frames y)) :
    ∀ x y, P ((l.step op x).arrived y) ((l.step op x).taken y)
      ((l.step op).frames y) := by
  intro x y
  obtain ⟨more, hmore⟩ := l.frames_step op y
  rw [hmore]
  apply hgrow
  rcases l.step_cases op with heq | ⟨z, call, -, -, heq⟩ |
    ⟨z, w, i, frame, hop, hframe, heq⟩
  · rw [heq]
    exact h x y
  · rw [heq]
    by_cases hx : x = z
    · subst hx
      rw [Function.update_self]
      exact h x y
    · rw [Function.update_of_ne hx]
      exact h x y
  · rw [heq]
    by_cases hx : x = z
    · subst hx
      rw [Function.update_self]
      by_cases hy : y = w
      · subst hy
        have hnew := hdeliver x y i frame hop hframe (h x y)
        simpa only [Station.receive, Function.update_self] using hnew
      · simpa only [Station.receive, Function.update_of_ne hy] using h x y
    · rw [Function.update_of_ne hx]
      exact h x y

/-- The same for whole runs. -/
theorem run_arrived (a : Addressing ι) {ok : Lan ι → Op ι → Prop}
    (hnil : P [] 0 [])
    (hgrow : ∀ fs k frames more, P fs k frames → P fs k (frames ++ more))
    (hdeliver : ∀ l x y i frame, ok l (.deliver x y i) →
      (frames l y)[i]? = some frame →
      P ((l x).arrived y) ((l x).taken y) (frames l y) →
      P ((l x).arrived y ++ [frame]) (i + 1) (frames l y))
    {ops : List (Op ι)} (hops : Guarded step ok (new a) ops) :
    let l := run step (new a) ops
    ∀ x y, P ((l x).arrived y) ((l x).taken y) (l.frames y) := by
  refine @run_invariant _ _ step ok (fun l =>
    ∀ x y, P ((l x).arrived y) ((l x).taken y) (l.frames y))
    ?_ (new a) ops (fun _ _ => hnil) hops
  intro l op h hop
  refine arrived_rule hgrow ?_ h
  rintro x y i frame rfl
  exact hdeliver l x y i frame hop

end Arrived

/-- A frame that is delivered stands behind those before it. -/
theorem take_succ_of_getElem? {frames : List EthernetFrame} {i : ℕ}
    {frame : EthernetFrame} (h : frames[i]? = some frame) :
    frames.take (i + 1) = frames.take i ++ [frame] := by
  rw [List.take_add_one, h]
  rfl

/-- Whatever the network does with the frames, what a host hands up for a
frame of another host was given to that host, to be sent to this one. -/
theorem received_was_sent
    (a : Addressing ι) (ops : List (Op ι)) {x y : ι}
    (hproper : ∀ d ∈ sent a (run step (new a) ops) x y, d.Proper) :
    let l := run step (new a) ops
    ∀ d' ∈ (l x).received y, ∃ d ∈ sent a l x y, d.Delivered d' := by
  intro l d' hd'
  have harrived : ∀ frame ∈ (l x).arrived y, frame ∈ l.frames y := by
    refine run_arrived (P := fun fs _ frames => ∀ f ∈ fs, f ∈ frames) a
      (fun _ hf => hf) ?_ ?_
      (guarded_of_forall (fun _ _ => trivial) (new a) ops) x y
    · intro fs k frames more hfs f hf
      exact List.mem_append_left more (hfs f hf)
    · intro l x y i frame _ hframe hfs
      rw [List.forall_mem_append, List.forall_mem_singleton]
      exact ⟨hfs, List.mem_of_getElem? hframe⟩
  have hhanded : d' ∈ a.handed x (l.frames y) := by
    rw [(run_sound a ops x).received_eq, Addressing.handed,
      List.mem_filterMap] at hd'
    obtain ⟨frame, hframe, hup⟩ := hd'
    exact List.mem_filterMap.mpr ⟨frame, harrived frame hframe, hup⟩
  have hsound := run_sound a ops y
  obtain ⟨part, hpart, hrel⟩ := exists_sublist_of_forall₂
    (hsound.forall₂_delivered hproper) (List.singleton_sublist.mpr hhanded)
  obtain ⟨d, _, hd, hnil, rfl⟩ := List.forall₂_cons_right_iff.mp hrel
  refine ⟨d, ?_, hd⟩
  rw [sent, ← hsound.emittedFor_append_queue]
  exact List.mem_append_left _ (hpart.mem List.mem_cons_self)

theorem proper_bareDatagram : NetworkInterface.bareDatagram.Proper :=
  ⟨⟨rfl, by decide, by decide, by decide⟩, by decide⟩

theorem proper_resolvingRun :
    ∀ d ∈ sent twoHosts (run step (new twoHosts) resolvingRun) true false,
      d.Proper := by
  have hsent : sent twoHosts (run step (new twoHosts) resolvingRun) true
      false = List.replicate 2 NetworkInterface.bareDatagram := by decide
  intro d hd
  rw [hsent] at hd
  rw [List.eq_of_mem_replicate hd]
  exact proper_bareDatagram

theorem received_was_sent_resolvingRun :
    let l := run step (new twoHosts) resolvingRun
    ((l true).received false).length = 2 ∧
      ∀ d' ∈ (l true).received false,
        ∃ d ∈ sent twoHosts l true false, d.Delivered d' :=
  ⟨by decide, received_was_sent twoHosts resolvingRun proper_resolvingRun⟩

/-- If the network does not reorder or repeat the frames between two hosts,
neither are the datagrams.  What a host was asked to send to another one has
been emitted, each datagram in a frame of its own, or it still waits, behind
all that was emitted.  The other host hands up what stands in the frames that
arrived, so there are gaps only where a frame was lost or is on its way. -/
theorem received_in_order
    (a : Addressing ι) {ops : List (Op ι)}
    (hordered : Guarded step Ordered (new a) ops) {x y : ι}
    (hproper : ∀ d ∈ sent a (run step (new a) ops) x y, d.Proper) :
    let l := run step (new a) ops
    ∃ emitted arrived,
      sent a l x y = emitted ++ (l y).interface.queue (a.hop x) ∧
      List.Forall₂ Delivered emitted (a.handed x (l.frames y)) ∧
      ((l x).arrived y).Sublist (l.frames y) ∧
      (l x).received y = a.handed x ((l x).arrived y) ∧
      arrived.Sublist emitted ∧
      List.Forall₂ Delivered arrived ((l x).received y) := by
  intro l
  have harrived : ((l x).arrived y).Sublist
      ((l.frames y).take ((l x).taken y)) := by
    refine (run_arrived (P := fun fs k frames => k ≤ frames.length ∧
      fs.Sublist (frames.take k)) a
      ⟨le_rfl, List.nil_sublist _⟩ ?_ ?_ hordered x y).2
    · rintro fs k frames more ⟨hk, hfs⟩
      rw [List.take_append_of_le_length hk, List.length_append]
      exact ⟨Nat.le_add_right_of_le hk, hfs⟩
    · rintro l x y i frame hi hframe ⟨-, hfs⟩
      rw [take_succ_of_getElem? hframe]
      refine ⟨(List.getElem?_eq_some_iff.mp hframe).1, ?_⟩
      apply List.Sublist.append_right
      exact hfs.trans (List.take_prefix_take_left hi).sublist
  have hframes := harrived.trans (List.take_sublist _ _)
  have hreceived := (run_sound a ops x).received_eq y
  have hemitted := (run_sound a ops y).forall₂_delivered hproper
  obtain ⟨arrived, hsub, hrel⟩ := exists_sublist_of_forall₂ hemitted
    (hframes.filterMap (a.host x).handedUp)
  refine ⟨_, arrived, ?_, hemitted, hframes, hreceived, hsub, ?_⟩
  · exact ((run_sound a ops y).emittedFor_append_queue (a.hop x)).symm
  · rw [hreceived]
    exact hrel

theorem received_in_order_resolvingRun :
    let l := run step (new twoHosts) resolvingRun
    ((l true).received false).length = 2 ∧
    ∃ emitted arrived,
      sent twoHosts l true false =
        emitted ++ (l false).interface.queue (twoHosts.hop true) ∧
      List.Forall₂ Delivered emitted (twoHosts.handed true (l.frames false)) ∧
      ((l true).arrived false).Sublist (l.frames false) ∧
      (l true).received false =
        twoHosts.handed true ((l true).arrived false) ∧
      arrived.Sublist emitted ∧
      List.Forall₂ Delivered arrived ((l true).received false) :=
  ⟨by decide, received_in_order twoHosts (by decide) proper_resolvingRun⟩

end Lan

end Sponge
