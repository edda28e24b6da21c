import Sponge.NetworkInterface.Queueing

/-!
# The lifetime of a learned address

A neighbour that announced its address within the last thirty seconds should
be reached at the address of its last announcement.  But a stored address is
not replaced by a later announcement, the stored address is the source of the
frame and not the announced one, and the stored time may be that of a request
from long before.  The announcements of a run are current as long as none of
this makes a difference.
-/

namespace Sponge

/-- The message that was accepted from an address. -/
def Event.accepted? (ip : UInt32) : Event → Option Acceptance
  | .accepted m => if m.arp.senderIpAddress = ip then some m else none
  | _ => none

namespace NetworkInterface

/-- The last message that was accepted from an address. -/
def lastAccepted (n : NetworkInterface) (ip : UInt32) : Option Acceptance :=
  (n.history.filterMap (Event.accepted? ip)).getLast?

/-- The datagram leaves at once in an IPv4 frame to `eth`, after nothing but
other IPv4 frames. -/
def EmitsTo (n : NetworkInterface) (dgram : InternetDatagram)
    (nextHop : Address) (eth : EthernetAddress) : Prop :=
  ∃ waiting frame,
    (n.sendDatagram dgram nextHop).2.framesOut =
      n.framesOut ++ waiting ++ [frame] ∧
    (∀ f ∈ waiting, f.header.type = EthernetHeader.typeIPv4) ∧
    frame.header.type = EthernetHeader.typeIPv4 ∧
    frame.header.dst = eth ∧ dgram.serialize = .ok frame.payload

/-- Whoever announced an address within the last thirty seconds is sent to at
that address. -/
def AnnouncementsCurrent (n : NetworkInterface) : Prop :=
  ∀ ip m, n.lastAccepted ip = some m →
    n.systemTime ≤ m.time + thirtyThousandsMs →
    ∀ dgram nextHop, dgram.Serializable → nextHop.ipv4Numeric = ip →
      n.EmitsTo dgram nextHop m.arp.senderEthernetAddress

/-- Whoever announced an address within the last thirty seconds is stored with
that address. -/
def AnnouncementsStored (n : NetworkInterface) : Prop :=
  ∀ ip m, n.lastAccepted ip = some m →
    n.systemTime ≤ m.time + thirtyThousandsMs →
    n.mapping ip = some m.arp.senderEthernetAddress

/-! ## Sending to a stored address -/

/-- The frames of flushing a queue that can be serialized. -/
theorem frames_flushEvents
    {n : NetworkInterface} {ip : UInt32} {eth : EthernetAddress}
    {q : List InternetDatagram} (h : ∀ d ∈ q, d.Serializable) :
    (n.flushEvents ip eth q).filterMap Event.frame? =
      q.map fun d => (n.emission ip eth d).frame := by
  have hall : q.takeWhile (fun d => d.Serializable) = q := by
    rw [List.takeWhile_eq_self_iff]
    intro d hd
    simpa using h d hd
  rw [flushEvents, hall, List.filterMap_map]
  exact congrFun List.filterMap_eq_map' q

/-- A datagram to an unknown address waits. -/
theorem not_emitsTo_of_none
    {n : NetworkInterface} {nextHop : Address}
    (h : n.mapping nextHop.ipv4Numeric = none) (dgram : InternetDatagram)
    (eth : EthernetAddress) : ¬ n.EmitsTo dgram nextHop eth := by
  rintro ⟨waiting, frame, hout, -, htype, -⟩
  rw [(sendEffect n dgram nextHop).logs.framesOut_eq, sendEvents_of_none h,
    List.append_assoc, List.append_cancel_left_eq] at hout
  split at hout
  · have hlast := congrArg List.getLast? hout
    rw [List.getLast?_concat] at hlast
    obtain rfl := Option.some.inj hlast
    have hne : EthernetHeader.typeArp ≠ EthernetHeader.typeIPv4 := by decide
    exact absurd htype hne
  · exact absurd hout.symm (by simp)

/-- The frames after sending to a known address: those of the queue, and one
with the datagram. -/
theorem framesOut_send_of_some
    {n : NetworkInterface} {dgram : InternetDatagram} {nextHop : Address}
    {eth : EthernetAddress}
    (hqueue : ∀ d ∈ n.queue nextHop.ipv4Numeric, d.Serializable)
    (hdgram : dgram.Serializable)
    (h : n.mapping nextHop.ipv4Numeric = some eth) :
    (n.sendDatagram dgram nextHop).2.framesOut =
      n.framesOut ++ ((n.queue nextHop.ipv4Numeric).map fun d =>
        (n.emission nextHop.ipv4Numeric eth d).frame) ++
        [(n.emission nextHop.ipv4Numeric eth dgram).frame] := by
  have hser := List.forall_mem_append.mpr
    ⟨hqueue, List.forall_mem_singleton.mpr hdgram⟩
  rw [(sendEffect n dgram nextHop).logs.framesOut_eq, sendEvents_of_some h,
    frames_flushEvents hser, List.map_append, ← List.append_assoc]
  rfl

theorem emitsTo_of_some
    {n : NetworkInterface} {dgram : InternetDatagram} {nextHop : Address}
    {eth : EthernetAddress}
    (hqueue : ∀ d ∈ n.queue nextHop.ipv4Numeric, d.Serializable)
    (hdgram : dgram.Serializable)
    (h : n.mapping nextHop.ipv4Numeric = some eth) :
    n.EmitsTo dgram nextHop eth := by
  refine ⟨_, _, framesOut_send_of_some hqueue hdgram h, ?_, rfl, rfl,
    serialize_getD hdgram⟩
  intro f hf
  obtain ⟨d, -, rfl⟩ := List.mem_map.mp hf
  rfl

/-- A datagram that can be serialized leaves at once exactly to the stored
address. -/
theorem emitsTo_iff
    {n : NetworkInterface} {dgram : InternetDatagram} {nextHop : Address}
    {eth : EthernetAddress} (hqueues : n.QueuesSerializable)
    (hdgram : dgram.Serializable) :
    n.EmitsTo dgram nextHop eth ↔
      n.mapping nextHop.ipv4Numeric = some eth := by
  cases hmap : n.mapping nextHop.ipv4Numeric with
  | none => exact iff_of_false (not_emitsTo_of_none hmap dgram eth) nofun
  | some eth' =>
      constructor
      · rintro ⟨waiting, frame, hout', -, -, hdst, -⟩
        rw [framesOut_send_of_some (hqueues _) hdgram hmap] at hout'
        have hlast := congrArg List.getLast? hout'
        rw [List.getLast?_concat, List.getLast?_concat] at hlast
        obtain rfl := Option.some.inj hlast
        exact congrArg some hdst
      · intro heq
        obtain rfl := Option.some.inj heq
        exact emitsTo_of_some (hqueues _) hdgram hmap

theorem announcementsCurrent_iff {n : NetworkInterface}
    (hqueues : n.QueuesSerializable) :
    n.AnnouncementsCurrent ↔ n.AnnouncementsStored := by
  constructor
  · intro h ip m hm hrecent
    have hbare : bareDatagram.Serializable := by decide
    exact (emitsTo_iff hqueues hbare).mp
      (h ip m hm hrecent bareDatagram ⟨ip, 0⟩ hbare rfl)
  · intro h ip m hm hrecent dgram nextHop hdgram hip
    rw [emitsTo_iff hqueues hdgram, hip]
    exact h ip m hm hrecent

/-! ## What keeps the announcements current -/

/-- An ARP message brings the address that is stored after it; and no address
expires within thirty seconds after it was announced. -/
def KeepsAnnouncements (n : NetworkInterface) : Op → Prop
  | .sendDatagram _ _ => True
  | .recvFrame frame => ∀ arp ∈ n.acceptedArp frame,
      (n.mapping arp.senderIpAddress).getD frame.header.src =
        arp.senderEthernetAddress
  | .tick ms => ∀ ip m, n.lastAccepted ip = some m →
      n.systemTime + ms ≤ m.time + thirtyThousandsMs → ¬ n.Expires ms ip

theorem lastAccepted_send (n : NetworkInterface) (dgram : InternetDatagram)
    (nextHop : Address) (ip : UInt32) :
    (n.sendDatagram dgram nextHop).2.lastAccepted ip =
      n.lastAccepted ip := by
  rw [lastAccepted, (sendEffect n dgram nextHop).logs.history_eq,
    List.filterMap_append,
    filterMap_sendEvents (fun _ => rfl) (fun _ _ _ => rfl), List.append_nil]
  rfl

theorem lastAccepted_arp {n n' : NetworkInterface}
    {frameSrc : EthernetAddress} {arp : ARPMessage}
    (h : ArpEffect frameSrc arp n n') (ip : UInt32) :
    n'.lastAccepted ip =
      if ip = arp.senderIpAddress then some ⟨n.systemTime, frameSrc, arp⟩
      else n.lastAccepted ip := by
  have hevents : (n.acceptEvents frameSrc arp).filterMap
      (Event.accepted? ip) = if ip = arp.senderIpAddress then
        [⟨n.systemTime, frameSrc, arp⟩] else [] := by
    unfold acceptEvents
    by_cases hip : ip = arp.senderIpAddress
    · split <;> simp [Event.accepted?, hip]
    · split <;> simp [Event.accepted?, Ne.symm hip]
  rw [lastAccepted, h.logs.history_eq, List.filterMap_append,
    filterMap_arpEvents (fun _ => rfl) (fun _ => rfl), hevents]
  split
  · exact List.getLast?_concat
  · rw [List.append_nil]
    rfl

theorem announcementsStored_arp_iff {n n' : NetworkInterface}
    {frameSrc : EthernetAddress} {arp : ARPMessage}
    (heffect : ArpEffect frameSrc arp n n') (h : n.AnnouncementsStored) :
    n'.AnnouncementsStored ↔
      (n.mapping arp.senderIpAddress).getD frameSrc =
        arp.senderEthernetAddress := by
  constructor
  · intro hstored
    have hlast : n'.lastAccepted arp.senderIpAddress =
        some ⟨n.systemTime, frameSrc, arp⟩ := by
      rw [lastAccepted_arp heffect, if_pos rfl]
    have hrecent : n'.systemTime ≤ n.systemTime + thirtyThousandsMs := by
      rw [heffect.systemTime_eq]
      exact Nat.le_add_right _ _
    have hmap := hstored _ _ hlast hrecent
    rw [heffect.mapping_eq, if_pos rfl] at hmap
    exact Option.some.inj hmap
  · intro hsame ip m hm hrecent
    rw [heffect.systemTime_eq] at hrecent
    rw [lastAccepted_arp heffect] at hm
    rw [heffect.mapping_eq]
    by_cases hip : ip = arp.senderIpAddress
    · rw [if_pos hip] at hm ⊢
      obtain rfl := Option.some.inj hm
      rw [hip, hsame]
    · rw [if_neg hip] at hm ⊢
      exact h ip m hm hrecent

theorem announcementsStored_tick_iff {n : NetworkInterface} {ms : ℕ}
    (hclock : n.systemTime + ms < 2 ^ 64) (h : n.AnnouncementsStored) :
    (n.tick ms).AnnouncementsStored ↔ n.KeepsAnnouncements (.tick ms) := by
  have hnow : (n.tick ms).systemTime = n.systemTime + ms := add64_eq hclock
  constructor
  · intro hstored ip m hm hrecent hexpires
    have hmap := hstored ip m hm (hnow ▸ hrecent)
    rw [mapping_tick, if_pos hexpires] at hmap
    exact nomatch hmap
  · intro hkeeps ip m hm hrecent
    rw [hnow] at hrecent
    rw [mapping_tick, if_neg (hkeeps ip m hm hrecent)]
    exact h ip m hm (by omega)

/-- From a state with current announcements, a call leads to another such
state exactly if it keeps them. -/
theorem announcementsStored_step_iff {n : NetworkInterface} {op : Op}
    (hclock : n.ClockFits op) (h : n.AnnouncementsStored) :
    (n.step op).AnnouncementsStored ↔ n.KeepsAnnouncements op := by
  cases op with
  | sendDatagram dgram nextHop =>
      refine ⟨fun _ => trivial, fun _ ip m hm hrecent => ?_⟩
      rw [step, lastAccepted_send] at hm
      rw [step, (sendEffect n dgram nextHop).systemTime_eq] at hrecent
      rw [step, (sendEffect n dgram nextHop).mapping_eq]
      exact h ip m hm hrecent
  | recvFrame frame =>
      cases hacc : n.acceptedArp frame with
      | none =>
          rw [step_recvFrame_of_none hacc]
          refine ⟨fun _ arp harp => ?_, fun _ => h⟩
          rw [hacc] at harp
          exact absurd harp (Option.not_mem_none arp)
      | some arp =>
          rw [announcementsStored_arp_iff (step_recvFrame_of_some hacc) h]
          constructor
          · intro hsame arp' harp'
            rw [hacc] at harp'
            obtain rfl := Option.some.inj harp'
            exact hsame
          · exact fun hkeeps => hkeeps arp hacc
  | tick ms => exact announcementsStored_tick_iff hclock h

/-- The announcements are current throughout a run exactly if all its calls
keep them. -/
theorem announcementsCurrent_iff_keeps
    (eth : EthernetAddress) (ip : Address) {ops : List Op}
    (hops : ∀ op ∈ ops, op.Serializable)
    (hclock : Guarded step ClockFits (new eth ip) ops) :
    (∀ pre, pre <+: ops →
        (run step (new eth ip) pre).AnnouncementsCurrent) ↔
      Guarded step KeepsAnnouncements (new eth ip) ops := by
  have hqueues : ∀ pre, pre <+: ops →
      (run step (new eth ip) pre).QueuesSerializable := by
    intro pre hpre
    exact run_queuesSerializable eth ip fun op hop =>
      hops op (hpre.subset hop)
  have hstored : (∀ pre, pre <+: ops →
      (run step (new eth ip) pre).AnnouncementsStored) ↔
      Guarded step KeepsAnnouncements (new eth ip) ops :=
    forall_prefix_iff_guarded (fun _ _ (_ : True) _ => trivial)
      (fun _ _ _ hop h => announcementsStored_step_iff hop h) trivial
      (fun _ _ hm => nomatch hm) hclock
  rw [← hstored]
  constructor
  · intro h pre hpre
    exact (announcementsCurrent_iff (hqueues pre hpre)).mp (h pre hpre)
  · intro h pre hpre
    exact (announcementsCurrent_iff (hqueues pre hpre)).mpr (h pre hpre)

/-- The neighbour announces itself, and a datagram is sent to it. -/
def announcedRun : List Op :=
  [.recvFrame (arpFromNeighbour ARPMessage.opcodeRequest neighbourEth),
    .sendDatagram bareDatagram neighbourIp]

theorem announcementsCurrent_announcedRun :
    Guarded step ClockFits (new ownEth ownIp) announcedRun ∧
      ∀ pre, pre <+: announcedRun →
        (run step (new ownEth ownIp) pre).AnnouncementsCurrent := by
  have hclock : Guarded step ClockFits (new ownEth ownIp) announcedRun := by
    decide
  refine ⟨hclock, (announcementsCurrent_iff_keeps ownEth ownIp (by decide)
    hclock).mpr ⟨?_, trivial, trivial⟩⟩
  change ∀ arp ∈ (new ownEth ownIp).acceptedArp _, _
  decide

/-- A request stays without an answer for twenty-nine seconds. -/
def lateAnswerRun : List Op :=
  [.sendDatagram bareDatagram neighbourIp, .tick 29000,
    .recvFrame (arpFromNeighbour ARPMessage.opcodeReply neighbourEth),
    .tick 1001]

/-- One second after the answer, its address is forgotten. -/
theorem not_announcementsCurrent_lateAnswerRun :
    ¬ (run step (new ownEth ownIp) lateAnswerRun).AnnouncementsCurrent := by
  intro h
  have hqueues := run_queuesSerializable ownEth ownIp
    (show ∀ op ∈ lateAnswerRun, op.Serializable by decide)
  have hmap := (announcementsCurrent_iff hqueues).mp h
    neighbourIp.ipv4Numeric
    ⟨29000, neighbourEth, neighbourArp ARPMessage.opcodeReply neighbourEth⟩
    (by decide) (by decide)
  exact absurd hmap (by decide)

end NetworkInterface
end Sponge
