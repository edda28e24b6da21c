import Sponge.NetworkInterface.Effects

/-!
# Addresses are neither stale nor invented

An address stays in the table as long as its stored time is recent.  The time
may be that of a request from before the address was learned, so it is never
later than that.  Hence an IPv4 frame goes to an address that came with an ARP
message at most thirty seconds before.
-/

namespace Sponge

/-- The time and the address of a learned mapping. -/
def Event.learned? (ip : UInt32) : Event → Option (ℕ × EthernetAddress)
  | .learned time ip' eth => if ip' = ip then some (time, eth) else none
  | _ => none

/-- The message justifies the destination of the frame. -/
structure Justifies (m : Acceptance) (e : Emission) : Prop where
  sender_eq : m.arp.senderIpAddress = e.hop
  dst_eq : e.frame.header.dst = m.frameSrc ∨
    e.frame.header.dst = m.arp.senderEthernetAddress
  time_le : m.time ≤ e.time
  age_le : e.time - m.time ≤ NetworkInterface.thirtyThousandsMs

/-- Every IPv4 frame is justified by a message that came before it. -/
def Justified (history : List Event) : Prop :=
  ∀ pre e post, history = pre ++ .datagram e :: post →
    ∃ m, .accepted m ∈ pre ∧ Justifies m e

theorem Justified.append {history events : List Event}
    (h : Justified history)
    (hevents : ∀ event ∈ events, ∀ e, event = .datagram e →
      ∃ m, .accepted m ∈ history ∧ Justifies m e) :
    Justified (history ++ events) := by
  intro pre e post hsplit
  rcases List.append_eq_append_iff.mp hsplit with
    ⟨rest, rfl, hrest⟩ | ⟨rest, rfl, hrest⟩
  · have hmem : .datagram e ∈ events := by
      rw [hrest]
      exact List.mem_append_right rest List.mem_cons_self
    obtain ⟨m, hm, hjustifies⟩ := hevents _ hmem e rfl
    exact ⟨m, List.mem_append_left rest hm, hjustifies⟩
  · cases rest with
    | nil =>
        have hmem : .datagram e ∈ events := by
          rw [List.nil_append] at hrest
          rw [← hrest]
          exact List.mem_cons_self
        obtain ⟨m, hm, hjustifies⟩ := hevents _ hmem e rfl
        rw [List.append_nil] at hm
        exact ⟨m, hm, hjustifies⟩
    | cons d rest =>
        obtain ⟨rfl, -⟩ := List.cons.inj hrest
        exact h pre e rest rfl

namespace NetworkInterface

/-- When and as what the mapping of an address was last learned. -/
def lastLearned (n : NetworkInterface) (ip : UInt32) :
    Option (ℕ × EthernetAddress) :=
  (n.history.filterMap (Event.learned? ip)).getLast?

/-- The stored address came with an accepted message, not before the stored
time. -/
structure Known (n : NetworkInterface) (ip : UInt32)
    (addr : EthernetAddress) (learnedAt time : ℕ) : Prop where
  lastLearned_eq : n.lastLearned ip = some (learnedAt, addr)
  timestamp_eq : n.timestamp ip = some time
  time_le : time ≤ learnedAt
  learnedAt_le : learnedAt ≤ n.systemTime
  accepted : ∃ arp, .accepted ⟨learnedAt, addr, arp⟩ ∈ n.history ∧
    arp.senderIpAddress = ip

/-- The state of the tables and the history in every run. -/
structure Fresh (n : NetworkInterface) : Prop where
  time_lt : n.systemTime < 2 ^ 64
  stored : ∀ ip, ∀ time ∈ n.timestamp ip,
    time ≤ n.systemTime ∧ n.systemTime - time ≤ thirtyThousandsMs
  known : ∀ ip addr, n.mapping ip = some addr →
    ∃ learnedAt time, n.Known ip addr learnedAt time
  justified : Justified n.history

theorem fresh_new (eth : EthernetAddress) (ip : Address) :
    (new eth ip).Fresh where
  time_lt := Nat.two_pow_pos 64
  stored := fun _ _ h => nomatch h
  known := fun _ _ h => nomatch h
  justified := fun pre _ _ h => by
    cases pre <;> exact nomatch h

/-- What is known of an address stays known while its mapping is kept. -/
theorem Known.carry {n n' : NetworkInterface} {ip : UInt32}
    {addr : EthernetAddress} {learnedAt time : ℕ}
    (h : n.Known ip addr learnedAt time)
    (hlearned : n'.lastLearned ip = n.lastLearned ip)
    (htimestamp : n'.timestamp ip = n.timestamp ip)
    (hclock : n.systemTime ≤ n'.systemTime)
    (hhistory : n.history ⊆ n'.history) :
    n'.Known ip addr learnedAt time := by
  obtain ⟨arp, hmem, hsender⟩ := h.accepted
  exact ⟨hlearned.trans h.lastLearned_eq, htimestamp.trans h.timestamp_eq,
    h.time_le, h.learnedAt_le.trans hclock, arp, hhistory hmem, hsender⟩

/-- A stored address justifies a frame to it. -/
theorem Fresh.justifies {n : NetworkInterface} (h : n.Fresh)
    {ip : UInt32} {addr : EthernetAddress} (hmap : n.mapping ip = some addr)
    (dgram : InternetDatagram) :
    ∃ m, .accepted m ∈ n.history ∧ Justifies m (n.emission ip addr dgram) := by
  obtain ⟨learnedAt, time, hknown⟩ := h.known ip addr hmap
  obtain ⟨arp, hmem, hsender⟩ := hknown.accepted
  have hstored := h.stored ip time hknown.timestamp_eq
  have htime := hknown.time_le
  refine ⟨_, hmem, hsender, Or.inl rfl, hknown.learnedAt_le, ?_⟩
  change n.systemTime - learnedAt ≤ thirtyThousandsMs
  omega

/-- Storing a time where none is stored stores the present. -/
theorem stored_getD {n : NetworkInterface} (h : n.Fresh) (ip : UInt32) :
    (n.timestamp ip).getD n.systemTime ≤ n.systemTime ∧
      n.systemTime - (n.timestamp ip).getD n.systemTime ≤
        thirtyThousandsMs := by
  cases htime : n.timestamp ip with
  | none =>
      rw [Option.getD_none, Nat.sub_self]
      exact ⟨le_rfl, Nat.zero_le _⟩
  | some time =>
      rw [Option.getD_some]
      exact h.stored ip time htime

/-- Storing the present where no time is stored keeps all stored times
young. -/
theorem Fresh.stored_of_eq {n n' : NetworkInterface} (h : n.Fresh)
    (hclock : n'.systemTime = n.systemTime) {ip : UInt32} {c : Prop}
    [Decidable c] (htimestamp : n'.timestamp ip =
      if c then some ((n.timestamp ip).getD n.systemTime)
      else n.timestamp ip) :
    ∀ time ∈ n'.timestamp ip,
      time ≤ n'.systemTime ∧ n'.systemTime - time ≤ thirtyThousandsMs := by
  intro time htime
  rw [htimestamp] at htime
  rw [hclock]
  split at htime
  · obtain rfl := Option.some.inj htime
    exact stored_getD h ip
  · exact h.stored ip time htime

theorem Fresh.send {n : NetworkInterface} (h : n.Fresh)
    (dgram : InternetDatagram) (nextHop : Address) :
    (n.sendDatagram dgram nextHop).2.Fresh := by
  have heffect := sendEffect n dgram nextHop
  constructor
  · rw [heffect.systemTime_eq]
    exact h.time_lt
  · intro ip
    exact h.stored_of_eq heffect.systemTime_eq (heffect.timestamp_eq ip)
  · intro ip addr hmap
    rw [heffect.mapping_eq] at hmap
    obtain ⟨learnedAt, time, hknown⟩ := h.known ip addr hmap
    have hkept : (n.sendDatagram dgram nextHop).2.timestamp ip =
        n.timestamp ip := by
      rw [heffect.timestamp_eq]
      refine if_neg ?_
      rintro ⟨rfl, hnone⟩
      rw [hmap] at hnone
      exact Option.some_ne_none _ hnone
    have hlearned : (n.sendDatagram dgram nextHop).2.lastLearned ip =
        n.lastLearned ip := by
      rw [lastLearned, heffect.logs.history_eq, List.filterMap_append,
        filterMap_sendEvents (fun _ => rfl) (fun _ _ _ => rfl),
        List.append_nil]
      rfl
    refine ⟨learnedAt, time, hknown.carry hlearned hkept ?_ ?_⟩
    · exact heffect.systemTime_eq.ge
    · rw [heffect.logs.history_eq]
      exact List.subset_append_left _ _
  · rw [heffect.logs.history_eq]
    apply h.justified.append
    refine forall_sendEvents (fun addr d hmap _ e he => ?_)
      (fun e he => nomatch he)
    obtain rfl := Event.datagram.inj he
    exact h.justifies hmap d

theorem learned_acceptEvents (n : NetworkInterface)
    (frameSrc : EthernetAddress) (arp : ARPMessage) (ip : UInt32) :
    (n.acceptEvents frameSrc arp).filterMap (Event.learned? ip) =
      if ip = arp.senderIpAddress ∧ n.mapping arp.senderIpAddress = none then
        [(n.systemTime, frameSrc)]
      else [] := by
  rw [acceptEvents, List.filterMap_cons]
  simp only [Event.learned?]
  by_cases hnone : n.mapping arp.senderIpAddress = none
  · rw [if_pos hnone]
    by_cases hip : ip = arp.senderIpAddress
    · simp [Event.learned?, hip, hnone]
    · simp [Event.learned?, hip, Ne.symm hip]
  · simp [hnone]

theorem lastLearned_arp {n n' : NetworkInterface}
    {frameSrc : EthernetAddress} {arp : ARPMessage}
    (h : ArpEffect frameSrc arp n n') (ip : UInt32) :
    n'.lastLearned ip =
      if ip = arp.senderIpAddress ∧ n.mapping arp.senderIpAddress = none then
        some (n.systemTime, frameSrc)
      else n.lastLearned ip := by
  rw [lastLearned, h.logs.history_eq, List.filterMap_append,
    filterMap_arpEvents (fun _ => rfl) (fun _ => rfl), learned_acceptEvents]
  split
  · exact List.getLast?_concat
  · rw [List.append_nil]
    rfl

/-- A frame to the sender of a message that just came is justified by it. -/
theorem justifies_sender (n : NetworkInterface)
    (frameSrc : EthernetAddress) (arp : ARPMessage)
    (dgram : InternetDatagram) :
    Justifies ⟨n.systemTime, frameSrc, arp⟩
      (n.emission arp.senderIpAddress arp.senderEthernetAddress dgram) where
  sender_eq := rfl
  dst_eq := Or.inr rfl
  time_le := le_rfl
  age_le := by
    change n.systemTime - n.systemTime ≤ _
    rw [Nat.sub_self]
    exact Nat.zero_le _

/-- What is known after an ARP message: the sender, if its address is new, and
what was known before. -/
theorem Fresh.known_arp {n n' : NetworkInterface}
    {frameSrc : EthernetAddress} {arp : ARPMessage} (h : n.Fresh)
    (heffect : ArpEffect frameSrc arp n n') {ip : UInt32}
    {addr : EthernetAddress} (hmap : n'.mapping ip = some addr) :
    ∃ learnedAt time, n'.Known ip addr learnedAt time := by
  rw [heffect.mapping_eq] at hmap
  by_cases hnew : ip = arp.senderIpAddress ∧
      n.mapping arp.senderIpAddress = none
  · obtain ⟨rfl, hnone⟩ := hnew
    rw [if_pos rfl, hnone] at hmap
    obtain rfl := Option.some.inj hmap
    refine ⟨n.systemTime,
      (n.timestamp arp.senderIpAddress).getD n.systemTime, ?_, ?_,
      (stored_getD h _).1, heffect.systemTime_eq.ge, arp, ?_, rfl⟩
    · rw [lastLearned_arp heffect, if_pos ⟨rfl, hnone⟩]
      rfl
    · rw [heffect.timestamp_eq, if_pos ⟨rfl, hnone⟩]
    · rw [heffect.logs.history_eq]
      exact List.mem_append_right _ List.mem_cons_self
  · have hkept : n.mapping ip = some addr := by
      split at hmap
      next hip =>
        have hsome : n.mapping ip ≠ none := fun hnone =>
          hnew ⟨hip, hip ▸ hnone⟩
        obtain ⟨addr', haddr'⟩ := Option.ne_none_iff_exists'.mp hsome
        rw [haddr', Option.getD_some] at hmap
        rw [haddr', hmap]
      next => exact hmap
    obtain ⟨learnedAt, time, hknown⟩ := h.known ip addr hkept
    refine ⟨learnedAt, time, hknown.carry ?_ ?_ heffect.systemTime_eq.ge ?_⟩
    · rw [lastLearned_arp heffect, if_neg hnew]
    · rw [heffect.timestamp_eq, if_neg hnew]
    · rw [heffect.logs.history_eq]
      exact List.subset_append_left _ _

/-- The frames that an ARP message releases are justified by it. -/
theorem Fresh.justified_arp {n n' : NetworkInterface}
    {frameSrc : EthernetAddress} {arp : ARPMessage} (h : n.Fresh)
    (heffect : ArpEffect frameSrc arp n n') : Justified n'.history := by
  -- the message is in the history before the frames
  have haccepted : Justified
      (n.history ++ [.accepted ⟨n.systemTime, frameSrc, arp⟩]) := by
    apply h.justified.append
    rw [List.forall_mem_singleton]
    exact fun e he => nomatch he
  rw [heffect.logs.history_eq, arpEvents_eq_cons, List.append_cons]
  apply haccepted.append
  refine forall_answerEvents (fun e he => nomatch he)
    (fun e he => nomatch he) (fun d _ e he => ?_)
  obtain rfl := Event.datagram.inj he
  exact ⟨_, List.mem_append_right _ (List.mem_singleton.mpr rfl),
    justifies_sender n frameSrc arp d⟩

theorem Fresh.arp {n n' : NetworkInterface} {frameSrc : EthernetAddress}
    {arp : ARPMessage} (h : n.Fresh) (heffect : ArpEffect frameSrc arp n n') :
    n'.Fresh := by
  constructor
  · rw [heffect.systemTime_eq]
    exact h.time_lt
  · intro ip
    exact h.stored_of_eq heffect.systemTime_eq (heffect.timestamp_eq ip)
  · intro ip addr hmap
    exact h.known_arp heffect hmap
  · exact h.justified_arp heffect

theorem Fresh.tick {n : NetworkInterface} {ms : ℕ} (h : n.Fresh)
    (hclock : n.systemTime + ms < 2 ^ 64) : (n.tick ms).Fresh := by
  have hnow : (n.tick ms).systemTime = n.systemTime + ms := add64_eq hclock
  constructor
  · rw [hnow]
    exact hclock
  · intro ip time htime
    rw [timestamp_tick] at htime
    split at htime
    · exact nomatch htime
    next hkept =>
      have hstored := h.stored ip time htime
      have hyoung : ¬ sub64 (add64 n.systemTime ms) time >
          thirtyThousandsMs := fun hold => hkept ⟨time, htime, hold⟩
      rw [add64_eq hclock, sub64_eq hclock (by omega)] at hyoung
      rw [hnow]
      omega
  · intro ip addr hmap
    rw [mapping_tick] at hmap
    split at hmap
    · exact nomatch hmap
    next hkept =>
      obtain ⟨learnedAt, time, hknown⟩ := h.known ip addr hmap
      refine ⟨learnedAt, time, hknown.carry rfl ?_ ?_ fun _ he => he⟩
      · rw [timestamp_tick, if_neg hkept]
      · rw [hnow]
        exact Nat.le_add_right _ _
  · exact h.justified

theorem Fresh.step {n : NetworkInterface} {op : Op} (h : n.Fresh)
    (hclock : n.ClockFits op) : (n.step op).Fresh := by
  apply step_rule h
  · exact h.send
  · intro frameSrc arp n' heffect
    exact h.arp heffect
  · rintro ms rfl
    exact h.tick hclock

/-- Every stored address has a stored time from before it was learned, and
every IPv4 frame goes to an address that came with an ARP message of the next
hop at most thirty seconds before. -/
theorem run_addresses_fresh
    (eth : EthernetAddress) (ip : Address) {ops : List Op}
    (hclock : Guarded step ClockFits (new eth ip) ops) :
    let n := run step (new eth ip) ops
    (∀ hop addr, n.mapping hop = some addr → ∃ learnedAt time,
        n.lastLearned hop = some (learnedAt, addr) ∧
        n.timestamp hop = some time ∧ time ≤ learnedAt) ∧
      ∀ pre e post, n.history = pre ++ .datagram e :: post →
        ∃ m : Acceptance, .accepted m ∈ pre ∧
          m.arp.senderIpAddress = e.hop ∧
          (e.frame.header.dst = m.frameSrc ∨
            e.frame.header.dst = m.arp.senderEthernetAddress) ∧
          m.time ≤ e.time ∧ e.time - m.time ≤ 30000 := by
  intro n
  have hfresh : n.Fresh :=
    run_invariant (fun _ _ h hop => h.step hop) (fresh_new eth ip) hclock
  constructor
  · intro hop addr hmap
    obtain ⟨learnedAt, time, hknown⟩ := hfresh.known hop addr hmap
    exact ⟨learnedAt, time, hknown.lastLearned_eq, hknown.timestamp_eq,
      hknown.time_le⟩
  · intro pre e post hsplit
    obtain ⟨m, hm, hjustifies⟩ := hfresh.justified pre e post hsplit
    exact ⟨m, hm, hjustifies.sender_eq, hjustifies.dst_eq,
      hjustifies.time_le, hjustifies.age_le⟩

/-- The answer to a request comes after four seconds, and the address is used
for twenty more. -/
def answeredLateRun : List Op :=
  [.sendDatagram bareDatagram neighbourIp, .tick 4000,
    .recvFrame (arpFromNeighbour ARPMessage.opcodeReply neighbourEth),
    .tick 20000, .sendDatagram bareDatagram neighbourIp]

theorem addresses_fresh_answeredLateRun :
    Guarded step ClockFits (new ownEth ownIp) answeredLateRun ∧
      ∃ learnedAt time,
        (run step (new ownEth ownIp) answeredLateRun).lastLearned
          neighbourIp.ipv4Numeric = some (learnedAt, neighbourEth) ∧
        (run step (new ownEth ownIp) answeredLateRun).timestamp
          neighbourIp.ipv4Numeric = some time ∧ time ≤ learnedAt := by
  have hclock : Guarded step ClockFits (new ownEth ownIp)
      answeredLateRun := by
    decide
  exact ⟨hclock, (run_addresses_fresh ownEth ownIp hclock).1 _ _ (by decide)⟩

end NetworkInterface
end Sponge
