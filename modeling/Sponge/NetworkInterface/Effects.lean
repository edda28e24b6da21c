import Mathlib.Data.List.TakeWhile
import Sponge.NetworkInterface.Model

/-!
# What the calls of an interface change

For each call, the effect on what is kept for one IP address: the Ethernet
address and the time in the two tables, and the queue of waiting datagrams;
and the events that the call adds to the history.
-/

namespace Sponge
namespace NetworkInterface

/-- The Ethernet address that is stored for an IP address. -/
def mapping (n : NetworkInterface) (ip : UInt32) : Option EthernetAddress :=
  n.ipToEthTable.find? ip

/-- The time that is stored for an IP address. -/
def timestamp (n : NetworkInterface) (ip : UInt32) : Option ℕ :=
  n.ipTimeoutTable.find? ip

/-- The two interfaces differ in their queues, frames and histories only. -/
structure SameTables (n n' : NetworkInterface) : Prop where
  ethernetAddress_eq : n'.ethernetAddress = n.ethernetAddress
  ipAddress_eq : n'.ipAddress = n.ipAddress
  ipToEthTable_eq : n'.ipToEthTable = n.ipToEthTable
  ipTimeoutTable_eq : n'.ipTimeoutTable = n.ipTimeoutTable
  systemTime_eq : n'.systemTime = n.systemTime

/-- The events were added to the history, and their frames were pushed. -/
structure Logs (n n' : NetworkInterface) (events : List Event) : Prop where
  history_eq : n'.history = n.history ++ events
  framesOut_eq : n'.framesOut = n.framesOut ++ events.filterMap Event.frame?

theorem SameTables.trans {n n' n'' : NetworkInterface}
    (h : SameTables n n') (h' : SameTables n' n'') : SameTables n n'' where
  ethernetAddress_eq := h'.ethernetAddress_eq.trans h.ethernetAddress_eq
  ipAddress_eq := h'.ipAddress_eq.trans h.ipAddress_eq
  ipToEthTable_eq := h'.ipToEthTable_eq.trans h.ipToEthTable_eq
  ipTimeoutTable_eq := h'.ipTimeoutTable_eq.trans h.ipTimeoutTable_eq
  systemTime_eq := h'.systemTime_eq.trans h.systemTime_eq

theorem SameTables.mapping_eq {n n' : NetworkInterface}
    (h : SameTables n n') (ip : UInt32) : n'.mapping ip = n.mapping ip := by
  rw [mapping, mapping, h.ipToEthTable_eq]

theorem SameTables.timestamp_eq {n n' : NetworkInterface}
    (h : SameTables n n') (ip : UInt32) :
    n'.timestamp ip = n.timestamp ip := by
  rw [timestamp, timestamp, h.ipTimeoutTable_eq]

theorem logs_nil (n : NetworkInterface) : Logs n n [] where
  history_eq := (List.append_nil _).symm
  framesOut_eq := (List.append_nil _).symm

theorem Logs.trans {n n' n'' : NetworkInterface} {events more : List Event}
    (h : Logs n n' events) (h' : Logs n' n'' more) :
    Logs n n'' (events ++ more) where
  history_eq := by rw [h'.history_eq, h.history_eq, List.append_assoc]
  framesOut_eq := by
    rw [h'.framesOut_eq, h.framesOut_eq, List.filterMap_append,
      List.append_assoc]

theorem logs_record (n : NetworkInterface) (e : Event) :
    Logs n (n.record e) [e] where
  history_eq := rfl
  framesOut_eq := by
    rw [record, List.filterMap_cons]
    cases e.frame? <;> rfl

/-! ## Queues -/

theorem queue_createQueue (n : NetworkInterface) (ip ip' : UInt32) :
    (n.createQueue ip).queue ip' = n.queue ip' := by
  simp only [queue, createQueue, OrderedMap.find?_insert]
  by_cases hip : ip' = ip
  · rw [if_pos hip, hip]
    cases n.dgMap.find? ip <;> rfl
  · rw [if_neg hip]

theorem queue_setQueue (n : NetworkInterface) (ip ip' : UInt32)
    (q : List InternetDatagram) :
    (n.setQueue ip q).queue ip' = if ip' = ip then q else n.queue ip' := by
  simp only [queue, setQueue, OrderedMap.find?_set]
  by_cases hip : ip' = ip
  · rw [if_pos hip, if_pos hip]
    rfl
  · rw [if_neg hip, if_neg hip]

/-- The interface after a datagram has been pushed onto a queue. -/
def enqueue (n : NetworkInterface) (ip : UInt32) (dgram : InternetDatagram) :
    NetworkInterface :=
  (n.createQueue ip).push ip dgram

theorem queue_enqueue (n : NetworkInterface) (ip ip' : UInt32)
    (dgram : InternetDatagram) :
    (n.enqueue ip dgram).queue ip' =
      if ip' = ip then n.queue ip ++ [dgram] else n.queue ip' := by
  rw [enqueue, push, queue_setQueue, queue_createQueue, queue_createQueue]

theorem sameTables_enqueue (n : NetworkInterface) (ip : UInt32)
    (dgram : InternetDatagram) : SameTables n (n.enqueue ip dgram) :=
  ⟨rfl, rfl, rfl, rfl, rfl⟩

theorem logs_enqueue (n : NetworkInterface) (ip : UInt32)
    (dgram : InternetDatagram) : Logs n (n.enqueue ip dgram) [] :=
  ⟨(List.append_nil _).symm, (List.append_nil _).symm⟩

/-! ## Flushing -/

/-- The emission of a datagram that can be serialized. -/
def emission (n : NetworkInterface) (ip : UInt32) (eth : EthernetAddress)
    (dgram : InternetDatagram) : Emission :=
  ⟨n.systemTime, ip, dgram,
    n.ipv4Frame eth (dgram.serialize.toOption.getD BufferList.empty)⟩

/-- The events of flushing a queue: everything before the first datagram that
cannot be serialized is emitted. -/
def flushEvents (n : NetworkInterface) (ip : UInt32) (eth : EthernetAddress)
    (q : List InternetDatagram) : List Event :=
  (q.takeWhile fun d => d.Serializable).map fun d =>
    .datagram (n.emission ip eth d)

theorem serialize_getD {d : InternetDatagram} (h : d.Serializable) :
    d.serialize = .ok (d.serialize.toOption.getD BufferList.empty) := by
  rw [IPv4Datagram.Serializable] at h
  cases hd : d.serialize with
  | ok l => rfl
  | error e =>
      rw [hd] at h
      exact absurd h Bool.false_ne_true

/-- What holds of every emission holds of the events of flushing a queue. -/
theorem forall_flushEvents
    {P : Event → Prop} {n : NetworkInterface} {ip : UInt32}
    {eth : EthernetAddress} {q : List InternetDatagram}
    (hdatagram : ∀ d, d.Serializable → P (.datagram (n.emission ip eth d))) :
    ∀ e ∈ n.flushEvents ip eth q, P e := by
  intro e he
  rw [flushEvents, List.mem_map] at he
  obtain ⟨d, hd, rfl⟩ := he
  apply hdatagram
  simpa using List.mem_takeWhile_imp hd

/-- What is left of a queue after flushing it. -/
def unsent (q : List InternetDatagram) : List InternetDatagram :=
  q.dropWhile fun d => d.Serializable

structure Flushes (n n' : NetworkInterface) (ip : UInt32)
    (eth : EthernetAddress) (q : List InternetDatagram) : Prop where
  sameTables : SameTables n n'
  logs : Logs n n' (n.flushEvents ip eth q)
  queue_eq : ∀ ip', n'.queue ip' =
    if ip' = ip then unsent q else n.queue ip'

theorem serializable_of_ok {d : InternetDatagram} {l : BufferList}
    (h : d.serialize = .ok l) : d.Serializable := by
  rw [IPv4Datagram.Serializable, h]
  rfl

theorem not_serializable_of_error {d : InternetDatagram} {e : String}
    (h : d.serialize = .error e) : ¬ d.Serializable := by
  rw [IPv4Datagram.Serializable, h]
  exact Bool.false_ne_true

theorem flushes_flushLoop
    (ip : UInt32) (eth : EthernetAddress) (q : List InternetDatagram)
    (n : NetworkInterface) (hq : n.queue ip = q) :
    Flushes n (flushLoop ip eth q n).2 ip eth q := by
  induction q generalizing n with
  | nil =>
      refine ⟨⟨rfl, rfl, rfl, rfl, rfl⟩, logs_nil n, fun ip' => ?_⟩
      by_cases hip : ip' = ip
      · rw [if_pos hip, hip]
        exact hq
      · rw [if_neg hip]
        rfl
  | cons dg rest ih =>
      rw [flushLoop]
      split
      next e he =>
        have hnot := not_serializable_of_error he
        refine ⟨⟨rfl, rfl, rfl, rfl, rfl⟩, ?_, fun ip' => ?_⟩
        · rw [flushEvents, List.takeWhile_cons_of_neg (by simpa using hnot)]
          exact logs_nil n
        · rw [unsent, List.dropWhile_cons_of_neg (by simpa using hnot)]
          by_cases hip : ip' = ip
          · rw [if_pos hip, hip]
            exact hq
          · rw [if_neg hip]
      next payload hpayload =>
        have hser := serializable_of_ok hpayload
        have hrest := ih ((n.setQueue ip rest).record (.datagram
          ⟨n.systemTime, ip, dg, n.ipv4Frame eth payload⟩)) (by
            change (n.setQueue ip rest).queue ip = rest
            rw [queue_setQueue, if_pos rfl])
        have hemission : n.emission ip eth dg =
            ⟨n.systemTime, ip, dg, n.ipv4Frame eth payload⟩ := by
          rw [emission, hpayload]
          rfl
        refine ⟨?_, ?_, fun ip' => ?_⟩
        · have htables := hrest.sameTables
          exact ⟨htables.1, htables.2, htables.3, htables.4, htables.5⟩
        · have hlogs := (logs_record (n.setQueue ip rest) (.datagram
            ⟨n.systemTime, ip, dg, n.ipv4Frame eth payload⟩)).trans hrest.logs
          rw [flushEvents, List.takeWhile_cons_of_pos (by simpa using hser),
            List.map_cons, hemission]
          exact ⟨hlogs.history_eq, hlogs.framesOut_eq⟩
        · rw [hrest.queue_eq, unsent, unsent,
            List.dropWhile_cons_of_pos (by simpa using hser)]
          by_cases hip : ip' = ip
          · rw [if_pos hip, if_pos hip]
          · rw [if_neg hip, if_neg hip]
            change (n.setQueue ip rest).queue ip' = _
            rw [queue_setQueue, if_neg hip]

theorem flushes_flushBuffer (n : NetworkInterface) (ip : UInt32)
    (eth : EthernetAddress) :
    Flushes n (n.flushBuffer ip eth).2 ip eth (n.queue ip) := by
  have h := flushes_flushLoop ip eth (n.queue ip) (n.createQueue ip)
    (queue_createQueue n ip ip)
  refine ⟨?_, ?_, fun ip' => ?_⟩
  · have htables := h.sameTables
    exact ⟨htables.1, htables.2, htables.3, htables.4, htables.5⟩
  · exact ⟨h.logs.history_eq, h.logs.framesOut_eq⟩
  · rw [flushBuffer, h.queue_eq, queue_createQueue]

/-! ## Sending -/

/-- The event of a request. -/
def requestEvent (n : NetworkInterface) (ip : UInt32) : Event :=
  .request n.systemTime ip
    (n.arpFrame EthernetAddress.broadcast (n.arpRequest ip).encode)

/-- The interface after a request, or without one. -/
theorem requestAddress_eq (n : NetworkInterface) (ip : UInt32) :
    n.requestAddress ip = (.ok (),
      if n.Asks ip then (n.record (n.requestEvent ip)).noteRequest ip
      else n) := by
  have hserialize : (n.arpRequest ip).serialize =
      .ok (n.arpRequest ip).encode :=
    ARPMessage.serialize_of_supported rfl
  rw [requestAddress, hserialize]
  by_cases hasks : n.Asks ip
  · rw [if_pos hasks, if_pos hasks]
    rfl
  · rw [if_neg hasks, if_neg hasks]

theorem timestamp_noteRequest (n : NetworkInterface) (ip ip' : UInt32) :
    (n.noteRequest ip).timestamp ip' =
      if ip' = ip then some ((n.timestamp ip).getD n.systemTime)
      else n.timestamp ip' := by
  unfold noteRequest
  split
  next hnone =>
    simp only [timestamp, OrderedMap.find?_insert]
  next hsome =>
    obtain ⟨time, htime⟩ := Option.ne_none_iff_exists'.mp hsome
    by_cases hip : ip' = ip
    · rw [if_pos hip, hip, timestamp, htime, Option.getD_some]
    · rw [if_neg hip]

/-- A request is held back only if its time is stored. -/
theorem some_getD_of_not_asks {n : NetworkInterface} {ip : UInt32}
    (h : ¬ n.Asks ip) :
    some ((n.timestamp ip).getD n.systemTime) = n.timestamp ip := by
  cases htime : n.timestamp ip with
  | some time => rfl
  | none =>
      refine absurd (fun time hmem => ?_) h
      rw [timestamp] at htime
      rw [htime] at hmem
      exact absurd hmem (Option.not_mem_none time)

/-- Nothing but the timeout table changes. -/
theorem noteRequest_unchanged (n : NetworkInterface) (ip : UInt32) :
    (n.noteRequest ip).ethernetAddress = n.ethernetAddress ∧
      (n.noteRequest ip).ipAddress = n.ipAddress ∧
      (n.noteRequest ip).systemTime = n.systemTime ∧
      (n.noteRequest ip).ipToEthTable = n.ipToEthTable ∧
      (n.noteRequest ip).dgMap = n.dgMap ∧
      (n.noteRequest ip).history = n.history ∧
      (n.noteRequest ip).framesOut = n.framesOut := by
  unfold noteRequest
  split <;> exact ⟨rfl, rfl, rfl, rfl, rfl, rfl, rfl⟩

theorem sendDatagram_of_some
    {n : NetworkInterface} {nextHop : Address} {eth : EthernetAddress}
    (h : n.mapping nextHop.ipv4Numeric = some eth)
    (dgram : InternetDatagram) :
    n.sendDatagram dgram nextHop =
      (n.enqueue nextHop.ipv4Numeric dgram).flushBuffer
        nextHop.ipv4Numeric eth := by
  have hfind : (n.createQueue nextHop.ipv4Numeric).ipToEthTable.find?
      nextHop.ipv4Numeric = some eth := h
  simp only [sendDatagram, hfind]
  rfl

theorem sendDatagram_of_none
    {n : NetworkInterface} {nextHop : Address}
    (h : n.mapping nextHop.ipv4Numeric = none) (dgram : InternetDatagram) :
    n.sendDatagram dgram nextHop =
      (n.enqueue nextHop.ipv4Numeric dgram).requestAddress
        nextHop.ipv4Numeric := by
  have hfind : (n.createQueue nextHop.ipv4Numeric).ipToEthTable.find?
      nextHop.ipv4Numeric = none := h
  simp only [sendDatagram, hfind]
  rfl

section Send

variable (n : NetworkInterface) (dgram : InternetDatagram) (nextHop : Address)

/-- The events of a `sendDatagram`. -/
def sendEvents : List Event :=
  let hop := nextHop.ipv4Numeric
  match n.mapping hop with
  | some eth => n.flushEvents hop eth (n.queue hop ++ [dgram])
  | none => if n.Asks hop then [n.requestEvent hop] else []

theorem sendEvents_of_some {n : NetworkInterface} {nextHop : Address}
    {eth : EthernetAddress} (h : n.mapping nextHop.ipv4Numeric = some eth)
    (dgram : InternetDatagram) :
    n.sendEvents dgram nextHop = n.flushEvents nextHop.ipv4Numeric eth
      (n.queue nextHop.ipv4Numeric ++ [dgram]) := by
  simp only [sendEvents, h]

theorem sendEvents_of_none {n : NetworkInterface} {nextHop : Address}
    (h : n.mapping nextHop.ipv4Numeric = none) (dgram : InternetDatagram) :
    n.sendEvents dgram nextHop =
      if n.Asks nextHop.ipv4Numeric then
        [n.requestEvent nextHop.ipv4Numeric]
      else [] := by
  simp only [sendEvents, h]

/-- What holds of a request, and of every emission to a stored address, holds
of the events of a `sendDatagram`. -/
theorem forall_sendEvents
    {P : Event → Prop} {n : NetworkInterface} {dgram : InternetDatagram}
    {nextHop : Address}
    (hdatagram : ∀ eth d, n.mapping nextHop.ipv4Numeric = some eth →
      d.Serializable →
      P (.datagram (n.emission nextHop.ipv4Numeric eth d)))
    (hrequest : P (n.requestEvent nextHop.ipv4Numeric)) :
    ∀ e ∈ n.sendEvents dgram nextHop, P e := by
  cases hmap : n.mapping nextHop.ipv4Numeric with
  | some eth =>
      rw [sendEvents_of_some hmap]
      exact forall_flushEvents fun d hd => hdatagram eth d hmap hd
  | none =>
      rw [sendEvents_of_none hmap]
      intro e he
      split at he
      · rw [List.mem_singleton.mp he]
        exact hrequest
      · exact nomatch he

/-- What a `sendDatagram` changes. -/
structure SendEffect (n n' : NetworkInterface) : Prop where
  ethernetAddress_eq : n'.ethernetAddress = n.ethernetAddress
  ipAddress_eq : n'.ipAddress = n.ipAddress
  systemTime_eq : n'.systemTime = n.systemTime
  mapping_eq : ∀ ip, n'.mapping ip = n.mapping ip
  timestamp_eq : ∀ ip, n'.timestamp ip =
    if ip = nextHop.ipv4Numeric ∧ n.mapping nextHop.ipv4Numeric = none then
      some ((n.timestamp ip).getD n.systemTime)
    else n.timestamp ip
  queue_eq : ∀ ip, n'.queue ip =
    if ip = nextHop.ipv4Numeric then
      match n.mapping ip with
      | some _ => unsent (n.queue ip ++ [dgram])
      | none => n.queue ip ++ [dgram]
    else n.queue ip
  logs : Logs n n' (n.sendEvents dgram nextHop)

theorem sendEffect_of_some
    {eth : EthernetAddress}
    (h : n.mapping nextHop.ipv4Numeric = some eth) :
    SendEffect dgram nextHop n (n.sendDatagram dgram nextHop).2 := by
  have hflush := flushes_flushBuffer
    (n.enqueue nextHop.ipv4Numeric dgram) nextHop.ipv4Numeric eth
  rw [queue_enqueue, if_pos rfl, ← sendDatagram_of_some h] at hflush
  have htables :=
    (sameTables_enqueue n nextHop.ipv4Numeric dgram).trans hflush.sameTables
  have hlogs := (logs_enqueue n nextHop.ipv4Numeric dgram).trans hflush.logs
  refine ⟨htables.ethernetAddress_eq, htables.ipAddress_eq,
    htables.systemTime_eq, htables.mapping_eq, ?_, ?_, ?_⟩
  · intro ip
    have hmapped : ¬ (ip = nextHop.ipv4Numeric ∧
        n.mapping nextHop.ipv4Numeric = none) := by
      rintro ⟨-, hnone⟩
      rw [h] at hnone
      exact Option.some_ne_none _ hnone
    rw [if_neg hmapped, htables.timestamp_eq]
  · intro ip
    rw [hflush.queue_eq, queue_enqueue]
    by_cases hip : ip = nextHop.ipv4Numeric
    · rw [if_pos hip, if_pos hip, hip, h]
    · rw [if_neg hip, if_neg hip, if_neg hip]
  · rw [sendEvents_of_some h]
    exact hlogs

theorem sendEffect_of_none
    (h : n.mapping nextHop.ipv4Numeric = none) :
    SendEffect dgram nextHop n (n.sendDatagram dgram nextHop).2 := by
  have hqueue : ∀ ip, (n.enqueue nextHop.ipv4Numeric dgram).queue ip =
      if ip = nextHop.ipv4Numeric then
        match n.mapping ip with
        | some _ => unsent (n.queue ip ++ [dgram])
        | none => n.queue ip ++ [dgram]
      else n.queue ip := by
    intro ip
    rw [queue_enqueue]
    by_cases hip : ip = nextHop.ipv4Numeric
    · rw [if_pos hip, if_pos hip, hip, h]
    · rw [if_neg hip, if_neg hip]
  have hevents := sendEvents_of_none h dgram
  rw [sendDatagram_of_none h, requestAddress_eq]
  by_cases hasks : n.Asks nextHop.ipv4Numeric
  · rw [if_pos hasks] at hevents
    have hasks' : (n.enqueue nextHop.ipv4Numeric dgram).Asks
        nextHop.ipv4Numeric := hasks
    rw [if_pos hasks']
    obtain ⟨heth, hip, htime, htable, hmap, hhistory, hframes⟩ :=
      noteRequest_unchanged
        ((n.enqueue nextHop.ipv4Numeric dgram).record
          (n.requestEvent nextHop.ipv4Numeric)) nextHop.ipv4Numeric
    have hlogs := logs_record (n.enqueue nextHop.ipv4Numeric dgram)
      (n.requestEvent nextHop.ipv4Numeric)
    refine ⟨heth, hip, htime, fun ip => ?_, fun ip => ?_, fun ip => ?_, ?_⟩
    · exact congrArg (OrderedMap.find? · ip) htable
    · refine (timestamp_noteRequest _ _ ip).trans ?_
      by_cases heq : ip = nextHop.ipv4Numeric
      · rw [if_pos heq, if_pos ⟨heq, h⟩, heq]
        rfl
      · rw [if_neg heq, if_neg fun hand => heq hand.1]
        rfl
    · rw [← hqueue ip]
      exact congrArg (fun m => (OrderedMap.find? m ip).getD []) hmap
    · rw [hevents]
      exact ⟨hhistory.trans hlogs.history_eq,
        hframes.trans hlogs.framesOut_eq⟩
  · rw [if_neg hasks] at hevents
    have hasks' : ¬ (n.enqueue nextHop.ipv4Numeric dgram).Asks
        nextHop.ipv4Numeric := hasks
    rw [if_neg hasks']
    refine ⟨rfl, rfl, rfl, fun ip => rfl, fun ip => ?_, hqueue, ?_⟩
    · by_cases heq : ip = nextHop.ipv4Numeric
      · rw [if_pos ⟨heq, h⟩, heq]
        exact (some_getD_of_not_asks hasks).symm
      · rw [if_neg fun hand => heq hand.1]
        rfl
    · rw [hevents]
      exact logs_enqueue n _ dgram

theorem sendEffect :
    SendEffect dgram nextHop n (n.sendDatagram dgram nextHop).2 := by
  cases h : n.mapping nextHop.ipv4Numeric with
  | none => exact sendEffect_of_none n dgram nextHop h
  | some eth => exact sendEffect_of_some n dgram nextHop h

end Send

/-! ## Receiving -/

/-- The interface after it has accepted an ARP message and has learned from
it. -/
def accept (n : NetworkInterface) (frameSrc : EthernetAddress)
    (arp : ARPMessage) : NetworkInterface :=
  (n.record (.accepted ⟨n.systemTime, frameSrc, arp⟩)).learn
    arp.senderIpAddress frameSrc

/-- The events of accepting an ARP message. -/
def acceptEvents (n : NetworkInterface) (frameSrc : EthernetAddress)
    (arp : ARPMessage) : List Event :=
  .accepted ⟨n.systemTime, frameSrc, arp⟩ ::
    if n.mapping arp.senderIpAddress = none then
      [.learned n.systemTime arp.senderIpAddress frameSrc]
    else []

/-- What the tables learn from an ARP message. -/
structure Learns (frameSrc : EthernetAddress) (arp : ARPMessage)
    (n n' : NetworkInterface) : Prop where
  ethernetAddress_eq : n'.ethernetAddress = n.ethernetAddress
  ipAddress_eq : n'.ipAddress = n.ipAddress
  systemTime_eq : n'.systemTime = n.systemTime
  mapping_eq : ∀ ip, n'.mapping ip =
    if ip = arp.senderIpAddress then some ((n.mapping ip).getD frameSrc)
    else n.mapping ip
  timestamp_eq : ∀ ip, n'.timestamp ip =
    if ip = arp.senderIpAddress ∧ n.mapping arp.senderIpAddress = none then
      some ((n.timestamp ip).getD n.systemTime)
    else n.timestamp ip

theorem Learns.trans {frameSrc : EthernetAddress} {arp : ARPMessage}
    {n n' n'' : NetworkInterface} (h : Learns frameSrc arp n n')
    (h' : SameTables n' n'') : Learns frameSrc arp n n'' where
  ethernetAddress_eq := h'.ethernetAddress_eq.trans h.ethernetAddress_eq
  ipAddress_eq := h'.ipAddress_eq.trans h.ipAddress_eq
  systemTime_eq := h'.systemTime_eq.trans h.systemTime_eq
  mapping_eq := fun ip => (h'.mapping_eq ip).trans (h.mapping_eq ip)
  timestamp_eq := fun ip => (h'.timestamp_eq ip).trans (h.timestamp_eq ip)

theorem accept_learns (n : NetworkInterface) (frameSrc : EthernetAddress)
    (arp : ARPMessage) :
    Learns frameSrc arp n (n.accept frameSrc arp) ∧
      (∀ ip, (n.accept frameSrc arp).queue ip = n.queue ip) ∧
      Logs n (n.accept frameSrc arp) (n.acceptEvents frameSrc arp) := by
  have hrecord := logs_record n (.accepted ⟨n.systemTime, frameSrc, arp⟩)
  unfold accept learn
  split
  next hnone =>
    have hunmapped : n.mapping arp.senderIpAddress = none := hnone
    have hevents : n.acceptEvents frameSrc arp =
        [.accepted ⟨n.systemTime, frameSrc, arp⟩] ++
          [.learned n.systemTime arp.senderIpAddress frameSrc] := by
      rw [acceptEvents, if_pos hunmapped]
      rfl
    refine ⟨⟨rfl, rfl, rfl, fun ip => ?_, fun ip => ?_⟩, fun ip => rfl, ?_⟩
    · refine (OrderedMap.find?_insert _ _ _ _).trans ?_
      by_cases hip : ip = arp.senderIpAddress
      · rw [if_pos hip, if_pos hip, hip]
        rfl
      · rw [if_neg hip, if_neg hip]
        rfl
    · refine (OrderedMap.find?_insert _ _ _ _).trans ?_
      by_cases hip : ip = arp.senderIpAddress
      · rw [if_pos hip, if_pos ⟨hip, hunmapped⟩, hip]
        rfl
      · rw [if_neg hip, if_neg fun hand => hip hand.1]
        rfl
    · have hlearned := hrecord.trans (logs_record
        (n.record (.accepted ⟨n.systemTime, frameSrc, arp⟩))
        (.learned n.systemTime arp.senderIpAddress frameSrc))
      rw [hevents]
      exact ⟨hlearned.history_eq, hlearned.framesOut_eq⟩
  next hsome =>
    have hmapped : n.mapping arp.senderIpAddress ≠ none := hsome
    have hevents : n.acceptEvents frameSrc arp =
        [.accepted ⟨n.systemTime, frameSrc, arp⟩] := by
      rw [acceptEvents, if_neg hmapped]
    refine ⟨⟨rfl, rfl, rfl, fun ip => ?_, fun ip => ?_⟩, fun ip => rfl, ?_⟩
    · by_cases hip : ip = arp.senderIpAddress
      · obtain ⟨eth, heth⟩ := Option.ne_none_iff_exists'.mp hmapped
        rw [if_pos hip, hip, heth, Option.getD_some]
        exact heth
      · rw [if_neg hip]
        rfl
    · rw [if_neg fun hand => hmapped hand.2]
      rfl
    · rw [hevents]
      exact hrecord

/-- The message answers a request of this interface. -/
def IsReply (n : NetworkInterface) (arp : ARPMessage) : Prop :=
  arp.targetIpAddress = n.ipAddress.ipv4Numeric ∧
    arp.opcode = ARPMessage.opcodeReply

instance (n : NetworkInterface) (arp : ARPMessage) :
    Decidable (n.IsReply arp) :=
  inferInstanceAs (Decidable (_ ∧ _))

/-- The message is a request for the address of this interface. -/
def IsRequest (n : NetworkInterface) (arp : ARPMessage) : Prop :=
  arp.targetIpAddress = n.ipAddress.ipv4Numeric ∧
    arp.opcode = ARPMessage.opcodeRequest

instance (n : NetworkInterface) (arp : ARPMessage) :
    Decidable (n.IsRequest arp) :=
  inferInstanceAs (Decidable (_ ∧ _))

/-- The events of an ARP message: an answer to it, or the datagrams that
waited for it. -/
def arpEvents (n : NetworkInterface) (frameSrc : EthernetAddress)
    (arp : ARPMessage) : List Event :=
  n.acceptEvents frameSrc arp ++
    if n.IsRequest arp then
      [.reply (n.arpFrame frameSrc (n.arpReply frameSrc arp).encode)]
    else if n.IsReply arp then
      n.flushEvents arp.senderIpAddress arp.senderEthernetAddress
        (n.queue arp.senderIpAddress)
    else []

/-- The events of an ARP message after its acceptance. -/
def answerEvents (n : NetworkInterface) (frameSrc : EthernetAddress)
    (arp : ARPMessage) : List Event :=
  (if n.mapping arp.senderIpAddress = none then
      [.learned n.systemTime arp.senderIpAddress frameSrc]
    else []) ++
    if n.IsRequest arp then
      [.reply (n.arpFrame frameSrc (n.arpReply frameSrc arp).encode)]
    else if n.IsReply arp then
      n.flushEvents arp.senderIpAddress arp.senderEthernetAddress
        (n.queue arp.senderIpAddress)
    else []

theorem arpEvents_eq_cons (n : NetworkInterface)
    (frameSrc : EthernetAddress) (arp : ARPMessage) :
    n.arpEvents frameSrc arp =
      .accepted ⟨n.systemTime, frameSrc, arp⟩ ::
        n.answerEvents frameSrc arp :=
  rfl

/-- What holds of a learned address, of a reply and of every emission to the
sender holds of the events after the acceptance of an ARP message. -/
theorem forall_answerEvents
    {P : Event → Prop} {n : NetworkInterface} {frameSrc : EthernetAddress}
    {arp : ARPMessage}
    (hlearned : P (.learned n.systemTime arp.senderIpAddress frameSrc))
    (hreply : P (.reply
      (n.arpFrame frameSrc (n.arpReply frameSrc arp).encode)))
    (hdatagram : ∀ d, d.Serializable → P (.datagram
      (n.emission arp.senderIpAddress arp.senderEthernetAddress d))) :
    ∀ e ∈ n.answerEvents frameSrc arp, P e := by
  intro e he
  rcases List.mem_append.mp he with he | he
  · split at he
    · rw [List.mem_singleton.mp he]
      exact hlearned
    · exact nomatch he
  · split at he
    · rw [List.mem_singleton.mp he]
      exact hreply
    · split at he
      · exact forall_flushEvents hdatagram e he
      · exact nomatch he

/-- What an ARP message changes. -/
structure ArpEffect (frameSrc : EthernetAddress) (arp : ARPMessage)
    (n n' : NetworkInterface) : Prop extends Learns frameSrc arp n n' where
  queue_eq : ∀ ip, n'.queue ip =
    if ip = arp.senderIpAddress ∧ n.IsReply arp then unsent (n.queue ip)
    else n.queue ip
  logs : Logs n n' (n.arpEvents frameSrc arp)

theorem not_isReply_of_isRequest {n : NetworkInterface} {arp : ARPMessage}
    (h : n.IsRequest arp) : ¬ n.IsReply arp := by
  intro hreply
  have hopcode := h.2.symm.trans hreply.2
  exact absurd hopcode (by decide)

/-- The interface accepts a message before it answers it. -/
theorem recvArp_eq (n : NetworkInterface) (frameSrc : EthernetAddress)
    (arp : ARPMessage) :
    n.recvArp frameSrc arp =
      if (n.accept frameSrc arp).IsRequest arp then
        match ((n.accept frameSrc arp).arpReply frameSrc arp).serialize with
        | .error e => (.error e, n.accept frameSrc arp)
        | .ok payload => (.ok (), (n.accept frameSrc arp).record
            (.reply ((n.accept frameSrc arp).arpFrame frameSrc payload)))
      else if (n.accept frameSrc arp).IsReply arp then
        (n.accept frameSrc arp).flushBuffer arp.senderIpAddress
          arp.senderEthernetAddress
      else (.ok (), n.accept frameSrc arp) :=
  rfl

theorem arpEffect (n : NetworkInterface) (frameSrc : EthernetAddress)
    (arp : ARPMessage) :
    ArpEffect frameSrc arp n (n.recvArp frameSrc arp).2 := by
  obtain ⟨hlearns, hqueue, hlogs⟩ := accept_learns n frameSrc arp
  have hip := hlearns.ipAddress_eq
  have hserialize :
      ((n.accept frameSrc arp).arpReply frameSrc arp).serialize =
        .ok (n.arpReply frameSrc arp).encode := by
    rw [ARPMessage.serialize_of_supported rfl]
    simp only [arpReply, hip, hlearns.ethernetAddress_eq]
  have hrequest : (n.accept frameSrc arp).IsRequest arp ↔
      n.IsRequest arp := by
    rw [IsRequest, IsRequest, hip]
  have hreply : (n.accept frameSrc arp).IsReply arp ↔ n.IsReply arp := by
    rw [IsReply, IsReply, hip]
  rw [recvArp_eq, hserialize]
  simp only [hrequest, hreply]
  split
  next h =>
    have hnot := not_isReply_of_isRequest h
    refine ⟨hlearns.trans ⟨rfl, rfl, rfl, rfl, rfl⟩, fun ip => ?_, ?_⟩
    · rw [if_neg fun hand => hnot hand.2]
      exact hqueue ip
    · rw [arpEvents, if_pos h]
      refine hlogs.trans ?_
      have hframe : n.arpFrame frameSrc (n.arpReply frameSrc arp).encode =
          (n.accept frameSrc arp).arpFrame frameSrc
            (n.arpReply frameSrc arp).encode := by
        simp only [arpFrame, hlearns.ethernetAddress_eq]
      rw [hframe]
      exact logs_record _ _
  next h =>
    split
    next hr =>
      have hflush := flushes_flushBuffer (n.accept frameSrc arp)
        arp.senderIpAddress arp.senderEthernetAddress
      rw [hqueue] at hflush
      refine ⟨hlearns.trans hflush.sameTables, fun ip => ?_, ?_⟩
      · rw [hflush.queue_eq, hqueue]
        by_cases heq : ip = arp.senderIpAddress
        · rw [if_pos heq, if_pos ⟨heq, hr⟩, heq]
        · rw [if_neg heq, if_neg fun hand => heq hand.1]
      · rw [arpEvents, if_neg h, if_pos hr]
        have hevents : n.flushEvents arp.senderIpAddress
            arp.senderEthernetAddress (n.queue arp.senderIpAddress) =
            (n.accept frameSrc arp).flushEvents arp.senderIpAddress
              arp.senderEthernetAddress (n.queue arp.senderIpAddress) := by
          simp only [flushEvents, emission, ipv4Frame,
            hlearns.ethernetAddress_eq, hlearns.systemTime_eq]
        rw [hevents]
        exact hlogs.trans hflush.logs
    next hr =>
      refine ⟨hlearns, fun ip => ?_, ?_⟩
      · rw [if_neg fun hand => hr hand.2]
        exact hqueue ip
      · rw [arpEvents, if_neg h, if_neg hr]
        exact hlogs.trans (logs_nil _)

/-- The ARP message in a frame that the interface accepts. -/
def acceptedArp (n : NetworkInterface) (frame : EthernetFrame) :
    Option ARPMessage :=
  let parsed := ARPMessage.parse {} (Buffer.ofString frame.payload.concatenate)
  if n.Accepts frame ∧ frame.header.type = EthernetHeader.typeArp ∧
      parsed.1 = .noError then some parsed.2
  else none

/-- Any other frame is handed up or dropped. -/
theorem recvFrame_of_none
    {n : NetworkInterface} {frame : EthernetFrame}
    (h : n.acceptedArp frame = none) :
    ∃ dgram, n.recvFrame frame = (.ok dgram, n) := by
  unfold recvFrame
  simp only []
  split
  next => exact ⟨none, rfl⟩
  next haccepts =>
    split
    next =>
      split
      next => exact ⟨_, rfl⟩
      next => exact ⟨none, rfl⟩
    next =>
      split
      next harp =>
        split
        next hparse =>
          rw [acceptedArp, if_pos ⟨not_not.mp haccepts, harp, hparse⟩] at h
          exact nomatch h
        next => exact ⟨none, rfl⟩
      next => exact ⟨none, rfl⟩

/-- An accepted ARP message is handled, and nothing is handed up. -/
theorem recvFrame_of_some
    {n : NetworkInterface} {frame : EthernetFrame} {arp : ARPMessage}
    (h : n.acceptedArp frame = some arp) :
    n.recvFrame frame =
      ((n.recvArp frame.header.src arp).1.map fun _ => none,
        (n.recvArp frame.header.src arp).2) := by
  unfold acceptedArp at h
  simp only [] at h
  split at h
  next hand =>
    obtain ⟨haccepts, harp, hparse⟩ := hand
    have hnotIPv4 : EthernetHeader.typeArp ≠ EthernetHeader.typeIPv4 := by
      decide
    obtain rfl := Option.some.inj h
    unfold recvFrame
    simp only [haccepts, harp, hparse, hnotIPv4, not_true, if_false, if_true]
  next => exact nomatch h

/-! ## Time -/

/-- The stored time of an address is too old `ms` milliseconds from now. -/
def Expires (n : NetworkInterface) (ms : ℕ) (ip : UInt32) : Prop :=
  ∃ time ∈ n.timestamp ip,
    sub64 (add64 n.systemTime ms) time > thirtyThousandsMs

instance (n : NetworkInterface) (ms : ℕ) (ip : UInt32) :
    Decidable (n.Expires ms ip) :=
  inferInstanceAs (Decidable (∃ time ∈ n.timestamp ip, _))

theorem mem_expired_iff (n : NetworkInterface) (ms : ℕ) (ip : UInt32) :
    ip ∈ ({ n with systemTime := add64 n.systemTime ms } :
      NetworkInterface).expired ↔ n.Expires ms ip := by
  simp only [expired, List.mem_map, List.mem_filter, decide_eq_true_eq]
  constructor
  · rintro ⟨⟨key, time⟩, ⟨hmem, hold⟩, rfl⟩
    exact ⟨time, OrderedMap.find?_of_mem hmem, hold⟩
  · rintro ⟨time, htime, hold⟩
    exact ⟨(ip, time), ⟨OrderedMap.mem_of_find? htime, hold⟩, rfl⟩

theorem mapping_tick (n : NetworkInterface) (ms : ℕ) (ip : UInt32) :
    (n.tick ms).mapping ip =
      if n.Expires ms ip then none else n.mapping ip := by
  refine (OrderedMap.find?_foldl_erase _ _ ip).trans ?_
  simp only [mem_expired_iff]
  rfl

theorem timestamp_tick (n : NetworkInterface) (ms : ℕ) (ip : UInt32) :
    (n.tick ms).timestamp ip =
      if n.Expires ms ip then none else n.timestamp ip := by
  refine (OrderedMap.find?_foldl_erase _ _ ip).trans ?_
  simp only [mem_expired_iff]
  rfl

/-! ## Selected events -/

section Selected

variable {β : Type} {select : Event → Option β}

theorem filterMap_flushEvents
    (hdatagram : ∀ e, select (.datagram e) = none) (n : NetworkInterface)
    (ip : UInt32) (eth : EthernetAddress) (q : List InternetDatagram) :
    (n.flushEvents ip eth q).filterMap select = [] := by
  rw [List.filterMap_eq_nil_iff]
  exact forall_flushEvents fun _ _ => hdatagram _

/-- Events that a `sendDatagram` does not cause. -/
theorem filterMap_sendEvents
    (hdatagram : ∀ e, select (.datagram e) = none)
    (hrequest : ∀ time target frame,
      select (.request time target frame) = none)
    (n : NetworkInterface) (dgram : InternetDatagram) (nextHop : Address) :
    (n.sendEvents dgram nextHop).filterMap select = [] := by
  rw [List.filterMap_eq_nil_iff]
  exact forall_sendEvents (fun _ _ _ _ => hdatagram _) (hrequest _ _ _)

/-- Events that only the acceptance of an ARP message causes. -/
theorem filterMap_arpEvents
    (hdatagram : ∀ e, select (.datagram e) = none)
    (hreply : ∀ frame, select (.reply frame) = none)
    (n : NetworkInterface) (frameSrc : EthernetAddress) (arp : ARPMessage) :
    (n.arpEvents frameSrc arp).filterMap select =
      (n.acceptEvents frameSrc arp).filterMap select := by
  rw [arpEvents, List.filterMap_append]
  split
  · rw [List.filterMap_cons, hreply]
    exact List.append_nil _
  · split
    · rw [filterMap_flushEvents hdatagram]
      exact List.append_nil _
    · exact List.append_nil _

end Selected

/-! ## All calls -/

/-- The events of a call. -/
def opEvents (n : NetworkInterface) : Op → List Event
  | .sendDatagram dgram nextHop => n.sendEvents dgram nextHop
  | .recvFrame frame =>
      match n.acceptedArp frame with
      | some arp => n.arpEvents frame.header.src arp
      | none => []
  | .tick _ => []

theorem step_recvFrame_of_none
    {n : NetworkInterface} {frame : EthernetFrame}
    (h : n.acceptedArp frame = none) : n.step (.recvFrame frame) = n := by
  obtain ⟨dgram, hrecv⟩ := recvFrame_of_none h
  rw [step, hrecv]

theorem step_recvFrame_of_some
    {n : NetworkInterface} {frame : EthernetFrame} {arp : ARPMessage}
    (h : n.acceptedArp frame = some arp) :
    ArpEffect frame.header.src arp n (n.step (.recvFrame frame)) := by
  rw [step, recvFrame_of_some h]
  exact arpEffect n frame.header.src arp

theorem step_logs (n : NetworkInterface) (op : Op) :
    Logs n (n.step op) (n.opEvents op) := by
  cases op with
  | sendDatagram dgram nextHop => exact (sendEffect n dgram nextHop).logs
  | recvFrame frame =>
      cases h : n.acceptedArp frame with
      | none =>
          rw [step_recvFrame_of_none h, opEvents, h]
          exact logs_nil n
      | some arp =>
          rw [opEvents, h]
          exact (step_recvFrame_of_some h).logs
  | tick ms => exact ⟨(List.append_nil _).symm, (List.append_nil _).symm⟩

/-- What sending, an accepted ARP message and the passing of time keep, every
call keeps. -/
theorem step_rule {P : NetworkInterface → Prop} {n : NetworkInterface}
    {op : Op} (h : P n)
    (hsend : ∀ dgram nextHop, P (n.sendDatagram dgram nextHop).2)
    (harp : ∀ frameSrc arp n', ArpEffect frameSrc arp n n' → P n')
    (htick : ∀ ms, op = .tick ms → P (n.tick ms)) : P (n.step op) := by
  cases op with
  | sendDatagram dgram nextHop => exact hsend dgram nextHop
  | recvFrame frame =>
      cases hacc : n.acceptedArp frame with
      | none =>
          rw [step_recvFrame_of_none hacc]
          exact h
      | some arp => exact harp _ arp _ (step_recvFrame_of_some hacc)
  | tick ms => exact htick ms rfl

theorem step_ethernetAddress (n : NetworkInterface) (op : Op) :
    (n.step op).ethernetAddress = n.ethernetAddress := by
  apply step_rule (P := fun n' => n'.ethernetAddress = n.ethernetAddress)
  · rfl
  · intro dgram nextHop
    exact (sendEffect n dgram nextHop).ethernetAddress_eq
  · intro frameSrc arp n' heffect
    exact heffect.ethernetAddress_eq
  · intro ms _
    rfl

end NetworkInterface
end Sponge
