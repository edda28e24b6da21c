import Sponge.NetworkInterface.Effects

/-!
# Datagrams that wait for an address

The datagrams for a next hop leave in the order in which they were sent, each
once: those that were emitted, followed by those that still wait, are those
that were sent.

No datagram should wait for an address that is known.  But an address is also
learned from ARP messages that do not make the interface flush the queue, so
this holds in the runs in which nothing waits for the senders of these.
-/

namespace Sponge

/-- The emission that an event is. -/
def Event.emission? : Event → Option Emission
  | .datagram e => some e
  | _ => none

/-- The datagrams that some events emitted for a next hop. -/
def emittedIn (events : List Event) (ip : UInt32) : List InternetDatagram :=
  ((events.filterMap Event.emission?).filter fun e => e.hop = ip).map
    Emission.dgram

theorem emittedIn_append (events more : List Event) (ip : UInt32) :
    emittedIn (events ++ more) ip = emittedIn events ip ++ emittedIn more ip := by
  rw [emittedIn, List.filterMap_append, List.filter_append, List.map_append]
  rfl

/-- The frame of an event is of the right type, and an IPv4 frame carries the
serialized datagram from the address of the interface. -/
def Event.Framed (eth : EthernetAddress) : Event → Prop
  | .accepted _ => True
  | .learned _ _ _ => True
  | .request _ _ frame => frame.header.type = EthernetHeader.typeArp
  | .reply frame => frame.header.type = EthernetHeader.typeArp
  | .datagram e => e.frame.header.type = EthernetHeader.typeIPv4 ∧
      e.frame.header.src = eth ∧ e.dgram.serialize = .ok e.frame.payload

namespace NetworkInterface

/-- The IPv4 frames that were emitted. -/
def emissions (n : NetworkInterface) : List Emission :=
  n.history.filterMap Event.emission?

/-- The datagrams that were emitted for a next hop. -/
def emittedFor (n : NetworkInterface) (ip : UInt32) :
    List InternetDatagram :=
  emittedIn n.history ip

/-- The datagram that a call sends to a next hop. -/
def Op.sentTo? (ip : UInt32) : Op → Option InternetDatagram
  | .sendDatagram dgram nextHop =>
      if nextHop.ipv4Numeric = ip then some dgram else none
  | _ => none

/-- The datagrams that were sent to a next hop. -/
def sentTo (ip : UInt32) (ops : List Op) : List InternetDatagram :=
  ops.filterMap (Op.sentTo? ip)

/-! ## Nothing is lost -/

theorem emittedIn_flushEvents
    (n : NetworkInterface) (ip ip' : UInt32) (eth : EthernetAddress)
    (q : List InternetDatagram) :
    emittedIn (n.flushEvents ip eth q) ip' =
      if ip' = ip then q.takeWhile (fun d => d.Serializable) else [] := by
  rw [flushEvents]
  generalize q.takeWhile (fun d => decide d.Serializable) = sent
  induction sent with
  | nil => simp [emittedIn]
  | cons d sent ih =>
      have hcons : emittedIn ((d :: sent).map fun d =>
          Event.datagram (n.emission ip eth d)) ip' =
          (if ip = ip' then [d] else []) ++ emittedIn (sent.map fun d =>
            Event.datagram (n.emission ip eth d)) ip' := by
        by_cases hip : ip = ip' <;> simp [emittedIn, Event.emission?, emission, hip]
      rw [hcons, ih]
      by_cases hip : ip' = ip
      · rw [if_pos hip, if_pos hip.symm, if_pos hip]
        rfl
      · rw [if_neg hip, if_neg (Ne.symm hip), if_neg hip]
        rfl

theorem emittedIn_acceptEvents
    (n : NetworkInterface) (frameSrc : EthernetAddress) (arp : ARPMessage)
    (ip : UInt32) : emittedIn (n.acceptEvents frameSrc arp) ip = [] := by
  unfold acceptEvents
  split <;> rfl

theorem emittedIn_requests (n : NetworkInterface) (hop ip : UInt32) :
    emittedIn (if n.Asks hop then [n.requestEvent hop] else []) ip = [] := by
  split <;> rfl

/-- A flushed queue is emitted up to what is left of it. -/
theorem takeWhile_append_unsent (q : List InternetDatagram) :
    q.takeWhile (fun d => d.Serializable) ++ unsent q = q :=
  List.takeWhile_append_dropWhile

theorem emittedIn_append_queue_send
    (n : NetworkInterface) (dgram : InternetDatagram) (nextHop : Address)
    (ip : UInt32) :
    emittedIn (n.sendEvents dgram nextHop) ip ++
        (n.sendDatagram dgram nextHop).2.queue ip =
      n.queue ip ++
        if nextHop.ipv4Numeric = ip then [dgram] else [] := by
  rw [(sendEffect n dgram nextHop).queue_eq, sendEvents]
  by_cases hip : ip = nextHop.ipv4Numeric
  · subst hip
    rw [if_pos rfl, if_pos rfl]
    cases n.mapping nextHop.ipv4Numeric with
    | some eth =>
        simp only [emittedIn_flushEvents, if_true]
        exact takeWhile_append_unsent _
    | none =>
        simp only [emittedIn_requests]
        rfl
  · rw [if_neg hip, if_neg (Ne.symm hip), List.append_nil]
    cases n.mapping nextHop.ipv4Numeric with
    | some eth =>
        simp only [emittedIn_flushEvents, if_neg hip]
        rfl
    | none =>
        simp only [emittedIn_requests]
        rfl

theorem emittedIn_append_queue_arp
    {n n' : NetworkInterface} {frameSrc : EthernetAddress} {arp : ARPMessage}
    (h : ArpEffect frameSrc arp n n') (ip : UInt32) :
    emittedIn (n.arpEvents frameSrc arp) ip ++ n'.queue ip = n.queue ip := by
  rw [h.queue_eq, arpEvents, emittedIn_append, emittedIn_acceptEvents,
    List.nil_append]
  by_cases hrequest : n.IsRequest arp
  · have hnot := not_isReply_of_isRequest hrequest
    rw [if_pos hrequest, if_neg fun hand => hnot hand.2]
    rfl
  · rw [if_neg hrequest]
    by_cases hreply : n.IsReply arp
    · rw [if_pos hreply, emittedIn_flushEvents]
      by_cases hip : ip = arp.senderIpAddress
      · rw [if_pos hip, if_pos ⟨hip, hreply⟩, ← hip]
        exact takeWhile_append_unsent _
      · rw [if_neg hip, if_neg fun hand => hip hand.1]
        rfl
    · rw [if_neg hreply, if_neg fun hand => hreply hand.2]
      rfl

/-- A call emits from the front of a queue, and appends what is sent to it. -/
theorem emittedIn_append_queue_step
    (n : NetworkInterface) (op : Op) (ip : UInt32) :
    emittedIn (n.opEvents op) ip ++ (n.step op).queue ip =
      n.queue ip ++ (op.sentTo? ip).toList := by
  cases op with
  | sendDatagram dgram nextHop =>
      have hsent : ((Op.sendDatagram dgram nextHop).sentTo? ip).toList =
          if nextHop.ipv4Numeric = ip then [dgram] else [] := by
        rw [Op.sentTo?]
        split <;> rfl
      rw [hsent]
      exact emittedIn_append_queue_send n dgram nextHop ip
  | recvFrame frame =>
      refine Eq.trans ?_ (List.append_nil _).symm
      cases h : n.acceptedArp frame with
      | none =>
          rw [step_recvFrame_of_none h, opEvents, h]
          rfl
      | some arp =>
          rw [opEvents, h]
          exact emittedIn_append_queue_arp (step_recvFrame_of_some h) ip
  | tick ms => exact (List.append_nil _).symm

theorem emittedFor_append_queue_run
    (n : NetworkInterface) (ops : List Op) (ip : UInt32) :
    (run step n ops).emittedFor ip ++ (run step n ops).queue ip =
      n.emittedFor ip ++ n.queue ip ++ sentTo ip ops := by
  induction ops generalizing n with
  | nil => exact (List.append_nil _).symm
  | cons op ops ih =>
      have hstep := emittedIn_append_queue_step n op ip
      have hsent : sentTo ip (op :: ops) =
          (op.sentTo? ip).toList ++ sentTo ip ops := by
        rw [sentTo, List.filterMap_cons]
        cases op.sentTo? ip <;> rfl
      rw [run_cons, ih, hsent, emittedFor, (step_logs n op).history_eq,
        emittedIn_append, List.append_assoc (emittedIn n.history ip), hstep]
      simp only [emittedFor, List.append_assoc]

/-! ## The frames of the events -/

/-- The frames were pushed by the events of the history. -/
structure WellLogged (n : NetworkInterface) : Prop where
  framesOut_eq : n.framesOut = n.history.filterMap Event.frame?
  framed : ∀ e ∈ n.history, Event.Framed n.ethernetAddress e

theorem framed_emission {n : NetworkInterface} {ip : UInt32}
    {eth : EthernetAddress} {d : InternetDatagram} (h : d.Serializable) :
    Event.Framed n.ethernetAddress (.datagram (n.emission ip eth d)) :=
  ⟨rfl, rfl, serialize_getD h⟩

theorem framed_opEvents (n : NetworkInterface) (op : Op) :
    ∀ e ∈ n.opEvents op, e.Framed n.ethernetAddress := by
  cases op with
  | sendDatagram dgram nextHop =>
      exact forall_sendEvents (fun _ _ _ hd => framed_emission hd) rfl
  | recvFrame frame =>
      rw [opEvents]
      cases n.acceptedArp frame with
      | none => exact List.forall_mem_nil _
      | some arp =>
          exact List.forall_mem_cons.mpr ⟨trivial, forall_answerEvents
            trivial rfl fun _ hd => framed_emission hd⟩
  | tick ms => exact List.forall_mem_nil _

theorem WellLogged.step {n : NetworkInterface} (h : n.WellLogged) (op : Op) :
    (n.step op).WellLogged where
  framesOut_eq := by
    rw [(step_logs n op).framesOut_eq, (step_logs n op).history_eq,
      h.framesOut_eq, List.filterMap_append]
  framed := by
    intro e he
    rw [step_ethernetAddress]
    rw [(step_logs n op).history_eq] at he
    rcases List.mem_append.mp he with he | he
    · exact h.framed e he
    · exact framed_opEvents n op e he

theorem wellLogged_new (eth : EthernetAddress) (ip : Address) :
    (new eth ip).WellLogged where
  framesOut_eq := rfl
  framed := fun _ he => nomatch he

/-- The IPv4 frames among the frames are those of the emissions. -/
theorem WellLogged.filter_framesOut {n : NetworkInterface}
    (h : n.WellLogged) :
    n.framesOut.filter (fun f => f.header.type = EthernetHeader.typeIPv4) =
      n.emissions.map Emission.frame := by
  have hne : EthernetHeader.typeArp ≠ EthernetHeader.typeIPv4 := by decide
  rw [h.framesOut_eq, emissions]
  have hframed := h.framed
  generalize n.history = events at hframed ⊢
  induction events with
  | nil => rfl
  | cons e events ih =>
      have hrest := ih fun e' he' => hframed e' (List.mem_cons_of_mem e he')
      have he := hframed e List.mem_cons_self
      cases e with
      | accepted m => exact hrest
      | learned time ip eth => exact hrest
      | request time target frame =>
          simp only [Event.Framed] at he
          simp only [List.filterMap_cons, Event.frame?, Event.emission?]
          rw [List.filter_cons_of_neg (by simp [he, hne])]
          exact hrest
      | reply frame =>
          simp only [Event.Framed] at he
          simp only [List.filterMap_cons, Event.frame?, Event.emission?]
          rw [List.filter_cons_of_neg (by simp [he, hne])]
          exact hrest
      | datagram e =>
          simp only [List.filterMap_cons, Event.frame?, Event.emission?]
          rw [List.filter_cons_of_pos (by simp [he.1]), List.map_cons]
          exact congrArg (e.frame :: ·) hrest

/-- Nothing that is sent is lost, repeated or overtaken: for every next hop,
the datagrams of the IPv4 frames, followed by those that still wait, are those
that were sent. -/
theorem sent_eq_emitted_append_queue
    (eth : EthernetAddress) (ip : Address) (ops : List Op) :
    let n := run step (new eth ip) ops
    n.framesOut.filter (fun f => f.header.type = EthernetHeader.typeIPv4) =
        n.emissions.map Emission.frame ∧
      (∀ e ∈ n.emissions, e.frame.header.src = eth ∧
        e.dgram.serialize = .ok e.frame.payload) ∧
      ∀ hop, sentTo hop ops =
        (n.emissions.filter fun e => e.hop = hop).map Emission.dgram ++
          n.queue hop := by
  intro n
  have hlogged : n.WellLogged :=
    run_preserves (P := WellLogged) (fun _ op h => h.step op)
      (wellLogged_new eth ip) ops
  have heth : n.ethernetAddress = eth :=
    run_preserves (P := fun n => n.ethernetAddress = eth)
      (fun n op h => (step_ethernetAddress n op).trans h) rfl ops
  refine ⟨hlogged.filter_framesOut, ?_, ?_⟩
  · intro e he
    rw [emissions, List.mem_filterMap] at he
    obtain ⟨event, hmem, hevent⟩ := he
    cases event with
    | datagram e' =>
        obtain rfl := Option.some.inj hevent
        have hframed := hlogged.framed _ hmem
        rw [heth] at hframed
        exact hframed.2
    | _ => exact nomatch hevent
  · intro hop
    exact (emittedFor_append_queue_run (new eth ip) ops hop).symm

/-! ## Nothing waits for a known address -/

/-- The queue of every address that is known is empty. -/
def KnownFlushed (n : NetworkInterface) : Prop :=
  ∀ ip, n.mapping ip ≠ none → n.queue ip = []

/-- The datagrams of a call can be serialized. -/
def Op.Serializable : Op → Prop
  | .sendDatagram dgram _ => dgram.Serializable
  | _ => True

instance : ∀ op : Op, Decidable op.Serializable
  | .sendDatagram dgram _ => inferInstanceAs (Decidable dgram.Serializable)
  | .recvFrame _ => isTrue trivial
  | .tick _ => isTrue trivial

/-- The datagrams in the queues can be serialized. -/
def QueuesSerializable (n : NetworkInterface) : Prop :=
  ∀ ip, ∀ d ∈ n.queue ip, d.Serializable

/-- If a call is an ARP message, it makes the interface flush the queue of its
sender, or the queue is empty. -/
def LearnsFlushed (n : NetworkInterface) : Op → Prop
  | .recvFrame frame => ∀ arp ∈ n.acceptedArp frame,
      n.IsReply arp ∨ n.queue arp.senderIpAddress = []
  | _ => True

instance (n : NetworkInterface) : ∀ op, Decidable (n.LearnsFlushed op)
  | .recvFrame frame =>
      inferInstanceAs (Decidable (∀ arp ∈ n.acceptedArp frame, _))
  | .sendDatagram _ _ => isTrue trivial
  | .tick _ => isTrue trivial

theorem unsent_eq_nil {q : List InternetDatagram}
    (h : ∀ d ∈ q, d.Serializable) : unsent q = [] := by
  rw [unsent, List.dropWhile_eq_nil_iff]
  intro d hd
  simpa using h d hd

/-- What waits for one next hop can be serialized as long as what is sent to it
can be. -/
theorem queue_serializable_step {n : NetworkInterface} {op : Op}
    {ip : UInt32} (h : ∀ d ∈ n.queue ip, d.Serializable)
    (hop : ∀ d ∈ op.sentTo? ip, d.Serializable) :
    ∀ d ∈ (n.step op).queue ip, d.Serializable := by
  intro d hd
  have hqueue := emittedIn_append_queue_step n op ip
  have hmem : d ∈ n.queue ip ++ (op.sentTo? ip).toList := by
    rw [← hqueue]
    exact List.mem_append_right _ hd
  rcases List.mem_append.mp hmem with hold | hnew
  · exact h d hold
  · exact hop d (Option.mem_toList.mp hnew)

theorem Op.Serializable.sentTo
    {op : Op} (h : op.Serializable) (ip : UInt32) :
    ∀ d ∈ op.sentTo? ip, d.Serializable := by
  intro d hd
  cases op with
  | sendDatagram dgram nextHop =>
      rw [Op.sentTo?] at hd
      split at hd
      · obtain rfl := Option.some.inj hd
        exact h
      · exact absurd hd (Option.not_mem_none d)
  | recvFrame frame => exact absurd hd (Option.not_mem_none d)
  | tick ms => exact absurd hd (Option.not_mem_none d)

theorem QueuesSerializable.step {n : NetworkInterface} {op : Op}
    (h : n.QueuesSerializable) (hop : op.Serializable) :
    (n.step op).QueuesSerializable :=
  fun ip => queue_serializable_step (h ip) (hop.sentTo ip)

/-- A queue with one more datagram that can be serialized. -/
theorem QueuesSerializable.append {n : NetworkInterface}
    (h : n.QueuesSerializable) {dgram : InternetDatagram}
    (hdgram : dgram.Serializable) (ip : UInt32) :
    ∀ d ∈ n.queue ip ++ [dgram], d.Serializable := by
  rw [List.forall_mem_append, List.forall_mem_singleton]
  exact ⟨h ip, hdgram⟩

theorem run_queuesSerializable
    (eth : EthernetAddress) (ip : Address) {ops : List Op}
    (hops : ∀ op ∈ ops, op.Serializable) :
    (run step (new eth ip) ops).QueuesSerializable := by
  apply run_invariant (fun _ _ h hop => QueuesSerializable.step h hop)
  · exact fun _ _ hd => nomatch hd
  · exact guarded_of_forall_mem hops _

/-- What is sent to a known address leaves at once. -/
theorem KnownFlushed.send {n : NetworkInterface} {dgram : InternetDatagram}
    (h : n.KnownFlushed) (hser : n.QueuesSerializable)
    (hdgram : dgram.Serializable) (nextHop : Address) :
    (n.sendDatagram dgram nextHop).2.KnownFlushed := by
  intro ip hknown
  have heffect := sendEffect n dgram nextHop
  rw [heffect.mapping_eq] at hknown
  rw [heffect.queue_eq]
  by_cases hip : ip = nextHop.ipv4Numeric
  · rw [if_pos hip]
    obtain ⟨eth, heth⟩ := Option.ne_none_iff_exists'.mp hknown
    rw [heth]
    exact unsent_eq_nil (hser.append hdgram ip)
  · rw [if_neg hip]
    exact h ip hknown

theorem knownFlushed_arp_iff {n n' : NetworkInterface}
    {frameSrc : EthernetAddress} {arp : ARPMessage}
    (heffect : ArpEffect frameSrc arp n n') (hser : n.QueuesSerializable)
    (h : n.KnownFlushed) :
    n'.KnownFlushed ↔
      n.IsReply arp ∨ n.queue arp.senderIpAddress = [] := by
  constructor
  · intro hflushed
    by_cases hreply : n.IsReply arp
    · exact Or.inl hreply
    · right
      have hknown : n'.mapping arp.senderIpAddress ≠ none := by
        rw [heffect.mapping_eq, if_pos rfl]
        exact Option.some_ne_none _
      have hempty := hflushed arp.senderIpAddress hknown
      rw [heffect.queue_eq, if_neg fun hand => hreply hand.2] at hempty
      exact hempty
  · intro hsafe ip hknown
    rw [heffect.queue_eq]
    by_cases hip : ip = arp.senderIpAddress
    · by_cases hreply : n.IsReply arp
      · rw [if_pos ⟨hip, hreply⟩]
        exact unsent_eq_nil (hser ip)
      · rw [if_neg fun hand => hreply hand.2, hip]
        exact hsafe.resolve_left hreply
    · rw [if_neg fun hand => hip hand.1]
      rw [heffect.mapping_eq, if_neg hip] at hknown
      exact h ip hknown

/-- From a state in which nothing waits for a known address, a call leads to
another such state exactly if it learns no address that is waited for. -/
theorem knownFlushed_step_iff {n : NetworkInterface} {op : Op}
    (hser : n.QueuesSerializable) (hop : op.Serializable)
    (h : n.KnownFlushed) :
    (n.step op).KnownFlushed ↔ n.LearnsFlushed op := by
  cases op with
  | sendDatagram dgram nextHop =>
      exact ⟨fun _ => trivial, fun _ => h.send hser hop nextHop⟩
  | recvFrame frame =>
      cases hacc : n.acceptedArp frame with
      | none =>
          rw [step_recvFrame_of_none hacc]
          refine ⟨fun _ arp harp => ?_, fun _ => h⟩
          rw [hacc] at harp
          exact absurd harp (Option.not_mem_none arp)
      | some arp =>
          rw [knownFlushed_arp_iff (step_recvFrame_of_some hacc) hser h]
          constructor
          · intro hsafe arp' harp'
            rw [hacc] at harp'
            obtain rfl := Option.some.inj harp'
            exact hsafe
          · exact fun hsafe => hsafe arp hacc
  | tick ms =>
      refine ⟨fun _ => trivial, fun _ ip hknown => ?_⟩
      rw [step, mapping_tick] at hknown
      split at hknown
      · exact absurd rfl hknown
      · exact h ip hknown

/-- Nothing waits for a known address throughout a run exactly if every ARP
message that teaches an address makes the interface flush the queue for it,
or finds that queue empty. -/
theorem knownFlushed_iff_learnsFlushed
    (eth : EthernetAddress) (ip : Address) {ops : List Op}
    (hops : ∀ op ∈ ops, op.Serializable) :
    (∀ pre, pre <+: ops → (run step (new eth ip) pre).KnownFlushed) ↔
      Guarded step LearnsFlushed (new eth ip) ops := by
  exact forall_prefix_iff_guarded
    (fun _ _ (hn : QueuesSerializable _) hop => hn.step hop)
    (fun _ _ hn hop hflushed => knownFlushed_step_iff hn hop hflushed)
    (fun _ _ hd => nomatch hd)
    (fun _ hknown => absurd rfl hknown)
    (guarded_of_forall_mem hops _)

/-- A datagram waits for the neighbour, which answers the request. -/
def answeredRun : List Op :=
  [.sendDatagram bareDatagram neighbourIp,
    .recvFrame (arpFromNeighbour ARPMessage.opcodeReply neighbourEth)]

/-- A datagram waits for the neighbour, which asks for our address. -/
def askedRun : List Op :=
  [.sendDatagram bareDatagram neighbourIp,
    .recvFrame (arpFromNeighbour ARPMessage.opcodeRequest neighbourEth)]

theorem knownFlushed_answeredRun :
    (run step (new ownEth ownIp) answeredRun).mapping
        neighbourIp.ipv4Numeric = some neighbourEth ∧
      ∀ pre, pre <+: answeredRun →
        (run step (new ownEth ownIp) pre).KnownFlushed :=
  ⟨by decide, (knownFlushed_iff_learnsFlushed ownEth ownIp
    (by decide)).mpr (by decide)⟩

/-- The address is known from the request, and the datagram still waits. -/
theorem not_knownFlushed_askedRun :
    (∀ op ∈ askedRun, op.Serializable) ∧
      ¬ (run step (new ownEth ownIp) askedRun).KnownFlushed := by
  refine ⟨by decide, fun h => ?_⟩
  have hempty := h neighbourIp.ipv4Numeric (by decide)
  exact absurd hempty (by decide)

end NetworkInterface
end Sponge
