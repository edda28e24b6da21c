import Sponge.NetworkInterface.Lifetime

/-!
# Datagrams that cannot be serialized

A datagram is pushed onto the queue of its next hop before it is serialized,
and it is popped only afterwards.  If serializing it throws, the exception
leaves it at the head of the queue.  There it stays: every later attempt to
flush the queue throws again, and nothing is emitted to the next hop any more.
-/

namespace Sponge
namespace NetworkInterface

/-! ## The outcome of a call -/

theorem error_of_not_serializable {d : InternetDatagram}
    (h : ¬ d.Serializable) : ∃ e, d.serialize = .error e := by
  cases hd : d.serialize with
  | error e => exact ⟨e, rfl⟩
  | ok payload => exact absurd (serializable_of_ok hd) h

/-- What a call returns or throws, without the datagram of a frame. -/
def outcome (n : NetworkInterface) : Op → Except String Unit
  | .sendDatagram dgram nextHop => (n.sendDatagram dgram nextHop).1
  | .recvFrame frame => (n.recvFrame frame).1.map fun _ => ()
  | .tick _ => .ok ()

/-- The queue that a call flushes, with its next hop. -/
def flushedQueue (n : NetworkInterface) :
    Op → Option (UInt32 × List InternetDatagram)
  | .sendDatagram dgram nextHop =>
      if n.mapping nextHop.ipv4Numeric = none then none
      else some (nextHop.ipv4Numeric,
        n.queue nextHop.ipv4Numeric ++ [dgram])
  | .recvFrame frame =>
      match n.acceptedArp frame with
      | some arp =>
          if n.IsReply arp then
            some (arp.senderIpAddress, n.queue arp.senderIpAddress)
          else none
      | none => none
  | .tick _ => none

/-- The outcome of flushing a queue: the exception of the first datagram that
cannot be serialized. -/
def flushOutcome : List InternetDatagram → Except String Unit
  | [] => .ok ()
  | dg :: rest =>
      match dg.serialize with
      | .error e => .error e
      | .ok _ => flushOutcome rest

theorem flushLoop_outcome
    (ip : UInt32) (eth : EthernetAddress) (q : List InternetDatagram)
    (n : NetworkInterface) : (flushLoop ip eth q n).1 = flushOutcome q := by
  induction q generalizing n with
  | nil => rfl
  | cons dg rest ih =>
      rw [flushLoop, flushOutcome]
      cases dg.serialize with
      | error e => rfl
      | ok payload => exact ih _

theorem flushBuffer_outcome
    (n : NetworkInterface) (ip : UInt32) (eth : EthernetAddress) :
    (n.flushBuffer ip eth).1 = flushOutcome (n.queue ip) :=
  flushLoop_outcome ip eth _ _

theorem flushOutcome_eq_ok_iff {q : List InternetDatagram} :
    flushOutcome q = .ok () ↔ ∀ d ∈ q, d.Serializable := by
  induction q with
  | nil => simp [flushOutcome]
  | cons dg rest ih =>
      rw [flushOutcome, List.forall_mem_cons]
      cases hdg : dg.serialize with
      | error e =>
          exact iff_of_false nofun fun h => not_serializable_of_error hdg h.1
      | ok payload =>
          rw [ih, and_iff_right (serializable_of_ok hdg)]

theorem flushOutcome_eq_error_iff {q : List InternetDatagram} {e : String} :
    flushOutcome q = .error e ↔
      ∃ sent d rest, q = sent ++ d :: rest ∧
        (∀ s ∈ sent, s.Serializable) ∧ d.serialize = .error e := by
  constructor
  · intro h
    induction q with
    | nil => exact nomatch h
    | cons dg rest ih =>
        rw [flushOutcome] at h
        cases hdg : dg.serialize with
        | error e' =>
            rw [hdg] at h
            obtain rfl := Except.error.inj h
            exact ⟨[], dg, rest, rfl, nofun, hdg⟩
        | ok payload =>
            rw [hdg] at h
            obtain ⟨sent, d, rest', rfl, hsent, hd⟩ := ih h
            exact ⟨dg :: sent, d, rest', rfl,
              List.forall_mem_cons.mpr ⟨serializable_of_ok hdg, hsent⟩, hd⟩
  · rintro ⟨sent, d, rest, rfl, hsent, hd⟩
    induction sent with
    | nil => simp only [List.nil_append, flushOutcome, hd]
    | cons s sent ih =>
        obtain ⟨hs, hsent⟩ := List.forall_mem_cons.mp hsent
        rw [List.cons_append, flushOutcome, serialize_getD hs]
        exact ih hsent

theorem recvArp_outcome (n : NetworkInterface) (frameSrc : EthernetAddress)
    (arp : ARPMessage) :
    (n.recvArp frameSrc arp).1 =
      if n.IsReply arp then flushOutcome (n.queue arp.senderIpAddress)
      else .ok () := by
  obtain ⟨hlearns, hqueue, -⟩ := accept_learns n frameSrc arp
  have hreply : (n.accept frameSrc arp).IsReply arp ↔ n.IsReply arp := by
    rw [IsReply, IsReply, hlearns.ipAddress_eq]
  rw [recvArp_eq, ARPMessage.serialize_of_supported rfl]
  by_cases hrequest : (n.accept frameSrc arp).IsRequest arp
  · have hnot := not_isReply_of_isRequest hrequest
    rw [if_pos hrequest, if_neg (mt hreply.mpr hnot)]
  · rw [if_neg hrequest]
    by_cases h : n.IsReply arp
    · rw [if_pos (hreply.mpr h), if_pos h, flushBuffer_outcome, hqueue]
    · rw [if_neg (mt hreply.mp h), if_neg h]

/-- A call throws what flushing its queue throws, and nothing else. -/
theorem outcome_eq (n : NetworkInterface) (op : Op) :
    n.outcome op =
      match n.flushedQueue op with
      | some flushed => flushOutcome flushed.2
      | none => .ok () := by
  cases op with
  | sendDatagram dgram nextHop =>
      rw [outcome, flushedQueue]
      cases hmap : n.mapping nextHop.ipv4Numeric with
      | none =>
          rw [sendDatagram_of_none hmap, requestAddress_eq]
          rfl
      | some eth =>
          rw [sendDatagram_of_some hmap, flushBuffer_outcome, queue_enqueue,
            if_pos rfl, if_neg (Option.some_ne_none eth)]
  | recvFrame frame =>
      rw [outcome, flushedQueue]
      cases hacc : n.acceptedArp frame with
      | none =>
          obtain ⟨dgram, hrecv⟩ := recvFrame_of_none hacc
          rw [hrecv]
          rfl
      | some arp =>
          rw [recvFrame_of_some hacc, recvArp_outcome]
          by_cases h : n.IsReply arp
          · rw [if_pos h]
            simp only [h, if_true]
            cases flushOutcome (n.queue arp.senderIpAddress) <;> rfl
          · simp only [h, if_false]
            rfl
  | tick ms => rfl

/-- What is left of the queue that a call flushes. -/
theorem queue_step_of_flushed
    {n : NetworkInterface} {op : Op} {hop : UInt32}
    {q : List InternetDatagram} (h : n.flushedQueue op = some (hop, q)) :
    (n.step op).queue hop = unsent q := by
  cases op with
  | sendDatagram dgram nextHop =>
      rw [flushedQueue] at h
      split at h
      next => cases h
      next hmap =>
        obtain ⟨rfl, rfl⟩ := Prod.mk.inj (Option.some.inj h)
        obtain ⟨eth, heth⟩ := Option.ne_none_iff_exists'.mp hmap
        rw [step, (sendEffect n dgram nextHop).queue_eq, if_pos rfl, heth]
  | recvFrame frame =>
      rw [flushedQueue] at h
      cases hacc : n.acceptedArp frame with
      | none =>
          rw [hacc] at h
          cases h
      | some arp =>
          rw [hacc] at h
          simp only [] at h
          split at h
          next hreply =>
            obtain ⟨rfl, rfl⟩ := Prod.mk.inj (Option.some.inj h)
            rw [(step_recvFrame_of_some hacc).queue_eq, if_pos ⟨rfl, hreply⟩]
          next => cases h
  | tick ms => cases h

/-! ## Poisoned queues -/

/-- The datagram at the head of the queue cannot be serialized. -/
def Poisoned (n : NetworkInterface) (hop : UInt32) : Prop :=
  ∃ d rest, n.queue hop = d :: rest ∧ ¬ d.Serializable

theorem unsent_cons {rest : List InternetDatagram} {d : InternetDatagram}
    (hd : ¬ d.Serializable) : unsent (d :: rest) = d :: rest := by
  rw [unsent, List.dropWhile_cons_of_neg (by simpa using hd)]

theorem unsent_append_cons
    {sent rest : List InternetDatagram} {d : InternetDatagram}
    (hsent : ∀ s ∈ sent, s.Serializable) (hd : ¬ d.Serializable) :
    unsent (sent ++ d :: rest) = d :: rest := by
  have hdrop : ∀ s ∈ sent, decide s.Serializable = true := by
    intro s hs
    simpa using hsent s hs
  rw [unsent, List.dropWhile_append_of_pos hdrop]
  exact unsent_cons hd

/-- Nothing is emitted from such a queue. -/
theorem flushEvents_cons
    {rest : List InternetDatagram} {d : InternetDatagram}
    (hd : ¬ d.Serializable) (n : NetworkInterface) (ip : UInt32)
    (eth : EthernetAddress) : n.flushEvents ip eth (d :: rest) = [] := by
  rw [flushEvents, List.takeWhile_cons_of_neg (by simpa using hd)]
  rfl

/-- A poisoned queue is never flushed. -/
theorem Poisoned.step {n : NetworkInterface} {hop : UInt32}
    (h : n.Poisoned hop) (op : Op) : (n.step op).Poisoned hop := by
  obtain ⟨d, rest, hqueue, hd⟩ := h
  apply step_rule (P := fun n' => n'.Poisoned hop)
  · exact ⟨d, rest, hqueue, hd⟩
  · intro dgram nextHop
    rw [Poisoned, (sendEffect n dgram nextHop).queue_eq, hqueue,
      List.cons_append, unsent_cons hd]
    split
    · refine ⟨d, rest ++ [dgram], ?_, hd⟩
      cases n.mapping hop <;> rfl
    · exact ⟨d, rest, rfl, hd⟩
  · intro frameSrc arp n' heffect
    rw [Poisoned, heffect.queue_eq, hqueue, unsent_cons hd, ite_self]
    exact ⟨d, rest, rfl, hd⟩
  · intro ms _
    exact ⟨d, rest, hqueue, hd⟩

/-- After any further calls, sending to a poisoned next hop whose address is
known throws, and no frame leaves. -/
theorem run_poisoned
    {n : NetworkInterface} {nextHop : Address}
    (h : n.Poisoned nextHop.ipv4Numeric) (later : List Op)
    (hmap : (run step n later).mapping nextHop.ipv4Numeric ≠ none)
    (dgram : InternetDatagram) :
    (∃ e, ((run step n later).sendDatagram dgram nextHop).1 = .error e) ∧
      ((run step n later).sendDatagram dgram nextHop).2.framesOut =
        (run step n later).framesOut := by
  have hpoisoned : (run step n later).Poisoned nextHop.ipv4Numeric :=
    run_preserves (P := (Poisoned · nextHop.ipv4Numeric))
      (fun _ op hn => Poisoned.step hn op) h later
  obtain ⟨d, rest, hqueue, hd⟩ := hpoisoned
  obtain ⟨eth, heth⟩ := Option.ne_none_iff_exists'.mp hmap
  constructor
  · obtain ⟨e, he⟩ := error_of_not_serializable hd
    refine ⟨e, ?_⟩
    rw [sendDatagram_of_some heth, flushBuffer_outcome, queue_enqueue,
      if_pos rfl, hqueue]
    exact flushOutcome_eq_error_iff.mpr
      ⟨[], d, rest ++ [dgram], rfl, nofun, he⟩
  · rw [(sendEffect _ dgram nextHop).logs.framesOut_eq,
      sendEvents_of_some heth, hqueue, List.cons_append, flushEvents_cons hd]
    exact List.append_nil _

/-! ## Recovering from an exception -/

/-- The call throws the exception of serializing `d`, while it flushes the
queue of `hop`. -/
def ThrowsOn (n : NetworkInterface) (op : Op) (hop : UInt32)
    (d : InternetDatagram) : Prop :=
  ∃ sent rest e, n.flushedQueue op = some (hop, sent ++ d :: rest) ∧
    (∀ s ∈ sent, s.Serializable) ∧ d.serialize = .error e ∧
    n.outcome op = .error e

/-- After any further calls that send to the next hop only what can be
serialized, such a datagram to it leaves at once if the address is known. -/
def Recovers (n : NetworkInterface) (hop : UInt32) : Prop :=
  ∀ (later : List Op) (dgram : InternetDatagram) (nextHop : Address)
    (eth : EthernetAddress),
    (∀ d ∈ sentTo hop later, d.Serializable) → dgram.Serializable →
    nextHop.ipv4Numeric = hop →
    (run step n later).mapping hop = some eth →
    ((run step n later).sendDatagram dgram nextHop).1 = .ok () ∧
      (run step n later).EmitsTo dgram nextHop eth

/-- Whatever makes the call throw is gone afterwards, and the next hop is
served again. -/
def LeavesOut (n : NetworkInterface) (op : Op) : Prop :=
  ∀ hop d, n.ThrowsOn op hop d →
    d ∉ (n.step op).queue hop ∧ (n.step op).Recovers hop

/-- Everything in the queue that the call flushes can be serialized. -/
def FlushesSerializable (n : NetworkInterface) (op : Op) : Prop :=
  ∀ flushed ∈ n.flushedQueue op, ∀ d ∈ flushed.2, d.Serializable

instance (n : NetworkInterface) (op : Op) :
    Decidable (n.FlushesSerializable op) :=
  inferInstanceAs (Decidable (∀ flushed ∈ n.flushedQueue op, _))

/-- Every exception of a call has its datagram. -/
theorem exists_throwsOn_iff {n : NetworkInterface} {op : Op} :
    (∃ hop d, n.ThrowsOn op hop d) ↔ ∃ e, n.outcome op = .error e := by
  constructor
  · rintro ⟨hop, d, sent, rest, e, -, -, -, he⟩
    exact ⟨e, he⟩
  · rintro ⟨e, he⟩
    have houtcome := outcome_eq n op
    cases hflushed : n.flushedQueue op with
    | none =>
        rw [hflushed, he] at houtcome
        exact nomatch houtcome
    | some flushed =>
        obtain ⟨hop, q⟩ := flushed
        rw [hflushed, he] at houtcome
        obtain ⟨sent, d, rest, rfl, hsent, hd⟩ :=
          flushOutcome_eq_error_iff.mp houtcome.symm
        exact ⟨hop, d, sent, rest, e, hflushed, hsent, hd, he⟩

theorem flushesSerializable_iff {n : NetworkInterface} {op : Op} :
    n.FlushesSerializable op ↔ n.outcome op = .ok () := by
  rw [FlushesSerializable, outcome_eq]
  cases n.flushedQueue op with
  | none => exact iff_of_true nofun rfl
  | some flushed =>
      rw [flushOutcome_eq_ok_iff]
      constructor
      · exact fun h => h flushed rfl
      · intro h flushed' hflushed
        obtain rfl := Option.some.inj hflushed
        exact h

theorem flushesSerializable_send_iff {n : NetworkInterface}
    {dgram : InternetDatagram} {nextHop : Address} :
    n.FlushesSerializable (.sendDatagram dgram nextHop) ↔
      (n.mapping nextHop.ipv4Numeric ≠ none →
        (∀ d ∈ n.queue nextHop.ipv4Numeric, d.Serializable) ∧
          dgram.Serializable) := by
  rw [flushesSerializable_iff, outcome_eq, flushedQueue]
  by_cases hmap : n.mapping nextHop.ipv4Numeric = none
  · simp [hmap]
  · rw [if_neg hmap, flushOutcome_eq_ok_iff, List.forall_mem_append,
      List.forall_mem_singleton, imp_iff_right hmap]

/-- Sending without an exception changes nothing about what can be sent. -/
theorem FlushesSerializable.send_iff
    {n : NetworkInterface} {dgram : InternetDatagram} {nextHop : Address}
    (h : n.FlushesSerializable (.sendDatagram dgram nextHop))
    (dgram' : InternetDatagram) (nextHop' : Address) :
    (n.sendDatagram dgram nextHop).2.FlushesSerializable
        (.sendDatagram dgram' nextHop') ↔
      n.FlushesSerializable (.sendDatagram dgram' nextHop') := by
  have heffect := sendEffect n dgram nextHop
  rw [flushesSerializable_send_iff, flushesSerializable_send_iff,
    heffect.mapping_eq]
  apply imp_congr_right
  intro hmap
  apply and_congr_left
  intro _
  rw [heffect.queue_eq]
  by_cases hsame : nextHop'.ipv4Numeric = nextHop.ipv4Numeric
  · rw [hsame] at hmap ⊢
    have hboth := flushesSerializable_send_iff.mp h hmap
    obtain ⟨eth, heth⟩ := Option.ne_none_iff_exists'.mp hmap
    rw [if_pos rfl, heth, unsent_eq_nil (List.forall_mem_append.mpr
      ⟨hboth.1, List.forall_mem_singleton.mpr hboth.2⟩)]
    exact iff_of_true nofun hboth.1
  · rw [if_neg hsame]

theorem ThrowsOn.queue_step
    {n : NetworkInterface} {op : Op} {hop : UInt32} {d : InternetDatagram}
    (h : n.ThrowsOn op hop d) : ∃ rest, (n.step op).queue hop = d :: rest := by
  obtain ⟨sent, rest, e, hflushed, hsent, he, -⟩ := h
  refine ⟨rest, ?_⟩
  rw [queue_step_of_flushed hflushed,
    unsent_append_cons hsent (not_serializable_of_error he)]

/-- The datagram stays behind, so nothing has recovered whenever a call
throws. -/
theorem leavesOut_iff {n : NetworkInterface} {op : Op} :
    n.LeavesOut op ↔ n.FlushesSerializable op := by
  rw [flushesSerializable_iff]
  constructor
  · intro h
    cases he : n.outcome op with
    | ok u => rfl
    | error e =>
        obtain ⟨hop, d, hthrows⟩ := exists_throwsOn_iff.mpr ⟨e, he⟩
        obtain ⟨rest, hqueue⟩ := hthrows.queue_step
        have hgone := (h hop d hthrows).1
        rw [hqueue] at hgone
        exact absurd List.mem_cons_self hgone
  · rintro hok hop d ⟨-, -, e, -, -, -, he⟩
    rw [hok] at he
    exact nomatch he

theorem recovers_of_queue
    {n : NetworkInterface} {hop : UInt32}
    (h : ∀ d ∈ n.queue hop, d.Serializable) : n.Recovers hop := by
  rintro later dgram nextHop eth hlater hdgram rfl hmap
  have hsent : ∀ op ∈ later,
      ∀ d ∈ op.sentTo? nextHop.ipv4Numeric, d.Serializable := by
    intro op hop d hd
    exact hlater d (List.mem_filterMap.mpr ⟨op, hop, hd⟩)
  have hstep : ∀ (n' : NetworkInterface) (op : Op),
      (∀ d ∈ n'.queue nextHop.ipv4Numeric, d.Serializable) →
      (∀ d ∈ op.sentTo? nextHop.ipv4Numeric, d.Serializable) →
      ∀ d ∈ (n'.step op).queue nextHop.ipv4Numeric, d.Serializable :=
    fun _ _ => queue_serializable_step
  have hqueue := run_invariant hstep h (guarded_of_forall_mem hsent n)
  refine ⟨?_, emitsTo_of_some hqueue hdgram hmap⟩
  rw [sendDatagram_of_some hmap, flushBuffer_outcome, queue_enqueue,
    if_pos rfl]
  exact flushOutcome_eq_ok_iff.mpr (List.forall_mem_append.mpr
    ⟨hqueue, List.forall_mem_singleton.mpr hdgram⟩)

/-- After a queue has been flushed without an exception, it is empty. -/
theorem FlushesSerializable.recovers
    {n : NetworkInterface} {op : Op} {hop : UInt32}
    {q : List InternetDatagram} (h : n.FlushesSerializable op)
    (hflushed : n.flushedQueue op = some (hop, q)) :
    (n.step op).Recovers hop := by
  apply recovers_of_queue
  rw [queue_step_of_flushed hflushed, unsent_eq_nil (h _ hflushed)]
  exact nofun

/-- In a run, whatever makes a call throw is gone afterwards exactly if no call
flushes a datagram that cannot be serialized.  Then no call throws, and every
next hop whose queue is flushed is served from then on. -/
theorem leavesOut_iff_flushesSerializable
    (eth : EthernetAddress) (ip : Address) (ops : List Op) :
    ((∀ pre op, pre ++ [op] <+: ops →
        (run step (new eth ip) pre).LeavesOut op) ↔
      Guarded step FlushesSerializable (new eth ip) ops) ∧
    (Guarded step FlushesSerializable (new eth ip) ops →
      ∀ pre op, pre ++ [op] <+: ops →
        (run step (new eth ip) pre).outcome op = .ok () ∧
        ∀ hop q,
          (run step (new eth ip) pre).flushedQueue op = some (hop, q) →
          (run step (new eth ip) (pre ++ [op])).Recovers hop) := by
  constructor
  · rw [guarded_iff_forall]
    simp only [leavesOut_iff]
  · intro hguarded pre op hpre
    have hflushes := guarded_iff_forall.mp hguarded pre op hpre
    refine ⟨flushesSerializable_iff.mp hflushes, ?_⟩
    intro hop q hflushed
    rw [run_concat]
    exact hflushes.recovers hflushed

/-- A datagram that claims to be of version 6. -/
def wrongVersionDatagram : InternetDatagram :=
  { header := { ver := 6, len := 20 } }

/-- The neighbour announces its address. -/
def announced : List Op :=
  [.recvFrame (arpFromNeighbour ARPMessage.opcodeReply neighbourEth)]

def sendWrongVersion : Op := .sendDatagram wrongVersionDatagram neighbourIp

/-- The interface after a datagram to the neighbour could not be
serialized. -/
def poisonedInterface : NetworkInterface :=
  run step (new ownEth ownIp) (announced ++ [sendWrongVersion])

/-- The datagram stays in the queue, and the next datagram throws and is not
emitted. -/
theorem not_leavesOut_wrongVersion :
    poisonedInterface.queue neighbourIp.ipv4Numeric =
        [wrongVersionDatagram] ∧
      poisonedInterface.mapping neighbourIp.ipv4Numeric =
        some neighbourEth ∧
      bareDatagram.Serializable ∧
      (poisonedInterface.sendDatagram bareDatagram neighbourIp).1.isOk =
        false ∧
      poisonedInterface.framesOut = [] ∧
      (poisonedInterface.sendDatagram bareDatagram neighbourIp).2.framesOut =
        [] ∧
      ¬ (run step (new ownEth ownIp) announced).LeavesOut
        sendWrongVersion := by
  refine ⟨by decide +kernel, by decide +kernel, by decide +kernel,
    by decide +kernel, by decide +kernel, by decide +kernel, ?_⟩
  rw [leavesOut_iff]
  decide +kernel

end NetworkInterface
end Sponge
