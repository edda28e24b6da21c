import Sponge.EndToEnd.Reliable

/-!
# Two connections over a reliable network

A link hands over the segments of each end in the order in which the end has
sent them.  The two directions do not wait for each other, so the calls of the
applications, the ticks and the deliveries come in any order.

When the network is quiet and nothing waits to be sent, the work is done:
nothing is in flight, everything that was written has arrived, and a stream
that was ended has ended at the other end.  This is more than safety; it says
that no acknowledgment, no window update and no FIN is ever owed.
-/

namespace Sponge

open TCPConnection (UsedOpen)
open Pair (Fit Reliable heard Next)

/-- The two ends, and how many segments of the other end each of them has
received. -/
structure Link where
  ends : Pair
  got : Side → ℕ

namespace Link

/-- An act at an end, or the delivery of the next segment to an end. -/
inductive Op where
  | act (x : Side) (a : Pair.Act)
  | deliver (x : Side)

def new (cfg : Side → TCPConfig) (randomIsn : Side → UInt32) : Link :=
  ⟨Pair.new cfg randomIsn, fun _ => 0⟩

/-- What the network does for a delivery. -/
def toPair (l : Link) : Op → Pair.Op
  | .act x a => .act x a
  | .deliver x => .deliver x (l.got x)

def step (l : Link) (op : Op) : Link where
  ends := l.ends.step (l.toPair op)
  got :=
    match op with
    | .act _ _ => l.got
    | .deliver x =>
        if l.got x < (l.ends x.other).segmentsOut.length then
          Function.update l.got x (l.got x + 1)
        else l.got

/-- The segments on their way to an end. -/
def inTransit (l : Link) (x : Side) : List TCPSegment :=
  (l.ends x.other).segmentsOut.drop (l.got x)

/-- Nothing is in transit and nothing waits to be sent. -/
def Quiet (l : Link) : Prop :=
  ∀ x, l.inTransit x = [] ∧ (l.ends x).sender.segmentsOut = []

/-! ## One step -/

section Step

variable {l : Link} {op : Op}

theorem op_ne_segmentReceived (a : Pair.Act) (seg : TCPSegment) :
    a.op ≠ .segmentReceived seg := by
  cases a <;> simp [Pair.Act.op]

/-- A step is a call at one end, and what it hands over is the next segment;
or nothing happens. -/
theorem step_cases (l : Link) (op : Op) :
    l.step op = l ∨ ∃ x call, l.ends.call (l.toPair op) = some (x, call) ∧
      Next (l.ends x.other).segmentsOut (l.got x) call ∧
      l.step op = ⟨Function.update l.ends x ((l.ends x).step call),
        Function.update l.got x (heard (l.got x) call)⟩ := by
  cases op with
  | act x a =>
      right
      refine ⟨x, a.op, rfl, ?_, ?_⟩
      · exact fun seg heq => absurd heq (op_ne_segmentReceived a seg)
      · have hgot : heard (l.got x) a.op = l.got x := by
          cases a <;> rfl
        rw [hgot, Function.update_eq_self]
        rfl
  | deliver x =>
      cases hnext : (l.ends x.other).segmentsOut[l.got x]? with
      | none =>
          have hends : l.ends.step (.deliver x (l.got x)) = l.ends := by
            rw [Pair.step, Pair.call, hnext]
            rfl
          have hlast := not_lt.mpr (List.getElem?_eq_none_iff.mp hnext)
          exact Or.inl (congrArg₂ Link.mk hends (if_neg hlast))
      | some seg =>
          have hcall : l.ends.call (.deliver x (l.got x)) =
              some (x, .segmentReceived seg) := by
            rw [Pair.call, hnext]
            rfl
          have hends : l.ends.step (.deliver x (l.got x)) =
              Function.update l.ends x
                ((l.ends x).step (.segmentReceived seg)) := by
            rw [Pair.step, hcall]
          have hlt := (List.getElem?_eq_some_iff.mp hnext).1
          refine Or.inr ⟨x, .segmentReceived seg, hcall, ?_,
            congrArg₂ Link.mk hends (if_pos hlt)⟩
          rintro _ ⟨rfl⟩
          exact hnext

end Step

/-! ## Runs -/

/-- Nobody gives up, the applications use their connection in order, and they
read so much of what arrives that there is always room. -/
def Attended (l : Link) (op : Op) : Prop :=
  l.ends.Orderly (l.toPair op) ∧ ¬ l.ends.GivesUp (l.toPair op) ∧
    (∀ call ∈ l.ends.call (l.toPair op), UsedOpen (l.ends call.1) call.2) ∧
    ∀ x, 0 < ((l.step op).ends x).receiver.windowSize

instance forallSideDecidable (P : Side → Prop) [∀ x, Decidable (P x)] :
    Decidable (∀ x, P x) :=
  decidable_of_iff (P .left ∧ P .right)
    ⟨fun h x => x.casesOn h.1 h.2, fun h => ⟨h .left, h .right⟩⟩

instance attendedDecidable (l : Link) (op : Op) : Decidable (l.Attended op) :=
  inferInstanceAs (Decidable (_ ∧ _ ∧ (∀ call ∈ _, _) ∧ ∀ _, _))

instance quietDecidable (l : Link) : Decidable l.Quiet :=
  inferInstanceAs (Decidable (∀ _, _ ∧ _))

/-- The ends work, and the streams flow in order in both directions. -/
structure Joined (l : Link) : Prop where
  fit : ∀ x, Fit (l.ends x)
  reliable : ∀ x, Reliable (l.ends x) (l.ends x.other) (l.got x)
    (l.got x.other)

section Joined

variable {l : Link} {op : Op}

/-- An end that makes a step remains fit. -/
theorem fit_step
    {c : TCPConnection} {call : TCPConnection.Op} (h : Fit c)
    (hend : TCPConnection.EndRespected c call)
    (hopen : c.UsedOpen call) (hreset : c.resets call = false)
    (hack : ∀ seg, call = .segmentReceived seg → seg.header.ack = true →
      c.sender.syn = true)
    (hroom : 0 < (c.step call).receiver.windowSize) : Fit (c.step call) where
  sound := h.sound.step hreset
  greeted := h.greeted.step hopen hack hreset
  ending := h.ending.step hend
  room := hroom
  capacity := by
    have hcap : (c.step call).receiver.capacity = c.receiver.capacity := by
      rcases c.step_receiver call with
        ⟨-, heq⟩ | ⟨-, heq | ⟨len, heq⟩ | ⟨seg, heq⟩⟩
      · rw [heq]; rfl
      · rw [heq]
      · rw [heq]; rfl
      · rw [heq, TCPReceiver.segmentReceived_capacity]
    rw [hcap]
    exact h.capacity

theorem Joined.step (h : Joined l) (hop : l.Attended op) :
    Joined (l.step op) := by
  obtain ⟨⟨hadmissible, hconnect⟩, hgives, hopen, hroom⟩ := hop
  rcases l.step_cases op with heq | ⟨x, call, hcall, hnext, heq⟩
  · rw [heq]
    exact h
  · obtain ⟨hend, hbelow⟩ := hadmissible (x, call) hcall
    have hsound := fun y => (h.fit y).sound
    have hreset := Pair.resets_eq_false hsound hgives hcall
    have hback := h.reliable x.other
    rw [Side.other_other] at hback
    have hroom' : 0 < ((l.ends x).step call).receiver.windowSize := by
      have hx := hroom x
      rw [heq] at hx
      simpa only [Function.update_self] using hx
    have hack : ∀ seg, call = .segmentReceived seg →
        seg.header.ack = true → (l.ends x).sender.syn = true := by
      intro seg hseg hflag
      have hmem := List.mem_of_getElem? (hnext seg hseg)
      have hrst := (hsound x.other).rst_eq_false hmem
      exact (h.reliable x).acks.flows.syn
        ((h.reliable x).acks.acks seg hmem hrst hflag).1
    rw [heq]
    refine ⟨?_, fun y => ?_⟩
    · rw [Function.forall_update_iff l.ends fun _ c => Fit c]
      exact ⟨fit_step (h.fit x) hend (hopen (x, call) hcall) hreset hack
        hroom', fun y _ => h.fit y⟩
    · dsimp only
      by_cases hy : y = x
      · subst hy
        rw [Function.update_self, Function.update_self,
          Function.update_of_ne y.other_ne, Function.update_of_ne y.other_ne]
        exact (h.reliable y).send (h.fit y) (h.fit y.other) hend hbelow
          (hconnect (y, call) hcall) hreset hnext
      · obtain rfl := Side.eq_other hy
        rw [Side.other_other, Function.update_self, Function.update_self,
          Function.update_of_ne hy, Function.update_of_ne hy]
        exact hback.receive (h.fit x.other) (h.fit x) hroom'
          (hconnect (x, call) hcall) hreset hnext

theorem joined_new
    {cfg : Side → TCPConfig} (hcap : ∀ x, 0 < (cfg x).recvCapacity ∧
      (cfg x).recvCapacity + 2 ^ 32 ≤ 2 ^ 64) (randomIsn : Side → UInt32) :
    Joined (new cfg randomIsn) where
  fit := fun x =>
    { sound := ⟨TCPConnection.outbound_new _ _, rfl, rfl⟩
      greeted := by
        show false = true ↔ false = true ∨ false = true
        decide
      ending := TCPConnection.ending_new _ _
      room := by
        have hinv : (TCPReceiver.new (cfg x).recvCapacity).Invariant :=
          TCPReceiver.invariant_new (by have := (hcap x).2; omega)
        have hroom := hinv.windowSize_eq
        rw [ByteStream.remainingCapacity_eq] at hroom
        exact hroom ▸ (hcap x).1
      capacity := (hcap x).2 }
  reliable := fun x =>
    { acks := Pair.acknowledges_new _ _ _ _ (by have := hcap x.other; omega)
      attentive := TCPSender.attentive_new _ _ _ _
      ahead := Nat.one_pos
      inOrder := ⟨rfl, nofun, nofun⟩
      gotC_le := le_rfl
      gotD_le := le_rfl
      data := rfl
      view := ⟨1, le_rfl, rfl⟩ }

theorem run_joined
    {cfg : Side → TCPConfig} (hcap : ∀ x, 0 < (cfg x).recvCapacity ∧
      (cfg x).recvCapacity + 2 ^ 32 ≤ 2 ^ 64) (randomIsn : Side → UInt32)
    {ops : List Op}
    (hops : Guarded step Attended (new cfg randomIsn) ops) :
    Joined (run step (new cfg randomIsn) ops) :=
  run_invariant (fun _ _ h hop => h.step hop) (joined_new hcap randomIsn) hops

/-- With nothing left to deliver, the receiver has everything that was sent,
and the sender knows it. -/
theorem Joined.settled (h : Joined l) (hquiet : l.Quiet) (x : Side) :
    (l.ends x.other).receiver.reached =
        (l.ends x).sender.nextSeqnoAbsolute ∧
      (l.ends x).sender.absAckno = (l.ends x).sender.nextSeqnoAbsolute := by
  have hrel := h.reliable x
  obtain ⟨hto, hqueue⟩ := hquiet x
  obtain ⟨hfrom, -⟩ := hquiet x.other
  rw [inTransit, Side.other_other] at hfrom
  rw [inTransit] at hto
  have hdata := hrel.data
  rw [TCPConnection.pipe, (hquiet x).2, List.append_nil, hfrom] at hdata
  have hreached : (l.ends x.other).receiver.reached =
      (l.ends x).sender.nextSeqnoAbsolute := hdata
  obtain ⟨edge, -, hview⟩ := hrel.view
  rw [hto] at hview
  have hacked : (l.ends x).sender.absAckno =
      (l.ends x.other).receiver.reached := congrArg View.acked hview
  exact ⟨hreached, hacked.trans hreached⟩

/-- If one end has sent its SYN and the network is quiet, both have. -/
theorem Joined.syn_other
    (h : Joined l) (hquiet : l.Quiet) {x : Side}
    (hsyn : (l.ends x).sender.syn = true) :
    (l.ends x.other).sender.syn = true := by
  have hreached := (h.settled hquiet x).1
  have hnext := (h.reliable x).acks.flows.segmented.next_eq
  rw [hsyn, Bool.toNat_true] at hnext
  have hheard : (l.ends x.other).receiver.syn = true := by
    by_contra hno
    rw [TCPReceiver.reached, if_neg hno] at hreached
    omega
  exact (h.fit x.other).greeted.mpr (Or.inr hheard)

theorem Joined.complete
    (h : Joined l) (hquiet : l.Quiet) {x : Side}
    (hsyn : (l.ends x).sender.syn = true) :
    (l.ends x).bytesInFlight = 0 ∧
      (l.ends x.other).inboundStream.written =
        (l.ends x).sender.streamIn.written ∧
      ((l.ends x).sender.streamIn.inputEnded = true →
        (l.ends x.other).inboundStream.inputEnded = true) := by
  have hrel := h.reliable x
  obtain ⟨hreached, hacked⟩ := h.settled hquiet x
  have hnext := hrel.acks.flows.segmented.next_eq
  rw [hsyn, Bool.toNat_true] at hnext
  have hheard : (l.ends x.other).receiver.syn = true := by
    by_contra hno
    rw [TCPReceiver.reached, if_neg hno] at hreached
    omega
  obtain ⟨hreachedEq, hnextEq, hwithin⟩ :=
    hrel.acks.flows.next_eq_of_syn hheard
  -- the window is open, so the sender has sent everything
  have hwindow : (l.ends x).sender.recvWdnSz ≠ 0 := by
    have hahead : (l.ends x).sender.absAckno < (l.ends x).sender.edge :=
      hrel.ahead
    rw [TCPSender.edge] at hahead
    omega
  obtain ⟨hempty, hfin⟩ :=
    ((h.fit x).ending.orderly.drained hsyn).resolve_left hwindow
  have hsent := (l.ends x).sender.streamIn.bytesWritten_eq
  rw [hempty, ByteStream.bytesRead_eq_length,
    ByteStream.bytesWritten_eq_length] at hsent
  have hended := TCPReceiver.toNat_le hrel.acks.flows.ended
  refine ⟨hrel.attentive.idle_iff.mpr hacked, ?_, fun hclosed => ?_⟩
  · refine hrel.acks.flows.written_prefix_written.eq_of_length ?_
    rw [TCPConnection.inboundStream, ← ByteStream.bytesWritten_eq_length]
    omega
  · rw [hfin hclosed, Bool.toNat_true] at hnextEq
    refine hrel.inOrder.ended ?_
    by_contra hno
    rw [Bool.eq_false_of_not_eq_true hno, Bool.toNat_false] at hreachedEq
    omega

end Joined

/-- Over a reliable network with attentive applications: when one end has
opened the connection, nothing is in transit and nothing waits to be sent, then
at both ends nothing is in flight, everything that was written has arrived at
the other end, and an ended stream has ended there. -/
theorem quiet_means_complete
    (cfg : Side → TCPConfig) (hcap : ∀ x, 0 < (cfg x).recvCapacity ∧
      (cfg x).recvCapacity + 2 ^ 32 ≤ 2 ^ 64) (randomIsn : Side → UInt32)
    (ops : List Op) (hops : Guarded step Attended (new cfg randomIsn) ops)
    (hquiet : (run step (new cfg randomIsn) ops).Quiet)
    (hopen : ∃ y, ((run step (new cfg randomIsn) ops).ends y).sender.syn = true)
    (x : Side) :
    let c := (run step (new cfg randomIsn) ops).ends x
    let d := (run step (new cfg randomIsn) ops).ends x.other
    c.bytesInFlight = 0 ∧
      d.inboundStream.written = c.sender.streamIn.written ∧
      (c.sender.streamIn.inputEnded = true →
        d.inboundStream.inputEnded = true) := by
  intro c d
  have hjoined := run_joined hcap randomIsn hops
  obtain ⟨y, hy⟩ := hopen
  by_cases hxy : x = y
  · exact hjoined.complete hquiet (hxy ▸ hy)
  · obtain rfl := Side.eq_other hxy
    exact hjoined.complete hquiet (hjoined.syn_other hquiet hy)

/-- The handshake, two bytes, and the end of the stream. -/
def closingRun : List Op :=
  [.act .left .connect, .deliver .right, .deliver .left, .deliver .right,
    .act .left (.write [97, 98]), .deliver .right, .deliver .left,
    .act .left .endInputStream, .deliver .right, .deliver .left]

theorem quiet_means_complete_closingRun :
    let l := run step (new Pair.smallConfigs fun _ => 0) closingRun
    l.Quiet ∧ (l.ends .left).sender.streamIn.inputEnded = true ∧
      (l.ends .left).bytesInFlight = 0 ∧
      (l.ends .right).inboundStream.written =
        (l.ends .left).sender.streamIn.written ∧
      (l.ends .right).inboundStream.inputEnded = true := by
  intro l
  have hcap : ∀ x, 0 < (Pair.smallConfigs x).recvCapacity ∧
      (Pair.smallConfigs x).recvCapacity + 2 ^ 32 ≤ 2 ^ 64 :=
    fun _ => show 0 < 4 ∧ 4 + 2 ^ 32 ≤ 2 ^ 64 by norm_num
  have hquiet : l.Quiet := by decide
  have hended : (l.ends .left).sender.streamIn.inputEnded = true := by decide
  obtain ⟨hflight, hwritten, hclosed⟩ :=
    quiet_means_complete Pair.smallConfigs hcap (fun _ => 0) closingRun
      (by decide) hquiet ⟨.left, by decide⟩ .left
  exact ⟨hquiet, hended, hflight, hwritten, hclosed hended⟩

end Link

end Sponge
