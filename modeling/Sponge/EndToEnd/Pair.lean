import Sponge.EndToEnd.Delivery
import Sponge.EndToEnd.Outbound
import Sponge.TCPConnection.Final
import Sponge.TCPConnection.Streams

/-!
# Two connections joined by a network

Both ends of the network are complete connections now.  The network loses,
duplicates, reorders and delays segments in both directions: a delivery hands
to one end any segment that the other end has ever put on its queue.  Nothing
else reaches an end, so the acknowledgments are no longer arbitrary; they are
those that the other end has sent.

An invariant speaks about one direction at a time.  A step at one end changes
the sending end of one direction and the receiving end of the other.
-/

namespace Sponge

/-- The two ends of the network. -/
inductive Side where
  | left
  | right
deriving DecidableEq

def Side.other : Side → Side
  | .left => .right
  | .right => .left

@[simp] theorem Side.other_other (x : Side) : x.other.other = x := by
  cases x <;> rfl

theorem Side.other_ne (x : Side) : x.other ≠ x := by
  cases x <;> decide

theorem Side.eq_other {x y : Side} (h : y ≠ x) : y = x.other := by
  revert h
  cases x <;> cases y <;> decide

/-- The connections at the two ends. -/
abbrev Pair := Side → TCPConnection

namespace Pair

open TCPSender (Made Extends)
open TCPConnection (Outbound SameContent EndRespected)

/-- What happens at an end without the network. -/
inductive Act where
  | connect
  | write (data : Bytes)
  | endInputStream
  | tick (ms : ℕ)
  | readInbound (len : ℕ)

/-- The call that an act makes. -/
def Act.op : Act → TCPConnection.Op
  | .connect => .connect
  | .write data => .write data
  | .endInputStream => .endInputStream
  | .tick ms => .tick ms
  | .readInbound len => .readInbound len

/-- What can happen: an act at an end, and the delivery to the end `x` of the
segment at index `i` among all that the other end has sent. -/
inductive Op where
  | act (x : Side) (a : Act)
  | deliver (x : Side) (i : ℕ)

def new (cfg : Side → TCPConfig) (randomIsn : Side → UInt32) : Pair :=
  fun x => TCPConnection.new (cfg x) (randomIsn x)

/-- The call that is made, and at which end.  A delivery makes none if there
is no segment at the index. -/
def call (p : Pair) : Op → Option (Side × TCPConnection.Op)
  | .act x a => some (x, a.op)
  | .deliver x i =>
      (p x.other).segmentsOut[i]?.map fun seg => (x, .segmentReceived seg)

def step (p : Pair) (op : Op) : Pair :=
  match p.call op with
  | some (x, op) => Function.update p x ((p x).step op)
  | none => p

/-! ## One step -/

/-- What a call at an end can be: if it is the receipt of a segment, the other
end has sent the segment. -/
theorem mem_of_call
    {p : Pair} {op : Op} {x : Side} {seg : TCPSegment}
    (h : p.call op = some (x, .segmentReceived seg)) :
    seg ∈ (p x.other).segmentsOut := by
  cases op with
  | act y a => cases a <;> simp [call, Act.op] at h
  | deliver y i =>
      obtain ⟨sent, hsent, heq⟩ := Option.map_eq_some_iff.mp h
      obtain ⟨rfl, hop⟩ := Prod.mk.inj heq
      obtain rfl := TCPConnection.Op.segmentReceived.inj hop
      exact List.mem_of_getElem? hsent

/-- A step is a call at one end, or nothing happens. -/
theorem step_cases (p : Pair) (op : Op) :
    p.step op = p ∨ ∃ x call, p.call op = some (x, call) ∧
      p.step op = Function.update p x ((p x).step call) := by
  unfold step
  split
  next x call hcall => exact Or.inr ⟨x, call, hcall, rfl⟩
  · exact Or.inl rfl

/-- A relation holds in both directions. -/
def Both (R : TCPConnection → TCPConnection → Prop) (p : Pair) : Prop :=
  ∀ x, R (p x) (p x.other)

theorem both_update_iff
    {R : TCPConnection → TCPConnection → Prop} {p : Pair} {x : Side}
    {c : TCPConnection} :
    Both R (Function.update p x c) ↔ R c (p x.other) ∧ R (p x.other) c := by
  constructor
  · intro h
    have hx := h x
    have hother := h x.other
    rw [Side.other_other] at hother
    rw [Function.update_self, Function.update_of_ne x.other_ne] at hx hother
    exact ⟨hx, hother⟩
  · rintro ⟨hx, hother⟩ y
    by_cases hy : y = x
    · subst hy
      rw [Function.update_self, Function.update_of_ne y.other_ne]
      exact hx
    · obtain rfl := Side.eq_other hy
      rw [Side.other_other, Function.update_self, Function.update_of_ne hy]
      exact hother

/-- A relation in both directions is kept if it is kept when the sending end
makes a step and when the receiving end makes one. -/
theorem Both.step
    {R : TCPConnection → TCPConnection → Prop} {p : Pair} {op : Op}
    (h : Both R p)
    (hsend : ∀ x call, p.call op = some (x, call) →
      R (p x) (p x.other) → R ((p x).step call) (p x.other))
    (hreceive : ∀ x call, p.call op = some (x, call) →
      R (p x.other) (p x) → R (p x.other) ((p x).step call)) :
    Both R (p.step op) := by
  rcases p.step_cases op with heq | ⟨x, call, hcall, heq⟩
  · rw [heq]
    exact h
  · have hback := h x.other
    rw [Side.other_other] at hback
    rw [heq]
    exact both_update_iff.mpr
      ⟨hsend x call hcall (h x), hreceive x call hcall hback⟩

end Pair

/-! ## One connection -/

namespace TCPReceiver

section SetError

variable {r : TCPReceiver}

theorem Invariant.setError (h : Invariant r) : Invariant r.setError where
  wellFormed :=
    { cap_lt := h.wellFormed.cap_lt
      expected_eq := h.wellFormed.expected_eq
      separated := h.wellFormed.separated
      nonempty := h.wellFormed.nonempty
      starts := h.wellFormed.starts
      fits := h.wellFormed.fits
      ends := h.wellFormed.ends
      count := h.wellFormed.count
      defined := h.wellFormed.defined
      above := h.wellFormed.above }
  cap_eq := h.cap_eq
  checkpoint_lt := h.checkpoint_lt
  ended_of_inputEnded := h.ended_of_inputEnded
  inputEnded_of_output := h.inputEnded_of_output
  untouched := h.untouched
  expAck_eq := h.expAck_eq
  ack_eq := h.ack_eq

end SetError

end TCPReceiver

namespace TCPConnection

open TCPSender (Extends)

section Step

variable {c : TCPConnection} {op : Op}

/-- What an operation does to the sender never takes anything back. -/
theorem step_sender_extends (c : TCPConnection) (op : Op) :
    Extends c.sender (c.step op).sender := by
  obtain ⟨out, heq⟩ := c.step_sender op
  have hrun : Extends c.sender
      (run TCPSender.drivenStep c.sender (c.senderOps op)) :=
    @run_related _ _ _ (fun _ _ => True) (fun _ => True) Extends
      Extends.refl (fun _ _ _ h h' => h.trans h')
      (fun s op _ _ => ⟨trivial, TCPSender.drivenStep_extends s op⟩) _ _
      trivial (guarded_of_forall (fun _ _ => trivial) _ _)
  rw [heq]
  exact ⟨hrun.isn, hrun.next, hrun.created, hrun.popped, hrun.finSent⟩

end Step

end TCPConnection

namespace Pair

open TCPSender (Made Extends)
open TCPConnection (Outbound SameContent EndRespected)

/-! ## One direction -/

/-- Only the SYN is created at the sequence number zero. -/
theorem syn_of_created_zero
    {s : TCPSender} (h : s.Segmented) {seg : TCPSegment}
    (hmem : (0, seg) ∈ s.created) : seg.header.syn = true := by
  obtain ⟨una, acked, rest, hin⟩ := h.tracked
  have hcontiguous := hin.contiguous
  rcases h.synFirst with ⟨-, hnil⟩ | ⟨-, first, more, hcreated, hsyn, -⟩
  · rw [hnil] at hmem
    exact absurd hmem List.not_mem_nil
  · rw [hcreated] at hmem hcontiguous
    rcases List.mem_cons.mp hmem with hfirst | hlater
    · obtain ⟨-, rfl⟩ := Prod.mk.inj hfirst
      exact hsyn
    · -- everything else starts behind the SYN
      have hstart := (hcontiguous.2.mem_bounds hlater).1
      rw [TCPSegment.lengthInSequenceSpace_eq, hsyn, Bool.toNat_true] at hstart
      omega

/-- Segments that a sender has made carry a part of what it has read from its
stream, and only the SYN occupies the sequence number zero. -/
theorem carries_of_made
    {s : TCPSender} (h : s.Segmented) {seg : TCPSegment} (hmade : s.Made seg) :
    ∃ n, n + seg.lengthInSequenceSpace ≤ s.nextSeqnoAbsolute ∧
      System.Carries s.streamIn.popped s.finSent s.isn n seg ∧
      (n = 0 → 0 < seg.lengthInSequenceSpace → seg.header.syn = true) := by
  rcases hmade with ⟨n, hmem⟩ | ⟨n, hle, rfl⟩
  · have hplaced := h.placed _ hmem
    obtain ⟨una, acked, rest, hin⟩ := h.tracked
    have hend := (hin.contiguous.mem_bounds hmem).2
    refine ⟨n, hend, ⟨h.seqno _ hmem, ?_, ?_, ?_⟩, ?_⟩
    · rcases Nat.eq_zero_or_pos n with hzero | hpos
      · exact Or.inl (hplaced.first hzero)
      · exact Or.inr ⟨hpos, hplaced.within, hplaced.payload⟩
    · intro hsyn
      exact ⟨hplaced.syn hsyn, hplaced.first (hplaced.syn hsyn)⟩
    · intro hfin
      rcases h.finLast with ⟨-, hno⟩ | ⟨hsent, -⟩
      · exact absurd ((hno _ hmem).symm.trans hfin) (by decide)
      · exact hsent
    · rintro rfl _
      exact syn_of_created_zero h hmem
  · refine ⟨n, hle, ⟨rfl, Or.inl rfl, ?_, ?_⟩, ?_⟩
    · exact fun hsyn => absurd hsyn Bool.false_ne_true
    · exact fun hfin => absurd hfin Bool.false_ne_true
    · intro _ hpos
      exact absurd hpos (lt_irrefl 0)

/-- The stream of `c` flows to `d`: the receiver of `d` holds parts of what
the sender of `c` has read from its stream, and has seen the SYN and the FIN
only if they were sent. -/
structure Flows (c d : TCPConnection) : Prop where
  segmented : c.sender.Segmented
  outbound : c.Outbound
  below : c.sender.nextSeqnoAbsolute < 2 ^ 31
  follows : System.Follows c.sender.streamIn.popped c.sender.isn d.receiver
  syn : d.receiver.syn = true → c.sender.syn = true
  ended : d.receiver.ended = true → c.sender.finSent = true

section Flows

variable {c d : TCPConnection} {seg : TCPSegment}

theorem flows_new
    (cfg cfg' : TCPConfig) (randomIsn randomIsn' : UInt32)
    (hcap : cfg'.recvCapacity < 2 ^ 64) :
    Flows (TCPConnection.new cfg randomIsn)
      (TCPConnection.new cfg' randomIsn') where
  segmented := TCPSender.segmented_new _ _ _ _
  outbound := TCPConnection.outbound_new cfg randomIsn
  below := Nat.two_pow_pos 31
  follows := System.follows_new hcap _ _
  syn := fun hsyn => absurd hsyn Bool.false_ne_true
  ended := fun hended => absurd hended Bool.false_ne_true

/-- Everything that an end has sent carries a part of its stream. -/
theorem Flows.carries (h : Flows c d) (hmem : seg ∈ c.segmentsOut) :
    ∃ n, n + seg.lengthInSequenceSpace ≤ c.sender.nextSeqnoAbsolute ∧
      System.Carries c.sender.streamIn.popped c.sender.finSent c.sender.isn n
        seg ∧
      (n = 0 → 0 < seg.lengthInSequenceSpace → seg.header.syn = true) := by
  obtain ⟨made, hmade, hsame⟩ := h.outbound.sent seg hmem
  obtain ⟨n, hle, hcarries, hfirst⟩ := carries_of_made h.segmented hmade
  have hlength := hsame.length
  refine ⟨n, hlength ▸ hle, ⟨?_, ?_, ?_, ?_⟩, ?_⟩
  · exact hsame.seqno.trans hcarries.seqno
  · rw [hsame.payload]
    exact hcarries.payload
  · rw [hsame.syn, hsame.payload]
    exact hcarries.syn
  · rw [hsame.fin]
    exact hcarries.fin
  · rw [hsame.syn, hlength]
    exact hfirst

/-- The sending end makes a step. -/
theorem Flows.send
    (h : Flows c d) {op : TCPConnection.Op} (hop : EndRespected c op)
    (hbelow : (c.step op).sender.nextSeqnoAbsolute < 2 ^ 31) :
    Flows (c.step op) d := by
  have hext := c.step_sender_extends op
  have hsegmented : (c.step op).sender.Segmented :=
    c.step_sender_invariant
      (fun s out error hs => hs.congr (hs.tracked.mute out error) rfl rfl rfl
        rfl rfl rfl fun _ heof => heof)
      (fun s op hs hop => hs.drivenStep hop) h.segmented
      (TCPConnection.guarded_endRespected hop)
  have hsyn : c.sender.syn = true → (c.step op).sender.syn = true := by
    intro hsyn
    by_contra hno
    have hzero := hsegmented.next_of_not_syn (Bool.eq_false_of_not_eq_true hno)
    have hnext := h.segmented.next_eq
    have hle := hext.next
    rw [hsyn, Bool.toNat_true] at hnext
    omega
  exact
    { segmented := hsegmented
      outbound := h.outbound.step op
      below := hbelow
      follows := by
        rw [hext.isn]
        exact h.follows.extend hext.popped
      syn := hsyn ∘ h.syn
      ended := hext.finSent ∘ h.ended }

/-- A segment of the sending end arrives. -/
theorem Flows.arrive
    (h : Flows c d) (hmem : seg ∈ c.segmentsOut) :
    System.Follows c.sender.streamIn.popped c.sender.isn
        (d.receiver.segmentReceived seg) ∧
      ((d.receiver.segmentReceived seg).syn = true → c.sender.syn = true) ∧
      ((d.receiver.segmentReceived seg).ended = true →
        c.sender.finSent = true) := by
  obtain ⟨n, hle, hcarries, -⟩ := h.carries hmem
  have hbelow := h.below
  have hlength := seg.lengthInSequenceSpace_eq
  rw [Buffer.size] at hlength
  refine ⟨h.follows.segmentReceived hcarries (by omega), ?_, ?_⟩
  · intro hafter
    by_cases htakes : d.receiver.Takes seg
    · by_contra hno
      have hnone := Bool.eq_false_of_not_eq_true hno
      have hzero := h.segmented.next_of_not_syn hnone
      -- a SYN would occupy a sequence number
      have hsyn : seg.header.syn = false := by
        by_contra hsyn
        rw [Bool.eq_true_of_not_eq_false hsyn, Bool.toNat_true] at hlength
        omega
      have hheard : d.receiver.syn = true := by
        by_contra hunheard
        exact htakes (hsyn.trans (Bool.eq_false_of_not_eq_true hunheard).symm)
      exact hno (h.syn hheard)
    · rw [TCPReceiver.segmentReceived_of_not_takes htakes] at hafter
      exact h.syn hafter
  · intro hafter
    by_cases htakes : d.receiver.Takes seg
    · rw [TCPReceiver.segmentReceived_ended htakes, Bool.or_eq_true] at hafter
      exact hafter.elim h.ended hcarries.fin
    · rw [TCPReceiver.segmentReceived_of_not_takes htakes] at hafter
      exact h.ended hafter

/-- The receiving end makes a step. -/
theorem Flows.receive
    (h : Flows c d) {op : TCPConnection.Op}
    (hop : ∀ seg, op = .segmentReceived seg → seg ∈ c.segmentsOut) :
    Flows c (d.step op) := by
  have hreceiver :
      System.Follows c.sender.streamIn.popped c.sender.isn
          (d.step op).receiver ∧
        ((d.step op).receiver.syn = true → c.sender.syn = true) ∧
        ((d.step op).receiver.ended = true → c.sender.finSent = true) := by
    refine TCPConnection.step_receiver_rule
      (P := fun r => System.Follows c.sender.streamIn.popped c.sender.isn r ∧
        (r.syn = true → c.sender.syn = true) ∧
        (r.ended = true → c.sender.finSent = true))
      ⟨h.follows, h.syn, h.ended⟩ ⟨?_, h.syn, h.ended⟩ ?_ ?_
    · exact ⟨h.follows.invariant.setError, h.follows.isn_eq,
        h.follows.checkpoint_lt, ⟨h.follows.agrees.within,
          h.follows.agrees.written, h.follows.agrees.pieces⟩⟩
    · exact fun len _ => ⟨h.follows.popOutput len, h.syn, h.ended⟩
    · exact fun seg hseg _ _ => h.arrive (hop seg hseg)
  exact
    { segmented := h.segmented
      outbound := h.outbound
      below := h.below
      follows := hreceiver.1
      syn := hreceiver.2.1
      ended := hreceiver.2.2 }

/-- What was received is a prefix of what was written. -/
theorem Flows.written_prefix_written (h : Flows c d) :
    d.inboundStream.written <+: c.sender.streamIn.written := by
  have hwritten := h.follows.agrees.written
  rw [extract_zero] at hwritten
  rw [TCPConnection.inboundStream, TCPReceiver.streamOut, hwritten]
  exact (List.take_prefix _ _).trans (System.popped_prefix_written _)

end Flows

/-! ## Both directions -/

/-- At the end that is called, no byte is accepted after the end of its
stream, and its sequence numbers stay below `2 ^ 31`. -/
def Admissible (p : Pair) (op : Op) : Prop :=
  ∀ call ∈ p.call op, EndRespected (p call.1) call.2 ∧
    ((p call.1).step call.2).sender.nextSeqnoAbsolute < 2 ^ 31

instance endRespectedDecidable (c : TCPConnection) :
    ∀ op, Decidable (EndRespected c op)
  | .write _ => inferInstanceAs (Decidable (¬ (_ ∧ _ ∧ _ ∧ _)))
  | .connect => isTrue trivial
  | .endInputStream => isTrue trivial
  | .tick _ => isTrue trivial
  | .segmentReceived _ => isTrue trivial
  | .readInbound _ => isTrue trivial

instance admissibleDecidable (p : Pair) (op : Op) :
    Decidable (Admissible p op) :=
  inferInstanceAs (Decidable (∀ call ∈ p.call op, _ ∧ _))

theorem Both.flows_step
    {p : Pair} {op : Op} (h : Both Flows p) (hop : Admissible p op) :
    Both Flows (p.step op) := by
  apply Both.step h
  · intro x call hcall hflows
    obtain ⟨hend, hbelow⟩ := hop (x, call) hcall
    exact hflows.send hend hbelow
  · intro x call hcall hflows
    apply hflows.receive
    rintro seg rfl
    exact mem_of_call hcall

theorem run_flows
    {cfg : Side → TCPConfig} (hcap : ∀ x, (cfg x).recvCapacity < 2 ^ 64)
    (randomIsn : Side → UInt32) {ops : List Op}
    (hops : Guarded step Admissible (new cfg randomIsn) ops) :
    Both Flows (run step (new cfg randomIsn) ops) :=
  run_invariant (fun _ _ h hop => h.flows_step hop)
    (fun x => flows_new (cfg x) (cfg x.other) _ _ (hcap x.other)) hops

/-- Whatever the network does, what an end can read is at every moment a
prefix of what was written at the other end, in both directions. -/
theorem inboundStreams_agree
    (cfg : Side → TCPConfig) (hcap : ∀ x, (cfg x).recvCapacity < 2 ^ 64)
    (randomIsn : Side → UInt32) (ops : List Op)
    (hops : Guarded step Admissible (new cfg randomIsn) ops) (x : Side) :
    let p := run step (new cfg randomIsn) ops
    (p x.other).inboundStream.written <+: (p x).sender.streamIn.written := by
  intro p
  exact (run_flows hcap randomIsn hops x).written_prefix_written

/-- The handshake, and bytes in both directions, with a segment that arrives
twice and another one that overtakes it. -/
def crossingRun : List Op :=
  [.act .left .connect, .deliver .right 0, .deliver .left 0,
    .deliver .right 1, .act .left (.write [97, 98]),
    .act .left (.write [99]), .deliver .right 3, .deliver .right 2,
    .deliver .right 3, .act .right (.write [100]), .act .right (.readInbound 2),
    .deliver .left 4]

def smallConfigs : Side → TCPConfig := fun _ => TCPConnection.smallConfig

theorem smallConfigs_capacity (x : Side) :
    (smallConfigs x).recvCapacity < 2 ^ 64 :=
  show 4 < 2 ^ 64 by norm_num

theorem inboundStreams_agree_crossingRun :
    Guarded step Admissible (new smallConfigs fun _ => 0) crossingRun ∧
      let p := run step (new smallConfigs fun _ => 0) crossingRun
      (p .right).inboundStream.written <+: (p .left).sender.streamIn.written ∧
        (p .left).inboundStream.written <+:
          (p .right).sender.streamIn.written := by
  have hguarded :
      Guarded step Admissible (new smallConfigs fun _ => 0) crossingRun := by
    decide
  exact ⟨hguarded,
    inboundStreams_agree smallConfigs smallConfigs_capacity _ crossingRun
      hguarded .left,
    inboundStreams_agree smallConfigs smallConfigs_capacity _ crossingRun
      hguarded .right⟩

example :
    let p := run step (new smallConfigs fun _ => 0) crossingRun
    (p .right).inboundStream.written = [97, 98, 99] ∧
      (p .left).inboundStream.written = [100] := by
  decide

/-! ## Resets -/

/-- An end gives the connection up, after too many retransmissions. -/
def GivesUp (p : Pair) (op : Op) : Prop :=
  ∃ x ms, op = .act x (.tick ms) ∧ (p x).resets (.tick ms) = true

instance givesUpDecidable (p : Pair) : ∀ op, Decidable (GivesUp p op)
  | .act x (.tick ms) =>
      decidable_of_iff ((p x).resets (.tick ms) = true) (by simp [GivesUp])
  | .act _ .connect => isFalse (by simp [GivesUp])
  | .act _ (.write _) => isFalse (by simp [GivesUp])
  | .act _ .endInputStream => isFalse (by simp [GivesUp])
  | .act _ (.readInbound _) => isFalse (by simp [GivesUp])
  | .deliver _ _ => isFalse (by simp [GivesUp])

/-- An end that has not failed. -/
structure Sound (c : TCPConnection) : Prop where
  outbound : c.Outbound
  sender : c.sender.streamIn.error = false
  receiver : c.receiver.streamOut.error = false

theorem Sound.rst_eq_false
    {c : TCPConnection} (h : Sound c) {seg : TCPSegment}
    (hmem : seg ∈ c.segmentsOut) : seg.header.rst = false := by
  by_contra hrst
  have herror := h.outbound.reset seg hmem (Bool.eq_true_of_not_eq_false hrst)
  exact absurd (h.sender.symm.trans herror) Bool.false_ne_true

theorem Sound.step
    {c : TCPConnection} (h : Sound c) {op : TCPConnection.Op}
    (hop : c.resets op = false) : Sound (c.step op) where
  outbound := h.outbound.step op
  sender := by rw [TCPConnection.step_sender_error, h.sender, hop]; rfl
  receiver := by rw [TCPConnection.step_receiver_error, h.receiver, hop]; rfl

/-- As long as both ends are sound, only giving up breaks a connection. -/
theorem resets_eq_false
    {p : Pair} {op : Op} (hsound : ∀ x, Sound (p x))
    (hop : ¬ p.GivesUp op) {x : Side} {call : TCPConnection.Op}
    (hcall : p.call op = some (x, call)) : (p x).resets call = false := by
  cases call with
  | segmentReceived seg =>
      have hrst := (hsound x.other).rst_eq_false (mem_of_call hcall)
      rw [TCPConnection.resets, hrst, Bool.and_false]
  | tick ms =>
      by_contra hreset
      refine hop ⟨x, ms, ?_, Bool.eq_true_of_not_eq_false hreset⟩
      cases op with
      | act y a => cases a <;> simp_all [Pair.call, Act.op]
      | deliver y i => simp [Pair.call] at hcall
  | connect => rfl
  | write data => rfl
  | endInputStream => rfl
  | readInbound len => rfl

theorem sound_step
    {p : Pair} {op : Op} (hsound : ∀ x, Sound (p x))
    (hop : ¬ p.GivesUp op) : ∀ x, Sound (p.step op x) := by
  rcases p.step_cases op with heq | ⟨y, call, hcall, heq⟩
  · rw [heq]
    exact hsound
  · rw [heq, Function.forall_update_iff p fun _ c => Sound c]
    exact ⟨(hsound y).step (resets_eq_false hsound hop hcall),
      fun x _ => hsound x⟩

/-- A stream fails, and a reset is sent, only after one of the ends has given
up: the network alone cannot break a connection. -/
theorem failed_only_after_giving_up
    (cfg : Side → TCPConfig) (randomIsn : Side → UInt32) (ops : List Op)
    (x : Side)
    (h : let c := run step (new cfg randomIsn) ops x
      c.sender.streamIn.error = true ∨ c.inboundStream.error = true ∨
        ∃ seg ∈ c.segmentsOut, seg.header.rst = true) :
    ∃ pre op, pre ++ [op] <+: ops ∧
      GivesUp (run step (new cfg randomIsn) pre) op := by
  by_contra hnever
  have hguarded : Guarded step (fun p op => ¬ p.GivesUp op)
      (new cfg randomIsn) ops := by
    refine guarded_iff_forall.mpr fun pre op hpre hgives => ?_
    exact hnever ⟨pre, op, hpre, hgives⟩
  have hfresh : ∀ y, Sound (new cfg randomIsn y) :=
    fun y => ⟨TCPConnection.outbound_new _ _, rfl, rfl⟩
  have hsound : ∀ y, Sound (run step (new cfg randomIsn) ops y) :=
    @run_invariant _ _ step _ (fun p => ∀ y, Sound (p y))
      (fun _ _ hs hop => sound_step hs hop) _ _ hfresh hguarded
  rcases h with hsender | hreceiver | ⟨seg, hmem, hrst⟩
  · exact Bool.false_ne_true ((hsound x).sender.symm.trans hsender)
  · exact Bool.false_ne_true ((hsound x).receiver.symm.trans hreceiver)
  · exact Bool.false_ne_true
      (((hsound x).rst_eq_false hmem).symm.trans hrst)

/-- Nobody answers the SYN until the left end gives up; then its reset
arrives. -/
def abandonedRun : List Op :=
  .act .left .connect ::
    (List.range 9).map (fun n => .act .left (.tick (1000 * 2 ^ n))) ++
      [.deliver .right 0, .deliver .right 9]

theorem failed_only_after_giving_up_abandonedRun :
    (run step (new smallConfigs fun _ => 0) abandonedRun
        .right).inboundStream.error = true ∧
      ∃ pre op, pre ++ [op] <+: abandonedRun ∧
        GivesUp (run step (new smallConfigs fun _ => 0) pre) op := by
  have herror : (run step (new smallConfigs fun _ => 0) abandonedRun
      .right).inboundStream.error = true := by
    decide
  exact ⟨herror, failed_only_after_giving_up smallConfigs _ abandonedRun .right
    (Or.inr (Or.inl herror))⟩

end Pair

end Sponge
