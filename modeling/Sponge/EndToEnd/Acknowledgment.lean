import Sponge.EndToEnd.Pair
import Sponge.TCPSender.Allowance

/-!
# Acknowledgments between two connections

What a connection acknowledges, it has received, and what it offers as its
window, it has room for.  So in a pair of connections the bounds of a sender
are those of the receiver at the other end: nothing counts as acknowledged
before it was delivered, and nothing is sent for which there is no room, but
for the one byte that probes a closed window.

Before its SYN was received, an end sends nothing but the SYN.  The other end
has then nothing to answer and acknowledges nothing.
-/

namespace Sponge

theorem TCPSender.Within.mute
    {limit acked : ℕ} {s : TCPSender} (h : Within limit acked s)
    (out : List TCPSegment) (error : Bool) :
    Within limit acked (s.mute out error) :=
  ⟨h.tracked.mute out error, h.fresh, h.window, h.una, h.absAckno⟩

namespace TCPReceiver

/-! ## What a receiver has and what it has room for -/

/-- The sequence numbers that the receiver has taken: the SYN, the bytes that
were written, and a FIN. -/
def reached (r : TCPReceiver) : ℕ :=
  if r.syn then 1 + r.streamOut.bytesWritten + r.ended.toNat else 0

/-- The end of what the receiver has room for, with a FIN, and one byte more
than that.  Before the SYN there is room for the SYN only. -/
def allowance (r : TCPReceiver) : ℕ :=
  if r.syn then 2 + r.streamOut.bytesRead + r.capacity + r.ended.toNat else 1

/-- What no operation takes back. -/
structure Grows (r t : TCPReceiver) : Prop where
  syn : r.syn = true → t.syn = true
  ended : r.ended = true → t.ended = true
  written : r.streamOut.bytesWritten ≤ t.streamOut.bytesWritten
  read : r.streamOut.bytesRead ≤ t.streamOut.bytesRead
  capacity : t.capacity = r.capacity

section Grows

variable {r t : TCPReceiver}

theorem one_le_allowance (r : TCPReceiver) : 1 ≤ r.allowance := by
  unfold allowance
  split
  · omega
  · exact le_rfl

theorem toNat_le {b b' : Bool} (h : b = true → b' = true) :
    b.toNat ≤ b'.toNat := by
  cases b with
  | true => rw [h rfl]
  | false => exact Nat.zero_le _

theorem Grows.reached_le (h : Grows r t) : r.reached ≤ t.reached := by
  have hended := toNat_le h.ended
  have hwritten := h.written
  unfold reached
  split
  next hsyn =>
    rw [if_pos (h.syn hsyn)]
    omega
  · exact Nat.zero_le _

theorem Grows.allowance_le (h : Grows r t) : r.allowance ≤ t.allowance := by
  have hended := toNat_le h.ended
  have hread := h.read
  have hcapacity := h.capacity
  unfold allowance
  split
  next hsyn =>
    rw [if_pos (h.syn hsyn)]
    omega
  · exact t.one_le_allowance

theorem Grows.refl (r : TCPReceiver) : Grows r r :=
  ⟨id, id, le_rfl, le_rfl, rfl⟩

theorem grows_setError (r : TCPReceiver) : Grows r r.setError :=
  ⟨id, id, le_rfl, le_rfl, rfl⟩

theorem grows_popOutput (r : TCPReceiver) (len : ℕ) :
    Grows r (r.popOutput len) where
  syn := id
  ended := id
  written := by rw [popOutput_streamOut, ByteStream.popOutput_bytesWritten]
  read := by
    rw [popOutput_streamOut, ByteStream.popOutput_bytesRead]
    exact Nat.le_add_right _ _
  capacity := rfl

theorem Invariant.grows_segmentReceived
    (h : Invariant r) {seg : TCPSegment} (hrange : r.InRange seg) :
    Grows r (r.segmentReceived seg) := by
  by_cases htakes : r.Takes seg
  · have hpush := r.reassembler.pushSubstring_writerOnly seg.payload.str
      (r.indexOf seg) (r.ended || seg.header.fin)
    refine ⟨fun _ => segmentReceived_syn htakes, fun hended => ?_, ?_, ?_,
      segmentReceived_capacity r seg⟩
    · rw [segmentReceived_ended htakes, hended, Bool.true_or]
    · rw [h.bytesWritten_segmentReceived htakes hrange, ← h.expectedIndex_eq]
      exact h.wellFormed.expectedIndex_le_pushSubstring (hrange htakes) _
    · rw [ByteStream.bytesRead_eq_length, ByteStream.bytesRead_eq_length,
        streamOut, streamOut, segmentReceived_reassembler htakes, hpush.popped]
  · rw [segmentReceived_of_not_takes htakes]
    exact Grows.refl r

/-- The acknowledgment number and the window that are advertised. -/
theorem Invariant.advertised
    (h : Invariant r) (hsyn : r.syn = true) :
    r.ackno = some (wrap r.expAck r.isn) ∧ r.expAck ≤ r.reached ∧
      r.expAck + max r.windowSize 1 ≤ r.allowance := by
  have hack := h.expAck_eq hsyn
  have hflag : (r.ended && r.reassembler.empty).toNat ≤ r.ended.toNat :=
    toNat_le fun hboth => (Bool.and_eq_true_iff.mp hboth).1
  have hwindow := h.windowSize_eq
  have hwritten := r.streamOut.bytesWritten_eq
  have hsize := r.streamOut.bufferSize_le
  rw [ByteStream.remainingCapacity_eq, h.cap_eq] at hwindow
  rw [h.cap_eq] at hsize
  rw [computedAck] at hack
  refine ⟨?_, ?_, ?_⟩
  · rw [ackno, if_pos hsyn, h.ack_eq hsyn]
  · rw [reached, if_pos hsyn]
    omega
  · rw [allowance, if_pos hsyn]
    omega

end Grows

end TCPReceiver

namespace Pair

open TCPConnection (Unheard Answers UpToDate EndRespected)
open TCPSender (Within Granted)

/-! ## One direction -/

/-- The stream of `c` flows to `d`, and the acknowledgments of `d` keep the
sender of `c` within the bounds of the receiver of `d`. -/
structure Acknowledges (c d : TCPConnection) : Prop where
  flows : Flows c d
  within : Within d.receiver.allowance d.receiver.reached c.sender
  unheard : d.receiver.syn = false → d.Unheard
  acks : ∀ seg ∈ d.segmentsOut, seg.header.rst = false →
    seg.header.ack = true → d.receiver.syn = true ∧
      ∃ k, seg.header.ackno = wrap k c.sender.isn ∧
        k ≤ d.receiver.reached ∧
        k + max seg.header.win.toNat 1 ≤ d.receiver.allowance

section Acknowledges

variable {c d : TCPConnection} {seg : TCPSegment} {op : TCPConnection.Op}

theorem acknowledges_new
    (cfg cfg' : TCPConfig) (randomIsn randomIsn' : UInt32)
    (hcap : cfg'.recvCapacity < 2 ^ 64) :
    Acknowledges (TCPConnection.new cfg randomIsn)
      (TCPConnection.new cfg' randomIsn') where
  flows := flows_new cfg cfg' randomIsn randomIsn' hcap
  within := TCPSender.within_new _ _ _ _ _ _
  unheard := fun _ => ⟨rfl, ⟨List.forall_mem_nil _, List.forall_mem_nil _⟩,
    List.forall_mem_nil _⟩
  acks := List.forall_mem_nil _

/-- What the receiver has taken was sent. -/
theorem Flows.reached_le (h : Flows c d) :
    d.receiver.reached ≤ c.sender.nextSeqnoAbsolute := by
  unfold TCPReceiver.reached
  split
  next hsyn =>
    have hnext := h.segmented.next_eq
    have hwritten := h.follows.agrees.within
    have hended := TCPReceiver.toNat_le h.ended
    rw [h.follows.invariant.expectedIndex_eq] at hwritten
    rw [h.syn hsyn, Bool.toNat_true] at hnext
    omega
  · exact Nat.zero_le _

/-- The sender reads an acknowledgment as it was meant. -/
theorem Acknowledges.absoluteAckno_eq
    (h : Acknowledges c d) {k : ℕ} (hk : k ≤ d.receiver.reached)
    (hackno : seg.header.ackno = wrap k c.sender.isn) :
    c.sender.absoluteAckno seg.header.ackno = k := by
  have hreached := h.flows.reached_le
  have hbelow := h.flows.below
  have habs := h.within.absAckno
  rw [TCPSender.absoluteAckno, hackno]
  exact unwrap_wrap_of_lt _ (by omega) (by omega)

/-- The sending end makes a step. -/
theorem Acknowledges.send
    (h : Acknowledges c d) (hop : EndRespected c op)
    (hbelow : (c.step op).sender.nextSeqnoAbsolute < 2 ^ 31)
    (hseg : ∀ seg, op = .segmentReceived seg → seg ∈ d.segmentsOut) :
    Acknowledges (c.step op) d where
  flows := h.flows.send hop hbelow
  within := by
    refine c.step_sender_invariant
      (fun _ out error hs => hs.mute out error)
      (fun _ op hs hop => hs.drivenStep d.receiver.one_le_allowance hop)
      h.within ?_
    apply TCPConnection.guarded_senderOps
    · exact fun _ => trivial
    · exact fun _ _ => trivial
    · exact fun _ _ => trivial
    · exact fun _ _ _ => trivial
    · intro seg hreceived _ hrst hack
      obtain ⟨hsyn, k, hackno, hreached, hwindow⟩ :=
        h.acks seg (hseg seg hreceived) hrst hack
      rw [Granted, h.absoluteAckno_eq hreached hackno]
      exact ⟨h.flows.syn hsyn, hreached, hwindow⟩
  unheard := h.unheard
  acks := by
    rw [(c.step_sender_extends op).isn]
    exact h.acks

theorem Acknowledges.grows
    (h : Acknowledges c d)
    (hseg : ∀ seg, op = .segmentReceived seg → seg ∈ c.segmentsOut) :
    d.receiver.Grows (d.step op).receiver := by
  refine TCPConnection.step_receiver_rule
    (P := fun r => d.receiver.Grows r) (.refl _)
    d.receiver.grows_setError (fun len _ => d.receiver.grows_popOutput len) ?_
  intro seg hop _ _
  obtain ⟨n, hle, hcarries, -⟩ := h.flows.carries (hseg seg hop)
  have hbelow := h.flows.below
  have hlength := seg.lengthInSequenceSpace_eq
  rw [Buffer.size] at hlength
  exact h.flows.follows.invariant.grows_segmentReceived
    (h.flows.follows.inRange hcarries (by omega))

/-- Before the SYN was received, nothing but the SYN occupies a sequence
number. -/
theorem Acknowledges.syn_of_occupies
    (h : Acknowledges c d) (hsyn : d.receiver.syn = false)
    (hmem : seg ∈ c.segmentsOut) (hlen : seg.lengthInSequenceSpace > 0) :
    seg.header.syn = true := by
  obtain ⟨n, hle, -, hfirst⟩ := h.flows.carries hmem
  have hwindow := h.within.window
  rw [TCPReceiver.allowance, hsyn, if_neg Bool.false_ne_true] at hwindow
  exact hfirst (by omega) hlen

/-- An end that remains without a SYN has received nothing to answer. -/
theorem Acknowledges.unheard_step
    (h : Acknowledges c d)
    (hseg : ∀ seg, op = .segmentReceived seg → seg ∈ c.segmentsOut)
    (hafter : (d.step op).receiver.syn = false) : (d.step op).Unheard := by
  have hsyn : d.receiver.syn = false := by
    by_contra hheard
    have hkept := (h.grows hseg).syn (Bool.eq_true_of_not_eq_false hheard)
    exact absurd (hafter.symm.trans hkept) (by decide)
  have hunheard := h.unheard hsyn
  cases op with
  | segmentReceived seg =>
      rw [TCPConnection.step] at hafter ⊢
      cases hactive : d.active with
      | false =>
          rw [TCPConnection.segmentReceived_of_inactive hactive]
          exact hunheard
      | true =>
          cases hrst : seg.header.rst with
          | true =>
              have hnow : Unheard { d with timeSinceLastSegmentReceived := 0 } :=
                ⟨hunheard.syn, hunheard.bare, hunheard.quiet⟩
              rw [TCPConnection.segmentReceived_of_rst hactive hrst]
              exact hnow.setErrors
          | false =>
              -- a SYN would have been taken
              have hno : seg.header.syn = false := by
                by_contra hflag
                have htakes : d.receiver.Takes seg := by
                  rw [TCPReceiver.Takes, hsyn]
                  exact hflag
                rw [TCPConnection.segmentReceived_of_active hactive hrst,
                  TCPConnection.handle_receiver,
                  TCPReceiver.segmentReceived_syn htakes] at hafter
                exact absurd hafter (by decide)
              have hop : TCPConnection.Op.NoSyn (.segmentReceived seg) := hno
              refine hunheard.step hop ?_
              rintro ⟨-, -, hlen⟩
              have hflag := h.syn_of_occupies hsyn (hseg seg rfl) hlen
              exact absurd (hno.symm.trans hflag) (by decide)
  | connect => exact hunheard.step trivial trivial
  | write data => exact hunheard.step trivial trivial
  | endInputStream => exact hunheard.step trivial trivial
  | tick ms => exact hunheard.step trivial trivial
  | readInbound len => exact hunheard.step trivial trivial

/-- What an end sends once it has received the SYN agrees with its
receiver. -/
theorem answers_of_connectsUnheard
    (hconnect : op = .connect → d.receiver.syn = false) :
    Answers (d.step op).receiver d (d.step op) := by
  by_cases hop : op = .connect
  · subst hop
    refine d.answers_connect ?_
    rw [TCPReceiver.ackno, hconnect rfl]
    rfl
  · exact d.answers_step hop

/-- The receiving end makes a step. -/
theorem Acknowledges.receive
    (h : Acknowledges c d) (hconnect : op = .connect → d.receiver.syn = false)
    (hseg : ∀ seg, op = .segmentReceived seg → seg ∈ c.segmentsOut) :
    Acknowledges c (d.step op) := by
  have hgrows := h.grows hseg
  have hflows := h.flows.receive hseg
  refine ⟨hflows, h.within.mono hgrows.allowance_le hgrows.reached_le,
    h.unheard_step hseg, ?_⟩
  cases hsyn : (d.step op).receiver.syn with
  | false =>
      intro seg hmem hrst hack
      have hquiet := (h.unheard_step hseg hsyn).quiet seg hmem hrst
      exact absurd (hquiet.symm.trans hack) (by decide)
  | true =>
      obtain ⟨hackno, hreached, hwindow⟩ :=
        hflows.follows.invariant.advertised hsyn
      obtain ⟨pushed, hout, hpushed⟩ := answers_of_connectsUnheard hconnect
      rw [hout]
      refine List.forall_mem_append.mpr ⟨?_, ?_⟩
      · intro seg hmem hrst hack
        obtain ⟨-, k, heq, hk, hlimit⟩ := h.acks seg hmem hrst hack
        exact ⟨rfl, k, heq, hk.trans hgrows.reached_le,
          hlimit.trans hgrows.allowance_le⟩
      · intro seg hmem hrst _
        obtain ⟨-, heq, hwin⟩ := hpushed seg hmem hrst _ hackno
        refine ⟨rfl, _, ?_, hreached, ?_⟩
        · rw [heq, hflows.follows.isn_eq hsyn]
        · omega

end Acknowledges

/-! ## Both directions -/

/-- Besides what is admissible, an end does not call `connect` once it has
received the SYN of the other end. -/
def Orderly (p : Pair) (op : Op) : Prop :=
  Admissible p op ∧ ∀ call ∈ p.call op,
    call.2 = .connect → (p call.1).receiver.syn = false

instance orderlyDecidable (p : Pair) (op : Op) : Decidable (Orderly p op) :=
  inferInstanceAs (Decidable (_ ∧ ∀ call ∈ p.call op, _))

theorem Both.acknowledges_step
    {p : Pair} {op : Op} (h : Both Acknowledges p) (hop : Orderly p op) :
    Both Acknowledges (p.step op) := by
  apply Both.step h
  · intro x call hcall hacks
    obtain ⟨hend, hbelow⟩ := hop.1 (x, call) hcall
    refine hacks.send hend hbelow ?_
    rintro seg rfl
    exact mem_of_call hcall
  · intro x call hcall hacks
    refine hacks.receive (hop.2 (x, call) hcall) ?_
    rintro seg rfl
    exact mem_of_call hcall

theorem run_acknowledges
    {cfg : Side → TCPConfig} (hcap : ∀ x, (cfg x).recvCapacity < 2 ^ 64)
    (randomIsn : Side → UInt32) {ops : List Op}
    (hops : Guarded step Orderly (new cfg randomIsn) ops) :
    Both Acknowledges (run step (new cfg randomIsn) ops) :=
  run_invariant (fun _ _ h hop => h.acknowledges_step hop)
    (fun x => acknowledges_new (cfg x) (cfg x.other) _ _ (hcap x.other)) hops

theorem run_capacity
    (cfg : Side → TCPConfig) (randomIsn : Side → UInt32) (ops : List Op)
    (x : Side) :
    (run step (new cfg randomIsn) ops x).receiver.capacity =
      (cfg x).recvCapacity := by
  have hcap : ∀ y, TCPConnection.CapacityAgrees (cfg y).recvCapacity
      (run step (new cfg randomIsn) ops y).receiver := by
    refine run_preserves (P := fun p : Pair => ∀ y,
      TCPConnection.CapacityAgrees (cfg y).recvCapacity (p y).receiver)
      ?_ (fun y => ⟨rfl, rfl⟩) ops
    intro p op h
    rcases p.step_cases op with heq | ⟨y, call, -, heq⟩
    · rw [heq]
      exact h
    · rw [heq, Function.forall_update_iff p fun y c =>
        TCPConnection.CapacityAgrees (cfg y).recvCapacity c.receiver]
      exact ⟨(h y).step call, fun z _ => h z⟩
  exact (hcap x).1

/-- Nothing counts as acknowledged at one end that was not delivered at the
other.  If anything does, the SYN was received; and all bytes among it stand
in the inbound stream of the other end, or all but one if that end has seen a
FIN, which it may acknowledge in place of a byte. -/
theorem acknowledged_was_delivered
    (cfg : Side → TCPConfig) (hcap : ∀ x, (cfg x).recvCapacity < 2 ^ 64)
    (randomIsn : Side → UInt32) (ops : List Op)
    (hops : Guarded step Orderly (new cfg randomIsn) ops) (x : Side) :
    let p := run step (new cfg randomIsn) ops
    let c := p x
    let d := p x.other
    let acked := c.sender.nextSeqnoAbsolute - c.sender.bytesInFlight
    (0 < acked → d.receiver.syn = true ∧ d.receiver.isn = c.sender.isn) ∧
      acked ≤ 1 + d.inboundStream.bytesWritten + d.receiver.ended.toNat ∧
      c.sender.streamIn.written.take
          (acked - 1 - d.receiver.ended.toNat) <+:
        d.inboundStream.written := by
  intro p c d acked
  have hacks : Acknowledges c d := run_acknowledges hcap randomIsn hops x
  have huna := hacks.within.una
  have hreached :
      acked ≤ 1 + d.inboundStream.bytesWritten + d.receiver.ended.toNat ∧
        (0 < acked → d.receiver.syn = true) := by
    rw [TCPReceiver.reached] at huna
    split at huna
    next hsyn => exact ⟨Nat.sub_le_iff_le_add'.mpr huna, fun _ => hsyn⟩
    next => exact ⟨by omega, by omega⟩
  refine ⟨fun hpos => ?_, hreached.1, ?_⟩
  · exact ⟨hreached.2 hpos,
      hacks.flows.follows.isn_eq (hreached.2 hpos)⟩
  · have heq := List.prefix_iff_eq_take.mp hacks.flows.written_prefix_written
    rw [heq]
    apply List.take_prefix_take_left
    rw [← ByteStream.bytesWritten_eq_length]
    omega

/-- Every acknowledgment that travels without a reset names a sequence number
that the end it is sent to has reached, and that the end it comes from has
received. -/
theorem acknowledgments_were_sent
    (cfg : Side → TCPConfig) (hcap : ∀ x, (cfg x).recvCapacity < 2 ^ 64)
    (randomIsn : Side → UInt32) (ops : List Op)
    (hops : Guarded step Orderly (new cfg randomIsn) ops) (x : Side) :
    let p := run step (new cfg randomIsn) ops
    let c := p x
    let d := p x.other
    ∀ seg ∈ d.segmentsOut, seg.header.rst = false →
      seg.header.ack = true →
        c.sender.absoluteAckno seg.header.ackno ≤
            c.sender.nextSeqnoAbsolute ∧
          c.sender.absoluteAckno seg.header.ackno ≤
            1 + d.inboundStream.bytesWritten + d.receiver.ended.toNat := by
  intro p c d seg hmem hrst hack
  have hacks : Acknowledges c d := run_acknowledges hcap randomIsn hops x
  obtain ⟨hsyn, k, hackno, hreached, -⟩ := hacks.acks seg hmem hrst hack
  rw [hacks.absoluteAckno_eq hreached hackno]
  refine ⟨hreached.trans hacks.flows.reached_le, ?_⟩
  rw [TCPReceiver.reached, if_pos hsyn] at hreached
  exact hreached

/-- An end never sends more bytes than the reader at the other end has
consumed and the receiver there can store, and one byte that probes the
window. -/
theorem sent_fits_receiver
    (cfg : Side → TCPConfig) (hcap : ∀ x, (cfg x).recvCapacity < 2 ^ 64)
    (randomIsn : Side → UInt32) (ops : List Op)
    (hops : Guarded step Orderly (new cfg randomIsn) ops) (x : Side) :
    let p := run step (new cfg randomIsn) ops
    (p x).sender.streamIn.bytesRead ≤
      (p x.other).inboundStream.bytesRead + (cfg x.other).recvCapacity + 1 := by
  intro p
  have hacks : Acknowledges (p x) (p x.other) :=
    run_acknowledges hcap randomIsn hops x
  have hwindow := hacks.within.window
  have hnext := hacks.flows.segmented.next_eq
  rw [← ByteStream.bytesRead_eq_length] at hnext
  rw [TCPReceiver.allowance, run_capacity] at hwindow
  split at hwindow
  next hsyn =>
    have hended := TCPReceiver.toNat_le hacks.flows.ended
    rw [hacks.flows.syn hsyn, Bool.toNat_true] at hnext
    rw [TCPConnection.inboundStream]
    omega
  next => omega

section CrossingRun

theorem orderly_crossingRun :
    Guarded step Orderly (new smallConfigs fun _ => 0) crossingRun := by
  decide

/-- All three bytes of the left end were delivered when they count as
acknowledged. -/
theorem acknowledged_was_delivered_crossingRun :
    let p := run step (new smallConfigs fun _ => 0) crossingRun
    (p .left).sender.nextSeqnoAbsolute - (p .left).sender.bytesInFlight = 4 ∧
      (p .left).sender.streamIn.written.take (4 - 1 - 0) <+:
        (p .right).inboundStream.written := by
  have h := acknowledged_was_delivered smallConfigs smallConfigs_capacity _
    crossingRun orderly_crossingRun .left
  exact ⟨by decide, h.2.2⟩

theorem acknowledgments_were_sent_crossingRun :
    let p := run step (new smallConfigs fun _ => 0) crossingRun
    ∀ seg ∈ (p .right).segmentsOut, seg.header.rst = false →
      seg.header.ack = true → (p .left).sender.absoluteAckno
        seg.header.ackno ≤ (p .left).sender.nextSeqnoAbsolute := by
  intro p seg hmem hrst hack
  exact (acknowledgments_were_sent smallConfigs smallConfigs_capacity _
    crossingRun orderly_crossingRun .left seg hmem hrst hack).1

theorem sent_fits_receiver_crossingRun :
    let p := run step (new smallConfigs fun _ => 0) crossingRun
    (p .left).sender.streamIn.bytesRead ≤
      (p .right).inboundStream.bytesRead + 4 + 1 :=
  sent_fits_receiver smallConfigs smallConfigs_capacity _ crossingRun
    orderly_crossingRun .left

end CrossingRun

end Pair

end Sponge
