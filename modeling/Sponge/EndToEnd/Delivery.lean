import Sponge.EndToEnd.Model
import Sponge.StreamReassembler.Assembly

/-!
# The bytes delivered are a prefix of the bytes written

Below `2 ^ 31` the receiver reads every segment at the sequence number at
which the sender has created it, whatever the order of the deliveries.  So all
pieces that the reassembler stores and writes are parts of the stream at their
own index.
-/

namespace Sponge

namespace System

/-! ## The receiver and a stream -/

/-- The receiver holds parts of the stream `S` and nothing else. -/
structure Follows (S : Bytes) (isn : WrappingInt32) (r : TCPReceiver) :
    Prop where
  invariant : r.Invariant
  isn_eq : r.syn = true → r.isn = isn
  checkpoint_lt : r.checkpoint < 2 ^ 31
  agrees : r.reassembler.Agrees S

theorem follows_new
    {capacity : ℕ} (h : capacity < 2 ^ 64) (S : Bytes)
    (isn : WrappingInt32) : Follows S isn (TCPReceiver.new capacity) where
  invariant := TCPReceiver.invariant_new h
  isn_eq := fun hsyn => absurd hsyn Bool.false_ne_true
  checkpoint_lt := Nat.two_pow_pos 31
  agrees := StreamReassembler.agrees_new S capacity

section Follows

variable {S : Bytes} {ended : Bool} {isn : WrappingInt32} {r : TCPReceiver}
  {seg : TCPSegment} {n : ℕ}

theorem Follows.extend
    {T : Bytes} (h : Follows S isn r) (hST : S <+: T) : Follows T isn r :=
  ⟨h.invariant, h.isn_eq, h.checkpoint_lt, h.agrees.extend hST⟩

theorem Follows.popOutput (h : Follows S isn r) (len : ℕ) :
    Follows S isn (r.popOutput len) :=
  ⟨h.invariant.popOutput len, h.isn_eq, h.checkpoint_lt,
    h.agrees.popOutput len⟩

/-- The receiver reads the segment at its own sequence number. -/
theorem Follows.absoluteSeqno_eq
    (h : Follows S isn r) (hseg : Carries S ended isn n seg)
    (hn : n < 2 ^ 31) (htakes : r.Takes seg) :
    (r.noteSyn seg).absoluteSeqno seg = n := by
  rw [TCPReceiver.absoluteSeqno, hseg.noteSyn_isn htakes h.isn_eq,
    hseg.seqno, TCPReceiver.noteSyn_checkpoint]
  exact unwrap_wrap_of_lt isn hn h.checkpoint_lt

/-- A payload lies at the index of its first byte. -/
theorem Carries.streamIndex_eq
    (hseg : Carries S ended isn n seg) (hne : seg.payload.str ≠ [])
    (hn : n < 2 ^ 64) :
    TCPReceiver.streamIndex seg n = n - 1 := by
  have hsyn : ¬ seg.header.syn = true := fun hsyn => hne (hseg.syn hsyn).2
  have hpos : 1 ≤ n := (hseg.payload.resolve_left hne).1
  rw [TCPReceiver.streamIndex, if_neg hsyn]
  exact sub64_eq hn hpos

theorem Follows.inRange
    (h : Follows S isn r) (hseg : Carries S ended isn n seg)
    (hn : n + seg.payload.str.length < 2 ^ 31) : r.InRange seg := by
  intro htakes hupper
  have hlt := add64_lt r.reassembler.expectedIndex
    r.reassembler.output.remainingCapacity
  rw [StreamReassembler.upperBoundIndex] at hupper
  by_cases hnil : seg.payload.str = []
  · rw [hnil, List.length_nil]
    omega
  · rw [TCPReceiver.indexOf, h.absoluteSeqno_eq hseg (by omega) htakes,
      hseg.streamIndex_eq hnil (by omega)]
    omega

theorem Follows.segmentReceived
    (h : Follows S isn r) (hseg : Carries S ended isn n seg)
    (hn : n + seg.payload.str.length < 2 ^ 31) :
    Follows S isn (r.segmentReceived seg) := by
  have hinvariant := h.invariant.segmentReceived (h.inRange hseg hn)
  by_cases htakes : r.Takes seg
  · have hread := h.absoluteSeqno_eq hseg (by omega) htakes
    refine ⟨hinvariant, fun _ => ?_, ?_, ?_⟩
    · rw [TCPReceiver.segmentReceived_isn htakes]
      exact hseg.noteSyn_isn htakes h.isn_eq
    · rw [TCPReceiver.segmentReceived_checkpoint htakes, hread]
      omega
    · rw [TCPReceiver.segmentReceived_reassembler htakes]
      by_cases hnil : seg.payload.str = []
      · rw [hnil, StreamReassembler.pushSubstring_nil]
        exact h.agrees.finish _
      · obtain ⟨hpos, hwithin, hpayload⟩ :=
          hseg.payload.resolve_left hnil
        rw [TCPReceiver.indexOf, hread,
          hseg.streamIndex_eq hnil (by omega), hpayload]
        exact h.agrees.pushSubstring h.invariant.wellFormed
          (Nat.le_add_right _ _) hwithin (by omega) _
  · rw [TCPReceiver.segmentReceived_of_not_takes htakes]
    exact h

end Follows

/-! ## The system -/

/-- Nothing is written after the end of the input, and the sequence numbers of
the sender stay below `2 ^ 31`. -/
def Admissible (s : System) (op : Op) : Prop :=
  NoWriteAfterEnd s op ∧ (s.step op).sender.nextSeqnoAbsolute < 2 ^ 31

instance admissibleDecidable (s : System) (op : Op) :
    Decidable (Admissible s op) :=
  inferInstanceAs (Decidable (_ ∧ _))

/-- The receiver follows the stream of the sender. -/
structure Linked (s : System) : Prop where
  segmented : s.sender.Segmented
  sent : Sent s.sender
  below : s.sender.nextSeqnoAbsolute < 2 ^ 31
  follows : Follows s.sender.streamIn.written s.sender.isn s.receiver

theorem linked_new
    (sendCapacity : ℕ) (retxTimeout : UInt16)
    (fixedIsn : Option WrappingInt32) (randomIsn : UInt32)
    {recvCapacity : ℕ} (h : recvCapacity < 2 ^ 64) :
    Linked (new sendCapacity retxTimeout fixedIsn randomIsn
      recvCapacity) where
  segmented := TCPSender.segmented_new _ _ _ _
  sent := fun _ hmem => absurd hmem List.not_mem_nil
  below := Nat.two_pow_pos 31
  follows := follows_new h _ _

theorem Linked.step
    {s : System} {op : Op} (h : Linked s) (hop : Admissible s op) :
    Linked (s.step op) := by
  obtain ⟨hwrite, hbelow⟩ := hop
  cases op with
  | send op =>
      have hcont := retains_step s.sender op
      refine
        { segmented := h.segmented.step hwrite
          sent := h.sent.step h.segmented hwrite
          below := hbelow
          follows := ?_ }
      rw [System.step, hcont.isn]
      exact h.follows.extend hcont.written
  | deliver i =>
      rcases s.deliver_cases i with ⟨-, heq⟩ | ⟨seg, hmem, -, heq⟩
      · rw [System.step, heq]
        exact h
      · obtain ⟨n, hle, hcarries⟩ := h.sent seg hmem
        have hbound := h.below
        rw [System.step, heq]
        exact
          { segmented := h.segmented
            sent := h.sent
            below := h.below
            follows := h.follows.segmentReceived hcarries (by omega) }
  | pop len =>
      exact
        { segmented := h.segmented
          sent := h.sent
          below := h.below
          follows := h.follows.popOutput len }
  | read len =>
      exact
        { segmented := h.segmented
          sent := h.sent
          below := h.below
          follows := h.follows.popOutput len }

/-- At every moment of every run, the bytes that the receiver has written are
a prefix of the bytes that the sender's stream has accepted. -/
theorem delivered_bytes_agree
    (sendCapacity : ℕ) (retxTimeout : UInt16)
    (fixedIsn : Option WrappingInt32) (randomIsn : UInt32)
    (recvCapacity : ℕ) (hcap : recvCapacity < 2 ^ 64) (ops : List Op)
    (hops : Guarded step Admissible
      (new sendCapacity retxTimeout fixedIsn randomIsn recvCapacity) ops) :
    ∀ pre, pre <+: ops →
      let s := run step
        (new sendCapacity retxTimeout fixedIsn randomIsn recvCapacity) pre
      s.receiver.streamOut.written <+: s.sender.streamIn.written := by
  rintro pre ⟨rest, rfl⟩ s
  have hs : Linked s :=
    run_invariant (fun _ _ h hop => h.step hop)
      (linked_new sendCapacity retxTimeout fixedIsn randomIsn hcap)
      (guarded_append.mp hops).1
  have hwritten := hs.follows.agrees.written
  rw [extract_zero] at hwritten
  rw [TCPReceiver.streamOut, hwritten]
  exact List.take_prefix _ _

/-- Two segments arrive in the wrong order and twice. -/
def reorderedRun : List Op :=
  [.send .fillWindow, .send (.ackReceived ⟨8⟩ 10), .send (.write [97, 98]),
    .send .fillWindow, .send (.write [99]), .send .fillWindow, .deliver 0,
    .deliver 2, .deliver 1, .read 2, .deliver 2, .deliver 1]

theorem delivered_bytes_agree_reorderedRun :
    Guarded step Admissible (new 8 1000 (some ⟨7⟩) 0 4) reorderedRun ∧
      (run step (new 8 1000 (some ⟨7⟩) 0 4)
        reorderedRun).receiver.streamOut.written <+:
      (run step (new 8 1000 (some ⟨7⟩) 0 4)
        reorderedRun).sender.streamIn.written :=
  ⟨by decide, delivered_bytes_agree 8 1000 (some ⟨7⟩) 0 4 (by decide)
    reorderedRun (by decide) reorderedRun List.prefix_rfl⟩

example :
    (run step (new 8 1000 (some ⟨7⟩) 0 4)
      reorderedRun).receiver.streamOut.written = [97, 98, 99] := by
  decide

end System

end Sponge
