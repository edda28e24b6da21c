import Sponge.TCPReceiver.Invariant
import Sponge.TCPSender.Segmentation

/-!
# A sender and a receiver joined by a network

The network loses, duplicates, reorders and delays the segments that the
sender has put on its queue.  So the queue is never emptied here: it is the
list of all segments that were ever sent, and a delivery hands any one of them
to the receiver, as often and in whatever order.  The acknowledgments that the
sender gets are arbitrary.
-/

namespace Sponge

/-- The two ends of the network. -/
structure System where
  sender : TCPSender
  receiver : TCPReceiver

namespace System

/-- What can happen: an operation of the sender, the delivery of the segment
at index `i` of the queue, and the two ways to take bytes from the inbound
stream. -/
inductive Op where
  | send (op : TCPSender.Op)
  | deliver (i : ℕ)
  | pop (len : ℕ)
  | read (len : ℕ)

def new (sendCapacity : ℕ) (retxTimeout : UInt16)
    (fixedIsn : Option WrappingInt32) (randomIsn : UInt32)
    (recvCapacity : ℕ) : System where
  sender := TCPSender.new sendCapacity retxTimeout fixedIsn randomIsn
  receiver := TCPReceiver.new recvCapacity

/-- The network delivers a segment, if there is one at the index. -/
def deliver (s : System) (i : ℕ) : System :=
  match s.sender.segmentsOut[i]? with
  | some seg => { s with receiver := s.receiver.segmentReceived seg }
  | none => s

def step (s : System) : Op → System
  | .send op => { s with sender := s.sender.step op }
  | .deliver i => s.deliver i
  | .pop len => { s with receiver := s.receiver.step (.pop len) }
  | .read len => { s with receiver := s.receiver.step (.read len) }

/-- The application writes nothing after the end of its input. -/
def NoWriteAfterEnd (s : System) : Op → Prop
  | .send op => TCPSender.NoWriteAfterEnd s.sender op
  | .deliver _ => True
  | .pop _ => True
  | .read _ => True

instance noWriteAfterEndDecidable (s : System) :
    ∀ op, Decidable (NoWriteAfterEnd s op)
  | .send op => TCPSender.noWriteAfterEndDecidable s.sender op
  | .deliver _ => isTrue trivial
  | .pop _ => isTrue trivial
  | .read _ => isTrue trivial

/-- A delivery does nothing, or it hands over a segment of the queue. -/
theorem deliver_cases (s : System) (i : ℕ) :
    (s.sender.segmentsOut[i]? = none ∧ s.deliver i = s) ∨
      ∃ seg ∈ s.sender.segmentsOut, s.sender.segmentsOut[i]? = some seg ∧
        s.deliver i =
          { s with receiver := s.receiver.segmentReceived seg } := by
  unfold deliver
  cases hget : s.sender.segmentsOut[i]? with
  | none => exact Or.inl ⟨rfl, rfl⟩
  | some seg =>
      exact Or.inr ⟨seg, List.mem_of_getElem? hget, rfl, rfl⟩

/-! ## What is on the network -/

/-- A segment that starts at the sequence number `n` of the stream `S`. -/
structure Carries (S : Bytes) (ended : Bool) (isn : WrappingInt32) (n : ℕ)
    (seg : TCPSegment) : Prop where
  seqno : seg.header.seqno = wrap n isn
  payload : seg.payload.str = [] ∨
    (1 ≤ n ∧ n - 1 + seg.payload.str.length ≤ S.length ∧
      seg.payload.str =
        S.extract (n - 1) (n - 1 + seg.payload.str.length))
  syn : seg.header.syn = true → n = 0 ∧ seg.payload.str = []
  fin : seg.header.fin = true → ended = true

/-- Everything on the queue carries a part of what has been written. -/
def Sent (s : TCPSender) : Prop :=
  ∀ seg ∈ s.segmentsOut, ∃ n,
    n + seg.payload.str.length ≤ s.nextSeqnoAbsolute ∧
      Carries s.streamIn.written s.streamIn.inputEnded s.isn n seg

section Sent

variable {s t : TCPSender}

theorem Carries.extend
    {S T : Bytes} {ended ended' : Bool} {isn : WrappingInt32} {n : ℕ}
    {seg : TCPSegment} (h : Carries S ended isn n seg) (hST : S <+: T)
    (hended : ended = true → ended' = true) :
    Carries T ended' isn n seg where
  seqno := h.seqno
  payload := by
    rcases h.payload with hnil | ⟨hpos, hwithin, hpayload⟩
    · exact Or.inl hnil
    · refine Or.inr ⟨hpos, hwithin.trans hST.length_le, ?_⟩
      rw [extract_eq_of_append hST hwithin]
      exact hpayload
  syn := h.syn
  fin := fun hfin => hended (h.fin hfin)

theorem popped_prefix_written (bs : ByteStream) :
    bs.popped <+: bs.written :=
  ⟨_, bs.written_eq.symm⟩

/-- Every created segment carries its part of the stream. -/
theorem carries_of_created
    (h : TCPSender.Segmented s) {e : ℕ × TCPSegment} (he : e ∈ s.created) :
    e.1 + e.2.payload.str.length ≤ s.nextSeqnoAbsolute ∧
      Carries s.streamIn.written s.streamIn.inputEnded s.isn e.1 e.2 := by
  have hplaced :=
    (h.placed e he).extend (popped_prefix_written s.streamIn)
  refine ⟨?_, h.seqno e he, ?_, ?_, ?_⟩
  · obtain ⟨una, acked, rest, hin⟩ := h.tracked
    have hend := (hin.contiguous.mem_bounds he).2
    rw [TCPSegment.lengthInSequenceSpace_eq, Buffer.size] at hend
    omega
  · rcases Nat.eq_zero_or_pos e.1 with hzero | hpos
    · exact Or.inl (hplaced.first hzero)
    · exact Or.inr ⟨hpos, hplaced.within, hplaced.payload⟩
  · intro hsyn
    exact ⟨hplaced.syn hsyn, hplaced.first (hplaced.syn hsyn)⟩
  · intro hfin
    rcases h.finLast with ⟨-, hno⟩ | ⟨-, -, heof, -⟩
    · exact absurd ((hno e he).symm.trans hfin) (by decide)
    · exact ((TCPSender.eof_iff _).mp heof).1

/-- Emissions queue what they create. -/
theorem mem_segmentsOut_of_emits
    {m : TCPSender} (h : TCPSender.Emits m t)
    (hout : m.segmentsOut = s.segmentsOut) {seg : TCPSegment}
    (hmem : seg ∈ t.segmentsOut) :
    seg ∈ s.segmentsOut ∨ ∃ n, (n, seg) ∈ t.created := by
  obtain ⟨new, hcreated, hqueue, -⟩ := h.new
  rw [hqueue, hout] at hmem
  rcases List.mem_append.mp hmem with hold | hnew
  · exact Or.inl hold
  · obtain ⟨e, he, rfl⟩ := List.mem_map.mp hnew
    rw [hcreated]
    exact Or.inr ⟨e.1, List.mem_append_right _ he⟩

theorem mem_segmentsOut_of_ticked
    (h : TCPSender.Tracked s) (ht : TCPSender.Ticked s t)
    {seg : TCPSegment} (hmem : seg ∈ t.segmentsOut) :
    seg ∈ s.segmentsOut ∨ ∃ n, (n, seg) ∈ t.created := by
  rcases ht.segmentsOut with hout | ⟨e, hhead, hout⟩
  · rw [hout] at hmem
    exact Or.inl hmem
  · rw [hout] at hmem
    rcases List.mem_append.mp hmem with hold | hagain
    · exact Or.inl hold
    · obtain ⟨una, acked, rest, hin⟩ := h
      have hentry := List.mem_of_head? hhead
      rw [hin.outstanding_eq] at hentry
      obtain ⟨d, hd, rfl⟩ := List.mem_map.mp hentry
      rw [List.mem_singleton.mp hagain, ht.sameSent.created,
        hin.created_eq]
      exact Or.inr ⟨d.1, List.mem_append_right _ hd⟩

/-- What a step adds to the queue. -/
theorem mem_segmentsOut_of_step
    (h : TCPSender.Tracked s) (op : TCPSender.Op) {seg : TCPSegment}
    (hmem : seg ∈ (s.step op).segmentsOut) :
    (seg ∈ s.segmentsOut ∨ ∃ n, (n, seg) ∈ (s.step op).created) ∨
      seg = { header := { ack := true, seqno := s.nextSeqno } } := by
  cases op with
  | write data => exact Or.inl (Or.inl hmem)
  | endInput => exact Or.inl (Or.inl hmem)
  | fillWindow =>
      exact Or.inl
        (mem_segmentsOut_of_emits (TCPSender.fillWindow_emits s) rfl hmem)
  | ackReceived ackno windowSize =>
      left
      revert hmem
      apply TCPSender.ackReceived_rule (P := fun t => seg ∈ t.segmentsOut →
        seg ∈ s.segmentsOut ∨ ∃ n, (n, seg) ∈ t.created)
      · exact Or.inl
      · exact Or.inl
      · intro _ hmem
        exact mem_segmentsOut_of_emits (TCPSender.fillWindow_emits _)
          (TCPSender.applied_applyAck s _ windowSize).segmentsOut hmem
  | tick ms =>
      exact Or.inl
        (mem_segmentsOut_of_ticked h (TCPSender.ticked_tick s ms) hmem)
  | sendEmptySegment =>
      rcases List.mem_append.mp hmem with hold | hnew
      · exact Or.inl (Or.inl hold)
      · exact Or.inr (List.mem_singleton.mp hnew)

/-- What a step of the sender leaves in place. -/
structure Retains (s t : TCPSender) : Prop where
  isn : t.isn = s.isn
  next : s.nextSeqnoAbsolute ≤ t.nextSeqnoAbsolute
  written : s.streamIn.written <+: t.streamIn.written
  inputEnded : s.streamIn.inputEnded = true → t.streamIn.inputEnded = true

theorem retains_step (s : TCPSender) (op : TCPSender.Op) :
    Retains s (s.step op) := by
  obtain ⟨m, hm, hemits⟩ := TCPSender.step_emits s op
  have hnext := hemits.next_le
  rw [hm.next] at hnext
  refine
    { isn := hemits.isn.trans hm.isn
      next := hnext
      written := ?_
      inputEnded := fun hended => ?_ }
  · rw [hemits.written, hm.streamIn]
    rcases op.onStream_written s.streamIn with hsame | ⟨data, -, hmore⟩
    · rw [hsame]
    · exact ⟨_, hmore.symm⟩
  · rw [hemits.inputEnded, hm.streamIn, TCPSender.Op.onStream_inputEnded]
    exact Or.inl hended

theorem Sent.step
    {op : TCPSender.Op} (h : Sent s) (hseg : TCPSender.Segmented s)
    (hop : TCPSender.NoWriteAfterEnd s op) : Sent (s.step op) := by
  have hcont := retains_step s op
  intro seg hmem
  rcases mem_segmentsOut_of_step hseg.tracked op hmem with
    (hold | ⟨n, hcreated⟩) | rfl
  · obtain ⟨n, hle, hcarries⟩ := h seg hold
    rw [hcont.isn]
    exact ⟨n, hle.trans hcont.next,
      hcarries.extend hcont.written hcont.inputEnded⟩
  · exact ⟨n, carries_of_created (hseg.step hop) hcreated⟩
  · refine ⟨s.nextSeqnoAbsolute, hcont.next, ?_, Or.inl rfl, ?_, ?_⟩
    · rw [hcont.isn]
      rfl
    · exact fun hsyn => absurd hsyn Bool.false_ne_true
    · exact fun hfin => absurd hfin Bool.false_ne_true

end Sent

/-- The initial sequence number by which a segment is read. -/
theorem Carries.noteSyn_isn
    {S : Bytes} {ended : Bool} {isn : WrappingInt32} {n : ℕ}
    {seg : TCPSegment} {r : TCPReceiver}
    (h : Carries S ended isn n seg) (htakes : r.Takes seg)
    (hisn : r.syn = true → r.isn = isn) : (r.noteSyn seg).isn = isn := by
  cases hsyn : seg.header.syn with
  | true =>
      rw [TCPReceiver.noteSyn_of_syn hsyn]
      simp only
      rw [h.seqno, (h.syn hsyn).1, wrap_zero]
  | false =>
      have htaken := TCPReceiver.noteSyn_syn_of_takes htakes
      rw [TCPReceiver.noteSyn_of_not_syn hsyn] at htaken ⊢
      exact hisn htaken

end System

end Sponge
