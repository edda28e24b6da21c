import Sponge.EndToEnd.Acknowledgment
import Sponge.TCPSender.Queue

/-!
# Segments that arrive in order

If the network keeps the order and loses nothing, nothing ever waits in the
reassembler: a segment continues what has arrived, or it is old.  The payload
that is expected next is written at once, the FIN ends the inbound stream at
once, and what the receiver has reached grows by exactly the length of the
segment.
-/

namespace Sponge

namespace StreamReassembler

section PushSubstring

variable {r : StreamReassembler} {data : Bytes}

/-- A substring at the expected index for which there is room is written at
once, and with it the end of the stream. -/
theorem WellFormed.pushSubstring_next
    (h : WellFormed r) (hempty : r.empty = true) (hdata : data ≠ [])
    (hfits : r.expectedIndex + data.length ≤ r.windowEnd)
    (hbelow : r.windowEnd < 2 ^ 64) (eof : Bool) :
    let t := r.pushSubstring data r.expectedIndex eof
    t.empty = true ∧ t.expectedIndex = r.expectedIndex + data.length ∧
      (eof = true → t.output.inputEnded = true) := by
  have hlen := List.length_pos_of_ne_nil hdata
  have hlt : r.expectedIndex + data.length < 2 ^ 64 := by omega
  have hupper : r.upperBoundIndex = r.windowEnd := Nat.mod_eq_of_lt hbelow
  have hacc : r.Accepts data r.expectedIndex := by
    refine ⟨?_, hdata, ?_, ?_⟩
    · rw [windowEnd] at hfits
      omega
    · omega
    · rw [add64_eq hlt]
      omega
  have hstop : r.acceptedStop data r.expectedIndex =
      r.expectedIndex + data.length := min_eq_left hfits
  have hnone : ∀ p ∈ r.buf.entries,
      Piece.stop p ≤ r.acceptedStop data r.expectedIndex := by
    rw [h.toAssembling.entries_eq_nil_iff.mp hempty]
    exact List.forall_mem_nil _
  obtain ⟨hstored, hexpected⟩ :=
    storeAccepted_empty h hacc hlt le_rfl hnone
  rcases pushSubstring_cases h.cap_lt (fun _ => hlt) eof with
    ⟨hno, -⟩ | ⟨hno, -⟩ | ⟨-, -, heq⟩
  · exact absurd hacc hno
  · exact absurd hacc hno
  · rw [hupper, decide_eq_true hfits, Bool.and_true] at heq
    rw [heq]
    refine ⟨?_, ?_, ?_⟩
    · rw [finish_empty, hstored]
    · rw [finish_expectedIndex, hexpected, hstop]
    · intro heof
      rw [finish_output_inputEnded, heof, hstored]
      simp

/-- A substring that is written already is dropped. -/
theorem pushSubstring_old
    {index : ℕ} (hcap : r.output.cap < 2 ^ 64)
    (hroom : 0 < r.output.remainingCapacity) (hdata : data ≠ [])
    (hbelow : index + data.length < 2 ^ 64)
    (hold : index + data.length ≤ r.expectedIndex) (eof : Bool) :
    r.pushSubstring data index eof = r := by
  have hno : ¬ r.Accepts data index := by
    rintro ⟨-, -, -, hlt⟩
    rw [add64_eq hbelow] at hlt
    omega
  rcases pushSubstring_cases hcap (fun _ => hbelow) eof with
    ⟨-, hfull | hnil, -⟩ | ⟨-, -, -, heq⟩ | ⟨hacc, -⟩
  · omega
  · exact absurd hnil hdata
  · exact heq
  · exact absurd hacc hno

end PushSubstring

end StreamReassembler

namespace TCPSender

section Whole

variable {s : TCPSender} {seg : TCPSegment} {n : ℕ}

/-- The FIN is the last sequence number, and it is not sent with the SYN. -/
theorem Segmented.fin_bounds
    (h : Segmented s) (hmem : (n, seg) ∈ s.created)
    (hfin : seg.header.fin = true) :
    n + seg.lengthInSequenceSpace = s.nextSeqnoAbsolute ∧
      seg.header.syn = false := by
  obtain ⟨una, acked, rest, hin⟩ := h.tracked
  constructor
  · rcases h.finLast with ⟨-, hno⟩ | ⟨-, -, -, front, last, hcreated, -, hno⟩
    · exact absurd ((hno _ hmem).symm.trans hfin) (by decide)
    · have hcontiguous := hin.contiguous
      rw [hcreated] at hmem hcontiguous
      rcases List.mem_append.mp hmem with hfront | hlast
      · exact absurd ((hno _ hfront).symm.trans hfin) (by decide)
      · obtain rfl := List.mem_singleton.mp hlast
        obtain ⟨m, -, hstart, hend⟩ := contiguous_append.mp hcontiguous
        obtain rfl : n = m := hstart
        exact hend
  · rcases h.synFirst with ⟨-, hnil⟩ | ⟨-, first, later, hcreated, -, hno, -, hsyn⟩
    · rw [hnil] at hmem
      exact absurd hmem List.not_mem_nil
    · rw [hcreated] at hmem
      rcases List.mem_cons.mp hmem with hfirst | hlater
      · obtain ⟨-, rfl⟩ := Prod.mk.inj hfirst
        exact absurd (hno.symm.trans hfin) (by decide)
      · exact hsyn _ hlater

end Whole

end TCPSender

namespace Pair

open TCPSender (Made Advances)
open TCPConnection (SameContent)

/-! ## The arrival of a segment -/

/-- Nothing waits in the receiver.  If it has the FIN, its inbound stream has
ended and it has everything that the sender will ever send. -/
structure InOrder (s : TCPSender) (r : TCPReceiver) : Prop where
  empty : r.reassembler.empty = true
  ended : r.ended = true → r.streamOut.inputEnded = true
  complete : r.ended = true → r.reached = s.nextSeqnoAbsolute

section Arrive

variable {c d : TCPConnection} {seg : TCPSegment} {n pos : ℕ}

/-- Below `2 ^ 31` a sequence number stands for one position. -/
theorem eq_of_wrap_eq
    {isn : WrappingInt32} {m : ℕ} (hn : n < 2 ^ 31) (hm : m < 2 ^ 31)
    (h : wrap n isn = wrap m isn) : n = m := by
  have hread := congrArg (fun x => unwrap x isn 0) h
  rwa [unwrap_wrap_of_lt isn hn (Nat.two_pow_pos 31),
    unwrap_wrap_of_lt isn hm (Nat.two_pow_pos 31)] at hread

/-- What is known of a segment that starts at `n`. -/
structure Whole (s : TCPSender) (n : ℕ) (seg : TCPSegment) : Prop where
  carries : System.Carries s.streamIn.popped s.finSent s.isn n seg
  within : n + seg.lengthInSequenceSpace ≤ s.nextSeqnoAbsolute
  first : n = 0 → 0 < seg.lengthInSequenceSpace → seg.header.syn = true
  fin : seg.header.fin = true →
    n + seg.lengthInSequenceSpace = s.nextSeqnoAbsolute ∧
      seg.header.syn = false

theorem Flows.whole (h : Flows c d) (hmem : seg ∈ c.segmentsOut) :
    ∃ n, Whole c.sender n seg := by
  obtain ⟨n, hle, hcarries, hfirst⟩ := h.carries hmem
  have hbelow := h.below
  refine ⟨n, hcarries, hle, hfirst, fun hfin => ?_⟩
  obtain ⟨made, ⟨m, hcreated⟩ | ⟨m, -, rfl⟩, hsame⟩ := h.outbound.sent seg hmem
  · obtain ⟨hend, hsyn⟩ :=
      h.segmented.fin_bounds hcreated (hsame.fin.symm.trans hfin)
    have hseqno := (hsame.seqno.trans (h.segmented.seqno _ hcreated)).symm.trans
      hcarries.seqno
    obtain rfl : m = n := eq_of_wrap_eq (by omega) (by omega) hseqno
    rw [hsame.length, hsame.syn]
    exact ⟨hend, hsyn⟩
  · exact absurd (hsame.fin.symm.trans hfin) Bool.false_ne_true

/-- The segment starts where the receiver stops, or it is old. -/
theorem Whole.of_advances
    (h : Flows c d) (hw : Whole c.sender n seg)
    (hadv : Advances c.sender.isn d.receiver.reached seg pos) :
    n = d.receiver.reached ∧
        pos = d.receiver.reached + seg.lengthInSequenceSpace ∨
      n + seg.lengthInSequenceSpace ≤ d.receiver.reached ∧
        pos = d.receiver.reached := by
  obtain ⟨m, hseqno, hpos⟩ := hadv
  have hbelow := h.below
  have hreached := h.reached_le
  have hwithin := hw.within
  obtain rfl : n = m := by
    refine eq_of_wrap_eq (by omega) ?_ (hw.carries.seqno.symm.trans hseqno)
    rcases hpos with ⟨heq, -⟩ | ⟨hle, -⟩
    · omega
    · omega
  exact hpos

/-- What the receiver reads of a segment that it takes. -/
theorem Whole.indexOf_eq
    (h : Flows c d) (hw : Whole c.sender n seg)
    (htakes : d.receiver.Takes seg) (hne : seg.payload.str ≠ []) :
    d.receiver.indexOf seg = n - 1 := by
  have hbelow := h.below
  have hwithin := hw.within
  rw [TCPReceiver.indexOf,
    h.follows.absoluteSeqno_eq hw.carries (by omega) htakes]
  exact hw.carries.streamIndex_eq hne (by omega)

/-- The receiver has taken what the sender has sent, up to what is missing. -/
theorem Flows.next_eq_of_syn
    (h : Flows c d) (hsyn : d.receiver.syn = true) :
    d.receiver.reached =
        1 + d.receiver.streamOut.bytesWritten + d.receiver.ended.toNat ∧
      c.sender.nextSeqnoAbsolute =
        1 + c.sender.streamIn.popped.length + c.sender.finSent.toNat ∧
      d.receiver.streamOut.bytesWritten ≤ c.sender.streamIn.popped.length := by
  have hnext := h.segmented.next_eq
  have hwritten := h.follows.agrees.within
  rw [h.follows.invariant.expectedIndex_eq] at hwritten
  rw [h.syn hsyn, Bool.toNat_true] at hnext
  refine ⟨?_, by omega, hwritten⟩
  rw [TCPReceiver.reached, if_pos hsyn]

/-- The segment is ignored. -/
theorem InOrder.arrive_ignored
    (h : Flows c d) (hr : InOrder c.sender d.receiver)
    (hw : Whole c.sender n seg)
    (hadv : Advances c.sender.isn d.receiver.reached seg pos)
    (hignored : ¬ d.receiver.Takes seg) :
    InOrder c.sender (d.receiver.segmentReceived seg) ∧
      (d.receiver.segmentReceived seg).reached = pos := by
  have heq : seg.header.syn = d.receiver.syn := not_not.mp hignored
  have hcases := hw.of_advances h hadv
  rw [TCPReceiver.segmentReceived_of_not_takes hignored]
  refine ⟨hr, ?_⟩
  cases hsyn : d.receiver.syn with
  | true =>
      -- another SYN is old
      have hzero := (hw.carries.syn (heq.trans hsyn)).1
      have hreached := (h.next_eq_of_syn hsyn).1
      omega
  | false =>
      -- before the SYN there is nothing but empty segments
      have hreached : d.receiver.reached = 0 := by
        rw [TCPReceiver.reached, hsyn]
        rfl
      have hnone : n = 0 → seg.lengthInSequenceSpace = 0 := by
        intro hzero
        by_contra hpos
        have hflag := hw.first hzero (Nat.pos_of_ne_zero hpos)
        exact absurd (hflag.symm.trans (heq.trans hsyn)) (by decide)
      omega

/-- The first SYN. -/
theorem InOrder.arrive_syn
    (h : Flows c d) (hr : InOrder c.sender d.receiver)
    (hw : Whole c.sender n seg)
    (hadv : Advances c.sender.isn d.receiver.reached seg pos)
    (hunheard : d.receiver.syn = false) (hsyn : seg.header.syn = true) :
    InOrder c.sender (d.receiver.segmentReceived seg) ∧
      (d.receiver.segmentReceived seg).reached = pos := by
  have htakes : d.receiver.Takes seg := by
    rw [TCPReceiver.Takes, hunheard, hsyn]
    decide
  obtain ⟨rfl, hpayload⟩ := hw.carries.syn hsyn
  have hfin : seg.header.fin = false := by
    by_contra hfin
    have hno := (hw.fin (Bool.eq_true_of_not_eq_false hfin)).2
    exact absurd (hsyn.symm.trans hno) (by decide)
  have hlength : seg.lengthInSequenceSpace = 1 := by
    rw [TCPSegment.lengthInSequenceSpace_eq, Buffer.size, hpayload, hsyn, hfin]
    rfl
  have hcases := hw.of_advances h hadv
  have hreached : d.receiver.reached = 0 := by
    rw [TCPReceiver.reached, hunheard]
    rfl
  obtain ⟨-, -, hopen, -, hindex⟩ := h.follows.invariant.untouched hunheard
  have hended : (d.receiver.segmentReceived seg).ended = false := by
    rw [TCPReceiver.segmentReceived_ended htakes, hopen, hfin]
    rfl
  have hpush := TCPReceiver.segmentReceived_reassembler htakes
  rw [hpayload, StreamReassembler.pushSubstring_nil] at hpush
  refine ⟨⟨?_, ?_, ?_⟩, ?_⟩
  · rw [hpush, StreamReassembler.finish_empty]
    exact hr.empty
  · exact fun h => absurd (hended.symm.trans h) (by decide)
  · exact fun h => absurd (hended.symm.trans h) (by decide)
  · rw [TCPReceiver.reached, if_pos (TCPReceiver.segmentReceived_syn htakes),
      hended, TCPReceiver.streamOut, hpush,
      StreamReassembler.finish_bytesWritten,
      ← h.follows.invariant.wellFormed.expected_eq, hindex]
    simp only [Bool.toNat_false]
    omega

/-- A segment without payload, once the SYN has been received. -/
theorem InOrder.arrive_bare
    (h : Flows c d) (hr : InOrder c.sender d.receiver)
    (hw : Whole c.sender n seg)
    (hadv : Advances c.sender.isn d.receiver.reached seg pos)
    (hheard : d.receiver.syn = true) (hsyn : seg.header.syn = false)
    (hpayload : seg.payload.str = []) :
    InOrder c.sender (d.receiver.segmentReceived seg) ∧
      (d.receiver.segmentReceived seg).reached = pos := by
  have htakes : d.receiver.Takes seg := by
    rw [TCPReceiver.Takes, hheard, hsyn]
    decide
  have hlength : seg.lengthInSequenceSpace = seg.header.fin.toNat := by
    rw [TCPSegment.lengthInSequenceSpace_eq, Buffer.size, hpayload, hsyn]
    simp
  have hcases := hw.of_advances h hadv
  have hpush := TCPReceiver.segmentReceived_reassembler htakes
  rw [hpayload, StreamReassembler.pushSubstring_nil] at hpush
  have hended := TCPReceiver.segmentReceived_ended htakes
  obtain ⟨hreached, hnext, hwritten⟩ := h.next_eq_of_syn hheard
  have hafter : (d.receiver.segmentReceived seg).reached =
      1 + d.receiver.streamOut.bytesWritten +
        (d.receiver.ended || seg.header.fin).toNat := by
    rw [TCPReceiver.reached, if_pos (TCPReceiver.segmentReceived_syn htakes),
      hended, TCPReceiver.streamOut, hpush,
      StreamReassembler.finish_bytesWritten]
    rfl
  have hresult : (d.receiver.segmentReceived seg).reached = pos ∧
      ((d.receiver.ended || seg.header.fin) = true →
        pos = c.sender.nextSeqnoAbsolute) := by
    cases hfin : seg.header.fin with
    | false =>
        rw [hfin, Bool.toNat_false] at hlength
        rw [hafter, hfin, Bool.or_false]
        refine ⟨by omega, fun hdone => ?_⟩
        have hcomplete := hr.complete hdone
        omega
    | true =>
        have hend := (hw.fin hfin).1
        have hsent := hw.carries.fin hfin
        rw [hfin, Bool.toNat_true] at hlength
        rw [hsent, Bool.toNat_true] at hnext
        rw [hafter, hfin, Bool.or_true, Bool.toNat_true]
        cases hdone : d.receiver.ended with
        | true =>
            have hcomplete := hr.complete hdone
            rw [hdone, Bool.toNat_true] at hreached
            exact ⟨by omega, fun _ => by omega⟩
        | false =>
            rw [hdone, Bool.toNat_false] at hreached
            exact ⟨by omega, fun _ => by omega⟩
  refine ⟨⟨?_, ?_, ?_⟩, hresult.1⟩
  · rw [hpush, StreamReassembler.finish_empty]
    exact hr.empty
  · intro hdone
    rw [hended] at hdone
    rw [TCPReceiver.streamOut, hpush,
      StreamReassembler.finish_output_inputEnded, hdone, hr.empty]
    simp
  · rw [hended, hresult.1]
    exact hresult.2

/-- A payload that continues what has arrived. -/
theorem InOrder.arrive_next
    (h : Flows c d) (hr : InOrder c.sender d.receiver)
    (hw : Whole c.sender n seg) (hstart : n = d.receiver.reached)
    (hheard : d.receiver.syn = true) (hsyn : seg.header.syn = false)
    (hne : seg.payload.str ≠ [])
    (hroom : c.sender.nextSeqnoAbsolute ≤
      1 + d.receiver.reassembler.windowEnd + d.receiver.ended.toNat)
    (hbelow : d.receiver.reassembler.windowEnd < 2 ^ 64) :
    InOrder c.sender (d.receiver.segmentReceived seg) ∧
      (d.receiver.segmentReceived seg).reached =
        d.receiver.reached + seg.lengthInSequenceSpace := by
  have htakes : d.receiver.Takes seg := by
    rw [TCPReceiver.Takes, hheard, hsyn]
    decide
  have hinv := h.follows.invariant
  have hlength := seg.lengthInSequenceSpace_eq
  have hlen := List.length_pos_of_ne_nil hne
  have hwithin := hw.within
  obtain ⟨hreached, hnext, hwritten⟩ := h.next_eq_of_syn hheard
  rw [hsyn, Bool.toNat_false, Buffer.size] at hlength
  -- nothing follows the FIN
  have hopen : d.receiver.ended = false := by
    by_contra hdone
    have hcomplete := hr.complete (Bool.eq_true_of_not_eq_false hdone)
    omega
  rw [hopen, Bool.toNat_false] at hreached hroom
  have hindex : d.receiver.indexOf seg = d.receiver.reassembler.expectedIndex := by
    rw [hw.indexOf_eq h htakes hne, hinv.expectedIndex_eq]
    omega
  have hfits : d.receiver.reassembler.expectedIndex +
      seg.payload.str.length ≤ d.receiver.reassembler.windowEnd := by
    rw [hinv.expectedIndex_eq]
    omega
  obtain ⟨hempty, hexpected, hend⟩ :=
    hinv.wellFormed.pushSubstring_next hr.empty hne hfits hbelow
      seg.header.fin
  have hpush := TCPReceiver.segmentReceived_reassembler htakes
  rw [hindex, hopen, Bool.false_or] at hpush
  rw [← hpush] at hempty hexpected hend
  have hended : (d.receiver.segmentReceived seg).ended = seg.header.fin := by
    rw [TCPReceiver.segmentReceived_ended htakes, hopen, Bool.false_or]
  have hinv' := hinv.segmentReceived
    (h.follows.inRange hw.carries (by have := h.below; omega))
  have hafter : (d.receiver.segmentReceived seg).reached =
      d.receiver.reached + seg.lengthInSequenceSpace := by
    rw [TCPReceiver.reached, if_pos (TCPReceiver.segmentReceived_syn htakes),
      hended, ← hinv'.expectedIndex_eq, hexpected, hinv.expectedIndex_eq]
    omega
  refine ⟨⟨hempty, ?_, ?_⟩, hafter⟩
  · rw [hended]
    exact hend
  · intro hfin
    rw [hended] at hfin
    rw [hafter, ← hstart]
    exact (hw.fin hfin).1

/-- A payload that has arrived before. -/
theorem InOrder.arrive_old
    (h : Flows c d) (hr : InOrder c.sender d.receiver)
    (hw : Whole c.sender n seg)
    (hold : n + seg.lengthInSequenceSpace ≤ d.receiver.reached)
    (hheard : d.receiver.syn = true) (hsyn : seg.header.syn = false)
    (hne : seg.payload.str ≠ []) (hroom : 0 < d.receiver.windowSize) :
    InOrder c.sender (d.receiver.segmentReceived seg) ∧
      (d.receiver.segmentReceived seg).reached = d.receiver.reached := by
  have htakes : d.receiver.Takes seg := by
    rw [TCPReceiver.Takes, hheard, hsyn]
    decide
  have hinv := h.follows.invariant
  have hbelow := h.below
  have hlength := seg.lengthInSequenceSpace_eq
  have hwithin := hw.within
  obtain ⟨hpos, hplace, -⟩ := hw.carries.payload.resolve_left hne
  obtain ⟨hreached, hnext, hwritten⟩ := h.next_eq_of_syn hheard
  rw [hsyn, Bool.toNat_false, Buffer.size] at hlength
  have hcomplete : d.receiver.ended = true →
      d.receiver.streamOut.bytesWritten =
        c.sender.streamIn.popped.length := by
    intro hdone
    have heq := hr.complete hdone
    rw [h.ended hdone, Bool.toNat_true] at hnext
    rw [hdone, Bool.toNat_true] at hreached
    omega
  -- if it carries the FIN, the FIN has arrived before as well
  have hended : (d.receiver.segmentReceived seg).ended = d.receiver.ended := by
    rw [TCPReceiver.segmentReceived_ended htakes]
    cases hfin : seg.header.fin with
    | false => exact Bool.or_false _
    | true =>
        have hend := (hw.fin hfin).1
        rw [hw.carries.fin hfin, Bool.toNat_true] at hnext
        cases hdone : d.receiver.ended with
        | true => rfl
        | false =>
            rw [hdone, Bool.toNat_false] at hreached
            omega
  have hbefore : n - 1 + seg.payload.str.length ≤
      d.receiver.reassembler.expectedIndex := by
    rw [hinv.expectedIndex_eq]
    cases hdone : d.receiver.ended with
    | true =>
        rw [hcomplete hdone]
        exact hplace
    | false =>
        rw [hdone, Bool.toNat_false] at hreached
        omega
  have hpush := TCPReceiver.segmentReceived_reassembler htakes
  rw [hw.indexOf_eq h htakes hne,
    StreamReassembler.pushSubstring_old hinv.wellFormed.cap_lt
      (hinv.windowSize_eq ▸ hroom) hne (by omega) hbefore] at hpush
  have hafter : (d.receiver.segmentReceived seg).reached =
      d.receiver.reached := by
    rw [TCPReceiver.reached, if_pos (TCPReceiver.segmentReceived_syn htakes),
      hended, TCPReceiver.streamOut, hpush, hreached]
    rfl
  refine ⟨⟨?_, ?_, ?_⟩, hafter⟩
  · rw [hpush]
    exact hr.empty
  · rw [hended, TCPReceiver.streamOut, hpush]
    exact hr.ended
  · rw [hended, hafter]
    exact hr.complete

/-- A segment of a reliable network takes the receiver exactly as far as it
advances. -/
theorem InOrder.arrive
    (h : Flows c d) (hr : InOrder c.sender d.receiver)
    (hmem : seg ∈ c.segmentsOut)
    (hadv : Advances c.sender.isn d.receiver.reached seg pos)
    (hroom : 0 < d.receiver.windowSize)
    (hfits : d.receiver.syn = true → c.sender.nextSeqnoAbsolute ≤
      1 + d.receiver.reassembler.windowEnd + d.receiver.ended.toNat)
    (hbelow : d.receiver.reassembler.windowEnd < 2 ^ 64) :
    InOrder c.sender (d.receiver.segmentReceived seg) ∧
      (d.receiver.segmentReceived seg).reached = pos := by
  obtain ⟨n, hw⟩ := h.whole hmem
  by_cases htakes : d.receiver.Takes seg
  · cases hheard : d.receiver.syn with
    | false =>
        rw [TCPReceiver.Takes, hheard] at htakes
        exact hr.arrive_syn h hw hadv hheard
          (Bool.eq_true_of_not_eq_false htakes)
    | true =>
        rw [TCPReceiver.Takes, hheard] at htakes
        have hsyn := Bool.eq_false_of_not_eq_true htakes
        by_cases hnil : seg.payload.str = []
        · exact hr.arrive_bare h hw hadv hheard hsyn hnil
        · rcases hw.of_advances h hadv with ⟨hstart, rfl⟩ | ⟨hold, rfl⟩
          · exact hr.arrive_next h hw hstart hheard hsyn hnil (hfits hheard)
              hbelow
          · exact hr.arrive_old h hw hold hheard hsyn hnil hroom
  · exact hr.arrive_ignored h hw hadv htakes

end Arrive

end Pair

end Sponge
