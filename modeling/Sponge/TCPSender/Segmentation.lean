import Sponge.Support.Slice
import Sponge.TCPSender.InFlight

/-!
# The segmentation of the outgoing stream

The segments that the sender creates are a SYN, then consecutive parts of the
stream, and at the end of the stream a FIN, alone or with the last bytes.
`Segmented` is the invariant; it holds as long as nothing is written after the
end of the input.  What is queued apart from new segments is a copy of the
first outstanding segment or occupies no sequence number.
-/

namespace Sponge

namespace TCPSender

/-! ## The invariant -/

/-- A segment that starts at the sequence number `e.1` carries the bytes of
the stream at that place.  The byte at index `i` has the sequence number
`i + 1`. -/
structure Placed (popped : Bytes) (e : ℕ × TCPSegment) : Prop where
  within : e.1 - 1 + e.2.payload.str.length ≤ popped.length
  payload : e.2.payload.str =
    popped.extract (e.1 - 1) (e.1 - 1 + e.2.payload.str.length)
  first : e.1 = 0 → e.2.payload.str = []
  syn : e.2.header.syn = true → e.1 = 0

theorem Placed.extend
    {popped more : Bytes} {e : ℕ × TCPSegment} (h : Placed popped e)
    (hle : popped <+: more) : Placed more e where
  within := h.within.trans hle.length_le
  payload := by
    rw [extract_eq_of_append hle h.within]
    exact h.payload
  first := h.first
  syn := h.syn

/-- What the created segments look like. -/
structure Segmented (s : TCPSender) : Prop where
  tracked : Tracked s
  seqno : ∀ e ∈ s.created, e.2.header.seqno = wrap e.1 s.isn
  small : ∀ e ∈ s.created, e.2.payload.size ≤ TCPConfig.maxPayloadSize
  payloads : s.created.flatMap (fun e => e.2.payload.str) =
    s.streamIn.popped
  next_eq : s.nextSeqnoAbsolute =
    s.streamIn.popped.length + s.syn.toNat + s.finSent.toNat
  placed : ∀ e ∈ s.created, Placed s.streamIn.popped e
  synFirst : (s.syn = false ∧ s.created = []) ∨
    (s.syn = true ∧ ∃ first rest, s.created = (0, first) :: rest ∧
      first.header.syn = true ∧ first.header.fin = false ∧
      first.payload.str = [] ∧ ∀ e ∈ rest, e.2.header.syn = false)
  finLast : (s.finSent = false ∧
      ∀ e ∈ s.created, e.2.header.fin = false) ∨
    (s.finSent = true ∧ s.syn = true ∧ s.streamIn.eof = true ∧
      ∃ front last, s.created = front ++ [last] ∧
        last.2.header.fin = true ∧ ∀ e ∈ front, e.2.header.fin = false)

theorem segmented_new
    (capacity : ℕ) (retxTimeout : UInt16) (fixedIsn : Option WrappingInt32)
    (randomIsn : UInt32) :
    Segmented (new capacity retxTimeout fixedIsn randomIsn) where
  tracked := tracked_new capacity retxTimeout fixedIsn randomIsn
  seqno := fun _ hmem => absurd hmem List.not_mem_nil
  small := fun _ hmem => absurd hmem List.not_mem_nil
  payloads := rfl
  next_eq := rfl
  placed := fun _ hmem => absurd hmem List.not_mem_nil
  synFirst := Or.inl ⟨rfl, rfl⟩
  finLast := Or.inl ⟨rfl, fun _ hmem => absurd hmem List.not_mem_nil⟩

section Segmented

variable {s t : TCPSender} {segment : TCPSegment}

/-- Before the SYN the next sequence number is zero. -/
theorem Segmented.next_of_not_syn
    (h : Segmented s) (hsyn : s.syn = false) : s.nextSeqnoAbsolute = 0 := by
  obtain ⟨una, acked, rest, hin⟩ := h.tracked
  have hcreated : s.created = [] := by
    rcases h.synFirst with ⟨-, hnil⟩ | ⟨htrue, -⟩
    · exact hnil
    · exact absurd (hsyn.symm.trans htrue) (by decide)
  have hcontiguous := hin.contiguous
  rw [hcreated] at hcontiguous
  exact hcontiguous.symm

/-- A sender that has sent the FIN has sent everything. -/
theorem Segmented.eof_of_finSent
    (h : Segmented s) (hfin : s.finSent = true) :
    s.syn = true ∧ s.streamIn.eof = true := by
  rcases h.finLast with ⟨hno, -⟩ | ⟨-, hsyn, heof, -⟩
  · exact absurd (hfin.symm.trans hno) (by decide)
  · exact ⟨hsyn, heof⟩

/-- After the FIN nothing more is created. -/
theorem Segmented.not_finSent_of_emission
    (h : Segmented s) (he : Emission s segment t) : s.finSent = false := by
  rcases h.finLast with ⟨hno, -⟩ | ⟨-, hsyn, heof, -⟩
  · exact hno
  · exact he.not_finSent hsyn ((eof_iff _).mp heof).2

/-- A new segment continues the stream. -/
theorem Segmented.placed_new
    (h : Segmented s) (he : Emission s segment t) :
    Placed t.streamIn.popped (s.nextSeqnoAbsolute, segment) := by
  have hnext := h.next_eq
  rw [h.not_finSent_of_emission he] at hnext
  cases hsyn : s.syn with
  | false =>
      have hzero := h.next_of_not_syn hsyn
      have hsegment : segment.header.syn = true := by
        rw [he.synFirst, hsyn]
        rfl
      obtain ⟨hpayload, -⟩ := he.synAlone hsegment
      rw [hzero]
      exact
        { within := by simp [hpayload]
          payload := by simp [hpayload]
          first := fun _ => hpayload
          syn := fun _ => rfl }
  | true =>
      have hstart : s.nextSeqnoAbsolute - 1 = s.streamIn.popped.length := by
        rw [hnext, hsyn]
        simp
      refine
        { within := ?_
          payload := ?_
          first := fun hzero => ?_
          syn := fun hsegment => ?_ }
      · rw [hstart, he.popped, List.length_append]
      · rw [hstart, he.popped, List.extract_eq_take_drop,
          List.drop_left, Nat.add_sub_cancel_left, List.take_length]
      · simp only [hnext, hsyn, Bool.toNat_true] at hzero
        omega
      · rw [he.synFirst, hsyn] at hsegment
        exact absurd hsegment (by decide)

/-- The SYN is the first segment, and no later one carries it. -/
theorem Segmented.synFirst_of_emission
    (h : Segmented s) (he : Emission s segment t) :
    ∃ first rest, t.created = (0, first) :: rest ∧
      first.header.syn = true ∧ first.header.fin = false ∧
      first.payload.str = [] ∧ ∀ e ∈ rest, e.2.header.syn = false := by
  rcases h.synFirst with ⟨hsyn, hnil⟩ | ⟨hsyn, first, rest, hcreated, hrest⟩
  · have hsegment : segment.header.syn = true := by
      rw [he.synFirst, hsyn]
      rfl
    obtain ⟨hpayload, hfin⟩ := he.synAlone hsegment
    refine ⟨segment, [], ?_, hsegment, hfin, hpayload,
      fun _ hmem => absurd hmem List.not_mem_nil⟩
    rw [he.created, hnil, h.next_of_not_syn hsyn]
    rfl
  · have hsegment : segment.header.syn = false := by
      rw [he.synFirst, hsyn]
      rfl
    obtain ⟨hsynFirst, hfin, hpayload, hall⟩ := hrest
    refine ⟨first, rest ++ [(s.nextSeqnoAbsolute, segment)], ?_, hsynFirst,
      hfin, hpayload, List.forall_mem_append.mpr
        ⟨hall, List.forall_mem_singleton.mpr hsegment⟩⟩
    rw [he.created, hcreated, List.cons_append]

theorem Segmented.emission
    (h : Segmented s) (he : Emission s segment t) : Segmented t := by
  have hno := h.not_finSent_of_emission he
  have hold : ∀ e ∈ s.created, e.2.header.fin = false := by
    rcases h.finLast with ⟨-, hall⟩ | ⟨hfin, -⟩
    · exact hall
    · exact absurd (hno.symm.trans hfin) (by decide)
  refine
    { tracked := h.tracked.emission he
      seqno := ?_
      small := ?_
      payloads := ?_
      next_eq := ?_
      placed := ?_
      synFirst := ?_
      finLast := ?_ }
  · rw [he.created, he.isn]
    exact List.forall_mem_append.mpr
      ⟨h.seqno, List.forall_mem_singleton.mpr he.seqno⟩
  · rw [he.created]
    exact List.forall_mem_append.mpr
      ⟨h.small, List.forall_mem_singleton.mpr he.small⟩
  · rw [he.created, List.flatMap_append, h.payloads, he.popped]
    simp
  · have hsyn : s.syn.toNat + segment.header.syn.toNat = 1 := by
      rw [he.synFirst]
      cases s.syn <;> rfl
    rw [he.next, he.popped, he.finSent, hno, he.syn, h.next_eq, hno,
      List.length_append, TCPSegment.lengthInSequenceSpace_eq, Buffer.size,
      Bool.false_or, Bool.toNat_true, Bool.toNat_false]
    omega
  · rw [he.created]
    refine List.forall_mem_append.mpr
      ⟨fun e hmem => ?_, List.forall_mem_singleton.mpr (h.placed_new he)⟩
    exact (h.placed e hmem).extend ⟨_, he.popped.symm⟩
  · exact Or.inr ⟨he.syn, h.synFirst_of_emission he⟩
  · rw [he.finSent, hno, Bool.false_or, he.created]
    cases hfin : segment.header.fin with
    | false =>
        exact Or.inl ⟨rfl, List.forall_mem_append.mpr
          ⟨hold, List.forall_mem_singleton.mpr hfin⟩⟩
    | true =>
        exact Or.inr ⟨rfl, he.syn, he.fin hfin, s.created,
          (s.nextSeqnoAbsolute, segment), rfl, hfin, hold⟩

/-- The invariant depends on the outgoing stream only through what has been
taken from it and whether it is at its end. -/
theorem Segmented.congr
    (h : Segmented s) (htracked : Tracked t) (hisn : t.isn = s.isn)
    (hcreated : t.created = s.created)
    (hnext : t.nextSeqnoAbsolute = s.nextSeqnoAbsolute)
    (hsyn : t.syn = s.syn) (hfin : t.finSent = s.finSent)
    (hpopped : t.streamIn.popped = s.streamIn.popped)
    (heof : s.finSent = true → s.streamIn.eof = true →
      t.streamIn.eof = true) :
    Segmented t where
  tracked := htracked
  seqno := by
    rw [hcreated, hisn]
    exact h.seqno
  small := by
    rw [hcreated]
    exact h.small
  payloads := by rw [hcreated, hpopped, h.payloads]
  next_eq := by rw [hnext, hpopped, hsyn, hfin, h.next_eq]
  placed := by
    rw [hcreated, hpopped]
    exact h.placed
  synFirst := by
    rw [hcreated, hsyn]
    exact h.synFirst
  finLast := by
    rw [hcreated, hfin, hsyn]
    rcases h.finLast with hno | ⟨hsent, hsyn', heof', hlast⟩
    · exact Or.inl hno
    · exact Or.inr ⟨hsent, hsyn', heof hsent heof', hlast⟩

theorem Segmented.sameSent
    (h : Segmented s) (htracked : Tracked t) (hsame : SameSent s t) :
    Segmented t := by
  refine h.congr htracked hsame.isn hsame.created hsame.next hsame.syn
    hsame.finSent ?_ ?_
  · rw [hsame.streamIn]
  · intro _ heof
    rw [hsame.streamIn]
    exact heof

theorem Segmented.fillWindow (h : Segmented s) : Segmented s.fillWindow :=
  (fillWindow_emits s).preserves (fun _ _ _ he hs => hs.emission he) h

theorem Segmented.ackReceived
    (h : Segmented s) (ackno : WrappingInt32) (windowSize : UInt16) :
    Segmented (s.ackReceived ackno windowSize) := by
  apply ackReceived_rule h
  · exact h.sameSent (h.tracked.congr rfl rfl rfl rfl rfl)
      (sameSent_closeWindow s)
  · intro _
    have happlied := applied_applyAck s (s.absoluteAckno ackno) windowSize
    exact (h.sameSent (h.tracked.applied happlied)
      happlied.sameSent).fillWindow

/-- As long as the ended stream accepts nothing, a FIN stays the last
segment. -/
theorem Segmented.write
    {data : Bytes} (h : Segmented s)
    (hend : s.streamIn.inputEnded = true → (s.streamIn.write data).1 = 0) :
    Segmented (s.step (.write data)) := by
  have hpopped : (s.step (.write data)).streamIn.popped =
      s.streamIn.popped := ByteStream.write_popped s.streamIn data
  refine h.congr (h.tracked.step (.write data)) rfl rfl rfl rfl rfl hpopped
    fun _ heof => ?_
  obtain ⟨hended, hempty⟩ := (eof_iff _).mp heof
  have haccepted := hend hended
  rw [ByteStream.write_fst] at haccepted
  refine (eof_iff _).mpr ⟨?_, ?_⟩
  · exact (ByteStream.write_inputEnded s.streamIn data).trans hended
  · refine (ByteStream.write_bufferSize s.streamIn data).trans ?_
    rw [hempty, haccepted]

theorem Segmented.endInput (h : Segmented s) :
    Segmented (s.step .endInput) := by
  refine h.congr (h.tracked.step .endInput) rfl rfl rfl rfl rfl rfl
    fun _ heof => ?_
  exact (eof_iff _).mpr ⟨rfl, ((eof_iff _).mp heof).2⟩

theorem Segmented.step
    {op : Op} (h : Segmented s) (hop : NoWriteAfterEnd s op) :
    Segmented (s.step op) := by
  have htracked := h.tracked.step op
  cases op with
  | write data =>
      exact h.write fun hended =>
        absurd (hended.symm.trans hop) (by decide)
  | endInput => exact h.endInput
  | fillWindow => exact h.fillWindow
  | ackReceived ackno windowSize => exact h.ackReceived ackno windowSize
  | tick ms => exact h.sameSent htracked (ticked_tick s ms).sameSent
  | sendEmptySegment =>
      exact h.sameSent htracked (sameSent_sendEmptySegment s)

end Segmented

/-! ## What a step queues -/

/-- The segment occupies a sequence number. -/
def Occupies (segment : TCPSegment) : Bool :=
  decide (0 < segment.lengthInSequenceSpace)

/-- The step from `s` to `t` queues new segments, and possibly one more copy
of the outstanding segment with the smallest sequence number; nothing else
that it queues occupies a sequence number. -/
structure Queues (s t : TCPSender) (out : List TCPSegment)
    (new : List (ℕ × TCPSegment)) (again : List TCPSegment) : Prop where
  segmentsOut : t.segmentsOut = s.segmentsOut ++ out
  created : t.created = s.created ++ new
  occupying : out.filter Occupies = new.map Prod.snd ++ again
  copies : ∀ segment ∈ again, ∃ k,
    (k, segment) ∈ s.outstandingSegments.entries ∧
      ∀ e ∈ s.outstandingSegments.entries, k ≤ e.1
  finAlone : s.streamIn.bufferSize = 0 → ∀ e ∈ new, e.2.payload.str = []

section Queues

variable {s t : TCPSender}

/-- The segments of a number of emissions. -/
theorem Emits.new (h : Emits s t) :
    ∃ new, t.created = s.created ++ new ∧
      t.segmentsOut = s.segmentsOut ++ new.map Prod.snd ∧
      (∀ e ∈ new, Occupies e.2 = true) ∧
      t.streamIn.popped =
        s.streamIn.popped ++ new.flatMap (fun e => e.2.payload.str) := by
  refine Emits.preserves (P := fun t => ∃ new,
    t.created = s.created ++ new ∧
      t.segmentsOut = s.segmentsOut ++ new.map Prod.snd ∧
      (∀ e ∈ new, Occupies e.2 = true) ∧
      t.streamIn.popped =
        s.streamIn.popped ++ new.flatMap (fun e => e.2.payload.str)) ?_ h ?_
  · rintro r segment t he ⟨new, hcreated, hout, hpos, hpopped⟩
    refine ⟨new ++ [(r.nextSeqnoAbsolute, segment)], ?_, ?_, ?_, ?_⟩
    · rw [he.created, hcreated, List.append_assoc]
    · rw [he.segmentsOut, hout]
      simp
    · exact List.forall_mem_append.mpr
        ⟨hpos, List.forall_mem_singleton.mpr (decide_eq_true he.positive)⟩
    · rw [he.popped, hpopped]
      simp
  · exact ⟨[], by simp, by simp,
      fun _ hmem => absurd hmem List.not_mem_nil, by simp⟩

/-- Emissions queue exactly the new segments. -/
theorem Emits.queues
    {r : TCPSender} (h : Emits r t) (hsegmentsOut : r.segmentsOut = s.segmentsOut)
    (hcreatedEq : r.created = s.created) (hstream : r.streamIn = s.streamIn) :
    ∃ out new again, Queues s t out new again := by
  obtain ⟨new, hcreated, hout, hpos, hpopped⟩ := h.new
  have hwritten := h.written
  rw [hcreatedEq] at hcreated
  rw [hsegmentsOut] at hout
  rw [hstream] at hpopped hwritten
  refine ⟨new.map Prod.snd, new, [], hout, hcreated, ?_,
    fun _ hmem => absurd hmem List.not_mem_nil, fun hempty e hmem => ?_⟩
  · rw [List.append_nil, List.filter_eq_self]
    intro segment hmem
    obtain ⟨e, he, rfl⟩ := List.mem_map.mp hmem
    exact hpos e he
  · have hbefore := s.streamIn.bytesWritten_eq
    have hafter := t.streamIn.bytesWritten_eq
    rw [ByteStream.bytesWritten_eq_length, ByteStream.bytesRead_eq_length]
      at hbefore hafter
    rw [hwritten, hpopped, List.length_append] at hafter
    have hnil : new.flatMap (fun e => e.2.payload.str) = [] := by
      apply List.eq_nil_of_length_eq_zero
      omega
    exact List.flatMap_eq_nil_iff.mp hnil e hmem

theorem Tracked.ticked_queues (h : Tracked s) (ht : Ticked s t) :
    ∃ out new again, Queues s t out new again := by
  obtain ⟨una, acked, rest, hin⟩ := h
  rcases ht.segmentsOut with hout | ⟨e, hhead, hout⟩
  · refine ⟨[], [], [], ?_, ?_, rfl,
      fun _ hmem => absurd hmem List.not_mem_nil,
      fun _ _ hmem => absurd hmem List.not_mem_nil⟩
    · rw [hout, List.append_nil]
    · rw [ht.sameSent.created, List.append_nil]
  · obtain ⟨es, hentries⟩ := List.head?_eq_some_iff.mp hhead
    have hmem : e ∈ stops TCPSegment.lengthInSequenceSpace rest := by
      rw [← hin.outstanding_eq, hentries]
      exact List.mem_cons_self
    have hpos : Occupies e.2 = true := by
      obtain ⟨d, hd, rfl⟩ := List.mem_map.mp hmem
      exact decide_eq_true (hin.positive d hd)
    refine ⟨[e.2], [], [e.2], hout, ?_, ?_, ?_,
      fun _ _ hmem => absurd hmem List.not_mem_nil⟩
    · rw [ht.sameSent.created, List.append_nil]
    · rw [List.filter_cons_of_pos hpos]
      rfl
    · intro segment hsegment
      rw [List.mem_singleton.mp hsegment]
      have hsorted := s.outstandingSegments.sorted
      rw [hentries] at hsorted ⊢
      refine ⟨e.1, List.mem_cons_self, fun d hd => ?_⟩
      rcases List.mem_cons.mp hd with rfl | hd
      · exact le_rfl
      · exact ((List.pairwise_cons.mp hsorted).1 d hd).le

theorem Tracked.step_queues (h : Tracked s) (op : Op) :
    ∃ out new again, Queues s (s.step op) out new again := by
  have hquiet : ∀ t : TCPSender, t.segmentsOut = s.segmentsOut →
      t.created = s.created →
      ∃ out new again, Queues s t out new again := by
    intro t hout hcreated
    refine ⟨[], [], [], ?_, ?_, rfl,
      fun _ hmem => absurd hmem List.not_mem_nil,
      fun _ _ hmem => absurd hmem List.not_mem_nil⟩
    · rw [hout, List.append_nil]
    · rw [hcreated, List.append_nil]
  cases op with
  | write data => exact hquiet _ rfl rfl
  | endInput => exact hquiet _ rfl rfl
  | fillWindow => exact (fillWindow_emits s).queues rfl rfl rfl
  | ackReceived ackno windowSize =>
      apply ackReceived_rule
        (P := fun t => ∃ out new again, Queues s t out new again)
      · exact hquiet s rfl rfl
      · exact hquiet _ rfl rfl
      · intro _
        have happlied := applied_applyAck s (s.absoluteAckno ackno) windowSize
        exact (fillWindow_emits _).queues happlied.segmentsOut
          happlied.sameSent.created happlied.sameSent.streamIn
  | tick ms => exact h.ticked_queues (ticked_tick s ms)
  | sendEmptySegment =>
      refine ⟨[{ header := { ack := true, seqno := s.nextSeqno } }], [], [],
        rfl, (List.append_nil _).symm, rfl,
        fun _ hmem => absurd hmem List.not_mem_nil,
        fun _ _ hmem => absurd hmem List.not_mem_nil⟩

end Queues

/-! ## Runs -/

/-- The created segments cut the stream exactly. -/
structure ExactSegmentation (s : TCPSender) : Prop where
  first : ∀ e es, s.created = e :: es →
    e.1 = 0 ∧ e.2.header.syn = true ∧ e.2.payload.str = [] ∧
      ∀ d ∈ es, d.2.header.syn = false
  contiguous : Contiguous TCPSegment.lengthInSequenceSpace 0 s.created
    s.nextSeqnoAbsolute
  seqno : ∀ e ∈ s.created, e.2.header.seqno = wrap e.1 s.isn
  small : ∀ e ∈ s.created, e.2.payload.size ≤ TCPConfig.maxPayloadSize
  payloads : s.created.flatMap (fun e => e.2.payload.str) =
    s.streamIn.popped
  finLast : ∀ front e back, s.created = front ++ e :: back →
    e.2.header.fin = true → back = [] ∧
      (∀ d ∈ front, d.2.header.fin = false) ∧ s.streamIn.eof = true

theorem Segmented.exact {s : TCPSender} (h : Segmented s) :
    ExactSegmentation s := by
  obtain ⟨una, acked, rest, hin⟩ := h.tracked
  refine
    { first := ?_
      contiguous := hin.contiguous
      seqno := h.seqno
      small := h.small
      payloads := h.payloads
      finLast := ?_ }
  · intro e es hcreated
    rcases h.synFirst with ⟨-, hnil⟩ | ⟨-, first, rest', hfirst, hrest⟩
    · rw [hnil] at hcreated
      exact absurd hcreated (List.cons_ne_nil e es).symm
    · rw [hfirst] at hcreated
      obtain ⟨rfl, rfl⟩ := List.cons.inj hcreated
      obtain ⟨hsyn, -, hpayload, hall⟩ := hrest
      exact ⟨rfl, hsyn, hpayload, hall⟩
  · intro front e back hcreated hfin
    rcases h.finLast with ⟨-, hno⟩ | ⟨-, -, heof, front', last, hlast, -, hno⟩
    · have hfalse := hno e (by rw [hcreated]; simp)
      exact absurd (hfin.symm.trans hfalse) (by decide)
    · rw [hlast] at hcreated
      rcases List.eq_nil_or_concat back with rfl | ⟨init, d, rfl⟩
      · obtain ⟨rfl, -⟩ := List.append_inj' hcreated rfl
        exact ⟨rfl, hno, heof⟩
      · have hsplit : front' ++ [last] = (front ++ e :: init) ++ [d] := by
          rw [hcreated]
          simp
        obtain ⟨rfl, -⟩ := List.append_inj' hsplit rfl
        have hfalse := hno e (by simp)
        exact absurd (hfin.symm.trans hfalse) (by decide)

/-- In every run in which nothing is written after the end of the input, the
created segments cut the stream exactly, and every step queues, besides what
occupies no sequence number, only the segments it creates and copies of the
first outstanding segment. -/
theorem run_segmentation
    (capacity : ℕ) (retxTimeout : UInt16) (fixedIsn : Option WrappingInt32)
    (randomIsn : UInt32) (ops : List Op)
    (hops : Guarded step NoWriteAfterEnd
      (new capacity retxTimeout fixedIsn randomIsn) ops) :
    ExactSegmentation
        (run step (new capacity retxTimeout fixedIsn randomIsn) ops) ∧
      ∀ pre op, pre ++ [op] <+: ops → ∃ out new' again, Queues
        (run step (new capacity retxTimeout fixedIsn randomIsn) pre)
        (run step (new capacity retxTimeout fixedIsn randomIsn)
          (pre ++ [op])) out new' again := by
  have hstart := segmented_new capacity retxTimeout fixedIsn randomIsn
  constructor
  · have h := run_invariant (fun _ _ hs hop => Segmented.step hs hop) hstart
      hops
    exact h.exact
  · rintro pre op ⟨rest, rfl⟩
    rw [guarded_append, guarded_concat] at hops
    have h := run_invariant (fun _ _ hs hop => Segmented.step hs hop) hstart
      hops.1.1
    rw [run_concat]
    exact h.tracked.step_queues op

/-- A short connection: two bytes, a FIN, a timeout. -/
def shortRun : List Op :=
  [.fillWindow, .write [97, 98], .ackReceived ⟨1⟩ 10, .endInput, .fillWindow,
    .tick 2000, .sendEmptySegment]

theorem run_segmentation_shortRun :
    ExactSegmentation (run step (new 10 1000 (some ⟨0⟩) 0) shortRun) ∧
      ∀ pre op, pre ++ [op] <+: shortRun → ∃ out new' again, Queues
        (run step (new 10 1000 (some ⟨0⟩) 0) pre)
        (run step (new 10 1000 (some ⟨0⟩) 0) (pre ++ [op])) out new'
          again :=
  run_segmentation 10 1000 (some ⟨0⟩) 0 shortRun (by decide)

example : (run step (new 10 1000 (some ⟨0⟩) 0) shortRun).created =
    [(0, { header := { syn := true, seqno := ⟨0⟩ } }),
      (1,
        { header := { seqno := ⟨1⟩ }
          payload := Buffer.ofString [97, 98] }),
      (3, { header := { fin := true, seqno := ⟨3⟩ } })] := by
  decide

end TCPSender

end Sponge
