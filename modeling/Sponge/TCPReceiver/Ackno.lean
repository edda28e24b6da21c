import Sponge.TCPReceiver.Invariant

/-!
# When the acknowledgment number is exact

The code adds one for the FIN when it has seen a FIN and the reassembler is
empty.  The inbound stream ends on other conditions, inside `push_substring`.
The two agree until a segment makes them differ, and there are three ways to
do so: the segment with the FIN is dropped by a reassembler that holds
nothing, it is trimmed at the end of the window, or a segment leaves bytes
beyond a gap after the stream has ended.

`ackno_exact_iff_safe` shows that these are all: in a run the acknowledgment
number is exact after every step exactly when no step is of the three kinds.
-/

namespace Sponge

namespace TCPReceiver

/-! ## The exact acknowledgment number -/

/-- The absolute sequence number of the first byte, or FIN, that has not
arrived at the inbound stream. -/
def exactAck (r : TCPReceiver) : ℕ :=
  1 + r.streamOut.bytesWritten + r.streamOut.inputEnded.toNat

/-- The code's condition for acknowledging a FIN agrees with the stream. -/
def Exact (r : TCPReceiver) : Prop :=
  (r.ended && r.reassembler.empty) = r.streamOut.inputEnded

theorem Exact.computedAck_eq {r : TCPReceiver} (h : Exact r) :
    r.computedAck = r.exactAck := by
  rw [computedAck, exactAck, h]

/-- Absolute sequence numbers that differ by at most one are told apart by
their last 32 bits. -/
theorem wrap_inj_of_near
    {x y : ℕ} {isn : WrappingInt32} (hxy : x ≤ y + 1) (hyx : y ≤ x + 1)
    (h : wrap x isn = wrap y isn) : x = y := by
  have hrel : relativeSeqno (wrap x isn) isn =
      relativeSeqno (wrap y isn) isn := by rw [h]
  rw [relativeSeqno_wrap, relativeSeqno_wrap] at hrel
  omega

theorem Invariant.ackno_eq_iff
    {r : TCPReceiver} (h : Invariant r) (hsyn : r.syn = true) :
    r.ackno = some (wrap r.exactAck r.isn) ↔ Exact r := by
  rw [ackno, if_pos hsyn, Option.some_inj, h.ack_eq hsyn, h.expAck_eq hsyn]
  constructor
  · intro hwrap
    have hleft := (r.ended && r.reassembler.empty).toNat_le
    have hright := r.streamOut.inputEnded.toNat_le
    unfold computedAck exactAck at hwrap
    have heq := wrap_inj_of_near (by omega) (by omega) hwrap
    exact eq_of_toNat_eq (Nat.add_left_cancel heq)
  · intro hexact
    rw [hexact.computedAck_eq]

theorem Invariant.exact_of_not_syn
    {r : TCPReceiver} (h : Invariant r) (hsyn : r.syn = false) :
    Exact r := by
  obtain ⟨-, -, hended, -, -⟩ := h.untouched hsyn
  cases hout : r.streamOut.inputEnded with
  | false => simp [Exact, hended, hout]
  | true =>
      have hcontra := h.ended_of_inputEnded (h.inputEnded_of_output hout)
      rw [hended] at hcontra
      exact absurd hcontra (by decide)

/-! ## The steps that break it -/

/-- Bytes of the substring are stored beyond a gap although the output has
ended. -/
def StoresPastEnd (q : StreamReassembler) (data : Bytes) (index : ℕ) :
    Prop :=
  q.output.inputEnded = true ∧ q.Accepts data index ∧
    q.expectedIndex < index

/-- The substring lies outside the window while nothing is stored, so it is
dropped together with the end that comes with it. -/
def DropsEnd (q : StreamReassembler) (data : Bytes) (index : ℕ) : Prop :=
  q.output.inputEnded = false ∧ 0 < q.output.remainingCapacity ∧
    data ≠ [] ∧ ¬ q.Accepts data index ∧ q.empty = true

/-- The substring fills the window and the end that comes with it is cut
off. -/
def TrimsEnd (q : StreamReassembler) (data : Bytes) (index : ℕ) : Prop :=
  q.output.inputEnded = false ∧ q.Accepts data index ∧
    index ≤ q.expectedIndex ∧ q.upperBoundIndex < index + data.length ∧
    q.inputEnded = false

/-- The step keeps the acknowledgment number exact. -/
def AckSafe (r : TCPReceiver) : Op → Prop
  | .segment seg =>
      r.Takes seg → (r.ended || seg.header.fin) = true →
        ¬ StoresPastEnd r.reassembler seg.payload.str (r.indexOf seg) ∧
        ¬ DropsEnd r.reassembler seg.payload.str (r.indexOf seg) ∧
        ¬ TrimsEnd r.reassembler seg.payload.str (r.indexOf seg)
  | .pop _ => True
  | .read _ => True

instance ackSafeDecidable (r : TCPReceiver) :
    ∀ op, Decidable (AckSafe r op)
  | .segment _ => by
      unfold AckSafe StoresPastEnd DropsEnd TrimsEnd
      infer_instance
  | .pop _ => isTrue trivial
  | .read _ => isTrue trivial

section Steps

variable {r : TCPReceiver} {seg : TCPSegment}

/-- After the output has ended everything stored must be contiguous. -/
theorem Invariant.empty_storeAccepted_iff
    (h : Invariant r) (hexact : Exact r)
    (hout : r.streamOut.inputEnded = true) {data : Bytes} {index : ℕ}
    (hacc : r.reassembler.Accepts data index)
    (hbelow : index + data.length < 2 ^ 64) :
    (r.reassembler.storeAccepted data index).empty = true ↔
      ¬ StoresPastEnd r.reassembler data index := by
  have hempty : r.reassembler.empty = true := by
    unfold Exact at hexact
    rw [hout, Bool.and_eq_true] at hexact
    exact hexact.2
  have hnil := h.wellFormed.toAssembling.entries_eq_nil_iff.mp hempty
  constructor
  · rintro hafter ⟨-, -, hgap⟩
    have hno := (StreamReassembler.storeAccepted_not_empty h.wellFormed hacc
      hbelow hgap).1
    rw [hafter] at hno
    exact absurd hno (by decide)
  · intro hsafe
    have hcont : index ≤ r.reassembler.expectedIndex := by
      by_contra hgap
      exact hsafe ⟨hout, hacc, not_le.mp hgap⟩
    apply (StreamReassembler.storeAccepted_empty h.wellFormed hacc hbelow
      hcont _).1
    simp [hnil]

/-- A substring that is cut at the end of the window leaves nothing stored
exactly when it continues the stream. -/
theorem Invariant.empty_storeAccepted_of_trimmed
    (h : Invariant r) {data : Bytes} {index : ℕ}
    (hupper : r.reassembler.upperBoundIndex = r.reassembler.windowEnd)
    (hacc : r.reassembler.Accepts data index)
    (hbelow : index + data.length < 2 ^ 64)
    (htrim : r.reassembler.upperBoundIndex < index + data.length) :
    (r.reassembler.storeAccepted data index).empty = true ↔
      index ≤ r.reassembler.expectedIndex := by
  constructor
  · intro hafter
    by_contra hgap
    have hno := (StreamReassembler.storeAccepted_not_empty h.wellFormed hacc
      hbelow (not_le.mp hgap)).1
    rw [hafter] at hno
    exact absurd hno (by decide)
  · intro hcont
    apply (StreamReassembler.storeAccepted_empty h.wellFormed hacc hbelow
      hcont _).1
    intro p hp
    have hstop : r.reassembler.acceptedStop data index =
        r.reassembler.windowEnd := by
      rw [hupper] at htrim
      exact min_eq_right htrim.le
    rw [hstop]
    exact h.wellFormed.fits p hp

/-- Before any FIN the output has not ended and does not end. -/
theorem Invariant.output_not_ended
    (h : Invariant r) (hended : r.ended = false) :
    r.streamOut.inputEnded = false := by
  by_contra hout
  rw [Bool.not_eq_false] at hout
  have hcontra := h.ended_of_inputEnded (h.inputEnded_of_output hout)
  rw [hended] at hcontra
  exact absurd hcontra (by decide)

/-- With the end still to come, the stored part leaves nothing to assemble
without ending the output exactly when the end has been cut off. -/
theorem Invariant.empty_eq_iff_not_trimsEnd
    (h : Invariant r) (hop : r.NoOverflow (.segment seg))
    (hout : r.reassembler.output.inputEnded = false) {index : ℕ}
    (hacc : r.reassembler.Accepts seg.payload.str index)
    (hbelow : index + seg.payload.str.length < 2 ^ 64) :
    (r.reassembler.storeAccepted seg.payload.str index).empty =
        ((r.reassembler.inputEnded ||
          decide (index + seg.payload.str.length ≤
            r.reassembler.upperBoundIndex)) &&
          (r.reassembler.storeAccepted seg.payload.str index).empty) ↔
      ¬ TrimsEnd r.reassembler seg.payload.str index := by
  have hupper := h.upperBoundIndex_eq hop hacc.2.1
  constructor
  · rintro hsame ⟨-, -, hcont, htrim, hinput⟩
    have hem := (h.empty_storeAccepted_of_trimmed hupper hacc hbelow
      htrim).mpr hcont
    rw [hem, hinput, Bool.false_or, Bool.and_true,
      decide_eq_false (not_le.mpr htrim)] at hsame
    exact absurd hsame (by decide)
  · intro htrims
    by_cases hfits : index + seg.payload.str.length ≤
        r.reassembler.upperBoundIndex
    · rw [decide_eq_true hfits, Bool.or_true, Bool.true_and]
    · have htrim := not_le.mp hfits
      rw [decide_eq_false hfits, Bool.or_false]
      cases hinput : r.reassembler.inputEnded with
      | true => rw [Bool.true_and]
      | false =>
          rw [Bool.false_and, ← Bool.not_eq_true,
            h.empty_storeAccepted_of_trimmed hupper hacc hbelow htrim]
          exact fun hcont => htrims ⟨hout, hacc, hcont, htrim, hinput⟩

/-- The effect of a push that carries the end of the stream. -/
theorem Invariant.exact_push_iff
    (h : Invariant r) (hexact : Exact r)
    (hop : r.NoOverflow (.segment seg)) {index : ℕ}
    (hrange : r.reassembler.InRange seg.payload.str index) :
    (r.reassembler.pushSubstring seg.payload.str index true).empty =
        (r.reassembler.pushSubstring seg.payload.str index
          true).output.inputEnded ↔
      ¬ StoresPastEnd r.reassembler seg.payload.str index ∧
      ¬ DropsEnd r.reassembler seg.payload.str index ∧
      ¬ TrimsEnd r.reassembler seg.payload.str index := by
  have hempty : r.reassembler.output.inputEnded = true →
      r.reassembler.empty = true := by
    intro hout
    have hboth : (r.ended && r.reassembler.empty) = true :=
      hexact.trans hout
    exact (Bool.and_eq_true_iff.mp hboth).2
  rcases StreamReassembler.pushSubstring_cases h.wellFormed.cap_lt hrange
    true with ⟨hno, hnone, heq⟩ | ⟨hno, hrem, hne, heq⟩ | ⟨hacc, hbelow, heq⟩
  · rw [heq, StreamReassembler.finish_empty,
      StreamReassembler.finish_output_inputEnded, Bool.or_true,
      Bool.true_and]
    refine ⟨fun _ => ⟨fun hpast => hno hpast.2.1, ?_,
      fun htrim => hno htrim.2.1⟩, fun _ => ?_⟩
    · rintro ⟨-, hrem, hne, -, -⟩
      rcases hnone with hzero | hnil
      · omega
      · exact hne hnil
    · cases hout : r.reassembler.output.inputEnded with
      | false => rw [Bool.false_or]
      | true => rw [hempty hout, Bool.true_or]
  · rw [heq]
    refine ⟨fun hsame => ⟨fun hpast => hno hpast.2.1, ?_,
      fun htrim => hno htrim.2.1⟩, ?_⟩
    · rintro ⟨hout, -, -, -, hem⟩
      rw [hout, hem] at hsame
      exact absurd hsame (by decide)
    · rintro ⟨-, hdrop, -⟩
      cases hout : r.reassembler.output.inputEnded with
      | true => exact hempty hout
      | false =>
          rw [← Bool.not_eq_true]
          exact fun hem => hdrop ⟨hout, hrem, hne, hno, hem⟩
  · rw [heq, StreamReassembler.finish_empty,
      StreamReassembler.finish_output_inputEnded,
      StreamReassembler.storeAccepted_inputEnded,
      StreamReassembler.storeAccepted_output_inputEnded, Bool.true_and]
    have hdrop : ¬ DropsEnd r.reassembler seg.payload.str index :=
      fun hdrop => hdrop.2.2.2.1 hacc
    cases hout : r.reassembler.output.inputEnded with
    | true =>
        rw [Bool.true_or,
          h.empty_storeAccepted_iff hexact hout hacc hbelow]
        refine ⟨fun hpast => ⟨hpast, hdrop, fun htrim => ?_⟩, And.left⟩
        exact absurd (hout.symm.trans htrim.1) (by decide)
    | false =>
        have hpast : ¬ StoresPastEnd r.reassembler seg.payload.str index :=
          fun hpast => absurd (hout.symm.trans hpast.1) (by decide)
        rw [Bool.false_or]
        have hstored := h.empty_eq_iff_not_trimsEnd hop hout hacc hbelow
        rw [hstored]
        exact ⟨fun htrim => ⟨hpast, hdrop, htrim⟩, fun hall => hall.2.2⟩

theorem Invariant.exact_segment_iff
    (h : Invariant r) (hexact : Exact r)
    (hop : r.NoOverflow (.segment seg)) :
    Exact (r.segmentReceived seg) ↔ AckSafe r (.segment seg) := by
  have hrange := h.inRange hop
  by_cases htakes : r.Takes seg
  swap
  · rw [segmentReceived_of_not_takes htakes]
    exact ⟨fun _ htakes' => absurd htakes' htakes, fun _ => hexact⟩
  cases he : r.ended || seg.header.fin with
  | false =>
      have hended : (r.segmentReceived seg).ended = false := by
        rw [segmentReceived_ended htakes, he]
      have hnone := (h.segmentReceived hrange).output_not_ended hended
      refine ⟨fun _ _ htrue => ?_, fun _ => ?_⟩
      · exact absurd (he.symm.trans htrue) (by decide)
      · rw [Exact, hended, hnone, Bool.false_and]
  | true =>
      rw [Exact, streamOut, segmentReceived_reassembler htakes,
        segmentReceived_ended htakes, he, Bool.true_and,
        h.exact_push_iff hexact hop (hrange htakes)]
      exact ⟨fun hsafe _ _ => hsafe, fun hsafe => hsafe htakes he⟩

theorem Invariant.exact_step_iff
    {op : Op} (h : Invariant r) (hexact : Exact r) (hop : r.NoOverflow op) :
    Exact (r.step op) ↔ AckSafe r op := by
  cases op with
  | segment seg => exact h.exact_segment_iff hexact hop
  | pop len =>
      refine ⟨fun _ => trivial, fun _ => ?_⟩
      rw [Exact, step_pop, popOutput_ended, popOutput_empty,
        popOutput_streamOut, ByteStream.popOutput_inputEnded]
      exact hexact
  | read len =>
      refine ⟨fun _ => trivial, fun _ => ?_⟩
      rw [Exact, step_read, popOutput_ended, popOutput_empty,
        popOutput_streamOut, ByteStream.popOutput_inputEnded]
      exact hexact

/-- The exact acknowledgment number never decreases. -/
theorem Invariant.exactAck_le_step
    {op : Op} (h : Invariant r) (hop : r.NoOverflow op) :
    r.exactAck ≤ (r.step op).exactAck := by
  cases op with
  | segment seg =>
      by_cases htakes : r.Takes seg
      · have hrange := h.inRange hop htakes
        have hwritten := h.wellFormed.expectedIndex_le_pushSubstring hrange
          (r.ended || seg.header.fin)
        rw [h.expectedIndex_eq, ← h.bytesWritten_segmentReceived htakes
          (h.inRange hop)] at hwritten
        have hend := StreamReassembler.pushSubstring_output_inputEnded_of
          h.wellFormed.cap_lt hrange (r.ended || seg.header.fin)
        rw [← segmentReceived_reassembler htakes] at hend
        simp only [exactAck, step_segment, streamOut] at hwritten ⊢
        cases hout : r.reassembler.output.inputEnded with
        | true =>
            rw [hend hout]
            omega
        | false =>
            rw [Bool.toNat_false]
            omega
      · rw [step_segment, segmentReceived_of_not_takes htakes]
  | pop len => simp [exactAck]
  | read len => simp [exactAck]

end Steps

/-! ## Runs -/

/-- The sequence number of a SYN. -/
def synSeqno : Op → Option WrappingInt32
  | .segment seg =>
      if seg.header.syn then some seg.header.seqno else none
  | .pop _ => none
  | .read _ => none

/-- The initial sequence number: that of the first SYN of the run. -/
def firstSyn (ops : List Op) : Option WrappingInt32 :=
  ops.findSome? synSeqno

/-- The initial sequence number that the receiver has stored. -/
def storedIsn (r : TCPReceiver) : Option WrappingInt32 :=
  if r.syn then some r.isn else none

theorem storedIsn_step (r : TCPReceiver) (op : Op) :
    (r.step op).storedIsn = r.storedIsn.or (synSeqno op) := by
  cases op with
  | segment seg =>
      by_cases htakes : r.Takes seg
      · rw [step_segment, storedIsn, segmentReceived_syn htakes, if_pos rfl,
          segmentReceived_isn htakes]
        unfold Takes at htakes
        cases hseg : seg.header.syn with
        | true =>
            have hsyn : r.syn = false := by
              simpa [hseg] using htakes.symm
            simp [storedIsn, hsyn, synSeqno, hseg, noteSyn_of_syn hseg]
        | false =>
            have hsyn : r.syn = true := by
              simpa [hseg] using htakes.symm
            simp [storedIsn, hsyn, noteSyn_of_not_syn hseg]
      · rw [step_segment, segmentReceived_of_not_takes htakes]
        have hsame : seg.header.syn = r.syn := not_not.mp htakes
        cases hsyn : r.syn with
        | true => simp [storedIsn, hsyn]
        | false => simp [storedIsn, synSeqno, hsame, hsyn]
  | pop len => exact Option.or_none.symm
  | read len => exact Option.or_none.symm

theorem storedIsn_run (r : TCPReceiver) (ops : List Op) :
    (run step r ops).storedIsn = r.storedIsn.or (firstSyn ops) := by
  induction ops generalizing r with
  | nil => simp [firstSyn]
  | cons op ops ih =>
      rw [run_cons, ih, storedIsn_step, Option.or_assoc]
      congr 1
      rw [firstSyn, firstSyn, List.findSome?_cons]
      cases synSeqno op with
      | none => rfl
      | some isn => rfl

theorem firstSyn_eq_some_iff
    (capacity : ℕ) (ops : List Op) {isn : WrappingInt32} :
    firstSyn ops = some isn ↔
      (run step (new capacity) ops).syn = true ∧
        (run step (new capacity) ops).isn = isn := by
  have hstored : (run step (new capacity) ops).storedIsn = firstSyn ops :=
    (storedIsn_run (new capacity) ops).trans Option.none_or
  rw [← hstored, storedIsn]
  cases (run step (new capacity) ops).syn with
  | true => simp
  | false => simp

/-- After a run that has received a SYN, the acknowledgment number is the one
of the first byte, or FIN, that has not arrived at the inbound stream. -/
def AckExact (capacity : ℕ) (ops : List Op) : Prop :=
  ∀ isn, firstSyn ops = some isn →
    (run step (new capacity) ops).ackno =
      some (wrap (run step (new capacity) ops).exactAck isn)

theorem ackExact_iff
    {capacity : ℕ} {ops : List Op}
    (h : Invariant (run step (new capacity) ops)) :
    AckExact capacity ops ↔ Exact (run step (new capacity) ops) := by
  cases hsyn : (run step (new capacity) ops).syn with
  | false =>
      refine ⟨fun _ => h.exact_of_not_syn hsyn, fun _ isn hisn => ?_⟩
      have htrue := ((firstSyn_eq_some_iff capacity ops).mp hisn).1
      rw [hsyn] at htrue
      exact absurd htrue (by decide)
  | true =>
      rw [← h.ackno_eq_iff hsyn]
      constructor
      · intro hack
        exact hack _ ((firstSyn_eq_some_iff capacity ops).mpr ⟨hsyn, rfl⟩)
      · intro hack isn hisn
        rw [hack, ((firstSyn_eq_some_iff capacity ops).mp hisn).2]

theorem exactAck_le_run
    {r : TCPReceiver} {ops : List Op} (h : Invariant r)
    (hops : Guarded step NoOverflow r ops) :
    r.exactAck ≤ (run step r ops).exactAck :=
  run_related (fun s t => s.exactAck ≤ t.exactAck)
    (fun _ => le_rfl) (fun _ _ _ => le_trans)
    (fun _ _ hs hop => ⟨hs.step hop, hs.exactAck_le_step hop⟩) h hops

/-- Once the SYN has been received the absolute acknowledgment number follows
the exact one. -/
theorem expAck_le_run
    {capacity : ℕ} {pre more : List Op}
    (hpre : Invariant (run step (new capacity) pre))
    (hpreExact : Exact (run step (new capacity) pre))
    (hmore : Invariant (run step (new capacity) (pre ++ more)))
    (hmoreExact : Exact (run step (new capacity) (pre ++ more)))
    (hops : Guarded step NoOverflow (run step (new capacity) pre) more) :
    (run step (new capacity) pre).expAck ≤
      (run step (new capacity) (pre ++ more)).expAck := by
  cases hsyn : (run step (new capacity) pre).syn with
  | false =>
      rw [(hpre.untouched hsyn).1]
      exact Nat.zero_le _
  | true =>
      have hfirst := (firstSyn_eq_some_iff capacity pre).mpr ⟨hsyn, rfl⟩
      have hfirst' : firstSyn (pre ++ more) =
          some (run step (new capacity) pre).isn := by
        rw [firstSyn, List.findSome?_append]
        rw [firstSyn] at hfirst
        rw [hfirst, Option.some_or]
      have hsyn' := (firstSyn_eq_some_iff capacity _).mp hfirst'
      rw [hpre.expAck_eq hsyn, hmore.expAck_eq hsyn'.1,
        hpreExact.computedAck_eq, hmoreExact.computedAck_eq, run_append]
      exact exactAck_le_run hpre hops

/-- Throughout a run the acknowledgment number is exact and its absolute value
does not decrease, exactly when no step drops or trims the end of the stream
or stores bytes beyond it. -/
theorem ackno_exact_iff_safe
    (capacity : ℕ) (hcapacity : capacity < 2 ^ 64) (ops : List Op)
    (hops : Guarded step NoOverflow (new capacity) ops) :
    ((∀ pre, pre <+: ops → AckExact capacity pre) ∧
      ∀ pre more, pre ++ more <+: ops →
        (run step (new capacity) pre).expAck ≤
          (run step (new capacity) (pre ++ more)).expAck) ↔
      Guarded step AckSafe (new capacity) ops := by
  have hstart := invariant_new hcapacity
  have hinv : ∀ pre, pre <+: ops →
      Invariant (run step (new capacity) pre) := by
    rintro pre ⟨more, rfl⟩
    exact run_invariant (fun _ _ hs hop => hs.step hop) hstart
      (guarded_append.mp hops).1
  have hexact := forall_prefix_iff_guarded
    (fun _ _ hs hop => Invariant.step hs hop)
    (fun _ _ hs hop hP => Invariant.exact_step_iff hs hP hop)
    hstart (hstart.exact_of_not_syn rfl) hops
  rw [← hexact]
  constructor
  · rintro ⟨hack, -⟩ pre hpre
    exact (ackExact_iff (hinv pre hpre)).mp (hack pre hpre)
  · intro hall
    refine ⟨fun pre hpre => (ackExact_iff (hinv pre hpre)).mpr
      (hall pre hpre), fun pre more hpre => ?_⟩
    have hpre' := (List.prefix_append pre more).trans hpre
    obtain ⟨rest, rfl⟩ := hpre
    exact expAck_le_run (hinv pre hpre') (hall pre hpre')
      (hinv (pre ++ more) (List.prefix_append _ _))
      (hall (pre ++ more) (List.prefix_append _ _))
      (guarded_append.mp (guarded_append.mp hops).1).2

/-- Two segments arrive in order and the second ends the stream. -/
theorem ackno_exact_in_order :
    (∀ pre, pre <+: [Op.segment { header := { syn := true } },
        .segment
          { header := { seqno := ⟨1⟩, fin := true }
            payload := Buffer.ofString [97, 98] }] → AckExact 4 pre) ∧
      ∀ pre more, pre ++ more <+: [Op.segment { header := { syn := true } },
          .segment
            { header := { seqno := ⟨1⟩, fin := true }
              payload := Buffer.ofString [97, 98] }] →
        (run step (new 4) pre).expAck ≤
          (run step (new 4) (pre ++ more)).expAck :=
  (ackno_exact_iff_safe 4 (by decide) _ (by decide)).mpr (by decide)

/-- Three bytes and a FIN arrive at a window of two bytes.  Two bytes are
written, the stream does not end, and the third byte and one more sequence
number are acknowledged. -/
theorem ackno_not_exact_trimmed :
    (run step (new 2) [Op.segment { header := { syn := true } },
        .segment
          { header := { seqno := ⟨1⟩, fin := true }
            payload := Buffer.ofString [97, 98, 99] }]).ackno =
        some (wrap 4 ⟨0⟩) ∧
      (run step (new 2) [Op.segment { header := { syn := true } },
        .segment
          { header := { seqno := ⟨1⟩, fin := true }
            payload := Buffer.ofString [97, 98, 99] }]).exactAck = 3 ∧
      ¬ AckExact 2 [Op.segment { header := { syn := true } },
        .segment
          { header := { seqno := ⟨1⟩, fin := true }
            payload := Buffer.ofString [97, 98, 99] }] := by
  refine ⟨by decide, by decide, fun h => ?_⟩
  exact absurd (h ⟨0⟩ (by decide)) (by decide)

end TCPReceiver

end Sponge
