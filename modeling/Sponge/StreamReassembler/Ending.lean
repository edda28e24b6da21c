import Sponge.StreamReassembler.Assembly

/-!
# When the output of the reassembler ends

The position of the end of the stream is not stored.  The reassembler only
remembers that it has been told of the end, and ends its output as soon as
nothing waits.  A push tells it of the end also when its bytes are ignored,
because there are none or the output is full, and does not tell it when all of
its bytes have been assembled before.

So the output can end before the stream does, or not at all.  This module says
for which runs it ends exactly when the whole stream has been written and its
end has been marked inside the window.
-/

namespace Sponge

namespace StreamReassembler

/-- The push marks the end of `S`, and that end lies in the window. -/
def marksEnd (S : Bytes) (r : StreamReassembler) : Op → Bool
  | .push _ _ eof =>
      eof && decide (S.length ≤ r.output.bytesRead + r.output.cap)
  | .pop _ => false
  | .read _ => false

/-- A reassembler of a logical stream, and whether some push has marked the
end when it lay in the window. -/
structure Marked where
  tracked : Tracked
  marked : Bool

namespace Marked

def step (S : Bytes) (x : Marked) (op : Op) : Marked where
  tracked := StreamReassembler.step S x.tracked op
  marked := x.marked || x.tracked.reassembler.marksEnd S op

/-- The state before the first operation. -/
def start (capacity : ℕ) : Marked := ⟨StreamReassembler.start capacity, false⟩

/-- The output has ended exactly if the whole stream has been written and its
end has been marked. -/
def EndsRight (S : Bytes) (x : Marked) : Prop :=
  x.tracked.reassembler.output.inputEnded = true ↔
    x.tracked.reassembler.output.bytesWritten = S.length ∧ x.marked = true

instance endsRightDecidable (S : Bytes) (x : Marked) :
    Decidable (x.EndsRight S) :=
  inferInstanceAs (Decidable (_ ↔ _))

/-- Only a push up to the end of `S` marks the end. -/
def MarksOnlyEnd (S : Bytes) : Op → Prop
  | .push _ j eof => eof = true → j = S.length
  | .pop _ => True
  | .read _ => True

instance marksOnlyEndDecidable (S : Bytes) : ∀ op, Decidable (MarksOnlyEnd S op)
  | .push _ _ _ => inferInstanceAs (Decidable (_ → _))
  | .pop _ => isTrue trivial
  | .read _ => isTrue trivial

/-- The operations of a run on the logical stream `S`. -/
def Admitted (S : Bytes) (x : Marked) (op : Op) : Prop :=
  InStream S x.tracked op ∧ MarksOnlyEnd S op

instance admittedDecidable (S : Bytes) (x : Marked) (op : Op) :
    Decidable (Admitted S x op) :=
  inferInstanceAs (Decidable (_ ∧ _))

end Marked

/-! ## The condition -/

/-- The push marks the end, but all of its bytes have been assembled before
and so the reassembler is not told. -/
def LosesEnd (r : StreamReassembler) (data : Bytes) (index : ℕ)
    (eof : Bool) : Prop :=
  eof = true ∧ data ≠ [] ∧ 0 < r.output.remainingCapacity ∧
    index + data.length ≤ r.expectedIndex ∧ r.inputEnded = false

instance losesEndDecidable (r : StreamReassembler) (data : Bytes)
    (index : ℕ) (eof : Bool) : Decidable (r.LosesEnd data index eof) :=
  inferInstanceAs (Decidable (_ ∧ _ ∧ _ ∧ _ ∧ _))

/-- The reassembler knows of the end after the push, and the indices that it
knows, with those of the push, are those below `m`. -/
def EndsAt (r : StreamReassembler) (data : Bytes) (index : ℕ) (eof : Bool)
    (m : ℕ) : Prop :=
  r.LearnsEnd data index eof ∧
    r.known ∪ r.acceptedIndices data index = Finset.range m

instance endsAtDecidable (r : StreamReassembler) (data : Bytes) (index : ℕ)
    (eof : Bool) (m : ℕ) : Decidable (r.EndsAt data index eof m) :=
  inferInstanceAs (Decidable (_ ∧ _))

/-- The push does not lose the end, it does not close the last gap before the
end of a stream whose end is known, and it does not complete a stream whose end
is known only from marks outside the window. -/
def Marked.Timely (S : Bytes) (x : Marked) : Op → Prop
  | .push i j eof =>
      ¬ x.tracked.reassembler.LosesEnd (S.extract i j) i eof ∧
        (¬ ∃ m < S.length,
          x.tracked.reassembler.EndsAt (S.extract i j) i eof m) ∧
        (x.tracked.reassembler.EndsAt (S.extract i j) i eof S.length →
          (x.step S (.push i j eof)).marked = true)
  | .pop _ => True
  | .read _ => True

instance timelyDecidable (S : Bytes) (x : Marked) :
    ∀ op, Decidable (x.Timely S op)
  | .push _ _ _ => inferInstanceAs (Decidable (_ ∧ _ ∧ (_ → _)))
  | .pop _ => isTrue trivial
  | .read _ => isTrue trivial

section Push

variable {S : Bytes} {r : StreamReassembler} {data : Bytes} {index : ℕ}
  {eof : Bool}

/-- A mark inside the window is learned or lost. -/
theorem learnsEnd_or_losesEnd
    (heof : eof = true) (hlt : index + data.length < 2 ^ 64)
    (hupper : index + data.length ≤ r.upperBoundIndex) :
    r.LearnsEnd data index eof ∨ r.LosesEnd data index eof := by
  by_cases hlearns : r.LearnsEnd data index eof
  · exact Or.inl hlearns
  · simp only [LearnsEnd, heof, true_and, hupper, and_true, not_or,
      Bool.not_eq_true] at hlearns
    obtain ⟨hends, hdata, hcap, haccepts⟩ := hlearns
    have hroom := Nat.pos_of_ne_zero hcap
    have hlen := List.length_pos_of_ne_nil hdata
    refine Or.inr ⟨heof, hdata, hroom, ?_, hends⟩
    by_contra hbeyond
    refine haccepts ⟨hroom, hdata, by omega, ?_⟩
    rw [add64_eq hlt]
    exact not_le.mp hbeyond

theorem LosesEnd.not_learnsEnd
    (h : r.LosesEnd data index eof) (hlt : index + data.length < 2 ^ 64) :
    ¬ r.LearnsEnd data index eof := by
  obtain ⟨-, hdata, hroom, hbefore, hends⟩ := h
  rintro (hends' | ⟨-, hnil | hfull | ⟨haccepts, -⟩⟩)
  · exact absurd (hends.symm.trans hends') Bool.false_ne_true
  · exact hdata hnil
  · exact absurd hfull hroom.ne'
  · have hbeyond := haccepts.2.2.2
    rw [add64_eq hlt] at hbeyond
    exact absurd hbefore (not_le.mpr hbeyond)

end Push

/-! ## The invariant -/

/-- What holds throughout a run whose pushes are all timely. -/
structure Marked.Valid (S : Bytes) (x : Marked) : Prop where
  represents : Represents S x.tracked
  done : x.tracked.reassembler.inputEnded = true →
    x.tracked.reassembler.empty = true →
    x.tracked.reassembler.output.inputEnded = true
  told : x.tracked.reassembler.output.inputEnded = true →
    x.tracked.reassembler.inputEnded = true
  learned : x.marked = true → x.tracked.reassembler.inputEnded = true
  right : x.EndsRight S

section Valid

variable {S : Bytes} {x : Marked} {i j : ℕ} {eof : Bool}

theorem Marked.valid_start {capacity : ℕ} (h : capacity < 2 ^ 64) :
    (start capacity).Valid S where
  represents := represents_start h
  done := fun hends => absurd hends Bool.false_ne_true
  told := fun hends => absurd hends Bool.false_ne_true
  learned := fun hmarked => absurd hmarked Bool.false_ne_true
  right := ⟨fun hends => absurd hends Bool.false_ne_true,
    fun h => absurd h.2 Bool.false_ne_true⟩

/-- When the whole stream has been written, nothing waits. -/
theorem Represents.empty_of_complete
    {s : Tracked} (h : Represents S s)
    (hall : s.reassembler.expectedIndex = S.length) :
    s.reassembler.empty = true := by
  rw [h.wellFormed.toAssembling.entries_eq_nil_iff]
  by_contra hne
  obtain ⟨p, hp⟩ := List.exists_mem_of_ne_nil _ hne
  have habove := h.wellFormed.above p hp
  have hstop := (h.agrees.pieces p hp).2
  unfold Piece.stop at hstop
  omega

/-- What the proofs below need to know about an admitted push. -/
theorem Marked.Valid.push_facts
    (h : x.Valid S) (hop : Admitted S x (.push i j eof)) :
    i + (S.extract i j).length = j ∧ j < 2 ^ 64 ∧
      x.tracked.reassembler.upperBoundIndex =
        x.tracked.reassembler.output.bytesRead +
          x.tracked.reassembler.output.cap ∧
      x.tracked.reassembler.InRange (S.extract i j) i := by
  obtain ⟨⟨hij, hj, hbelow, hwindow⟩, -⟩ := hop
  have hlen : (S.extract i j).length = j - i := extract_length_of_le hj
  refine ⟨by omega, hbelow,
    upperBoundIndex_eq h.represents.wellFormed hwindow, fun _ => by omega⟩

/-- If the end has been marked in the window and no push has lost it, the
reassembler knows of it. -/
theorem Marked.Valid.learnsEnd
    (h : x.Valid S) (hop : Admitted S x (.push i j eof))
    (hkept : ¬ x.tracked.reassembler.LosesEnd (S.extract i j) i eof)
    (hmarked : (x.step S (.push i j eof)).marked = true) :
    x.tracked.reassembler.LearnsEnd (S.extract i j) i eof := by
  obtain ⟨hstop, hbelow, hupper, -⟩ := h.push_facts hop
  simp only [step, marksEnd, Bool.or_eq_true, Bool.and_eq_true,
    decide_eq_true_eq] at hmarked
  rcases hmarked with hbefore | ⟨heof, hfits⟩
  · exact Or.inl (h.learned hbefore)
  · have hend : j = S.length := hop.2 heof
    refine (learnsEnd_or_losesEnd heof ?_ ?_).resolve_right hkept
    · omega
    · omega

/-- The output after a push has ended if it had before, or if the reassembler
knows of the end and nothing waits. -/
theorem Marked.Valid.push_ended_iff
    (h : x.Valid S) (hop : Admitted S x (.push i j eof)) :
    (x.step S (.push i j eof)).tracked.reassembler.output.inputEnded = true ↔
      x.tracked.reassembler.output.inputEnded = true ∨
        (x.tracked.reassembler.LearnsEnd (S.extract i j) i eof ∧
          (x.step S (.push i j eof)).tracked.reassembler.empty = true) := by
  obtain ⟨-, -, -, hrange⟩ := h.push_facts hop
  exact pushSubstring_output_inputEnded_iff h.represents.wellFormed.cap_lt
    hrange h.done

/-- The output ends early exactly if the known part of the stream has no gap
but is not all of it. -/
theorem Marked.Valid.push_early_iff
    (h : x.Valid S) (hop : Admitted S x (.push i j eof)) :
    ((x.step S (.push i j eof)).tracked.reassembler.output.inputEnded =
          true →
        (x.step S (.push i j eof)).tracked.reassembler.expectedIndex =
          S.length) ↔
      ¬ ∃ m < S.length,
        x.tracked.reassembler.EndsAt (S.extract i j) i eof m := by
  obtain ⟨-, -, -, hrange⟩ := h.push_facts hop
  have hwf := h.represents.wellFormed
  have hwithin := (h.represents.step (.push i j eof) hop.1).agrees.within
  have hbefore : x.tracked.reassembler.output.inputEnded = true →
      x.tracked.reassembler.expectedIndex = S.length :=
    fun hends => hwf.expected_eq.trans (h.right.mp hends).1
  refine (hwf.ends_complete_iff hrange h.done hbefore hwithin).trans ?_
  simp only [EndsAt]
  constructor
  · rintro hno ⟨m, hm, hlearns, hfills⟩
    exact hno ⟨hlearns, m, hm, hfills⟩
  · rintro hno ⟨hlearns, m, hm, hfills⟩
    exact hno ⟨m, hm, hlearns, hfills⟩

/-- A push that loses the end does so when the whole stream has been written,
and so the end lies in the window. -/
theorem Marked.Valid.complete_of_losesEnd
    (h : x.Valid S) (hop : Admitted S x (.push i j eof))
    (hloses : x.tracked.reassembler.LosesEnd (S.extract i j) i eof) :
    (x.step S (.push i j eof)).tracked.reassembler.output.bytesWritten =
        S.length ∧
      (x.step S (.push i j eof)).marked = true := by
  obtain ⟨hstop, -, -, hrange⟩ := h.push_facts hop
  obtain ⟨heof, -, -, hassembled, -⟩ := hloses
  have hwf := h.represents.wellFormed
  have hrep := h.represents.step (.push i j eof) hop.1
  have hend : j = S.length := hop.2 heof
  constructor
  · have hmono := hwf.expectedIndex_le_pushSubstring hrange eof
    have hassembled' : S.length ≤ (x.tracked.reassembler.pushSubstring
        (S.extract i j) i eof).expectedIndex := by omega
    exact hrep.wellFormed.expected_eq.symm.trans
      (hrep.agrees.within.antisymm hassembled')
  · have hwindow := windowEnd_eq hwf.expected_eq
    have hle : x.tracked.reassembler.expectedIndex ≤
        x.tracked.reassembler.windowEnd := Nat.le_add_right _ _
    simp only [step, marksEnd, heof, Bool.true_and, Bool.or_eq_true,
      decide_eq_true_eq]
    exact Or.inr (by omega)

theorem Marked.Valid.timely_of_endsRight
    (h : x.Valid S) (hop : Admitted S x (.push i j eof))
    (hright : (x.step S (.push i j eof)).EndsRight S) :
    x.Timely S (.push i j eof) := by
  obtain ⟨hstop, hbelow, -, hrange⟩ := h.push_facts hop
  have hwf := h.represents.wellFormed
  have hrep := h.represents.step (.push i j eof) hop.1
  refine ⟨?_, ?_, ?_⟩
  · intro hloses
    have hends := hright.mpr (h.complete_of_losesEnd hop hloses)
    rcases (h.push_ended_iff hop).mp hends with hended | ⟨hlearns, -⟩
    · obtain ⟨-, -, -, -, htold⟩ := hloses
      exact absurd (htold.symm.trans (h.told hended)) Bool.false_ne_true
    · exact hloses.not_learnsEnd (hstop.symm ▸ hbelow) hlearns
  · exact (h.push_early_iff hop).mp fun hends =>
      hrep.wellFormed.expected_eq.trans (hright.mp hends).1
  · rintro ⟨hlearns, hfills⟩
    obtain ⟨-, hnil⟩ := hrep.wellFormed.eq_of_known_eq_range
      ((pushSubstring_known hwf hrange eof).trans hfills)
    have hempty := hrep.wellFormed.toAssembling.entries_eq_nil_iff.mpr hnil
    exact (hright.mp ((h.push_ended_iff hop).mpr
      (Or.inr ⟨hlearns, hempty⟩))).2

theorem Marked.Valid.endsRight_of_timely
    (h : x.Valid S) (hop : Admitted S x (.push i j eof))
    (htimely : x.Timely S (.push i j eof)) :
    (x.step S (.push i j eof)).EndsRight S := by
  obtain ⟨-, -, -, hrange⟩ := h.push_facts hop
  obtain ⟨hkept, hearly, hmarked⟩ := htimely
  have hwf := h.represents.wellFormed
  have hrep := h.represents.step (.push i j eof) hop.1
  have hwritten := hrep.wellFormed.expected_eq
  constructor
  · intro hends
    have hall := (h.push_early_iff hop).mpr hearly hends
    refine ⟨hwritten.symm.trans hall, ?_⟩
    rcases (h.push_ended_iff hop).mp hends with hended | ⟨hlearns, hempty⟩
    · have hbefore := (h.right.mp hended).2
      simp only [step, hbefore, Bool.true_or]
    · refine hmarked ⟨hlearns, ?_⟩
      have hknown := hrep.wellFormed.known_of_empty hempty
      rw [← hall]
      exact (pushSubstring_known hwf hrange eof).symm.trans hknown
  · rintro ⟨hall, hmarks⟩
    have hlearns := h.learnsEnd hop hkept hmarks
    have hempty := hrep.empty_of_complete (hwritten.trans hall)
    exact (h.push_ended_iff hop).mpr (Or.inr ⟨hlearns, hempty⟩)

/-- A timely push keeps the invariant. -/
theorem Marked.Valid.push
    (h : x.Valid S) (hop : Admitted S x (.push i j eof))
    (htimely : x.Timely S (.push i j eof)) :
    (x.step S (.push i j eof)).Valid S := by
  obtain ⟨-, -, -, hrange⟩ := h.push_facts hop
  have hcap := h.represents.wellFormed.cap_lt
  exact
    { represents := h.represents.step (.push i j eof) hop.1
      done := fun hends hempty => (h.push_ended_iff hop).mpr (Or.inr
        ⟨(pushSubstring_inputEnded_iff hcap hrange).mp hends, hempty⟩)
      told := inputEnded_of_pushSubstring_output hcap hrange h.told
      learned := fun hmarked => (pushSubstring_inputEnded_iff hcap hrange).mpr
        (h.learnsEnd hop htimely.1 hmarked)
      right := h.endsRight_of_timely hop htimely }

/-- Taking bytes from the output changes nothing about its end. -/
theorem Marked.Valid.popOutput (h : x.Valid S) (len : ℕ) :
    (x.step S (.pop len)).Valid S where
  represents := h.represents.step (.pop len) trivial
  done := by
    intro hends hempty
    exact (ByteStream.popOutput_inputEnded _ len).trans (h.done hends hempty)
  told := by
    intro hends
    exact h.told ((ByteStream.popOutput_inputEnded _ len).symm.trans hends)
  learned := by
    intro hmarked
    rw [step, marksEnd, Bool.or_false] at hmarked
    exact h.learned hmarked
  right := by
    have hright := h.right
    simp only [EndsRight, step, marksEnd, Bool.or_false,
      StreamReassembler.step, StreamReassembler.popOutput,
      ByteStream.popOutput_inputEnded, ByteStream.popOutput_bytesWritten]
      at hright ⊢
    exact hright

theorem Marked.Valid.step
    (h : x.Valid S) {op : Op} (hop : Admitted S x op)
    (htimely : x.Timely S op) : (x.step S op).Valid S := by
  cases op with
  | push i j eof => exact h.push hop htimely
  | pop len => exact h.popOutput len
  | read len => exact h.popOutput len

end Valid

/-! ## Runs -/

/-- Throughout a run the output has ended exactly if the whole stream has been
written and its end has been marked in the window, if and only if every push
of the run is timely. -/
theorem run_endsRight_iff
    (capacity : ℕ) (hcapacity : capacity < 2 ^ 64) (S : Bytes)
    (ops : List Op)
    (hops : Guarded (Marked.step S) (Marked.Admitted S)
      (Marked.start capacity) ops) :
    (∀ pre, pre <+: ops →
        (run (Marked.step S) (Marked.start capacity) pre).EndsRight S) ↔
      Guarded (Marked.step S) (Marked.Timely S) (Marked.start capacity)
        ops := by
  have hstart := Marked.valid_start (S := S) hcapacity
  refine forall_prefix_iff_guarded_of_breaks (fun x op hx hop htimely => ?_)
    (fun x op hx hop huntimely hright => ?_) hstart hstart.right hops
  · have hafter := hx.step hop htimely
    exact ⟨hafter, hafter.right⟩
  · cases op with
    | push i j eof => exact huntimely (hx.timely_of_endsRight hop hright)
    | pop len => exact huntimely trivial
    | read len => exact huntimely trivial

/-- The second half arrives first and marks the end. -/
theorem run_endsRight_iff_reordered :
    Guarded (Marked.step [97, 98]) (Marked.Timely [97, 98]) (Marked.start 2)
        [.push 1 2 true, .pop 1, .push 0 1 false, .push 2 2 true] ∧
      ∀ pre, pre <+: ([.push 1 2 true, .pop 1, .push 0 1 false,
          .push 2 2 true] : List Op) →
        (run (Marked.step [97, 98]) (Marked.start 2) pre).EndsRight
          [97, 98] :=
  ⟨by decide,
    (run_endsRight_iff 2 (by decide) [97, 98]
      [.push 1 2 true, .pop 1, .push 0 1 false, .push 2 2 true]
      (by decide)).mpr (by decide)⟩

/-- The output of two bytes ends after the first one, because it is full when
the second one arrives; it ends at once, because the end arrives alone; and it
does not end, because the end arrives with bytes that have been assembled. -/
theorem ends_early_or_never :
    let full := run (Marked.step [97, 98]) (Marked.start 1)
      [.push 0 1 false, .push 1 2 true]
    let alone := run (Marked.step [97, 98]) (Marked.start 2) [.push 2 2 true]
    let again := run (Marked.step [97, 98]) (Marked.start 3)
      [.push 0 2 false, .push 0 2 true]
    full.tracked.reassembler.output.inputEnded = true ∧
      full.tracked.reassembler.output.bytesWritten = 1 ∧
      ¬ full.EndsRight [97, 98] ∧
      alone.tracked.reassembler.output.inputEnded = true ∧
      alone.tracked.reassembler.output.bytesWritten = 0 ∧
      ¬ alone.EndsRight [97, 98] ∧
      again.tracked.reassembler.output.inputEnded = false ∧
      again.tracked.reassembler.output.bytesWritten = 2 ∧
      again.marked = true ∧ ¬ again.EndsRight [97, 98] := by
  decide

end StreamReassembler

end Sponge
