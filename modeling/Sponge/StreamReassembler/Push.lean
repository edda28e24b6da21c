import Sponge.StreamReassembler.Invariant

/-!
# One push

`push_substring` does one of three things: it drops the substring, it takes
only the end-of-stream flag from it, or it stores the part of the substring
that lies in the window.  `pushSubstring_cases` says which of the three
happens and is all that later modules use of `validate`.
-/

namespace Sponge

namespace StreamReassembler

/-- Some byte of the substring lies in the window. -/
def Accepts (r : StreamReassembler) (data : Bytes) (index : ℕ) : Prop :=
  0 < r.output.remainingCapacity ∧ data ≠ [] ∧
    index < r.upperBoundIndex ∧ r.expectedIndex < add64 index data.length

instance acceptsDecidable (r : StreamReassembler) (data : Bytes)
    (index : ℕ) : Decidable (r.Accepts data index) :=
  inferInstanceAs (Decidable (_ ∧ _ ∧ _ ∧ _))

/-- The first index of the accepted part. -/
def acceptedStart (r : StreamReassembler) (index : ℕ) : ℕ :=
  max index r.expectedIndex

/-- The index after the accepted part. -/
def acceptedStop (r : StreamReassembler) (data : Bytes) (index : ℕ) : ℕ :=
  min (index + data.length) r.windowEnd

/-- The accepted part of the substring. -/
def acceptedData (r : StreamReassembler) (data : Bytes) (index : ℕ) :
    Bytes :=
  substr data (r.acceptedStart index - index)
    (r.windowEnd - r.acceptedStart index)

section Accepted

variable {r : StreamReassembler} {data : Bytes} {index : ℕ}

theorem upperBoundIndex_le_windowEnd (r : StreamReassembler) :
    r.upperBoundIndex ≤ r.windowEnd :=
  Nat.mod_le _ _

theorem acceptedStart_add_length
    (h : r.Accepts data index) (hbelow : index + data.length < 2 ^ 64) :
    r.acceptedStart index + (r.acceptedData data index).length =
        r.acceptedStop data index ∧
      r.acceptedStart index < r.acceptedStop data index := by
  obtain ⟨hcap, hdata, hupper, hexpected⟩ := h
  have hlen := List.length_pos_of_ne_nil hdata
  have hwindow := r.upperBoundIndex_le_windowEnd
  have hend : r.windowEnd =
      r.expectedIndex + r.output.remainingCapacity := rfl
  rw [add64_eq hbelow] at hexpected
  simp only [acceptedData, substr, List.length_take, List.length_drop,
    acceptedStart, acceptedStop]
  omega

theorem acceptedData_ne_nil
    (h : r.Accepts data index) (hbelow : index + data.length < 2 ^ 64) :
    r.acceptedData data index ≠ [] := by
  obtain ⟨hlen, hlt⟩ := acceptedStart_add_length h hbelow
  apply List.ne_nil_of_length_pos
  omega

end Accepted

/-! ## `validate` -/

section Validate

variable {r : StreamReassembler} {data : Bytes} {index : ℕ} {eof : Bool}

theorem validate_of_full (h : r.output.remainingCapacity = 0) :
    r.validate data index eof = ⟨[], 0, eof, true⟩ := by
  simp [validate, h]

theorem validate_of_nil (h : data = []) :
    r.validate data index eof = ⟨[], 0, eof, true⟩ := by
  simp [validate, h]

theorem validate_of_not_accepts
    (hcap : 0 < r.output.remainingCapacity) (hdata : data ≠ [])
    (h : ¬ r.Accepts data index) :
    r.validate data index eof = ⟨[], 0, false, false⟩ := by
  have hlen := List.length_pos_of_ne_nil hdata
  unfold validate
  rw [if_neg (by omega), if_neg (by omega)]
  by_cases hupper : index ≥ r.upperBoundIndex
  · rw [if_pos hupper]
  · rw [if_neg hupper, if_pos]
    by_contra hlt
    exact h ⟨hcap, hdata, not_le.mp hupper, not_le.mp hlt⟩

/-- A substring that reaches into the window is trimmed to it on both
sides. -/
theorem validate_of_accepts
    (hcap : r.output.cap < 2 ^ 64) (h : r.Accepts data index)
    (hbelow : index + data.length < 2 ^ 64) :
    r.validate data index eof =
      { data := r.acceptedData data index
        index := r.acceptedStart index
        eof := eof && decide (index + data.length ≤ r.upperBoundIndex)
        verified := true } := by
  obtain ⟨hrem, hdata, hupper, hexpected⟩ := h
  have hlen := List.length_pos_of_ne_nil hdata
  have hremLe : r.output.remainingCapacity ≤ r.output.cap := by
    rw [ByteStream.remainingCapacity_eq]
    exact Nat.sub_le _ _
  have hwindow := r.upperBoundIndex_le_windowEnd
  have hend : r.windowEnd =
      r.expectedIndex + r.output.remainingCapacity := rfl
  rw [add64_eq hbelow] at hexpected
  unfold validate
  rw [if_neg (by omega), if_neg (by omega), if_neg (not_le.mpr hupper),
    add64_eq hbelow, if_neg (not_le.mpr hexpected)]
  by_cases hlow : index ≤ r.expectedIndex
  · have hstart : r.acceptedStart index = r.expectedIndex :=
      max_eq_right hlow
    have hskip : sub64 r.expectedIndex index = r.expectedIndex - index :=
      sub64_eq (by omega) hlow
    rw [if_pos hlow]
    by_cases htrim : index + data.length > r.upperBoundIndex
    · have hroom : sub64 r.upperBoundIndex r.expectedIndex =
          r.output.remainingCapacity := by
        unfold sub64 upperBoundIndex add64
        omega
      rw [if_pos htrim, hskip, hroom]
      simp only [acceptedData, hstart, hend, Nat.add_sub_cancel_left,
        decide_eq_false (not_le.mpr htrim), Bool.and_false]
    · have hroom : sub64 (add64 data.length index) r.expectedIndex =
          data.length + index - r.expectedIndex := by
        rw [add64_eq (by omega), sub64_eq (by omega) (by omega)]
      rw [if_neg htrim, hskip, hroom]
      simp only [acceptedData, hstart, decide_eq_true (not_lt.mp htrim),
        Bool.and_true]
      rw [substr_of_le (by omega), substr_of_le (by omega)]
  · have hstart : r.acceptedStart index = index :=
      max_eq_left (not_le.mp hlow).le
    rw [if_neg hlow]
    by_cases htrim : index + data.length > r.upperBoundIndex
    · have hroom : sub64 r.upperBoundIndex index = r.windowEnd - index := by
        have hnowrap : r.upperBoundIndex = r.windowEnd := by
          rw [hend]
          unfold upperBoundIndex add64 at hupper ⊢
          omega
        have hupperLt : r.upperBoundIndex < 2 ^ 64 := add64_lt _ _
        rw [sub64_eq hupperLt hupper.le, hnowrap]
      rw [if_pos htrim, hroom]
      simp only [acceptedData, hstart, Nat.sub_self,
        decide_eq_false (not_le.mpr htrim), Bool.and_false]
    · rw [if_neg htrim]
      simp only [acceptedData, hstart, Nat.sub_self,
        decide_eq_true (not_lt.mp htrim), Bool.and_true]
      rw [substr_of_le (by omega), substr_of_le (by omega)]

end Validate

/-! ## `push_substring` -/

section PushSubstring

variable {r : StreamReassembler} {data : Bytes} {index : ℕ} {eof : Bool}

/-- Store the accepted part and write what has become contiguous. -/
def storeAccepted (r : StreamReassembler) (data : Bytes) (index : ℕ) :
    StreamReassembler :=
  (r.merge (r.acceptedData data index)
    (r.acceptedStart index)).reorderBuffer

/-- Without bytes, only the end-of-stream flag counts. -/
theorem pushSubstring_nil (r : StreamReassembler) (index : ℕ)
    (eof : Bool) : r.pushSubstring [] index eof = r.finish eof := by
  by_cases hfull : r.output.remainingCapacity = 0
  · simp [pushSubstring, validate_of_full hfull, assemble]
  · simp [pushSubstring, validate_of_nil, assemble]

/-- A substring that starts inside the window ends below `2 ^ 64`. -/
def InRange (r : StreamReassembler) (data : Bytes) (index : ℕ) : Prop :=
  index < r.upperBoundIndex → index + data.length < 2 ^ 64

/-- What a push does. -/
theorem pushSubstring_cases
    (hcap : r.output.cap < 2 ^ 64) (hrange : r.InRange data index)
    (eof : Bool) :
    (¬ r.Accepts data index ∧
        (r.output.remainingCapacity = 0 ∨ data = []) ∧
        r.pushSubstring data index eof = r.finish eof) ∨
    (¬ r.Accepts data index ∧
        0 < r.output.remainingCapacity ∧ data ≠ [] ∧
        r.pushSubstring data index eof = r) ∨
    (r.Accepts data index ∧ index + data.length < 2 ^ 64 ∧
        r.pushSubstring data index eof =
          (r.storeAccepted data index).finish
            (eof && decide (index + data.length ≤ r.upperBoundIndex))) := by
  by_cases hrem : r.output.remainingCapacity = 0
  · refine Or.inl ⟨fun h => ?_, Or.inl hrem, ?_⟩
    · exact absurd hrem (Nat.pos_iff_ne_zero.mp h.1)
    · simp [pushSubstring, validate_of_full hrem, assemble]
  · by_cases hdata : data = []
    · refine Or.inl ⟨fun h => h.2.1 hdata, Or.inr hdata, ?_⟩
      simp [pushSubstring, validate_of_nil hdata, assemble]
    · have hpos := Nat.pos_iff_ne_zero.mpr hrem
      by_cases hacc : r.Accepts data index
      · have hbelow := hrange hacc.2.2.1
        refine Or.inr (Or.inr ⟨hacc, hbelow, ?_⟩)
        have hne := acceptedData_ne_nil hacc hbelow
        simp [pushSubstring, validate_of_accepts hcap hacc hbelow, assemble,
          storeAccepted, hne]
      · refine Or.inr (Or.inl ⟨hacc, hpos, hdata, ?_⟩)
        simp [pushSubstring, validate_of_not_accepts hpos hdata hacc]

/-! ### `finish` touches only the end-of-stream flags -/

theorem finish_eq (r : StreamReassembler) (eof : Bool) :
    r.finish eof =
      { r with
        inputEnded := r.inputEnded || eof
        output :=
          if (r.inputEnded || eof) && r.empty then r.output.endInput
          else r.output } := by
  unfold finish
  cases eof <;> simp only [Bool.false_eq_true, if_false, if_true,
    Bool.or_false, Bool.or_true] <;> split <;> simp_all [empty]

@[simp] theorem finish_buf (r : StreamReassembler) (eof : Bool) :
    (r.finish eof).buf = r.buf := by
  rw [finish_eq]

@[simp] theorem finish_expectedIndex (r : StreamReassembler) (eof : Bool) :
    (r.finish eof).expectedIndex = r.expectedIndex := by
  rw [finish_eq]

@[simp] theorem finish_known (r : StreamReassembler) (eof : Bool) :
    (r.finish eof).known = r.known := by
  rw [known, known, finish_buf, finish_expectedIndex]

@[simp] theorem finish_unassembledBytes (r : StreamReassembler)
    (eof : Bool) :
    (r.finish eof).unassembledBytes = r.unassembledBytes := by
  rw [finish_eq]

@[simp] theorem finish_empty (r : StreamReassembler) (eof : Bool) :
    (r.finish eof).empty = r.empty := by
  rw [empty, empty, finish_unassembledBytes]

@[simp] theorem finish_usedAfterErase (r : StreamReassembler) (eof : Bool) :
    (r.finish eof).usedAfterErase = r.usedAfterErase := by
  rw [finish_eq]

theorem finish_inputEnded (r : StreamReassembler) (eof : Bool) :
    (r.finish eof).inputEnded = (r.inputEnded || eof) := by
  rw [finish_eq]

/-- The output after `finish`: at most its end flag has changed. -/
theorem finish_output (r : StreamReassembler) (eof : Bool) :
    (r.finish eof).output =
      if (r.inputEnded || eof) && r.empty then r.output.endInput
      else r.output := by
  rw [finish_eq]

@[simp] theorem finish_written (r : StreamReassembler) (eof : Bool) :
    (r.finish eof).output.written = r.output.written := by
  rw [finish_output]
  split <;> rfl

@[simp] theorem finish_bytesWritten (r : StreamReassembler) (eof : Bool) :
    (r.finish eof).output.bytesWritten = r.output.bytesWritten := by
  rw [finish_output]
  split <;> rfl

@[simp] theorem finish_cap (r : StreamReassembler) (eof : Bool) :
    (r.finish eof).output.cap = r.output.cap := by
  rw [finish_output]
  split <;> rfl

@[simp] theorem finish_remainingCapacity (r : StreamReassembler)
    (eof : Bool) :
    (r.finish eof).output.remainingCapacity =
      r.output.remainingCapacity := by
  rw [finish_output]
  split <;> rfl

theorem finish_output_inputEnded (r : StreamReassembler) (eof : Bool) :
    (r.finish eof).output.inputEnded =
      (r.output.inputEnded || ((r.inputEnded || eof) && r.empty)) := by
  rw [finish_output]
  split
  next h => simp [ByteStream.endInput, h]
  next h => simp [h]

theorem WellFormed.finish (h : WellFormed r) (eof : Bool) :
    WellFormed (r.finish eof) where
  cap_lt := by simpa using h.cap_lt
  expected_eq := by simpa using h.expected_eq
  separated := by simpa using h.separated
  nonempty := by simpa using h.nonempty
  starts := by simpa using h.starts
  fits := by simpa [windowEnd] using h.fits
  ends := by simpa using h.ends
  count := by simpa using h.count
  defined := by simpa using h.defined
  above := by simpa using h.above

/-! ### The invariant over a push -/

theorem WellFormed.mergeAccepted
    (h : WellFormed r) (hacc : r.Accepts data index)
    (hbelow : index + data.length < 2 ^ 64) :
    Assembling
      (r.merge (r.acceptedData data index) (r.acceptedStart index)) := by
  obtain ⟨hlen, hlt⟩ := acceptedStart_add_length hacc hbelow
  have hstart : r.expectedIndex ≤ r.acceptedStart index := le_max_right _ _
  have hstop : r.acceptedStop data index ≤ r.windowEnd := min_le_right _ _
  have hdata : r.acceptedStop data index ≤ index + data.length :=
    min_le_left _ _
  exact h.toAssembling.merge (acceptedData_ne_nil hacc hbelow) hstart
    (by omega) (by omega)

theorem WellFormed.storeAccepted
    (h : WellFormed r) (hacc : r.Accepts data index)
    (hbelow : index + data.length < 2 ^ 64) :
    WellFormed (r.storeAccepted data index) :=
  (h.mergeAccepted hacc hbelow).reorderBuffer

theorem WellFormed.pushSubstring
    (h : WellFormed r) (hrange : r.InRange data index) (eof : Bool) :
    WellFormed (r.pushSubstring data index eof) := by
  rcases pushSubstring_cases h.cap_lt hrange eof with
    ⟨-, -, heq⟩ | ⟨-, -, -, heq⟩ | ⟨hacc, hbelow, heq⟩
  · rw [heq]
    exact h.finish eof
  · rw [heq]
    exact h
  · rw [heq]
    exact (h.storeAccepted hacc hbelow).finish _

/-- The indices a push adds to those written or stored. -/
def acceptedIndices (r : StreamReassembler) (data : Bytes) (index : ℕ) :
    Finset ℕ :=
  if r.Accepts data index then
    Finset.Ico (r.acceptedStart index) (r.acceptedStop data index)
  else ∅

theorem mem_acceptedIndices {x : ℕ}
    (h : x ∈ r.acceptedIndices data index) :
    data ≠ [] ∧ index ≤ x ∧ x < index + data.length := by
  unfold acceptedIndices at h
  split at h
  next hacc =>
    obtain ⟨hlow, hhigh⟩ := Finset.mem_Ico.mp h
    exact ⟨hacc.2.1, (le_max_left _ _).trans hlow,
      lt_of_lt_of_le hhigh (min_le_left _ _)⟩
  · exact absurd h (Finset.notMem_empty x)

theorem storeAccepted_known
    (h : WellFormed r) (hacc : r.Accepts data index)
    (hbelow : index + data.length < 2 ^ 64) :
    (r.storeAccepted data index).known =
      r.known ∪ r.acceptedIndices data index := by
  obtain ⟨hlen, hlt⟩ := acceptedStart_add_length hacc hbelow
  have hdata : r.acceptedStop data index ≤ index + data.length :=
    min_le_left _ _
  rw [StreamReassembler.storeAccepted,
    reorderBuffer_known (h.mergeAccepted hacc hbelow), known, known,
    merge_covered h.toAssembling (by omega), merge_expectedIndex, hlen,
    acceptedIndices, if_pos hacc, Finset.union_assoc]

theorem pushSubstring_known
    (h : WellFormed r) (hrange : r.InRange data index) (eof : Bool) :
    (r.pushSubstring data index eof).known =
      r.known ∪ r.acceptedIndices data index := by
  rcases pushSubstring_cases h.cap_lt hrange eof with
    ⟨hacc, -, heq⟩ | ⟨hacc, -, -, heq⟩ | ⟨hacc, hbelow, heq⟩
  · rw [heq, finish_known, acceptedIndices, if_neg hacc,
      Finset.union_empty]
  · rw [heq, acceptedIndices, if_neg hacc, Finset.union_empty]
  · rw [heq, finish_known]
    exact storeAccepted_known h hacc hbelow

/-! ### What is left to assemble after a push -/

/-- The expected index is neither written nor stored. -/
theorem WellFormed.expectedIndex_notMem (h : WellFormed r) :
    r.expectedIndex ∉ r.known := by
  rw [mem_known]
  rintro (hlt | hcov)
  · exact lt_irrefl _ hlt
  · obtain ⟨p, hp, hlow, -⟩ := mem_covered.mp hcov
    exact absurd hlow (not_le.mpr (h.above p hp))

theorem WellFormed.mem_of_start
    (h : WellFormed r) {p : Piece UInt8} (hp : p ∈ r.buf.entries) :
    p.1 ∈ r.known := by
  have hlen := List.length_pos_of_ne_nil (h.nonempty p hp)
  have hstop : p.1 < p.stop := by
    unfold Piece.stop
    omega
  exact mem_known.mpr (Or.inr (mem_covered.mpr ⟨p, hp, le_rfl, hstop⟩))

/-- Indices known without a gap are below the expected index. -/
theorem WellFormed.le_expectedIndex
    (h : WellFormed r) {b : ℕ}
    (hb : Finset.range b ⊆ r.known) :
    b ≤ r.expectedIndex := by
  by_contra hlt
  exact h.expectedIndex_notMem
    (hb (Finset.mem_range.mpr (not_le.mp hlt)))

/-- If nothing is stored, the known indices are those written. -/
theorem WellFormed.known_of_empty
    (h : WellFormed r) (hempty : r.empty = true) :
    r.known = Finset.range r.expectedIndex := by
  rw [known, h.toAssembling.entries_eq_nil_iff.mp hempty]
  exact Finset.union_empty _

/-- If the known indices have no gap, nothing is stored. -/
theorem WellFormed.eq_of_known_eq_range
    (h : WellFormed r) {b : ℕ}
    (hb : r.known = Finset.range b) :
    r.expectedIndex = b ∧ r.buf.entries = [] := by
  have hge : b ≤ r.expectedIndex := h.le_expectedIndex hb.ge
  have hle : r.expectedIndex ≤ b := by
    rw [← Finset.range_subset_range, ← hb]
    exact Finset.subset_union_left
  refine ⟨le_antisymm hle hge, ?_⟩
  by_contra hne
  obtain ⟨p, hp⟩ := List.exists_mem_of_ne_nil _ hne
  have hmem := h.mem_of_start hp
  have habove := h.above p hp
  rw [hb, Finset.mem_range] at hmem
  omega

/-- Accepted bytes beyond a gap stay stored. -/
theorem storeAccepted_not_empty
    (h : WellFormed r) (hacc : r.Accepts data index)
    (hbelow : index + data.length < 2 ^ 64)
    (hgap : r.expectedIndex < index) :
    (r.storeAccepted data index).empty = false ∧
      (r.storeAccepted data index).expectedIndex = r.expectedIndex := by
  have hwf := h.storeAccepted hacc hbelow
  have hcov := storeAccepted_known h hacc hbelow
  have hstart : r.acceptedStart index = index := max_eq_left hgap.le
  obtain ⟨-, hlt⟩ := acceptedStart_add_length hacc hbelow
  rw [acceptedIndices, if_pos hacc, hstart] at hcov
  rw [hstart] at hlt
  have hgapOut : r.expectedIndex ∉ (r.storeAccepted data index).known := by
    rw [hcov, Finset.mem_union, Finset.mem_Ico]
    rintro (hmem | ⟨hle, -⟩)
    · exact h.expectedIndex_notMem hmem
    · omega
  have hindexIn : index ∈ (r.storeAccepted data index).known := by
    rw [hcov]
    exact Finset.mem_union_right _ (Finset.mem_Ico.mpr ⟨le_rfl, hlt⟩)
  have hold : r.expectedIndex ≤
      (r.storeAccepted data index).expectedIndex := by
    apply hwf.le_expectedIndex
    rw [hcov, known, Finset.union_assoc]
    exact Finset.subset_union_left
  rw [mem_known, not_or] at hgapOut
  have hexpected : (r.storeAccepted data index).expectedIndex =
      r.expectedIndex := le_antisymm (not_lt.mp hgapOut.1) hold
  refine ⟨?_, hexpected⟩
  rw [← Bool.not_eq_true, hwf.toAssembling.entries_eq_nil_iff]
  intro hnil
  rw [mem_known, hnil, hexpected] at hindexIn
  rcases hindexIn with hlt' | hmem
  · omega
  · simp [covered] at hmem

/-- Accepted bytes that continue the stream and reach beyond every stored
piece leave nothing stored. -/
theorem storeAccepted_empty
    (h : WellFormed r) (hacc : r.Accepts data index)
    (hbelow : index + data.length < 2 ^ 64)
    (hcont : index ≤ r.expectedIndex)
    (hlast : ∀ p ∈ r.buf.entries, Piece.stop p ≤ r.acceptedStop data index) :
    (r.storeAccepted data index).empty = true ∧
      (r.storeAccepted data index).expectedIndex =
        r.acceptedStop data index := by
  have hwf := h.storeAccepted hacc hbelow
  have hcov := storeAccepted_known h hacc hbelow
  have hstart : r.acceptedStart index = r.expectedIndex :=
    max_eq_right hcont
  obtain ⟨-, hlt⟩ := acceptedStart_add_length hacc hbelow
  rw [acceptedIndices, if_pos hacc, hstart] at hcov
  rw [hstart] at hlt
  have hrange : r.known ∪
      Finset.Ico r.expectedIndex (r.acceptedStop data index) =
        Finset.range (r.acceptedStop data index) := by
    ext x
    rw [Finset.mem_union, mem_known, Finset.mem_Ico, Finset.mem_range]
    constructor
    · rintro ((hx | hx) | ⟨-, hx⟩)
      · omega
      · obtain ⟨p, hp, -, hhigh⟩ := mem_covered.mp hx
        exact lt_of_lt_of_le hhigh (hlast p hp)
      · exact hx
    · intro hx
      rcases lt_or_ge x r.expectedIndex with hxlt | hxge
      · exact Or.inl (Or.inl hxlt)
      · exact Or.inr ⟨hxge, hx⟩
  rw [hrange] at hcov
  obtain ⟨hexpected, hnil⟩ := hwf.eq_of_known_eq_range hcov
  exact ⟨hwf.toAssembling.entries_eq_nil_iff.mpr hnil, hexpected⟩

/-- A push never takes back a byte. -/
theorem WellFormed.expectedIndex_le_pushSubstring
    (h : WellFormed r) (hrange : r.InRange data index) (eof : Bool) :
    r.expectedIndex ≤ (r.pushSubstring data index eof).expectedIndex := by
  apply (h.pushSubstring hrange eof).le_expectedIndex
  rw [pushSubstring_known h hrange, known, Finset.union_assoc]
  exact Finset.subset_union_left

/-! ### Frame -/

@[simp] theorem storeAccepted_inputEnded (r : StreamReassembler)
    (data : Bytes) (index : ℕ) :
    (r.storeAccepted data index).inputEnded = r.inputEnded := by
  simp [StreamReassembler.storeAccepted]

@[simp] theorem storeAccepted_output_inputEnded (r : StreamReassembler)
    (data : Bytes) (index : ℕ) :
    (r.storeAccepted data index).output.inputEnded =
      r.output.inputEnded := by
  simp [StreamReassembler.storeAccepted]

theorem assemble_writerOnly (r : StreamReassembler) (v : Validated) :
    r.output.WriterOnly (r.assemble v).output := by
  unfold assemble
  split
  · exact .refl _
  · have h := reorderBuffer_writerOnly (r.merge v.data v.index)
    rw [merge_output] at h
    exact h

theorem finish_writerOnly (r : StreamReassembler) (eof : Bool) :
    r.output.WriterOnly (r.finish eof).output := by
  rw [finish_output]
  split
  · exact r.output.writerOnly_endInput
  · exact .refl _

theorem pushSubstring_writerOnly (r : StreamReassembler) (data : Bytes)
    (index : ℕ) (eof : Bool) :
    r.output.WriterOnly (r.pushSubstring data index eof).output := by
  simp only [StreamReassembler.pushSubstring]
  split
  · exact (assemble_writerOnly _ _).trans (finish_writerOnly _ _)
  · exact .refl _

@[simp] theorem pushSubstring_cap (r : StreamReassembler) (data : Bytes)
    (index : ℕ) (eof : Bool) :
    (r.pushSubstring data index eof).output.cap = r.output.cap :=
  (r.pushSubstring_writerOnly data index eof).cap

/-! ### The end-of-stream flags -/

/-- After the push the reassembler knows of the end: it did before, or the
push carries the flag and nothing of its bytes is beyond the window. -/
def LearnsEnd (r : StreamReassembler) (data : Bytes) (index : ℕ)
    (eof : Bool) : Prop :=
  r.inputEnded = true ∨
    (eof = true ∧
      (data = [] ∨ r.output.remainingCapacity = 0 ∨
        (r.Accepts data index ∧
          index + data.length ≤ r.upperBoundIndex)))

instance learnsEndDecidable (r : StreamReassembler) (data : Bytes)
    (index : ℕ) (eof : Bool) : Decidable (r.LearnsEnd data index eof) :=
  inferInstanceAs (Decidable (_ ∨ _ ∧ (_ ∨ _ ∨ _)))

theorem pushSubstring_inputEnded_iff
    (hcap : r.output.cap < 2 ^ 64) (hrange : r.InRange data index) :
    (r.pushSubstring data index eof).inputEnded = true ↔
      r.LearnsEnd data index eof := by
  unfold LearnsEnd
  rcases pushSubstring_cases hcap hrange eof with
    ⟨-, hidle, heq⟩ | ⟨hacc, hroom, hdata, heq⟩ | ⟨hacc, -, heq⟩
  · rw [heq, finish_inputEnded, Bool.or_eq_true]
    have htaken : data = [] ∨ r.output.remainingCapacity = 0 ∨
        (r.Accepts data index ∧
          index + data.length ≤ r.upperBoundIndex) :=
      hidle.symm.imp_right Or.inl
    simp only [htaken, and_true]
  · rw [heq]
    simp only [hacc, hdata, hroom.ne', false_and, or_false, and_false]
  · rw [heq, finish_inputEnded, storeAccepted_inputEnded, Bool.or_eq_true,
      Bool.and_eq_true, decide_eq_true_iff]
    simp only [hacc, hacc.2.1, hacc.1.ne', true_and, false_or]

/-- The reassembler learns of the end only from a push that carries it. -/
theorem eof_of_pushSubstring_inputEnded
    (hcap : r.output.cap < 2 ^ 64) (hrange : r.InRange data index)
    (h : (r.pushSubstring data index eof).inputEnded = true) :
    r.inputEnded = true ∨ eof = true :=
  ((pushSubstring_inputEnded_iff hcap hrange).mp h).imp_right And.left

/-- A push that is not dropped ends the output exactly if the reassembler
knows of the end and nothing waits. -/
theorem pushSubstring_output_inputEnded_iff
    (hcap : r.output.cap < 2 ^ 64) (hrange : r.InRange data index)
    (hdone : r.inputEnded = true → r.empty = true →
      r.output.inputEnded = true) :
    (r.pushSubstring data index eof).output.inputEnded = true ↔
      r.output.inputEnded = true ∨
        (r.LearnsEnd data index eof ∧
          (r.pushSubstring data index eof).empty = true) := by
  rw [← pushSubstring_inputEnded_iff hcap hrange]
  rcases pushSubstring_cases hcap hrange eof with
    ⟨-, -, heq⟩ | ⟨-, -, -, heq⟩ | ⟨-, -, heq⟩
  · rw [heq, finish_output_inputEnded, finish_inputEnded, finish_empty,
      Bool.or_eq_true, Bool.and_eq_true]
  · rw [heq]
    exact ⟨Or.inl, fun h => h.elim id fun h => hdone h.1 h.2⟩
  · rw [heq, finish_output_inputEnded, finish_inputEnded, finish_empty,
      storeAccepted_output_inputEnded, Bool.or_eq_true, Bool.and_eq_true]

/-- Of a stream of `n` bytes, a push ends the output at its end exactly
unless the end is known and the known indices, with those of the push, are a
proper initial part. -/
theorem WellFormed.ends_complete_iff
    {n : ℕ} (h : WellFormed r) (hrange : r.InRange data index)
    (hdone : r.inputEnded = true → r.empty = true →
      r.output.inputEnded = true)
    (hbefore : r.output.inputEnded = true → r.expectedIndex = n)
    (hle : (r.pushSubstring data index eof).expectedIndex ≤ n) :
    ((r.pushSubstring data index eof).output.inputEnded = true →
        (r.pushSubstring data index eof).expectedIndex = n) ↔
      ¬ (r.LearnsEnd data index eof ∧
        ∃ m < n, r.known ∪ r.acceptedIndices data index =
          Finset.range m) := by
  have hwf := h.pushSubstring hrange eof
  rw [pushSubstring_output_inputEnded_iff h.cap_lt hrange hdone,
    ← pushSubstring_known h hrange eof]
  constructor
  · rintro hends ⟨hlearns, m, hm, hrangeEq⟩
    obtain ⟨hexpected, hnil⟩ := hwf.eq_of_known_eq_range hrangeEq
    have hempty := hwf.toAssembling.entries_eq_nil_iff.mpr hnil
    have hfull := hends (Or.inr ⟨hlearns, hempty⟩)
    omega
  · rintro hearly (hended | ⟨hlearns, hempty⟩)
    · have hmono := h.expectedIndex_le_pushSubstring hrange eof
      have hfull := hbefore hended
      omega
    · by_contra hne
      exact hearly ⟨hlearns, _, lt_of_le_of_ne hle hne,
        hwf.known_of_empty hempty⟩

/-- The output ends only when the reassembler knows of the end. -/
theorem inputEnded_of_pushSubstring_output
    (hcap : r.output.cap < 2 ^ 64) (hrange : r.InRange data index)
    (hold : r.output.inputEnded = true → r.inputEnded = true)
    (h : (r.pushSubstring data index eof).output.inputEnded = true) :
    (r.pushSubstring data index eof).inputEnded = true := by
  have hfinish : ∀ (q : StreamReassembler) (e : Bool),
      (q.output.inputEnded = true → q.inputEnded = true) →
      (q.finish e).output.inputEnded = true →
      (q.finish e).inputEnded = true := by
    intro q e hq hend
    rw [finish_output_inputEnded, Bool.or_eq_true, Bool.and_eq_true] at hend
    rw [finish_inputEnded]
    rcases hend with hend | ⟨hend, -⟩
    · simp [hq hend]
    · exact hend
  rcases pushSubstring_cases hcap hrange eof with
    ⟨-, -, heq⟩ | ⟨-, -, -, heq⟩ | ⟨-, -, heq⟩
  · rw [heq] at h ⊢
    exact hfinish _ _ hold h
  · rw [heq] at h ⊢
    exact hold h
  · rw [heq] at h ⊢
    exact hfinish _ _ (by simpa using hold) h

/-- The end of the output is not taken back. -/
theorem pushSubstring_output_inputEnded_of
    (hcap : r.output.cap < 2 ^ 64) (hrange : r.InRange data index)
    (eof : Bool) (h : r.output.inputEnded = true) :
    (r.pushSubstring data index eof).output.inputEnded = true := by
  rcases pushSubstring_cases hcap hrange eof with
    ⟨-, -, heq⟩ | ⟨-, -, -, heq⟩ | ⟨-, -, heq⟩
  · rw [heq, finish_output_inputEnded, h, Bool.true_or]
  · rw [heq, h]
  · rw [heq, finish_output_inputEnded, storeAccepted_output_inputEnded, h,
      Bool.true_or]

end PushSubstring

end StreamReassembler

end Sponge
