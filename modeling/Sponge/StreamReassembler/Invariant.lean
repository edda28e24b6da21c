import Sponge.StreamReassembler.Merge

/-!
# The representation invariant of the reassembler

Between two operations the stored pieces are non-empty and separated, start
strictly above the expected index and end inside the window; the counters
agree with the pieces and with the output stream.  Between `merge` and
`reorder_buffer` one piece may start right at the expected index, so the
invariant comes in two strengths.

Nothing here depends on the contents of the substrings: they may contradict
each other.
-/

namespace Sponge

namespace StreamReassembler

/-- The end of the window, before the reduction modulo `2 ^ 64`. -/
def windowEnd (r : StreamReassembler) : ℕ :=
  r.expectedIndex + r.output.remainingCapacity

/-- What holds at every point of `push_substring`. -/
structure Assembling (r : StreamReassembler) : Prop where
  cap_lt : r.output.cap < 2 ^ 64
  expected_eq : r.expectedIndex = r.output.bytesWritten
  separated : Separated r.buf.entries
  nonempty : ∀ p ∈ r.buf.entries, p.2 ≠ []
  starts : ∀ p ∈ r.buf.entries, r.expectedIndex ≤ p.1
  fits : ∀ p ∈ r.buf.entries, Piece.stop p ≤ r.windowEnd
  ends : EndsBelow r.buf.entries
  count : r.unassembledBytes = totalLength r.buf.entries
  defined : r.usedAfterErase = false

/-- What holds between two operations. -/
structure WellFormed (r : StreamReassembler) : Prop extends Assembling r where
  above : ∀ p ∈ r.buf.entries, r.expectedIndex < p.1

theorem wellFormed_new {capacity : ℕ} (h : capacity < 2 ^ 64) :
    WellFormed (new capacity) where
  cap_lt := h
  expected_eq := rfl
  separated := List.Pairwise.nil
  nonempty := by simp [new, OrderedMap.empty]
  starts := by simp [new, OrderedMap.empty]
  fits := by simp [new, OrderedMap.empty]
  ends := by simp [EndsBelow, new, OrderedMap.empty]
  count := rfl
  defined := rfl
  above := by simp [new, OrderedMap.empty]

/-- The indices that are written or stored. -/
def known (r : StreamReassembler) : Finset ℕ :=
  Finset.range r.expectedIndex ∪ covered r.buf.entries

theorem mem_known {r : StreamReassembler} {x : ℕ} :
    x ∈ r.known ↔ x < r.expectedIndex ∨ x ∈ covered r.buf.entries := by
  rw [known, Finset.mem_union, Finset.mem_range]

/-- The window ends `cap` bytes after the bytes that have been read. -/
theorem windowEnd_eq
    {r : StreamReassembler} (h : r.expectedIndex = r.output.bytesWritten) :
    r.windowEnd = r.output.bytesRead + r.output.cap := by
  have hsize := r.output.bufferSize_le
  have hwritten := r.output.bytesWritten_eq
  rw [windowEnd, h, ByteStream.remainingCapacity_eq]
  omega

/-- Reading widens the window and changes nothing else. -/
theorem WellFormed.popOutput
    {r : StreamReassembler} (h : WellFormed r) (len : ℕ) :
    WellFormed (r.popOutput len) where
  cap_lt := by simpa [StreamReassembler.popOutput] using h.cap_lt
  expected_eq := by simpa [StreamReassembler.popOutput] using h.expected_eq
  separated := h.separated
  nonempty := h.nonempty
  starts := h.starts
  fits := by
    intro p hp
    have hold := h.fits p hp
    have hexpected : (r.popOutput len).expectedIndex =
        (r.popOutput len).output.bytesWritten := by
      simpa [StreamReassembler.popOutput] using h.expected_eq
    rw [windowEnd_eq h.expected_eq] at hold
    rw [windowEnd_eq hexpected]
    simp only [StreamReassembler.popOutput, ByteStream.popOutput_bytesRead,
      ByteStream.popOutput_cap]
    omega
  ends := h.ends
  count := h.count
  defined := h.defined
  above := h.above

theorem Assembling.entries_eq_nil_iff
    {r : StreamReassembler} (h : Assembling r) :
    r.empty = true ↔ r.buf.entries = [] := by
  rw [empty, beq_iff_eq, h.count]
  constructor
  · intro hzero
    cases hes : r.buf.entries with
    | nil => rfl
    | cons p es =>
        have hp : p.2.length = 0 := by
          rw [hes, totalLength_cons] at hzero
          omega
        exact absurd (List.length_eq_zero_iff.mp hp)
          (h.nonempty p (by simp [hes]))
  · intro hes
    rw [hes]
    rfl

/-! ## `merge` -/

section Merge

variable {r : StreamReassembler} {data : Bytes} {index : ℕ}

/-- The hull as a piece. -/
def hullPiece (es : List (Piece UInt8)) (data : Bytes) (index : ℕ) :
    Piece UInt8 :=
  let ts := touching es index (index + data.length)
  (hullStart ts index, hullString data index ts)

theorem mergedEntries_eq (es : List (Piece UInt8)) (data : Bytes)
    (index : ℕ) :
    mergedEntries es data index =
      before es index ++ hullPiece es data index ::
        after es (index + data.length) := rfl

theorem hullPiece_stop
    {es : List (Piece UInt8)} (hsep : Separated es) (data : Bytes)
    (index : ℕ) :
    (hullPiece es data index).stop =
      hullStop (touching es index (index + data.length))
        (index + data.length) :=
  length_hullString (hsep.touching _ _)
    fun _ hp => (mem_touching.mp hp).2

theorem mem_mergedEntries
    {es : List (Piece UInt8)} {p : Piece UInt8}
    (hp : p ∈ mergedEntries es data index) :
    p ∈ es ∨ p = hullPiece es data index := by
  rw [mergedEntries_eq] at hp
  rcases List.mem_append.mp hp with hp | hp
  · exact Or.inl (mem_before.mp hp).1
  · rcases List.mem_cons.mp hp with hp | hp
    · exact Or.inr hp
    · exact Or.inl (mem_after.mp hp).1

theorem hullPiece_stop_le
    {es : List (Piece UInt8)} (hsep : Separated es) {bound : ℕ}
    (hes : ∀ p ∈ es, p.stop ≤ bound) (hdata : index + data.length ≤ bound) :
    (hullPiece es data index).stop ≤ bound := by
  rw [hullPiece_stop hsep data index]
  rcases lt_or_ge (index + data.length)
    (hullStop (touching es index (index + data.length))
      (index + data.length)) with hlt | hge
  · obtain ⟨p, hp, hstop⟩ := hullStop_mem hlt
    rw [← hstop]
    exact hes p (mem_touching.mp hp).1
  · exact hge.trans hdata

theorem le_hullPiece_start
    {es : List (Piece UInt8)} {bound : ℕ}
    (hes : ∀ p ∈ es, bound ≤ p.1) (hdata : bound ≤ index) :
    bound ≤ (hullPiece es data index).1 := by
  rcases lt_or_ge (hullPiece es data index).1 index with hlt | hge
  · obtain ⟨p, hp, hstart⟩ := hullStart_mem hlt
    have heq : (hullPiece es data index).1 = p.1 := hstart.symm
    rw [heq]
    exact hes p (mem_touching.mp hp).1
  · exact hdata.trans hge

theorem hullPiece_nonempty
    {es : List (Piece UInt8)} (hsep : Separated es) (hdata : data ≠ []) :
    (hullPiece es data index).2 ≠ [] := by
  have hstop := hullPiece_stop hsep data index
  have hlow := hullStart_le (touching es index (index + data.length)) index
  have hhigh := le_hullStop (touching es index (index + data.length))
    (index + data.length)
  have hlen := List.length_pos_of_ne_nil hdata
  intro hnil
  have hlen' : (hullPiece es data index).2.length = 0 := by rw [hnil]; rfl
  have hdef : (hullPiece es data index).stop =
      hullStart (touching es index (index + data.length)) index +
        (hullPiece es data index).2.length := rfl
  omega

/-- Merging a non-empty substring inside the window. -/
theorem Assembling.merge
    (h : Assembling r) (hdata : data ≠ [])
    (hstart : r.expectedIndex ≤ index)
    (hfits : index + data.length ≤ r.windowEnd)
    (hbelow : index + data.length < 2 ^ 64) :
    Assembling (r.merge data index) := by
  have hentries := merge_entries h.separated h.ends h.nonempty hbelow
  have hsep : Separated (mergedEntries r.buf.entries data index) :=
    h.separated.hull (Nat.le_add_right _ _) rfl (hullPiece_stop h.separated data index)
  have hends : EndsBelow (mergedEntries r.buf.entries data index) := by
    intro p hp
    rcases mem_mergedEntries hp with hp | rfl
    · exact h.ends p hp
    · have hle : (hullPiece r.buf.entries data index).stop ≤ 2 ^ 64 - 1 :=
        hullPiece_stop_le h.separated
          (fun p hp => Nat.le_sub_one_of_lt (h.ends p hp)) (by omega)
      omega
  have htotal := totalLength_le hsep (fun _ _ => Nat.zero_le _)
    fun p hp => Nat.le_sub_one_of_lt (hends p hp)
  refine
    { cap_lt := by simpa using h.cap_lt
      expected_eq := by simpa using h.expected_eq
      separated := hentries ▸ hsep
      nonempty := ?_
      starts := ?_
      fits := ?_
      ends := hentries ▸ hends
      count := ?_
      defined := by simpa using h.defined }
  · rw [hentries]
    intro p hp
    rcases mem_mergedEntries hp with hp | rfl
    · exact h.nonempty p hp
    · exact hullPiece_nonempty h.separated hdata
  · rw [hentries, merge_expectedIndex]
    intro p hp
    rcases mem_mergedEntries hp with hp | rfl
    · exact h.starts p hp
    · exact le_hullPiece_start h.starts hstart
  · have hwindow : (r.merge data index).windowEnd = r.windowEnd := by
      simp [windowEnd]
    rw [hentries, hwindow]
    intro p hp
    rcases mem_mergedEntries hp with hp | rfl
    · exact h.fits p hp
    · exact hullPiece_stop_le h.separated h.fits hfits
  · rw [hentries]
    exact merge_unassembledBytes h.separated h.ends h.nonempty hbelow h.count
      (by omega)

theorem merge_covered
    (h : Assembling r) (hbelow : index + data.length < 2 ^ 64) :
    covered (r.merge data index).buf.entries =
      covered r.buf.entries ∪ Finset.Ico index (index + data.length) := by
  rw [merge_entries h.separated h.ends h.nonempty hbelow]
  exact covered_hull h.separated (Nat.le_add_right _ _) rfl
    (hullPiece_stop h.separated data index)

end Merge

/-! ## `reorder_buffer` -/

section ReorderBuffer

variable {r : StreamReassembler}

/-- Nothing is written when every piece starts beyond the expected index. -/
theorem reorderBuffer_of_above
    (h : ∀ p ∈ r.buf.entries, r.expectedIndex < p.1) :
    r.reorderBuffer = r := by
  unfold reorderBuffer
  split
  · rfl
  next it its hes =>
    have hit := h it (by simp [hes])
    rw [if_neg (by omega)]

/-- The piece at the expected index is written and erased; it always fits. -/
theorem reorderBuffer_of_head
    (h : Assembling r) {s : Bytes} {its : List (Piece UInt8)}
    (hes : r.buf.entries = (r.expectedIndex, s) :: its) :
    r.reorderBuffer =
      { r with
        output := (r.output.write s).2
        unassembledBytes := totalLength its
        expectedIndex := r.expectedIndex + s.length
        buf := r.buf.erase r.expectedIndex } := by
  have hfits : r.expectedIndex + s.length ≤
      r.expectedIndex + r.output.remainingCapacity :=
    h.fits (r.expectedIndex, s) (by simp [hes])
  have hpos : 0 < s.length :=
    List.length_pos_of_ne_nil (h.nonempty (r.expectedIndex, s) (by simp [hes]))
  have hends : r.expectedIndex + s.length < 2 ^ 64 :=
    h.ends (r.expectedIndex, s) (by simp [hes])
  have htotal : totalLength r.buf.entries ≤ 2 ^ 64 - 1 - 0 :=
    totalLength_le h.separated (fun _ _ => Nat.zero_le _)
      fun p hp => Nat.le_sub_one_of_lt (h.ends p hp)
  have hcount := h.count
  rw [hes, totalLength_cons] at hcount htotal
  simp only at hcount htotal
  have hsub : sub64 r.unassembledBytes s.length = totalLength its := by
    rw [sub64_eq (by omega) (by omega)]
    omega
  unfold reorderBuffer
  rw [hes]
  simp only
  rw [if_pos ⟨trivial, by omega⟩, if_neg (by omega), hsub]

theorem erase_head_entries
    (h : Assembling r) {s : Bytes} {its : List (Piece UInt8)}
    (hes : r.buf.entries = (r.expectedIndex, s) :: its) :
    (r.buf.erase r.expectedIndex).entries = its := by
  have hsorted := h.separated.sorted
  rw [hes] at hsorted
  simp only [OrderedMap.erase, OrderedMap.filterKeys_entries, hes]
  rw [List.filter_cons_of_neg (by simp)]
  refine List.filter_eq_self.mpr fun p hp => ?_
  have hlt := (List.pairwise_cons.mp hsorted).1 p hp
  simpa using hlt.ne'

theorem Assembling.cases_head (h : Assembling r) :
    (∀ p ∈ r.buf.entries, r.expectedIndex < p.1) ∨
      ∃ s its, r.buf.entries = (r.expectedIndex, s) :: its := by
  cases hes : r.buf.entries with
  | nil => exact Or.inl (by simp)
  | cons p its =>
      have hsorted := h.separated.sorted
      rw [hes] at hsorted
      have hp := h.starts p (by simp [hes])
      rcases hp.lt_or_eq with hlt | heq
      · refine Or.inl fun q hq => ?_
        rcases List.mem_cons.mp hq with rfl | hq
        · exact hlt
        · exact hlt.trans ((List.pairwise_cons.mp hsorted).1 q hq)
      · exact Or.inr ⟨p.2, its, by rw [heq]⟩

/-- `reorder_buffer` restores the strict invariant. -/
theorem Assembling.reorderBuffer (h : Assembling r) :
    WellFormed r.reorderBuffer := by
  rcases h.cases_head with habove | ⟨s, its, hes⟩
  · rw [reorderBuffer_of_above habove]
    exact { h with above := habove }
  · rw [reorderBuffer_of_head h hes]
    have hrest := erase_head_entries h hes
    have hsep := h.separated
    rw [hes] at hsep
    obtain ⟨hhead, hsep⟩ := List.pairwise_cons.mp hsep
    have hin : ∀ p ∈ its, p ∈ r.buf.entries := by
      intro p hp
      rw [hes]
      exact List.mem_cons_of_mem _ hp
    have hcap : s.length ≤ r.output.remainingCapacity := by
      have hfits : r.expectedIndex + s.length ≤
          r.expectedIndex + r.output.remainingCapacity :=
        h.fits (r.expectedIndex, s) (by simp [hes])
      omega
    have habove : ∀ p ∈ its, r.expectedIndex + s.length < p.1 := hhead
    have hexpected : r.expectedIndex + s.length =
        (r.output.write s).2.bytesWritten := by
      rw [ByteStream.write_bytesWritten, h.expected_eq]
      omega
    exact
      { cap_lt := by simpa using h.cap_lt
        expected_eq := hexpected
        separated := by
          rw [hrest]
          exact hsep
        nonempty := by
          intro p hp
          rw [hrest] at hp
          exact h.nonempty p (hin p hp)
        starts := by
          intro p hp
          rw [hrest] at hp
          exact (habove p hp).le
        fits := by
          intro p hp
          rw [hrest] at hp
          have hold := h.fits p (hin p hp)
          rw [windowEnd_eq h.expected_eq] at hold
          rw [windowEnd_eq hexpected]
          simpa using hold
        ends := by
          intro p hp
          rw [hrest] at hp
          exact h.ends p (hin p hp)
        count := by simp [hrest]
        defined := h.defined
        above := by
          intro p hp
          rw [hrest] at hp
          exact habove p hp }

/-- Indices only move from the stored pieces to the output. -/
theorem reorderBuffer_known (h : Assembling r) :
    r.reorderBuffer.known = r.known := by
  rcases h.cases_head with habove | ⟨s, its, hes⟩
  · rw [reorderBuffer_of_above habove]
  · rw [reorderBuffer_of_head h hes]
    have hcons : covered r.buf.entries =
        Finset.Ico r.expectedIndex (r.expectedIndex + s.length) ∪
          covered its := by
      rw [hes]
      rfl
    ext x
    rw [mem_known, mem_known, hcons]
    simp only [erase_head_entries h hes, Finset.mem_union, Finset.mem_Ico]
    constructor
    · rintro (hx | hx)
      · rcases lt_or_ge x r.expectedIndex with hlt | hge
        · exact Or.inl hlt
        · exact Or.inr (Or.inl ⟨hge, hx⟩)
      · exact Or.inr (Or.inr hx)
    · rintro (hx | ⟨-, hx⟩ | hx)
      · exact Or.inl (by omega)
      · exact Or.inl hx
      · exact Or.inr hx

/-- Whatever is stored, `reorder_buffer` at most writes to the output. -/
theorem reorderBuffer_frame (r : StreamReassembler) :
    r.reorderBuffer.inputEnded = r.inputEnded ∧
      (r.reorderBuffer.output = r.output ∨
        ∃ data, r.reorderBuffer.output = (r.output.write data).2) := by
  unfold reorderBuffer
  split
  · exact ⟨rfl, Or.inl rfl⟩
  · simp only
    split
    · split
      · exact ⟨rfl, Or.inr ⟨_, rfl⟩⟩
      · exact ⟨rfl, Or.inr ⟨_, rfl⟩⟩
    · exact ⟨rfl, Or.inl rfl⟩

@[simp] theorem reorderBuffer_inputEnded (r : StreamReassembler) :
    r.reorderBuffer.inputEnded = r.inputEnded :=
  r.reorderBuffer_frame.1

@[simp] theorem reorderBuffer_output_inputEnded (r : StreamReassembler) :
    r.reorderBuffer.output.inputEnded = r.output.inputEnded := by
  rcases r.reorderBuffer_frame.2 with heq | ⟨data, heq⟩
  · rw [heq]
  · rw [heq, ByteStream.write_inputEnded]

theorem reorderBuffer_writerOnly (r : StreamReassembler) :
    r.output.WriterOnly r.reorderBuffer.output := by
  rcases r.reorderBuffer_frame.2 with heq | ⟨data, heq⟩
  · rw [heq]
    exact .refl _
  · rw [heq]
    exact r.output.writerOnly_write data

end ReorderBuffer

end StreamReassembler

end Sponge
