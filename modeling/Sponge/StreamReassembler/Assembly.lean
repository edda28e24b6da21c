import Mathlib.Order.Bounds.Basic
import Sponge.Support.Run
import Sponge.StreamReassembler.Push

/-!
# The reassembler computes the longest contiguous prefix

Abstractly, a reassembler of a logical stream `S` is the set `K` of the
indices accepted so far: a push of `S[i..j)` adds the part of `[i, j)` between
the first missing index and the end of the window, and nothing ever leaves
`K`.  The output is the longest prefix of `S` whose indices all lie in `K`,
and the bytes waiting are the other elements of `K`.

This file connects the code to that description.  `Agrees` says that whatever
is written or stored comes from `S`; together with the representation
invariant it determines the output and the counters from `K` alone.
-/

namespace Sponge

namespace StreamReassembler

/-! ## The contents of the pieces -/

/-- Everything written or stored is the part of `S` at its index. -/
structure Agrees (S : Bytes) (r : StreamReassembler) : Prop where
  within : r.expectedIndex ≤ S.length
  written : r.output.written = S.extract 0 r.expectedIndex
  pieces : ∀ p ∈ r.buf.entries,
    p.2 = S.extract p.1 (Piece.stop p) ∧ Piece.stop p ≤ S.length

theorem agrees_new (S : Bytes) (capacity : ℕ) :
    Agrees S (new capacity) where
  within := Nat.zero_le _
  written := by simp [new, ByteStream.new, List.extract_eq_take_drop]
  pieces := by simp [new, OrderedMap.empty]

section Agrees

variable {S : Bytes} {r : StreamReassembler} {data : Bytes} {index : ℕ}

theorem Agrees.extend {T : Bytes} (h : Agrees S r) (hST : S <+: T) :
    Agrees T r where
  within := h.within.trans hST.length_le
  written := by
    rw [h.written, extract_eq_of_append hST h.within]
  pieces := by
    intro p hp
    obtain ⟨hcontents, hstop⟩ := h.pieces p hp
    rw [extract_eq_of_append hST hstop]
    exact ⟨hcontents, hstop.trans hST.length_le⟩

theorem Agrees.popOutput (h : Agrees S r) (len : ℕ) :
    Agrees S (r.popOutput len) where
  within := h.within
  written := by simpa [StreamReassembler.popOutput] using h.written
  pieces := h.pieces

theorem Agrees.finish (h : Agrees S r) (eof : Bool) :
    Agrees S (r.finish eof) where
  within := by simpa using h.within
  written := by simpa using h.written
  pieces := by simpa using h.pieces

theorem Agrees.merge
    (hwf : Assembling r) (h : Agrees S r)
    (hdata : data = S.extract index (index + data.length))
    (hwithin : index + data.length ≤ S.length)
    (hbelow : index + data.length < 2 ^ 64) :
    Agrees S (r.merge data index) := by
  refine
    { within := by simpa using h.within
      written := by simpa using h.written
      pieces := ?_ }
  rw [merge_entries hwf.separated hwf.ends hwf.nonempty hbelow]
  intro p hp
  rcases mem_mergedEntries hp with hp | rfl
  · exact h.pieces p hp
  · have hcontents := hullString_eq_extract
      (hwf.separated.touching index (index + data.length))
      (fun p hp => (mem_touching.mp hp).2)
      (fun p hp => (h.pieces p (mem_touching.mp hp).1).1) hdata
    refine ⟨?_, ?_⟩
    · rw [hullPiece_stop hwf.separated]
      exact hcontents
    · exact hullPiece_stop_le hwf.separated
        (fun p hp => (h.pieces p hp).2) hwithin

theorem Agrees.reorderBuffer
    (hwf : Assembling r) (h : Agrees S r) :
    Agrees S r.reorderBuffer := by
  rcases hwf.cases_head with habove | ⟨s, its, hes⟩
  · rw [reorderBuffer_of_above habove]
    exact h
  · rw [reorderBuffer_of_head hwf hes]
    have hhead : s = S.extract r.expectedIndex (r.expectedIndex + s.length) ∧
        r.expectedIndex + s.length ≤ S.length :=
      h.pieces (r.expectedIndex, s) (by simp [hes])
    have hfits : r.expectedIndex + s.length ≤
        r.expectedIndex + r.output.remainingCapacity :=
      hwf.fits (r.expectedIndex, s) (by simp [hes])
    refine
      { within := hhead.2
        written := ?_
        pieces := ?_ }
    · simp only [ByteStream.write_written, ByteStream.write_fst]
      rw [List.take_of_length_le (by omega), h.written]
      conv_lhs => rw [hhead.1]
      exact extract_append_extract S (Nat.zero_le _) (Nat.le_add_right _ _)
    · intro p hp
      simp only [erase_head_entries hwf hes] at hp
      exact h.pieces p (by simp [hes, hp])

theorem acceptedData_extract
    {i j : ℕ} (hij : i ≤ j) (hj : j ≤ S.length)
    (hacc : r.Accepts (S.extract i j) i) (hbelow : j < 2 ^ 64) :
    r.acceptedData (S.extract i j) i =
      S.extract (r.acceptedStart i)
        (r.acceptedStart i + (r.acceptedData (S.extract i j) i).length) := by
  have hlen : (S.extract i j).length = j - i := extract_length_of_le hj
  obtain ⟨hstop, hlt⟩ := acceptedStart_add_length hacc (by omega)
  have hstart : i ≤ r.acceptedStart i := le_max_left _ _
  rw [hstop]
  unfold acceptedData substr
  rw [drop_extract, take_extract, Nat.add_sub_cancel' hstart]
  unfold acceptedStop at hlt ⊢
  congr 1
  omega

/-- Pushing a part of `S` keeps the agreement with `S`. -/
theorem Agrees.pushSubstring
    {i j : ℕ} (hwf : WellFormed r) (h : Agrees S r)
    (hij : i ≤ j) (hj : j ≤ S.length) (hbelow : j < 2 ^ 64) (eof : Bool) :
    Agrees S (r.pushSubstring (S.extract i j) i eof) := by
  have hlen : (S.extract i j).length = j - i := extract_length_of_le hj
  have hrange : r.InRange (S.extract i j) i := fun _ => by omega
  rcases pushSubstring_cases hwf.cap_lt hrange eof with
    ⟨-, -, heq⟩ | ⟨-, -, -, heq⟩ | ⟨hacc, hlt, heq⟩
  · rw [heq]
    exact h.finish eof
  · rw [heq]
    exact h
  · rw [heq]
    have hstop := (acceptedStart_add_length hacc hlt).1
    have hle : r.acceptedStop (S.extract i j) i ≤
        i + (S.extract i j).length := min_le_left _ _
    exact ((h.merge hwf.toAssembling
      (acceptedData_extract hij hj hacc hbelow) (by omega)
      (by omega)).reorderBuffer (hwf.mergeAccepted hacc hlt)).finish _

end Agrees

/-! ## Runs -/

/-- The operations of a run: a push of a part of the logical stream, and the
two ways to take bytes from the output. -/
inductive Op where
  | push (i j : ℕ) (eof : Bool)
  | pop (len : ℕ)
  | read (len : ℕ)

/-- A reassembler together with the set of all indices accepted so far. -/
structure Tracked where
  reassembler : StreamReassembler
  accepted : Finset ℕ

/-- The interval of indices that a push may accept: from the bytes written to
the capacity beyond the bytes read. -/
def window (r : StreamReassembler) : Finset ℕ :=
  Finset.Ico r.output.bytesWritten (r.output.bytesRead + r.output.cap)

/-- One operation on a reassembler of the logical stream `S`. -/
def step (S : Bytes) (s : Tracked) : Op → Tracked
  | .push i j eof =>
      { reassembler := s.reassembler.pushSubstring (S.extract i j) i eof
        accepted := s.accepted ∪
          (Finset.Ico i j ∩ s.reassembler.window) }
  | .pop len => { s with reassembler := s.reassembler.popOutput len }
  | .read len =>
      { s with
        reassembler :=
          { s.reassembler with
            output := (s.reassembler.output.read len).2 } }

/-- A push is of a part of `S`, and neither its end nor the end of the window
exceeds the 64-bit range. -/
def InStream (S : Bytes) (s : Tracked) : Op → Prop
  | .push i j _ =>
      i ≤ j ∧ j ≤ S.length ∧ j < 2 ^ 64 ∧
        s.reassembler.output.bytesRead + s.reassembler.output.cap < 2 ^ 64
  | .pop _ => True
  | .read _ => True

instance inStreamDecidable (S : Bytes) (s : Tracked) :
    ∀ op, Decidable (InStream S s op)
  | .push _ _ _ => inferInstanceAs (Decidable (_ ∧ _ ∧ _ ∧ _))
  | .pop _ => isTrue trivial
  | .read _ => isTrue trivial

/-- The state before the first operation. -/
def start (capacity : ℕ) : Tracked := ⟨new capacity, ∅⟩

/-- The code represents the abstract reassembler: its pieces and its output
hold exactly the accepted indices, with the contents of `S`. -/
structure Represents (S : Bytes) (s : Tracked) : Prop where
  wellFormed : WellFormed s.reassembler
  agrees : Agrees S s.reassembler
  accepted_eq : s.accepted = s.reassembler.known

section Runs

variable {S : Bytes}

theorem represents_start {capacity : ℕ} (h : capacity < 2 ^ 64) :
    Represents S (start capacity) where
  wellFormed := wellFormed_new h
  agrees := agrees_new S capacity
  accepted_eq := by simp [start, known, new, OrderedMap.empty, covered]

/-- Below `2 ^ 64`, the upper bound is the end of the window. -/
theorem upperBoundIndex_eq
    {r : StreamReassembler} (hwf : WellFormed r)
    (hwindow : r.output.bytesRead + r.output.cap < 2 ^ 64) :
    r.upperBoundIndex = r.output.bytesRead + r.output.cap := by
  have hend := windowEnd_eq hwf.expected_eq
  rw [← hend] at hwindow ⊢
  exact Nat.mod_eq_of_lt hwindow

/-- Below `2 ^ 64`, the accepted indices are those in the window. -/
theorem acceptedIndices_eq
    {r : StreamReassembler} {i j : ℕ} (hwf : WellFormed r)
    (hij : i ≤ j) (hj : j ≤ S.length) (hbelow : j < 2 ^ 64)
    (hwindow : r.output.bytesRead + r.output.cap < 2 ^ 64) :
    r.acceptedIndices (S.extract i j) i =
      Finset.Ico i j ∩ r.window := by
  have hlen : (S.extract i j).length = j - i := extract_length_of_le hj
  have hend := windowEnd_eq hwf.expected_eq
  have hupper : r.upperBoundIndex = r.windowEnd := by
    rw [hend, upperBoundIndex_eq hwf hwindow]
  have hdef : r.windowEnd =
      r.expectedIndex + r.output.remainingCapacity := rfl
  ext x
  rw [Finset.mem_inter, window, Finset.mem_Ico, Finset.mem_Ico,
    acceptedIndices, ← hend, ← hwf.expected_eq]
  by_cases hacc : r.Accepts (S.extract i j) i
  · rw [if_pos hacc, Finset.mem_Ico, acceptedStart, acceptedStop, hlen]
    omega
  · rw [if_neg hacc]
    simp only [Finset.notMem_empty, false_iff]
    rintro ⟨⟨hix, hxj⟩, hwx, hxW⟩
    apply hacc
    refine ⟨by omega, List.ne_nil_of_length_pos (by omega), by omega, ?_⟩
    rw [hlen, add64_eq (by omega)]
    omega

theorem Represents.step
    {s : Tracked} (h : Represents S s) (op : Op) (hop : InStream S s op) :
    Represents S (StreamReassembler.step S s op) := by
  cases op with
  | push i j eof =>
      obtain ⟨hij, hj, hbelow, hwindow⟩ := hop
      have hlen : (S.extract i j).length = j - i := extract_length_of_le hj
      have hrange : s.reassembler.InRange (S.extract i j) i :=
        fun _ => by omega
      refine
        { wellFormed := h.wellFormed.pushSubstring hrange eof
          agrees := h.agrees.pushSubstring h.wellFormed hij hj hbelow eof
          accepted_eq := ?_ }
      simp only [StreamReassembler.step]
      rw [pushSubstring_known h.wellFormed hrange, h.accepted_eq,
        acceptedIndices_eq h.wellFormed hij hj hbelow hwindow]
  | pop len =>
      exact
        { wellFormed := h.wellFormed.popOutput len
          agrees := h.agrees.popOutput len
          accepted_eq := h.accepted_eq }
  | read len =>
      exact
        { wellFormed := h.wellFormed.popOutput len
          agrees := h.agrees.popOutput len
          accepted_eq := h.accepted_eq }

/-- The expected index is the first index that has not been accepted. -/
theorem Represents.isLeast
    {s : Tracked} (h : Represents S s) :
    IsLeast {x | x ∉ s.accepted} s.reassembler.expectedIndex := by
  constructor
  · change s.reassembler.expectedIndex ∉ s.accepted
    rw [h.accepted_eq]
    exact h.wellFormed.expectedIndex_notMem
  · intro x hx
    by_contra hlt
    apply hx
    rw [h.accepted_eq]
    exact mem_known.mpr (Or.inl (not_le.mp hlt))

/-- The accepted indices from the expected one on are those of the pieces. -/
theorem Represents.filter_accepted
    {s : Tracked} (h : Represents S s) :
    s.accepted.filter (s.reassembler.expectedIndex ≤ ·) =
      covered s.reassembler.buf.entries := by
  ext x
  rw [Finset.mem_filter, h.accepted_eq, mem_known]
  constructor
  · rintro ⟨hx | hx, hle⟩
    · exact absurd hx (not_lt.mpr hle)
    · exact hx
  · intro hx
    obtain ⟨p, hp, hlow, -⟩ := mem_covered.mp hx
    exact ⟨Or.inr hx, (h.wellFormed.starts p hp).trans hlow⟩

/-- After every run of pushes of parts of `S`, in any order and with any
overlap, and of reads, the bytes ever written are the longest prefix of `S`
that has been accepted without a gap, and the unassembled bytes are the
accepted ones beyond it. -/
theorem run_written_and_unassembledBytes
    (capacity : ℕ) (hcapacity : capacity < 2 ^ 64) (S : Bytes)
    (ops : List Op)
    (hops : Guarded (step S) (InStream S) (start capacity) ops) :
    ∃ m, IsLeast {x | x ∉ (run (step S) (start capacity) ops).accepted} m ∧
      (run (step S) (start capacity) ops).reassembler.output.written =
        S.extract 0 m ∧
      (run (step S) (start capacity) ops).reassembler.unassembledBytes =
        ((run (step S) (start capacity) ops).accepted.filter
          (m ≤ ·)).card := by
  have h : Represents S (run (step S) (start capacity) ops) :=
    run_invariant (fun s op hs hop => hs.step op hop)
      (represents_start hcapacity) hops
  refine ⟨_, h.isLeast, h.agrees.written, ?_⟩
  rw [h.filter_accepted, card_covered h.wellFormed.separated]
  exact h.wellFormed.count

/-- The last two of four bytes arrive first and are kept, then a push that
overlaps them closes the gap. -/
theorem run_written_and_unassembledBytes_overlap :
    ∃ m, IsLeast {x | x ∉ (run (step [97, 98, 99, 100]) (start 4)
        [.push 2 4 true, .push 0 3 false, .read 1]).accepted} m ∧
      (run (step [97, 98, 99, 100]) (start 4)
        [.push 2 4 true, .push 0 3 false, .read 1]).reassembler.output.written =
        [97, 98, 99, 100].extract 0 m ∧
      (run (step [97, 98, 99, 100]) (start 4)
        [.push 2 4 true, .push 0 3 false,
          .read 1]).reassembler.unassembledBytes =
        ((run (step [97, 98, 99, 100]) (start 4)
          [.push 2 4 true, .push 0 3 false, .read 1]).accepted.filter
          (m ≤ ·)).card :=
  run_written_and_unassembledBytes 4 (by decide) [97, 98, 99, 100]
    [.push 2 4 true, .push 0 3 false, .read 1] (by decide)

end Runs

end StreamReassembler

end Sponge
