import Sponge.StreamReassembler.Push
import Sponge.Support.Run

/-!
# The reassembler under arbitrary pushes

The substrings of a run need not come from one stream here: they may overlap
with different contents, and the end of the stream may be announced anywhere.
Whatever is pushed, the stored pieces stay inside the window that the reader
of the output opens, so that the output and the pieces together never hold
more than the capacity, and the branch of `reorder_buffer` that reads an
erased map entry is not entered.
-/

namespace Sponge

namespace StreamReassembler

/-- The calls of a run: a push of any substring, and the two ways to take
bytes from the output. -/
inductive Call where
  | pushSubstring (data : Bytes) (index : ℕ) (eof : Bool)
  | popOutput (len : ℕ)
  | read (len : ℕ)

/-- The reassembler after one call. -/
def call (r : StreamReassembler) : Call → StreamReassembler
  | .pushSubstring data index eof => r.pushSubstring data index eof
  | .popOutput len => r.popOutput len
  | .read len => { r with output := (r.output.read len).2 }

/-- Neither the end of a pushed substring nor the end of the window exceeds
the 64-bit range. -/
def Below64 (r : StreamReassembler) : Call → Prop
  | .pushSubstring data index _ =>
      index + data.length < 2 ^ 64 ∧
        r.output.cap + r.output.bytesRead < 2 ^ 64
  | .popOutput _ => True
  | .read _ => True

instance below64Decidable (r : StreamReassembler) :
    ∀ c, Decidable (r.Below64 c)
  | .pushSubstring _ _ _ => inferInstanceAs (Decidable (_ ∧ _))
  | .popOutput _ => isTrue trivial
  | .read _ => isTrue trivial

variable {r : StreamReassembler}

theorem WellFormed.call
    (h : WellFormed r) (c : Call) (hc : r.Below64 c) :
    WellFormed (r.call c) := by
  cases c with
  | pushSubstring data index eof =>
      exact h.pushSubstring (fun _ => hc.1) eof
  | popOutput len => exact h.popOutput len
  | read len => exact h.popOutput len

theorem call_cap (r : StreamReassembler) (c : Call) :
    (r.call c).output.cap = r.output.cap := by
  cases c with
  | pushSubstring data index eof => exact pushSubstring_cap r data index eof
  | popOutput len => exact ByteStream.popOutput_cap r.output len
  | read len => exact ByteStream.popOutput_cap r.output len

/-- The pieces lie between the expected index and the end of the window, and
the output holds what lies before. -/
theorem WellFormed.stored_le (h : WellFormed r) :
    r.output.bufferSize + r.unassembledBytes ≤ r.output.cap := by
  have hstored := totalLength_le h.separated h.starts h.fits
  have hwindow : r.windowEnd =
      r.expectedIndex + r.output.remainingCapacity := rfl
  have hroom := r.output.remainingCapacity_eq
  have hsize := r.output.bufferSize_le
  have hcount := h.count
  omega

/-- After every run of pushes of arbitrary substrings and of reads, the
expected index is the number of bytes written, the pieces are non-empty,
separated and between the expected index and the end of the window, the
counter is their total length, output and pieces fit into the capacity, and no
erased entry has been read. -/
theorem run_call_representation
    (capacity : ℕ) (hcapacity : capacity < 2 ^ 64) (calls : List Call)
    (hcalls : Guarded call Below64 (new capacity) calls) :
    let r := run call (new capacity) calls
    r.expectedIndex = r.output.bytesWritten ∧
      (∀ p ∈ r.buf.entries, p.2 ≠ []) ∧
      (r.buf.entries.Pairwise fun p q => p.1 + p.2.length < q.1) ∧
      (∀ p ∈ r.buf.entries, r.expectedIndex < p.1) ∧
      (∀ p ∈ r.buf.entries,
        p.1 + p.2.length ≤ r.output.bytesRead + capacity) ∧
      r.unassembledBytes =
        (r.buf.entries.map fun p => p.2.length).sum ∧
      r.output.bufferSize + r.unassembledBytes ≤ capacity ∧
      r.usedAfterErase = false := by
  intro r
  have h : WellFormed r :=
    run_invariant (fun _ c hr hc => hr.call c hc)
      (wellFormed_new hcapacity) hcalls
  have hcap : r.output.cap = capacity :=
    run_preserves (P := fun r => r.output.cap = capacity)
      (fun r c hr => (call_cap r c).trans hr) rfl calls
  have hend : r.windowEnd = r.output.bytesRead + capacity := by
    rw [windowEnd_eq h.expected_eq, hcap]
  refine ⟨h.expected_eq, h.nonempty, h.separated, h.above, ?_, h.count, ?_,
    h.defined⟩
  · intro p hp
    rw [← hend]
    exact h.fits p hp
  · rw [← hcap]
    exact h.stored_le

/-- Two substrings that contradict each other, with a read between them. -/
theorem run_call_representation_contradicting :
    (4 : ℕ) < 2 ^ 64 ∧
    (let r := run call (new 4)
      [.pushSubstring [97, 98] 2 false, .pushSubstring [99, 100] 0 true,
        .read 1, .pushSubstring [101, 102, 103] 3 false]
    r.expectedIndex = r.output.bytesWritten ∧
      (∀ p ∈ r.buf.entries, p.2 ≠ []) ∧
      (r.buf.entries.Pairwise fun p q => p.1 + p.2.length < q.1) ∧
      (∀ p ∈ r.buf.entries, r.expectedIndex < p.1) ∧
      (∀ p ∈ r.buf.entries,
        p.1 + p.2.length ≤ r.output.bytesRead + 4) ∧
      r.unassembledBytes =
        (r.buf.entries.map fun p => p.2.length).sum ∧
      r.output.bufferSize + r.unassembledBytes ≤ 4 ∧
      r.usedAfterErase = false) :=
  ⟨by decide, run_call_representation 4 (by decide) _ (by decide)⟩

end StreamReassembler

end Sponge
