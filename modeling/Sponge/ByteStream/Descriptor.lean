import Sponge.ByteStream
import Sponge.Util.FileDescriptor

/-!
# Writing a stream to a descriptor

A rule of an event loop looks at the next bytes of a stream, offers them to a
descriptor, and takes from the stream what the kernel has accepted.
-/

namespace Sponge

namespace ByteStream

theorem bufferEmpty_iff (bs : ByteStream) :
    bs.bufferEmpty = true ↔ bs.bufferSize = 0 :=
  beq_iff_eq

/-- An empty stream has been read as far as it was written. -/
theorem written_of_bufferEmpty {bs : ByteStream} (h : bs.bufferEmpty = true) :
    bs.written = bs.popped := by
  have hnil : bs.buf.concatenate = [] := by
    rw [← List.length_eq_zero_iff, bs.length_concatenate]
    exact bs.bufferEmpty_iff.mp h
  rw [bs.written_eq, hnil, List.append_nil]

theorem take_peekOutput (bs : ByteStream) {n len : ℕ} (hn : n ≤ len) :
    (bs.peekOutput len).take n = bs.peekOutput n := by
  rw [bs.peekOutput_eq_take, bs.peekOutput_eq_take, List.take_take,
    Nat.min_eq_left hn]

theorem peekOutput_front (bs : ByteStream) (len : ℕ) :
    bs.peekOutput len <+: bs.buf.concatenate := by
  rw [bs.peekOutput_eq_take]
  exact List.take_prefix _ _

/-- What was taken and what can be read next was written. -/
theorem popped_append_front
    (bs : ByteStream) {bytes : Bytes} (hbytes : bytes <+: bs.buf.concatenate) :
    bs.popped ++ bytes <+: bs.written := by
  rw [bs.written_eq]
  exact List.prefix_append_right_inj bs.popped |>.mpr hbytes

end ByteStream

/-- The kernel accepts the next bytes of the stream, and a call that returns
tells how many. -/
theorem FileDescriptor.writeSome_peekOutput
    (fd : FileDescriptor) (stream : ByteStream) (len : ℕ)
    (answer : Except String ℕ) :
    (∃ e bytes, Refused e ∧ bytes <+: stream.buf.concatenate ∧
        fd.writeSome (.ofString (stream.peekOutput len)) answer =
          (.error e, { fd with output := fd.output ++ bytes })) ∨
      ∃ n, fd.writeSome (.ofString (stream.peekOutput len)) answer =
        (.ok n, fd.accepted (stream.peekOutput n)) := by
  rcases fd.writeSome_cases (.ofString (stream.peekOutput len)) answer with
    ⟨e, he, k, hwrite⟩ | ⟨n, hn, hwrite⟩
  · rw [BufferViewList.asIovecs_ofString] at hwrite
    exact Or.inl ⟨e, (stream.peekOutput len).take k, he,
      (List.take_prefix _ _).trans (stream.peekOutput_front len), hwrite⟩
  · rw [← BufferViewList.length_asIovecs, BufferViewList.asIovecs_ofString,
      stream.length_peekOutput] at hn
    rw [BufferViewList.asIovecs_ofString,
      stream.take_peekOutput (hn.trans (Nat.min_le_left _ _))] at hwrite
    exact Or.inr ⟨n, hwrite⟩

end Sponge
