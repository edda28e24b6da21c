import Sponge.ByteStream
import Sponge.Support.Fifo

/-!
# The byte stream as a bounded queue

A `ByteStream` keeps its bytes in a list of buffers, some of them empty and
some of them partly consumed, and removes a prefix by walking over their
boundaries with an exception at the end of the list.  Here its operations are
compared with those of a flat queue of bytes.  An operation of the source that
can throw is a call that can be `none`; none is.
-/

namespace Sponge

namespace ByteStream

/-- The calls of a run. -/
inductive Op where
  | write (data : Bytes)
  | peekOutput (len : ℕ)
  | popOutput (len : ℕ)
  | read (len : ℕ)
  | endInput
  | setError
deriving DecidableEq

/-- What a call returns. -/
inductive Result where
  | void
  | size (n : ℕ)
  | bytes (s : Bytes)
deriving DecidableEq

/-- The call of `remove_prefix` in `pop_output`, the only part of an operation
that can throw. -/
def removal (bs : ByteStream) (len : ℕ) : Option BufferList :=
  if bs.bufferSize > len then bs.buf.removePrefix len
  else bs.buf.removePrefix bs.bufferSize

/-- One call, with `none` for an exception. -/
def call (bs : ByteStream) : Op → Option (Result × ByteStream)
  | .write data => some (.size (bs.write data).1, (bs.write data).2)
  | .peekOutput len => some (.bytes (bs.peekOutput len), bs)
  | .popOutput len =>
      (bs.removal len).map fun _ => (.void, bs.popOutput len)
  | .read len =>
      (bs.removal len).map fun _ =>
        (.bytes (bs.read len).1, (bs.read len).2)
  | .endInput => some (.void, bs.endInput)
  | .setError => some (.void, bs.setError)

/-- What the same call does to a queue of bytes. -/
def fifoCall (q : Fifo UInt8) : Op → Result × Fifo UInt8
  | .write data => (.size (min data.length q.room), q.push data)
  | .peekOutput len => (.bytes (q.front len), q)
  | .popOutput len => (.void, q.pop len)
  | .read len => (.bytes (q.front len), q.pop len)
  | .endInput => (.void, q.close)
  | .setError => (.void, q.fail)

/-- The queue that a stream stands for, whatever its buffers are. -/
def toFifo (bs : ByteStream) : Fifo UInt8 where
  capacity := bs.cap
  items := bs.buf.concatenate
  closed := bs.inputEnded
  failed := bs.error
  length_le := by
    rw [length_concatenate]
    exact bs.bufferSize_le

theorem toFifo_new (capacity : ℕ) :
    (new capacity).toFifo = Fifo.empty capacity := rfl

theorem toFifo_room (bs : ByteStream) :
    bs.toFifo.room = bs.remainingCapacity := by
  rw [remainingCapacity_eq, ← length_concatenate]
  rfl

/-- The buffers that `pop_output` leaves are those that `remove_prefix`
returns: the exception is never thrown. -/
theorem removal_eq (bs : ByteStream) (len : ℕ) :
    bs.removal len = some (bs.popOutput len).buf := by
  unfold removal popOutput bufferSize
  split
  · exact (Option.some_get _).symm
  · exact (Option.some_get _).symm

/-! ## One call -/

theorem toFifo_write (bs : ByteStream) (data : Bytes) :
    (bs.write data).2.toFifo = bs.toFifo.push data := by
  apply Fifo.ext
  · exact write_cap bs data
  · refine (write_concatenate bs data).trans ?_
    rw [write_fst, ← toFifo_room]
    rfl
  · exact write_inputEnded bs data
  · exact write_error bs data

theorem peekOutput_eq_front (bs : ByteStream) (len : ℕ) :
    bs.peekOutput len = bs.toFifo.front len :=
  (bs.peekOutput_eq_take len).trans List.take_eq_take_min

theorem toFifo_popOutput (bs : ByteStream) (len : ℕ) :
    (bs.popOutput len).toFifo = bs.toFifo.pop len := by
  apply Fifo.ext
  · exact popOutput_cap bs len
  · exact (popOutput_concatenate bs len).trans List.drop_eq_drop_min
  · exact popOutput_inputEnded bs len
  · exact popOutput_error bs len

/-- Every call succeeds and does to the stream what it does to the queue. -/
theorem refines_fifo : Refines call fifoCall toFifo := by
  intro bs op
  cases op with
  | write data =>
      refine ⟨(bs.write data).2, ?_, toFifo_write bs data⟩
      rw [call, fifoCall, write_fst, toFifo_room]
  | peekOutput len =>
      refine ⟨bs, ?_, rfl⟩
      rw [call, fifoCall, peekOutput_eq_front]
  | popOutput len =>
      refine ⟨bs.popOutput len, ?_, toFifo_popOutput bs len⟩
      rw [call, fifoCall, removal_eq, Option.map_some]
  | read len =>
      refine ⟨bs.popOutput len, ?_, toFifo_popOutput bs len⟩
      rw [call, fifoCall, removal_eq, Option.map_some, ← peekOutput_eq_front]
      rfl
  | endInput => exact ⟨bs.endInput, rfl, rfl⟩
  | setError => exact ⟨bs.setError, rfl, rfl⟩

/-! ## Whole runs -/

/-- The queue is closed once `end_input` has been called. -/
theorem collect_closed (q : Fifo UInt8) (ops : List Op) :
    (collect fifoCall q ops).2.closed = true ↔
      q.closed = true ∨ .endInput ∈ ops := by
  induction ops generalizing q with
  | nil => simp [collect]
  | cons op ops ih =>
      simp only [collect, ih, List.mem_cons, ← or_assoc]
      apply or_congr_left
      cases op <;> simp [fifoCall, Fifo.push, Fifo.pop, Fifo.close, Fifo.fail]

theorem collect_capacity (q : Fifo UInt8) (ops : List Op) :
    (collect fifoCall q ops).2.capacity = q.capacity := by
  induction ops generalizing q with
  | nil => rfl
  | cons op ops ih =>
      rw [collect, ih]
      cases op <;> rfl

/-- The accessors, in terms of the queue. -/
theorem toFifo_accessors (bs : ByteStream) :
    bs.bufferSize = bs.toFifo.items.length ∧
      bs.remainingCapacity = bs.cap - bs.toFifo.items.length ∧
      bs.bytesWritten = bs.bytesRead + bs.toFifo.items.length ∧
      (bs.eof = true ↔ bs.inputEnded = true ∧ bs.toFifo.items = []) := by
  have hlen : bs.toFifo.items.length = bs.bufferSize :=
    bs.length_concatenate
  refine ⟨hlen.symm, ?_, ?_, ?_⟩
  · rw [hlen, remainingCapacity_eq]
  · rw [hlen, bytesWritten_eq]
  · rw [eof, Bool.and_eq_true, ← List.length_eq_zero_iff, hlen, bufferEmpty,
      beq_iff_eq]
    rfl

/-- A stream of any capacity, from its construction on and through any
sequence of calls, behaves as a bounded queue of bytes: no call throws, every
call returns what the queue returns, and the accessors of the stream that is
reached describe the queue that is reached. -/
theorem perform_new_eq_collect_fifo (capacity : ℕ) (ops : List Op) :
    ∃ bs, perform call (new capacity) ops =
        some ((collect fifoCall (Fifo.empty capacity) ops).1, bs) ∧
      bs.toFifo = (collect fifoCall (Fifo.empty capacity) ops).2 ∧
      bs.bufferSize = bs.toFifo.items.length ∧
      bs.bufferSize ≤ capacity ∧
      bs.remainingCapacity = capacity - bs.toFifo.items.length ∧
      bs.bytesWritten = bs.bytesRead + bs.toFifo.items.length ∧
      (bs.eof = true ↔ .endInput ∈ ops ∧ bs.toFifo.items = []) := by
  obtain ⟨bs, hperform, habs⟩ := refines_fifo.perform (new capacity) ops
  rw [toFifo_new] at hperform habs
  have hcap : bs.cap = capacity := by
    have h := congrArg Fifo.capacity habs
    rwa [collect_capacity] at h
  have hended : bs.inputEnded = true ↔ .endInput ∈ ops := by
    have h := collect_closed (Fifo.empty capacity) ops
    rw [← habs] at h
    exact h.trans (by simp [Fifo.empty])
  obtain ⟨hsize, hroom, htotal, heof⟩ := bs.toFifo_accessors
  rw [hcap] at hroom
  rw [hended] at heof
  exact ⟨bs, hperform, habs, hsize, hcap ▸ bs.bufferSize_le, hroom, htotal,
    heof⟩

/-- A pop that ends inside the second of three buffers, one of which is
empty. -/
example :
    (perform call (new 5) [.write [1, 2], .write [], .write [3, 4, 5, 6],
      .popOutput 3, .peekOutput 9]).map Prod.fst =
      some [.size 2, .size 0, .size 3, .void, .bytes [4, 5]] := by
  decide

end ByteStream

end Sponge
