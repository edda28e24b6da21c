import Mathlib.Data.Nat.Basic
import Mathlib.Order.Basic
import Sponge.Util.Buffer

/-!
# The byte stream

A flow-controlled stream of bytes: at most `cap` bytes are held, writing
accepts as many as fit, and reading removes from the front.

Two fields are not in the source.  `written` is the sequence of all bytes ever
accepted by `write` and `popped` the sequence of all bytes ever removed by
`pop_output`; no operation reads them.  The remaining fields are proofs: the
buffer never exceeds the capacity, the two counters are the lengths of the two
histories, and what has been written is what has been popped followed by what
is buffered.

The counters `_total_written_bytes` and `_total_read_bytes` count bytes that
really passed through the stream and are natural numbers here.
-/

namespace Sponge

/-- A byte stream with the histories of its two ends. -/
structure ByteStream where
  buf : BufferList
  cap : ℕ
  totalWrittenBytes : ℕ
  totalReadBytes : ℕ
  inputEnded : Bool
  error : Bool
  written : Bytes
  popped : Bytes
  size_le : buf.size ≤ cap
  totalWritten_eq : totalWrittenBytes = written.length
  totalRead_eq : totalReadBytes = popped.length
  written_eq : written = popped ++ buf.concatenate

namespace ByteStream

/-- A stream with room for `capacity` bytes. -/
def new (capacity : ℕ) : ByteStream where
  buf := BufferList.empty
  cap := capacity
  totalWrittenBytes := 0
  totalReadBytes := 0
  inputEnded := false
  error := false
  written := []
  popped := []
  size_le := Nat.zero_le _
  totalWritten_eq := rfl
  totalRead_eq := rfl
  written_eq := rfl

/-! ## Accessors -/

def bufferSize (bs : ByteStream) : ℕ := bs.buf.size

def bufferEmpty (bs : ByteStream) : Bool := bs.buf.size == 0

def eof (bs : ByteStream) : Bool := bs.inputEnded && bs.bufferEmpty

def bytesWritten (bs : ByteStream) : ℕ := bs.totalWrittenBytes

def bytesRead (bs : ByteStream) : ℕ := bs.totalReadBytes

def remainingCapacity (bs : ByteStream) : ℕ :=
  if bs.cap < bs.buf.size then 0 else bs.cap - bs.buf.size

theorem remainingCapacity_eq (bs : ByteStream) :
    bs.remainingCapacity = bs.cap - bs.bufferSize := by
  unfold remainingCapacity bufferSize
  rw [if_neg (not_lt.mpr bs.size_le)]

theorem bufferSize_le (bs : ByteStream) : bs.bufferSize ≤ bs.cap :=
  bs.size_le

theorem length_concatenate (bs : ByteStream) :
    bs.buf.concatenate.length = bs.bufferSize :=
  bs.buf.length_concatenate

/-- Bytes written are bytes read or still buffered. -/
theorem bytesWritten_eq (bs : ByteStream) :
    bs.bytesWritten = bs.bytesRead + bs.bufferSize := by
  rw [bytesWritten, bytesRead, bs.totalWritten_eq, bs.totalRead_eq,
    bs.written_eq, List.length_append, length_concatenate]

theorem bytesWritten_eq_length (bs : ByteStream) :
    bs.bytesWritten = bs.written.length :=
  bs.totalWritten_eq

theorem bytesRead_eq_length (bs : ByteStream) :
    bs.bytesRead = bs.popped.length :=
  bs.totalRead_eq

/-! ## The writer's side -/

/-- The number of bytes of `data` that `write` accepts. -/
def acceptedLength (bs : ByteStream) (data : Bytes) : ℕ :=
  if bs.remainingCapacity > 0 then
    if bs.remainingCapacity < data.length then bs.remainingCapacity
    else data.length
  else 0

theorem acceptedLength_eq (bs : ByteStream) (data : Bytes) :
    bs.acceptedLength data = min data.length bs.remainingCapacity := by
  unfold acceptedLength
  split
  · split <;> omega
  · omega

theorem length_take_acceptedLength (bs : ByteStream) (data : Bytes) :
    (data.take (bs.acceptedLength data)).length ≤ bs.remainingCapacity := by
  rw [List.length_take, acceptedLength_eq]
  omega

/-- The stream after its writer has appended the bytes `bytes`. -/
def appendBytes (bs : ByteStream) (bytes : Bytes)
    (h : bytes.length ≤ bs.remainingCapacity) : ByteStream :=
  { bs with
    totalWrittenBytes := bs.totalWrittenBytes + bytes.length
    buf := bs.buf.append (BufferList.ofBuffer (Buffer.ofString bytes))
    written := bs.written ++ bytes
    size_le := by
      have hsize := bs.size_le
      rw [remainingCapacity_eq, bufferSize] at h
      rw [← BufferList.length_concatenate]
      simp only [BufferList.concatenate_append,
        BufferList.concatenate_ofBuffer, Buffer.str_ofString,
        List.length_append, BufferList.length_concatenate]
      omega
    totalWritten_eq := by
      rw [bs.totalWritten_eq, List.length_append]
    written_eq := by
      rw [bs.written_eq]
      simp }

/-- Write as many bytes as fit, and return how many were written. -/
def write (bs : ByteStream) (data : Bytes) : ℕ × ByteStream :=
  if bs.remainingCapacity > 0 then
    (bs.acceptedLength data,
      bs.appendBytes (data.take (bs.acceptedLength data))
        (length_take_acceptedLength bs data))
  else (0, bs)

/-- Signal that the stream has reached its ending. -/
def endInput (bs : ByteStream) : ByteStream := { bs with inputEnded := true }

/-- Indicate that the stream suffered an error. -/
def setError (bs : ByteStream) : ByteStream := { bs with error := true }

/-! ## The reader's side -/

/-- The next `len` bytes, or all bytes if there are fewer. -/
def peekOutput (bs : ByteStream) (len : ℕ) : Bytes :=
  let blen := if bs.bufferSize > len then len else bs.bufferSize
  bs.buf.concatenate.take blen

/-- The stream after the first `n` buffered bytes have been discarded. -/
def discard (bs : ByteStream) (n : ℕ) (h : n ≤ bs.buf.size) : ByteStream :=
  { bs with
    buf := (bs.buf.removePrefix n).get (BufferList.isSome_removePrefix h)
    totalReadBytes := bs.totalReadBytes + n
    popped := bs.popped ++ bs.buf.concatenate.take n
    size_le := by
      have hsize := bs.size_le
      rw [← BufferList.length_concatenate] at hsize ⊢
      rw [BufferList.concatenate_get_removePrefix h, List.length_drop]
      omega
    totalRead_eq := by
      rw [← BufferList.length_concatenate] at h
      rw [bs.totalRead_eq, List.length_append, List.length_take]
      omega
    written_eq := by
      rw [bs.written_eq, BufferList.concatenate_get_removePrefix h,
        List.append_assoc, List.take_append_drop] }

/-- Remove `len` bytes, or all bytes if there are fewer. -/
def popOutput (bs : ByteStream) (len : ℕ) : ByteStream :=
  if h : bs.buf.size > len then bs.discard len h.le
  else bs.discard bs.buf.size le_rfl

/-- Copy and then pop the next `len` bytes. -/
def read (bs : ByteStream) (len : ℕ) : Bytes × ByteStream :=
  (bs.peekOutput len, bs.popOutput len)

/-! ## What the operations do to the histories and the counters -/

/-- What appending does not change, a write does not change. -/
theorem write_unchanged
    {β : Type*} {bs : ByteStream} (f : ByteStream → β)
    (h : ∀ bytes hfits, f (bs.appendBytes bytes hfits) = f bs)
    (data : Bytes) : f (bs.write data).2 = f bs := by
  unfold write
  split
  · exact h _ (bs.length_take_acceptedLength data)
  · rfl

/-- What discarding does not change, popping does not change. -/
theorem popOutput_unchanged
    {β : Type*} {bs : ByteStream} (f : ByteStream → β)
    (h : ∀ n hle, f (bs.discard n hle) = f bs) (len : ℕ) :
    f (bs.popOutput len) = f bs := by
  unfold popOutput
  split
  next hlt => exact h len hlt.le
  · exact h bs.buf.size le_rfl

@[simp] theorem write_fst (bs : ByteStream) (data : Bytes) :
    (bs.write data).1 = min data.length bs.remainingCapacity := by
  unfold write
  split
  · exact bs.acceptedLength_eq data
  · simp only
    omega

@[simp] theorem write_written (bs : ByteStream) (data : Bytes) :
    (bs.write data).2.written =
      bs.written ++ data.take (bs.write data).1 := by
  unfold write
  split
  · rfl
  · simp

theorem write_concatenate (bs : ByteStream) (data : Bytes) :
    (bs.write data).2.buf.concatenate =
      bs.buf.concatenate ++ data.take (bs.write data).1 := by
  unfold write
  split
  · simp [appendBytes]
  · simp

@[simp] theorem write_popped (bs : ByteStream) (data : Bytes) :
    (bs.write data).2.popped = bs.popped :=
  write_unchanged popped (fun _ _ => rfl) data

@[simp] theorem write_bytesRead (bs : ByteStream) (data : Bytes) :
    (bs.write data).2.bytesRead = bs.bytesRead := by
  rw [bytesRead_eq_length, bytesRead_eq_length, write_popped]

@[simp] theorem write_inputEnded (bs : ByteStream) (data : Bytes) :
    (bs.write data).2.inputEnded = bs.inputEnded :=
  write_unchanged inputEnded (fun _ _ => rfl) data

@[simp] theorem write_error (bs : ByteStream) (data : Bytes) :
    (bs.write data).2.error = bs.error :=
  write_unchanged error (fun _ _ => rfl) data

@[simp] theorem write_cap (bs : ByteStream) (data : Bytes) :
    (bs.write data).2.cap = bs.cap :=
  write_unchanged cap (fun _ _ => rfl) data

theorem write_bytesWritten (bs : ByteStream) (data : Bytes) :
    (bs.write data).2.bytesWritten =
      bs.bytesWritten + min data.length bs.remainingCapacity := by
  rw [bytesWritten_eq_length, bytesWritten_eq_length, write_written,
    List.length_append, List.length_take, write_fst]
  omega

theorem write_bufferSize (bs : ByteStream) (data : Bytes) :
    (bs.write data).2.bufferSize =
      bs.bufferSize + min data.length bs.remainingCapacity := by
  have hbefore := bs.bytesWritten_eq
  have hafter := (bs.write data).2.bytesWritten_eq
  rw [write_bytesWritten, write_bytesRead] at hafter
  omega

theorem length_peekOutput (bs : ByteStream) (len : ℕ) :
    (bs.peekOutput len).length = min len bs.bufferSize := by
  unfold peekOutput
  rw [List.length_take, length_concatenate]
  split <;> omega

theorem peekOutput_eq_take (bs : ByteStream) (len : ℕ) :
    bs.peekOutput len = bs.buf.concatenate.take len := by
  unfold peekOutput
  split
  · rfl
  next h =>
    rw [← length_concatenate] at h ⊢
    rw [List.take_length, List.take_of_length_le (not_lt.mp h)]

@[simp] theorem popOutput_popped (bs : ByteStream) (len : ℕ) :
    (bs.popOutput len).popped = bs.popped ++ bs.peekOutput len := by
  unfold popOutput peekOutput bufferSize
  split <;> rfl

theorem popOutput_concatenate (bs : ByteStream) (len : ℕ) :
    (bs.popOutput len).buf.concatenate = bs.buf.concatenate.drop len := by
  unfold popOutput
  split
  next h => exact BufferList.concatenate_get_removePrefix h.le
  next h =>
    have hlen := not_lt.mp h
    rw [← BufferList.length_concatenate] at hlen
    rw [List.drop_eq_nil_of_le hlen]
    refine (BufferList.concatenate_get_removePrefix le_rfl).trans ?_
    rw [← BufferList.length_concatenate]
    exact List.drop_length

@[simp] theorem popOutput_written (bs : ByteStream) (len : ℕ) :
    (bs.popOutput len).written = bs.written :=
  popOutput_unchanged written (fun _ _ => rfl) len

@[simp] theorem popOutput_bytesWritten (bs : ByteStream) (len : ℕ) :
    (bs.popOutput len).bytesWritten = bs.bytesWritten := by
  rw [bytesWritten_eq_length, bytesWritten_eq_length, popOutput_written]

@[simp] theorem popOutput_inputEnded (bs : ByteStream) (len : ℕ) :
    (bs.popOutput len).inputEnded = bs.inputEnded :=
  popOutput_unchanged inputEnded (fun _ _ => rfl) len

@[simp] theorem popOutput_error (bs : ByteStream) (len : ℕ) :
    (bs.popOutput len).error = bs.error :=
  popOutput_unchanged error (fun _ _ => rfl) len

@[simp] theorem popOutput_cap (bs : ByteStream) (len : ℕ) :
    (bs.popOutput len).cap = bs.cap :=
  popOutput_unchanged cap (fun _ _ => rfl) len

theorem popOutput_bytesRead (bs : ByteStream) (len : ℕ) :
    (bs.popOutput len).bytesRead =
      bs.bytesRead + min len bs.bufferSize := by
  rw [bytesRead_eq_length, bytesRead_eq_length, popOutput_popped,
    List.length_append, length_peekOutput]

theorem popOutput_bufferSize (bs : ByteStream) (len : ℕ) :
    (bs.popOutput len).bufferSize = bs.bufferSize - len := by
  rw [← length_concatenate, popOutput_concatenate, List.length_drop,
    length_concatenate]

/-- Only the writer has acted on the stream. -/
structure WriterOnly (bs bs' : ByteStream) : Prop where
  cap : bs'.cap = bs.cap
  popped : bs'.popped = bs.popped
  error : bs'.error = bs.error

section WriterOnly

variable {bs bs' bs'' : ByteStream}

theorem WriterOnly.refl (bs : ByteStream) : WriterOnly bs bs :=
  ⟨rfl, rfl, rfl⟩

theorem WriterOnly.trans
    (h : WriterOnly bs bs') (h' : WriterOnly bs' bs'') :
    WriterOnly bs bs'' :=
  ⟨h'.cap.trans h.cap, h'.popped.trans h.popped, h'.error.trans h.error⟩

theorem writerOnly_write (bs : ByteStream) (data : Bytes) :
    WriterOnly bs (bs.write data).2 :=
  ⟨write_cap bs data, write_popped bs data, write_error bs data⟩

theorem writerOnly_endInput (bs : ByteStream) : WriterOnly bs bs.endInput :=
  ⟨rfl, rfl, rfl⟩

end WriterOnly

end ByteStream

end Sponge
