import Sponge.ByteStream.Descriptor
import Sponge.Util.EventLoop

/-!
# Copying between the terminal and a socket

`bidirectional_stream_copy` reads from the standard input into one byte stream
and writes that to a socket, and reads from the socket into another byte
stream and writes that to the standard output, by four rules of an event loop.
It returns when the loop ends.  The calls of `set_blocking` at the start, which
may throw before anything was copied, are left out.
-/

namespace Sponge

namespace BidirectionalStreamCopy

open EventLoop

def maxCopyLength : ℕ := 65536

def bufferSize : ℕ := 1048576

/-- The variables that the rules share. -/
structure State where
  input : FileDescriptor
  output : FileDescriptor
  socket : FileDescriptor
  outbound : ByteStream
  inbound : ByteStream
  outboundShutdown : Bool
  inboundShutdown : Bool

/-- The variables before the first event. -/
def State.new (socket : FileDescriptor) : State where
  input := {}
  output := {}
  socket := socket
  outbound := ByteStream.new bufferSize
  inbound := ByteStream.new bufferSize
  outboundShutdown := false
  inboundShutdown := false

/-- What the kernel answers to the system calls of one callback: to `read` or
`writev`, and to `shutdown` or `close`. -/
structure Answers where
  read : Except String Bytes
  write : Except String ℕ
  finish : Except String Unit

/-! ## The rules -/

/-- The rules, in the order in which they are added. -/
inductive Name where
  | readInput
  | writeSocket
  | readSocket
  | writeOutput
deriving DecidableEq

/-- Read from a descriptor into a stream. -/
def fill (fd : FileDescriptor) (stream : ByteStream)
    (answer : Except String Bytes) :
    Except String Unit × FileDescriptor × ByteStream :=
  match fd.read stream.remainingCapacity answer with
  | (.error e, fd) => (.error e, fd, stream)
  | (.ok data, fd) =>
      let stream := (stream.write data).2
      (.ok (), fd, if fd.eof then stream.endInput else stream)

/-- Write from a stream to a descriptor, and once the stream has ended call
`finish`.  Returns the flag that tells whether it has. -/
def drain (finish : FileDescriptor → Except String Unit × FileDescriptor)
    (fd : FileDescriptor) (stream : ByteStream) (shutdown : Bool)
    (answer : Except String ℕ) :
    Except String Unit × FileDescriptor × ByteStream × Bool :=
  let bytesToWrite := min maxCopyLength stream.bufferSize
  let bytes := BufferViewList.ofString (stream.peekOutput bytesToWrite)
  match fd.writeSome bytes answer with
  | (.error e, fd) => (.error e, fd, stream, shutdown)
  | (.ok bytesWritten, fd) =>
      let stream := stream.popOutput bytesWritten
      if stream.eof then
        match finish fd with
        | (.error e, fd) => (.error e, fd, stream, shutdown)
        | (.ok (), fd) => (.ok (), fd, stream, true)
      else (.ok (), fd, stream, shutdown)

/-- The interest of the rules that read. -/
def wantsFill (stream other : ByteStream) : Bool :=
  !stream.error && decide (stream.remainingCapacity > 0) && !other.error

/-- The interest of the rules that write. -/
def wantsDrain (stream : ByteStream) (shutdown : Bool) : Bool :=
  !stream.bufferEmpty || (stream.eof && !shutdown)

/-- The four rules. -/
def rule : Name → Rule State Answers
  | .readInput =>
      { fd := State.input
        direction := .pollIn
        callback := fun answers s =>
          let filled := fill s.input s.outbound answers.read
          (filled.1, { s with input := filled.2.1, outbound := filled.2.2 })
        interest := fun s => wantsFill s.outbound s.inbound
        cancel := fun s => { s with outbound := s.outbound.endInput } }
  | .writeSocket =>
      { fd := State.socket
        direction := .pollOut
        callback := fun answers s =>
          let drained := drain (·.shutdownWrite answers.finish) s.socket
            s.outbound s.outboundShutdown answers.write
          (drained.1,
            { s with
              socket := drained.2.1
              outbound := drained.2.2.1
              outboundShutdown := drained.2.2.2 })
        interest := fun s => wantsDrain s.outbound s.outboundShutdown
        cancel := fun s => { s with outbound := s.outbound.setError } }
  | .readSocket =>
      { fd := State.socket
        direction := .pollIn
        callback := fun answers s =>
          let filled := fill s.socket s.inbound answers.read
          (filled.1, { s with socket := filled.2.1, inbound := filled.2.2 })
        interest := fun s => wantsFill s.inbound s.outbound
        cancel := fun s => { s with inbound := s.inbound.endInput } }
  | .writeOutput =>
      { fd := State.output
        direction := .pollOut
        callback := fun answers s =>
          let drained := drain (·.close answers.finish) s.output
            s.inbound s.inboundShutdown answers.write
          (drained.1,
            { s with
              output := drained.2.1
              inbound := drained.2.2.1
              inboundShutdown := drained.2.2.2 })
        interest := fun s => wantsDrain s.inbound s.inboundShutdown
        cancel := fun s => { s with inbound := s.inbound.setError } }

def rules : List Name := [.readInput, .writeSocket, .readSocket, .writeOutput]

/-- How the copying stands after some calls of `wait_next_event`. -/
inductive Outcome where
  | running
  | returned
  | threw (e : String)
deriving DecidableEq

/-- What the kernel does during one call of `wait_next_event`. -/
structure Wait where
  poll : Poll
  answers : ℕ → Answers

/-- Loop until completion. -/
def loop : List Wait → List Name → State → Outcome × State
  | [], _, s => (.running, s)
  | wait :: waits, rules, s =>
      match waitNextEvent rule rules s wait.poll wait.answers with
      | (.error e, _, s') => (.threw e, s')
      | (.ok .exit, _, s') => (.returned, s')
      | (.ok _, rules', s') => loop waits rules' s'

/-- Copy between the terminal and the socket. -/
def bidirectionalStreamCopy (socket : FileDescriptor) (waits : List Wait) :
    Outcome × State :=
  loop waits rules (State.new socket)

/-! ## Reading into a stream and writing from it -/

open FileDescriptor (Refused)

/-- What a read leaves if it returns: all bytes fit into the stream. -/
structure Filled (fd : FileDescriptor) (stream : ByteStream)
    (fd' : FileDescriptor) (stream' : ByteStream) : Prop where
  input : ∃ bytes, fd'.input = fd.input ++ bytes ∧
    stream'.written = stream.written ++ bytes
  output : fd'.output = fd.output
  closed : fd'.closed = fd.closed
  count : fd'.readCount = fd.readCount + 1
  eof : fd.eof = true → fd'.eof = true
  ended : stream'.inputEnded = (stream.inputEnded || fd'.eof)
  same : stream.WriterOnly stream'

theorem fill_cases
    (fd : FileDescriptor) (stream : ByteStream)
    (answer : Except String Bytes) :
    (∃ e, Refused e ∧ fill fd stream answer = (.error e, fd, stream)) ∨
      ∃ fd' stream', Filled fd stream fd' stream' ∧
        fill fd stream answer = (.ok (), fd', stream') := by
  rw [fill]
  rcases fd.read_cases stream.remainingCapacity answer with
    ⟨e, he, hread⟩ | ⟨bytes, hbytes, hread⟩
  · exact Or.inl ⟨e, he, by rw [hread]⟩
  · refine Or.inr ⟨fd.returned stream.remainingCapacity bytes,
      if (fd.returned stream.remainingCapacity bytes).eof then
        (stream.write bytes).2.endInput
      else (stream.write bytes).2, ?_, by rw [hread]⟩
    have hall : (stream.write bytes).2.written = stream.written ++ bytes := by
      rw [ByteStream.write_written, ByteStream.write_fst,
        Nat.min_eq_left hbytes, List.take_length]
    refine ⟨⟨bytes, rfl, ?_⟩, rfl, rfl, rfl, ?_, ?_, ?_⟩
    · split <;> exact hall
    · exact fun heof => by simp [FileDescriptor.returned, heof]
    · split
      next heof => simp [heof, ByteStream.endInput]
      next heof => simp [Bool.eq_false_of_not_eq_true heof]
    · split
      · exact (stream.writerOnly_write bytes).trans
          (ByteStream.writerOnly_endInput _)
      · exact stream.writerOnly_write bytes

/-- A write returns after some bytes have been written and removed from the
stream, and after the call of `finish` if that was all; or it throws after
some bytes of the stream have been written. -/
theorem drain_cases
    {finish : FileDescriptor → Except String Unit × FileDescriptor}
    {finished : FileDescriptor → FileDescriptor}
    (hfinish : ∀ fd, (∃ e, Refused e ∧ finish fd = (.error e, fd)) ∨
      finish fd = (.ok (), finished fd))
    (fd : FileDescriptor) (stream : ByteStream) (shutdown : Bool)
    (answer : Except String ℕ) :
    (∃ e fd' stream' bytes, Refused e ∧ fd'.input = fd.input ∧
        fd'.output = fd.output ++ bytes ∧ bytes <+: stream.buf.concatenate ∧
        drain finish fd stream shutdown answer =
          (.error e, fd', stream', shutdown)) ∨
      ∃ n, drain finish fd stream shutdown answer =
        (.ok (),
          if (stream.popOutput n).eof then
            finished (fd.accepted (stream.peekOutput n))
          else fd.accepted (stream.peekOutput n),
          stream.popOutput n, shutdown || (stream.popOutput n).eof) := by
  rw [drain]
  dsimp only
  generalize min maxCopyLength stream.bufferSize = len
  rcases fd.writeSome_peekOutput stream len answer with
    ⟨e, bytes, he, hbytes, hwrite⟩ | ⟨n, hwrite⟩
  · refine Or.inl ⟨e, _, stream, bytes, he, ?_, ?_, hbytes, by rw [hwrite]⟩
    · rfl
    · rfl
  · rw [hwrite]
    dsimp only
    by_cases heof : (stream.popOutput n).eof = true
    · rw [if_pos heof]
      rcases hfinish (fd.accepted (stream.peekOutput n)) with
        ⟨e, he, hthrows⟩ | hreturns
      · exact Or.inl ⟨e, fd.accepted (stream.peekOutput n),
          stream.popOutput n, stream.peekOutput n, he, rfl, rfl,
          stream.peekOutput_front n, by rw [hthrows]⟩
      · exact Or.inr ⟨n, by rw [hreturns, if_pos heof, heof, Bool.or_true]⟩
    · refine Or.inr ⟨n, ?_⟩
      rw [if_neg heof, if_neg heof, Bool.eq_false_of_not_eq_true heof,
        Bool.or_false]

/-! ## One direction -/

/-- What has been written to `sink` is a beginning of what has been read from
`source`, apart from what had been read and written before. -/
def Copied (read₀ sent₀ : Bytes) (source sink : FileDescriptor) : Prop :=
  ∃ copied rest, sink.output = sent₀ ++ copied ∧
    source.input = read₀ ++ copied ++ rest

/-- One direction of the copying, from the descriptor `source` to the
descriptor `sink`. -/
structure Half (read₀ sent₀ : Bytes) (source : FileDescriptor)
    (stream : ByteStream) (sink : FileDescriptor) (shutdown : Bool) :
    Prop where
  cap : stream.cap = bufferSize
  read : source.input = read₀ ++ stream.written
  sent : sink.output = sent₀ ++ stream.popped
  ended : source.eof = true → stream.inputEnded = true
  finished : shutdown = true → stream.eof = true

namespace Half

variable {read₀ sent₀ : Bytes} {source sink source' sink' : FileDescriptor}
  {stream stream' : ByteStream} {shutdown : Bool}

theorem congr
    (h : Half read₀ sent₀ source stream sink shutdown)
    (hinput : source'.input = source.input) (heof : source'.eof = source.eof)
    (houtput : sink'.output = sink.output) :
    Half read₀ sent₀ source' stream sink' shutdown :=
  ⟨h.cap, hinput.trans h.read, houtput.trans h.sent,
    fun hend => h.ended (heof.symm.trans hend), h.finished⟩

theorem endInput (h : Half read₀ sent₀ source stream sink shutdown) :
    Half read₀ sent₀ source stream.endInput sink shutdown := by
  refine ⟨h.cap, h.read, h.sent, fun _ => rfl, fun hshutdown => ?_⟩
  have heof := h.finished hshutdown
  rw [ByteStream.eof, Bool.and_eq_true] at heof
  exact heof.2

theorem setError (h : Half read₀ sent₀ source stream sink shutdown) :
    Half read₀ sent₀ source stream.setError sink shutdown :=
  ⟨h.cap, h.read, h.sent, h.ended, h.finished⟩

/-- Reading goes on only as long as the stream has not ended. -/
theorem fill
    (h : Half read₀ sent₀ source stream sink shutdown)
    (hopen : stream.inputEnded = false)
    (hfilled : Filled source stream source' stream') :
    Half read₀ sent₀ source' stream' sink shutdown := by
  obtain ⟨bytes, hinput, hwritten⟩ := hfilled.input
  refine ⟨hfilled.same.cap.trans h.cap, ?_, ?_, ?_, ?_⟩
  · rw [hinput, hwritten, h.read, List.append_assoc]
  · rw [hfilled.same.popped]
    exact h.sent
  · intro heof
    rw [hfilled.ended, heof, Bool.or_true]
  · intro hshutdown
    have heof := h.finished hshutdown
    rw [ByteStream.eof, hopen] at heof
    exact absurd heof (by simp)

theorem eof_popOutput (heof : stream.eof = true) (n : ℕ) :
    (stream.popOutput n).eof = true := by
  rw [ByteStream.eof, Bool.and_eq_true] at heof ⊢
  refine ⟨(stream.popOutput_inputEnded n).trans heof.1, ?_⟩
  rw [ByteStream.bufferEmpty_iff, stream.popOutput_bufferSize,
    stream.bufferEmpty_iff.mp heof.2, Nat.zero_sub]

theorem drain
    (h : Half read₀ sent₀ source stream sink shutdown) (n : ℕ)
    (hsink : sink'.output = sink.output ++ stream.peekOutput n) :
    Half read₀ sent₀ source (stream.popOutput n) sink'
      (shutdown || (stream.popOutput n).eof) := by
  refine ⟨(stream.popOutput_cap n).trans h.cap, ?_, ?_, ?_, ?_⟩
  · rw [stream.popOutput_written]
    exact h.read
  · rw [hsink, h.sent, stream.popOutput_popped, List.append_assoc]
  · intro heof
    rw [stream.popOutput_inputEnded]
    exact h.ended heof
  · intro hshutdown
    rcases Bool.or_eq_true _ _ ▸ hshutdown with hbefore | hnow
    · exact eof_popOutput (h.finished hbefore) n
    · exact hnow

/-- What has been written, with more bytes from the front of the buffer, is a
beginning of what has been read. -/
theorem copied
    (h : Half read₀ sent₀ source stream sink shutdown) {bytes : Bytes}
    (hbytes : bytes <+: stream.buf.concatenate)
    (hsink : sink'.output = sink.output ++ bytes) :
    Copied read₀ sent₀ source sink' := by
  obtain ⟨rest, hrest⟩ := hbytes
  refine ⟨stream.popped ++ bytes, rest, ?_, ?_⟩
  · rw [hsink, h.sent, List.append_assoc]
  · rw [h.read, stream.written_eq, ← hrest]
    simp only [List.append_assoc]

theorem sent_front (h : Half read₀ sent₀ source stream sink shutdown) :
    Copied read₀ sent₀ source sink :=
  h.copied List.nil_prefix (List.append_nil _).symm

/-- Nothing is left in a stream with an empty buffer. -/
theorem sent_all
    (h : Half read₀ sent₀ source stream sink shutdown)
    (hempty : stream.bufferEmpty = true) :
    ∃ copied, sink.output = sent₀ ++ copied ∧
      source.input = read₀ ++ copied := by
  refine ⟨stream.popped, h.sent, ?_⟩
  rw [h.read, ByteStream.written_of_bufferEmpty hempty]

end Half

/-! ## Both directions -/

/-- What a cancelled rule has left. -/
def Gone : Name → State → Prop
  | .readInput, s => s.outbound.inputEnded = true
  | .writeSocket, s => s.outbound.error = true
  | .readSocket, s => s.inbound.inputEnded = true
  | .writeOutput, s => s.inbound.error = true

/-- A rule that reads and has not been cancelled has ended its stream only at
the end of the input. -/
def Reading : Name → State → Prop
  | .readInput, s => s.outbound.inputEnded = true → s.input.eof = true
  | .readSocket, s => s.inbound.inputEnded = true → s.socket.eof = true
  | .writeSocket, _ | .writeOutput, _ => True

/-- What holds as long as no descriptor has been reported as hung up. -/
structure Calm (s : State) : Prop where
  outbound : s.outbound.error = false
  inbound : s.inbound.error = true → s.inboundShutdown = true
  socket : s.inbound.inputEnded = true → s.socket.eof = true

/-- What holds between two events, for the rules `live` that are left. -/
structure Copying (socket : FileDescriptor) (calm : Prop) (live : List Name)
    (s : State) : Prop where
  outward : Half [] socket.output s.input s.outbound s.socket
    s.outboundShutdown
  inward : Half socket.input [] s.socket s.inbound s.output s.inboundShutdown
  inputOpen : s.input.closed = false
  socketOpen : s.socket.closed = false
  outputClosed : s.output.closed = s.inboundShutdown
  gone : ∀ i ∉ live, Gone i s
  reading : ∀ i ∈ live, Reading i s
  quiet : calm → Calm s

/-- The bytes go through in order, in both directions. -/
def InOrder (socket : FileDescriptor) (s : State) : Prop :=
  Copied [] socket.output s.input s.socket ∧
    Copied socket.input [] s.socket s.output

/-- What the copying throws, and in which states. -/
def Thrown (socket : FileDescriptor) (e : String) (s : State) : Prop :=
  (e = "EventLoop: error on polled file descriptor" ∨ Refused e) ∧
    InOrder socket s

/-! ## Cancelled rules -/

theorem gone_cancel_self (i : Name) (s : State) :
    Gone i ((rule i).cancel s) := by
  cases i <;> rfl

theorem gone_cancel {i j : Name} {s : State} (h : Gone j s) :
    Gone j ((rule i).cancel s) := by
  cases i <;> cases j <;> first | exact h | rfl

theorem reading_cancel {i j : Name} {s : State} (hne : j ≠ i)
    (h : Reading j s) : Reading j ((rule i).cancel s) := by
  cases i <;> cases j <;> first | exact h | exact absurd rfl hne

section Copying

variable {socket : FileDescriptor} {calm : Prop} {live : List Name}
  {s : State}

theorem copying_new
    (hopen : socket.closed = false) (heof : socket.eof = false) :
    Copying socket calm rules (State.new socket) where
  outward := ⟨rfl, rfl, (List.append_nil _).symm,
    fun h => absurd h Bool.false_ne_true,
    fun h => absurd h Bool.false_ne_true⟩
  inward := ⟨rfl, (List.append_nil _).symm, rfl,
    fun h => absurd (heof.symm.trans h) Bool.false_ne_true,
    fun h => absurd h Bool.false_ne_true⟩
  inputOpen := rfl
  socketOpen := hopen
  outputClosed := rfl
  gone := fun i hi => absurd (by cases i <;> decide) hi
  reading := fun i _ => by
    cases i <;> first | trivial | exact fun h => absurd h Bool.false_ne_true
  quiet := fun _ => ⟨rfl, fun h => absurd h Bool.false_ne_true,
    fun h => absurd h Bool.false_ne_true⟩

namespace Copying

theorem inOrder (h : Copying socket calm live s) : InOrder socket s :=
  ⟨h.outward.sent_front, h.inward.sent_front⟩

/-- Without a hang-up a rule is cancelled only because its descriptor has come
to its end, and only the standard output is ever closed. -/
theorem calm_cancel
    {i : Name} (h : Copying socket calm live s) (hcalm : Calm s)
    (hover : (rule i).Over s) : Calm ((rule i).cancel s) := by
  cases i with
  | readInput => exact ⟨hcalm.outbound, hcalm.inbound, hcalm.socket⟩
  | writeSocket =>
      rcases hover with hin | hclosed
      · exact absurd hin.1 (by decide)
      · exact absurd (h.socketOpen.symm.trans hclosed) Bool.false_ne_true
  | readSocket =>
      rcases hover with hin | hclosed
      · exact ⟨hcalm.outbound, hcalm.inbound, fun _ => hin.2⟩
      · exact absurd (h.socketOpen.symm.trans hclosed) Bool.false_ne_true
  | writeOutput =>
      rcases hover with hin | hclosed
      · exact absurd hin.1 (by decide)
      · exact ⟨hcalm.outbound,
          fun _ => h.outputClosed.symm.trans hclosed, hcalm.socket⟩

theorem cancel
    {live' : List Name} {i : Name} (herased : Erased i live live')
    (h : Copying socket calm live s) (hcalm : calm → (rule i).Over s) :
    Copying socket calm live' ((rule i).cancel s) := by
  obtain ⟨hi, hother⟩ := herased
  have hgone : ∀ j ∉ live', Gone j ((rule i).cancel s) := by
    intro j hj
    by_cases heq : j = i
    · rw [heq]
      exact gone_cancel_self i s
    · exact gone_cancel (h.gone j fun hmem => hj ((hother j heq).mpr hmem))
  have hreading : ∀ j ∈ live', Reading j ((rule i).cancel s) := by
    intro j hj
    have hne : j ≠ i := fun heq => hi (heq ▸ hj)
    exact reading_cancel hne (h.reading j ((hother j hne).mp hj))
  have hquiet : calm → Calm ((rule i).cancel s) := fun hc =>
    h.calm_cancel (h.quiet hc) (hcalm hc)
  have hopen := h.inputOpen
  have hsocket := h.socketOpen
  have hclosed := h.outputClosed
  cases i with
  | readInput =>
      exact ⟨h.outward.endInput, h.inward, hopen, hsocket, hclosed, hgone,
        hreading, hquiet⟩
  | writeSocket =>
      exact ⟨h.outward.setError, h.inward, hopen, hsocket, hclosed, hgone,
        hreading, hquiet⟩
  | readSocket =>
      exact ⟨h.outward, h.inward.endInput, hopen, hsocket, hclosed, hgone,
        hreading, hquiet⟩
  | writeOutput =>
      exact ⟨h.outward, h.inward.setError, hopen, hsocket, hclosed, hgone,
        hreading, hquiet⟩

/-! ## Callbacks -/

/-- What a callback leaves. -/
def Returns (socket : FileDescriptor) (calm : Prop) (live : List Name)
    (i : Name) (s : State) (outcome : Except String Unit × State) : Prop :=
  Leaves (Thrown socket)
    (fun s' => Copying socket calm live s' ∧ (rule i).Serves s s' ∧
      ∀ j ≠ i, (rule j).Over s' → (rule j).Over s)
    outcome

/-- A rule that reads is called only if its stream has not ended. -/
theorem not_ended
    {fd : FileDescriptor} {stream : ByteStream}
    (hreading : stream.inputEnded = true → fd.eof = true)
    (hover : ¬ fd.eof = true) : stream.inputEnded = false := by
  rw [← Bool.not_eq_true]
  exact fun hend => hover (hreading hend)

theorem readInput_returns
    (h : Copying socket calm live s) (hi : .readInput ∈ live)
    (hover : ¬ (rule .readInput).Over s) (answers : Answers) :
    Returns socket calm live .readInput s
      ((rule .readInput).callback answers s) := by
  have hopen : s.outbound.inputEnded = false :=
    not_ended (h.reading _ hi) fun heof => hover (Or.inl ⟨rfl, heof⟩)
  rcases fill_cases s.input s.outbound answers.read with
    ⟨e, he, hfill⟩ | ⟨fd, stream, hfilled, hfill⟩
  · simp only [Returns, Leaves, rule, hfill]
    exact ⟨Or.inr he, h.inOrder⟩
  · simp only [Returns, Leaves, rule, hfill]
    have hended : stream.inputEnded = fd.eof := by
      rw [hfilled.ended, hopen, Bool.false_or]
    refine ⟨⟨h.outward.fill hopen hfilled, h.inward,
      hfilled.closed.trans h.inputOpen, h.socketOpen, h.outputClosed,
      fun j hj => ?_, fun j hj => ?_, fun hc => ?_⟩, Or.inl ?_,
      fun j hj hover' => ?_⟩
    · cases j with
      | readInput => exact absurd hi hj
      | writeSocket => exact hfilled.same.error.trans (h.gone _ hj)
      | _ => exact h.gone _ hj
    · cases j with
      | readInput => exact fun hend => hended.symm.trans hend
      | _ => exact h.reading _ hj
    · have hcalm := h.quiet hc
      exact ⟨hfilled.same.error.trans hcalm.outbound, hcalm.inbound,
        hcalm.socket⟩
    · change s.input.readCount ≠ fd.readCount
      simp [hfilled.count]
    · cases j with
      | readInput => exact absurd rfl hj
      | _ => exact hover'

theorem readSocket_returns
    (h : Copying socket calm live s) (hi : .readSocket ∈ live)
    (hover : ¬ (rule .readSocket).Over s) (answers : Answers) :
    Returns socket calm live .readSocket s
      ((rule .readSocket).callback answers s) := by
  have hopen : s.inbound.inputEnded = false :=
    not_ended (h.reading _ hi) fun heof => hover (Or.inl ⟨rfl, heof⟩)
  rcases fill_cases s.socket s.inbound answers.read with
    ⟨e, he, hfill⟩ | ⟨fd, stream, hfilled, hfill⟩
  · simp only [Returns, Leaves, rule, hfill]
    exact ⟨Or.inr he, h.inOrder⟩
  · simp only [Returns, Leaves, rule, hfill]
    have hended : stream.inputEnded = fd.eof := by
      rw [hfilled.ended, hopen, Bool.false_or]
    refine ⟨⟨h.outward.congr rfl rfl hfilled.output,
      h.inward.fill hopen hfilled, h.inputOpen,
      hfilled.closed.trans h.socketOpen, h.outputClosed,
      fun j hj => ?_, fun j hj => ?_, fun hc => ?_⟩, Or.inl ?_,
      fun j hj hover' => ?_⟩
    · cases j with
      | readSocket => exact absurd hi hj
      | writeOutput => exact hfilled.same.error.trans (h.gone _ hj)
      | _ => exact h.gone _ hj
    · cases j with
      | readSocket => exact fun hend => hended.symm.trans hend
      | _ => exact h.reading _ hj
    · have hcalm := h.quiet hc
      exact ⟨hcalm.outbound,
        fun herror => hcalm.inbound (hfilled.same.error.symm.trans herror),
        fun hend => hended.symm.trans hend⟩
    · change s.socket.readCount ≠ fd.readCount
      simp [hfilled.count]
    · cases j with
      | writeSocket =>
          rcases hover' with hin | hclosed
          · exact absurd hin.1 (by decide)
          · exact Or.inr (hfilled.closed.symm.trans hclosed)
      | readSocket => exact absurd rfl hj
      | _ => exact hover'

theorem writeSocket_returns
    (h : Copying socket calm live s) (hi : .writeSocket ∈ live)
    (answers : Answers) :
    Returns socket calm live .writeSocket s
      ((rule .writeSocket).callback answers s) := by
  rcases drain_cases (FileDescriptor.shutdownWrite_cases answers.finish)
      s.socket s.outbound s.outboundShutdown answers.write with
    ⟨e, fd, stream, bytes, he, hinput, houtput, hbytes, hdrain⟩ | ⟨n, hdrain⟩
  · simp only [Returns, Leaves, rule, hdrain]
    obtain ⟨copied, rest, hsent, hread⟩ := h.inward.sent_front
    exact ⟨Or.inr he, h.outward.copied hbytes houtput,
      ⟨copied, rest, hsent, hinput.trans hread⟩⟩
  · simp only [Returns, Leaves, rule, hdrain]
    generalize hfd : (if (s.outbound.popOutput n).eof = true then _
      else s.socket.accepted (s.outbound.peekOutput n)) = fd
    have hsame : fd.input = s.socket.input ∧ fd.eof = s.socket.eof ∧
        fd.closed = s.socket.closed ∧
        fd.output = s.socket.output ++ s.outbound.peekOutput n ∧
        s.socket.writeCount ≠ fd.writeCount := by
      rw [← hfd]
      split
      · refine ⟨rfl, rfl, rfl, rfl, ?_⟩
        simp [FileDescriptor.registerWrite, FileDescriptor.accepted,
          UInt32.add_assoc]
      · refine ⟨rfl, rfl, rfl, rfl, ?_⟩
        simp [FileDescriptor.accepted]
    obtain ⟨hinput, heof, hclosed, houtput, hcount⟩ := hsame
    refine ⟨⟨h.outward.drain n houtput, h.inward.congr hinput heof rfl,
      h.inputOpen, hclosed.trans h.socketOpen, h.outputClosed,
      fun j hj => ?_, fun j hj => ?_, fun hc => ?_⟩, Or.inl hcount,
      fun j hj hover' => ?_⟩
    · cases j with
      | readInput =>
          exact (s.outbound.popOutput_inputEnded n).trans (h.gone _ hj)
      | writeSocket => exact absurd hi hj
      | _ => exact h.gone _ hj
    · cases j with
      | readInput =>
          exact fun hend => h.reading _ hj
            ((s.outbound.popOutput_inputEnded n).symm.trans hend)
      | readSocket => exact fun hend => heof.trans (h.reading _ hj hend)
      | _ => trivial
    · have hcalm := h.quiet hc
      exact ⟨(s.outbound.popOutput_error n).trans hcalm.outbound,
        hcalm.inbound, fun hend => heof.trans (hcalm.socket hend)⟩
    · cases j with
      | writeSocket => exact absurd rfl hj
      | readSocket =>
          exact hover'.imp (And.imp_right heof.symm.trans) hclosed.symm.trans
      | _ => exact hover'

theorem writeOutput_returns
    (h : Copying socket calm live s) (hi : .writeOutput ∈ live)
    (answers : Answers) :
    Returns socket calm live .writeOutput s
      ((rule .writeOutput).callback answers s) := by
  rcases drain_cases (FileDescriptor.close_cases answers.finish)
      s.output s.inbound s.inboundShutdown answers.write with
    ⟨e, fd, stream, bytes, he, hinput, houtput, hbytes, hdrain⟩ | ⟨n, hdrain⟩
  · simp only [Returns, Leaves, rule, hdrain]
    exact ⟨Or.inr he, h.outward.sent_front, h.inward.copied hbytes houtput⟩
  · simp only [Returns, Leaves, rule, hdrain]
    generalize hfd : (if (s.inbound.popOutput n).eof = true then _
      else s.output.accepted (s.inbound.peekOutput n)) = fd
    have hsame : fd.closed =
          (s.inboundShutdown || (s.inbound.popOutput n).eof) ∧
        fd.output = s.output.output ++ s.inbound.peekOutput n ∧
        s.output.writeCount ≠ fd.writeCount := by
      rw [← hfd, ← h.outputClosed]
      split
      next heof => simp [heof, FileDescriptor.accepted]
      next heof => simp [heof, FileDescriptor.accepted]
    obtain ⟨hclosed, houtput, hcount⟩ := hsame
    refine ⟨⟨h.outward, h.inward.drain n houtput, h.inputOpen, h.socketOpen,
      hclosed, fun j hj => ?_, fun j hj => ?_, fun hc => ?_⟩, Or.inl hcount,
      fun j hj hover' => ?_⟩
    · cases j with
      | readSocket =>
          exact (s.inbound.popOutput_inputEnded n).trans (h.gone _ hj)
      | writeOutput => exact absurd hi hj
      | _ => exact h.gone _ hj
    · cases j with
      | readSocket =>
          exact fun hend => h.reading _ hj
            ((s.inbound.popOutput_inputEnded n).symm.trans hend)
      | readInput => exact h.reading _ hj
      | _ => trivial
    · have hcalm := h.quiet hc
      refine ⟨hcalm.outbound, fun herror => ?_, fun hend => ?_⟩
      · rw [Bool.or_eq_true]
        exact Or.inl (hcalm.inbound
          ((s.inbound.popOutput_error n).symm.trans herror))
      · exact hcalm.socket
          ((s.inbound.popOutput_inputEnded n).symm.trans hend)
    · cases j with
      | writeOutput => exact absurd rfl hj
      | _ => exact hover'

theorem callback_returns
    {i : Name} (h : Copying socket calm live s) (hi : i ∈ live)
    (hover : ¬ (rule i).Over s) (answers : Answers) :
    Returns socket calm live i s ((rule i).callback answers s) := by
  cases i with
  | readInput => exact h.readInput_returns hi hover answers
  | writeSocket => exact h.writeSocket_returns hi answers
  | readSocket => exact h.readSocket_returns hi hover answers
  | writeOutput => exact h.writeOutput_returns hi answers

end Copying

theorem keeps
    (socket : FileDescriptor) {calm hup : Prop} (hcalm : calm → ¬ hup) :
    Keeps rule hup (fun _ => True) (Thrown socket) (Copying socket calm) where
  cancel := by
    intro live live' i s herased h hwhy
    refine h.cancel herased fun hc => ?_
    rcases hwhy with hover | hhup
    · exact hover
    · exact absurd hhup (hcalm hc)
  apart := by
    intro i j s _ hover
    cases i <;> cases j <;> exact hover
  callback := fun _ hi h hover => h.callback_returns hi hover _
  polled := fun h => ⟨Or.inl rfl, h.inOrder⟩

/-! ## The end of the copying -/

/-- Cancelling a rule never makes one before it want to be served. -/
theorem rules_quiet :
    rules.Pairwise fun i j =>
      ∀ s, Idle rule i s → Idle rule i ((rule j).cancel s) := by
  refine .cons (fun j _ s h => ?_) (.cons (fun j hj s h => ?_)
    (.cons (fun j _ s h => ?_) (.cons (fun j hj => ?_) .nil)))
  · cases j <;>
      first | exact h | exact ⟨h.1, by simp [rule, wantsFill, ByteStream.setError]⟩
  · cases j with
    | readInput => exact absurd hj (by decide)
    | _ => exact h
  · cases j <;>
      first | exact h | exact ⟨h.1, by simp [rule, wantsFill, ByteStream.setError]⟩
  · exact absurd hj List.not_mem_nil

theorem empty_of_not_wantsDrain
    {stream : ByteStream} {shutdown : Bool}
    (h : wantsDrain stream shutdown = false) :
    stream.bufferEmpty = true ∧ (stream.eof = true → shutdown = true) := by
  rw [wantsDrain, Bool.or_eq_false_iff, Bool.not_eq_false'] at h
  refine ⟨h.1, fun heof => ?_⟩
  simpa [heof] using h.2

/-- If nothing has been reported as hung up and no rule wants to be served,
everything has been copied. -/
theorem Copying.complete
    (h : Copying socket calm live s) (hc : calm)
    (hidle : ∀ i ∈ live, Idle rule i s) :
    s.inboundShutdown = true ∧ s.outbound.bufferEmpty = true ∧
      (s.outbound.eof = true → s.outboundShutdown = true) := by
  have hcalm := h.quiet hc
  have hwrites : .writeSocket ∈ live := by
    by_contra hgone
    exact Bool.false_ne_true (hcalm.outbound.symm.trans (h.gone _ hgone))
  refine ⟨?_, empty_of_not_wantsDrain (hidle _ hwrites).2⟩
  by_contra hshutdown
  have herror : s.inbound.error = false := by
    rw [← Bool.not_eq_true]
    exact fun herror => hshutdown (hcalm.inbound herror)
  have hprints : .writeOutput ∈ live := by
    by_contra hgone
    exact Bool.false_ne_true (herror.symm.trans (h.gone _ hgone))
  obtain ⟨hempty, heof⟩ := empty_of_not_wantsDrain (hidle _ hprints).2
  -- the inbound stream is empty and has not ended, so that there is more to read
  have hopen : ¬ s.inbound.inputEnded = true := by
    intro hend
    apply hshutdown
    apply heof
    rw [ByteStream.eof, hend, hempty]
    rfl
  have hreads : .readSocket ∈ live := by
    by_contra hgone
    exact hopen (h.gone _ hgone)
  have hroom : s.inbound.remainingCapacity > 0 := by
    rw [s.inbound.remainingCapacity_eq, h.inward.cap,
      s.inbound.bufferEmpty_iff.mp hempty]
    decide
  have hinterest : wantsFill s.inbound s.outbound = true := by
    rw [wantsFill, herror, hcalm.outbound, decide_eq_true hroom]
    rfl
  exact Bool.false_ne_true ((hidle _ hreads).2.symm.trans hinterest)

theorem loop_spec
    {waits : List Wait} (hsublist : live.Sublist rules)
    (h : Copying socket calm live s)
    (hcalm : ∀ wait ∈ waits, calm → ¬ wait.poll.HangsUp) :
    InOrder socket (loop waits live s).2 ∧
      (∀ e, (loop waits live s).1 = .threw e →
        e = "EventLoop: error on polled file descriptor" ∨ Refused e) ∧
      ((loop waits live s).1 = .returned →
        (∃ wait ∈ waits, wait.poll = .interrupted) ∨
          ∃ live', Copying socket calm live' (loop waits live s).2 ∧
            ∀ i ∈ live', Idle rule i (loop waits live s).2) := by
  induction waits generalizing live s with
  | nil =>
      exact ⟨h.inOrder, fun e he => absurd he (by simp [loop]),
        fun he => absurd he (by simp [loop])⟩
  | cons wait waits ih =>
      have hnodup : live.Nodup := hsublist.nodup (by decide)
      obtain ⟨hshorter, hleaves⟩ := waitNextEvent_invariant
        (keeps socket (hcalm wait List.mem_cons_self)) wait.answers
        (fun _ => trivial) hnodup h
      have hquiet := rules_quiet.sublist hsublist
      have hexit := @waitNextEvent_exit _ _ _ rule live
      rw [loop]
      generalize hwaited : waitNextEvent rule live s wait.poll wait.answers =
        waited at hshorter hleaves
      rcases waited with ⟨e | result, live', s'⟩
      · exact ⟨hleaves.2, fun e' he => Outcome.threw.inj he ▸ hleaves.1,
          fun he => absurd he (by simp)⟩
      · cases result with
        | exit =>
            refine ⟨hleaves.inOrder, fun e he => absurd he (by simp),
              fun _ => ?_⟩
            rcases hexit hquiet hwaited with hinterrupted | hidle
            · exact Or.inl ⟨wait, List.mem_cons_self, hinterrupted⟩
            · exact Or.inr ⟨live', hleaves, hidle⟩
        | _ =>
            obtain ⟨hinOrder, hthrows, hreturns⟩ :=
              ih (hshorter.trans hsublist) hleaves
                fun wait' hwait' => hcalm wait' (List.mem_cons_of_mem wait hwait')
            refine ⟨hinOrder, hthrows, fun he => ?_⟩
            exact (hreturns he).imp_left fun ⟨wait', hwait', hpoll⟩ =>
              ⟨wait', List.mem_cons_of_mem wait hwait', hpoll⟩

end Copying

/-- Whatever the kernel does, and whenever the copying is stopped, what has
been written to the socket is a beginning of what has been read from the
terminal, and what has been written to the terminal is a beginning of what has
been read from the socket.  An exception comes from a system call; in
particular no callback is ever taken for a busy wait. -/
theorem copies_in_order
    (socket : FileDescriptor) (hopen : socket.closed = false)
    (heof : socket.eof = false) (waits : List Wait) :
    InOrder socket (bidirectionalStreamCopy socket waits).2 ∧
      ∀ e, (bidirectionalStreamCopy socket waits).1 = .threw e →
        e = "EventLoop: error on polled file descriptor" ∨ Refused e := by
  have hstart : Copying socket False rules (State.new socket) :=
    copying_new hopen heof
  obtain ⟨hinOrder, hthrows, -⟩ := @loop_spec _ _ _ _ waits
    (List.Sublist.refl rules) hstart fun _ _ hc => hc.elim
  exact ⟨hinOrder, hthrows⟩

/-- A session in which the kernel reports all descriptors as ready and
answers as told, one list for each call of `wait_next_event`. -/
def session (answers : List (List (Bytes × ℕ))) : List Wait :=
  answers.map fun called =>
    { poll := .ready fun _ => { pollIn := true, pollOut := true }
      answers := fun idx =>
        let answer := called.getD idx ([], 0)
        ⟨.ok answer.1, .ok answer.2, .ok ()⟩ }

/-- Two bytes from the terminal and four from the peer, each in two pieces. -/
def greeting : List Wait :=
  session [[([1, 2], 0), ([], 0), ([7, 8, 9], 0)],
    [([], 0), ([], 1), ([10], 0), ([], 3)], [([], 1), ([], 0), ([], 1)], []]

theorem copies_in_order_greeting :
    InOrder {} (bidirectionalStreamCopy {} (greeting.take 2)).2 ∧
      (bidirectionalStreamCopy {} (greeting.take 2)).2.output.output =
        [7, 8, 9] :=
  ⟨(copies_in_order {} rfl rfl (greeting.take 2)).1, by decide⟩

/-- Unless it is interrupted or a descriptor hangs up, the copying returns only
when the peer has ended its stream and all of it is on the terminal, which has
been closed, and when all that was read from the terminal is in the socket; if
the terminal has ended, the peer has been told. -/
theorem returns_when_complete
    (socket : FileDescriptor) (hopen : socket.closed = false)
    (heof : socket.eof = false) (waits : List Wait)
    (hcalm : ∀ wait ∈ waits, wait.poll ≠ .interrupted ∧ ¬ wait.poll.HangsUp)
    (hreturned : (bidirectionalStreamCopy socket waits).1 = .returned) :
    let s := (bidirectionalStreamCopy socket waits).2
    (s.socket.eof = true ∧ s.output.closed = true ∧
        s.socket.input = socket.input ++ s.output.output) ∧
      s.socket.output = socket.output ++ s.input.input ∧
        (s.input.eof = true → s.outboundShutdown = true) := by
  have hstart : Copying socket True rules (State.new socket) :=
    copying_new hopen heof
  obtain ⟨-, -, hends⟩ := loop_spec (List.Sublist.refl rules) hstart
    fun wait hwait _ => (hcalm wait hwait).2
  rcases hends hreturned with ⟨wait, hwait, hpoll⟩ | ⟨live, h, hidle⟩
  · exact absurd hpoll (hcalm wait hwait).1
  · obtain ⟨hshutdown, hempty, hended⟩ := h.complete trivial hidle
    have hinbound := h.inward.finished hshutdown
    rw [ByteStream.eof, Bool.and_eq_true] at hinbound
    obtain ⟨copied, hsent, hread⟩ := h.inward.sent_all hinbound.2
    obtain ⟨copied', hsent', hread'⟩ := h.outward.sent_all hempty
    refine ⟨⟨(h.quiet trivial).socket hinbound.1,
      h.outputClosed.trans hshutdown, ?_⟩, ?_, fun heof => hended ?_⟩
    · exact hread.trans (congrArg (socket.input ++ ·) hsent.symm)
    · exact hsent'.trans (congrArg (socket.output ++ ·) hread'.symm)
    · rw [ByteStream.eof, h.outward.ended heof, hempty]
      rfl

theorem returns_when_complete_greeting :
    (bidirectionalStreamCopy {} greeting).1 = .returned ∧
      (bidirectionalStreamCopy {} greeting).2.socket.output =
        (bidirectionalStreamCopy {} greeting).2.input.input := by
  have hreturned : (bidirectionalStreamCopy {} greeting).1 = .returned := by
    decide
  have hcalm : ∀ wait ∈ greeting,
      wait.poll ≠ .interrupted ∧ ¬ wait.poll.HangsUp := by
    intro wait hwait
    obtain ⟨called, -, rfl⟩ := List.mem_map.mp hwait
    exact ⟨by simp, by simp [Poll.HangsUp, Poll.revents]⟩
  exact ⟨hreturned,
    (returns_when_complete {} rfl rfl greeting hcalm hreturned).2.1⟩

end BidirectionalStreamCopy

end Sponge
