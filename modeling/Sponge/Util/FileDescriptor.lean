import Mathlib.Algebra.Order.Group.Nat
import Sponge.Util.Buffer

/-!
# File descriptors

A file descriptor is shared by all handles that were duplicated from it, and
so are the flags and the two counters that the event loop looks at.  What the
kernel answers to a system call is an argument here: a value, or the text of
an error.  In the source a count goes through an `int`.  It is assumed that
counts are below `2 ^ 31`, as those of Linux are.

The fields `input` and `output` are not in the source and no operation reads
them.  They are the bytes that `read` has returned and those that the kernel
has accepted from `write`.
-/

namespace Sponge

/-- A system call throws if the kernel reports an error. -/
def systemCall {α : Type*} (attempt : String) (answer : Except String α) :
    Except String α :=
  match answer with
  | .ok value => .ok value
  | .error e => .error (attempt ++ ": " ++ e)

/-! ## Lists of views -/

/-- A string that is stored in several places. -/
structure BufferViewList where
  views : List Bytes
deriving DecidableEq

namespace BufferViewList

/-- Construction from one string. -/
def ofString (s : Bytes) : BufferViewList := ⟨[s]⟩

/-- Construction from a list of buffers. -/
def ofBufferList (buffers : BufferList) : BufferViewList :=
  ⟨buffers.buffers.map Buffer.str⟩

def size (l : BufferViewList) : ℕ := (l.views.map List.length).sum

/-- The bytes that the vectors of `as_iovecs` point to. -/
def asIovecs (l : BufferViewList) : Bytes := l.views.flatten

/-- The loop of `remove_prefix`. -/
def removePrefixLoop : List Bytes → ℕ → Option (List Bytes)
  | views, 0 => some views
  | [], _ + 1 => none
  | view :: views, n + 1 =>
      if n + 1 < view.length then some (view.drop (n + 1) :: views)
      else removePrefixLoop views (n + 1 - view.length)

/-- Discard the first `n` bytes; throws when there are fewer. -/
def removePrefix (l : BufferViewList) (n : ℕ) : Option BufferViewList :=
  (removePrefixLoop l.views n).map BufferViewList.mk

theorem length_asIovecs (l : BufferViewList) :
    l.asIovecs.length = l.size := by
  rw [asIovecs, size, List.length_flatten]

@[simp] theorem asIovecs_ofString (s : Bytes) : (ofString s).asIovecs = s := by
  simp [ofString, asIovecs]

theorem asIovecs_ofBufferList (buffers : BufferList) :
    (ofBufferList buffers).asIovecs = buffers.concatenate := by
  rw [ofBufferList, asIovecs, BufferList.concatenate, List.flatMap_def]

theorem removePrefixLoop_eq
    {views : List Bytes} {n : ℕ} (hn : n ≤ views.flatten.length) :
    ∃ rest, removePrefixLoop views n = some rest ∧
      rest.flatten = views.flatten.drop n := by
  induction views generalizing n with
  | nil =>
      obtain rfl : n = 0 := by simpa using hn
      exact ⟨[], rfl, rfl⟩
  | cons view views ih =>
      cases n with
      | zero => exact ⟨view :: views, rfl, rfl⟩
      | succ n =>
          rw [List.flatten_cons, List.length_append] at hn
          by_cases hview : n + 1 < view.length
          · refine ⟨view.drop (n + 1) :: views, ?_, ?_⟩
            · rw [removePrefixLoop, if_pos hview]
            · rw [List.flatten_cons, List.flatten_cons,
                List.drop_append_of_le_length hview.le]
          · obtain ⟨rest, hrest, hflatten⟩ :=
              @ih (n + 1 - view.length) (by omega)
            refine ⟨rest, ?_, ?_⟩
            · rw [removePrefixLoop, if_neg hview]
              exact hrest
            · have hnone : view.drop (n + 1) = [] :=
                List.drop_eq_nil_of_le (by omega)
              rw [List.flatten_cons, List.drop_append, hnone, hflatten]
              rfl

/-- At most the whole string can be discarded, whatever the way in which it is
stored. -/
theorem removePrefix_eq
    {l : BufferViewList} {n : ℕ} (hn : n ≤ l.size) :
    ∃ rest, l.removePrefix n = some rest ∧
      rest.asIovecs = l.asIovecs.drop n := by
  rw [← length_asIovecs] at hn
  obtain ⟨views, hviews, hflatten⟩ := removePrefixLoop_eq hn
  exact ⟨⟨views⟩, by rw [removePrefix, hviews]; rfl, hflatten⟩

end BufferViewList

/-! ## The descriptor -/

/-- What all handles of a descriptor share. -/
structure FileDescriptor where
  eof : Bool := false
  closed : Bool := false
  readCount : UInt32 := 0
  writeCount : UInt32 := 0
  input : Bytes := []
  output : Bytes := []
deriving DecidableEq

namespace FileDescriptor

def registerRead (fd : FileDescriptor) : FileDescriptor :=
  { fd with readCount := fd.readCount + 1 }

def registerWrite (fd : FileDescriptor) : FileDescriptor :=
  { fd with writeCount := fd.writeCount + 1 }

/-- The largest number of bytes that one call reads. -/
def bufferSize : ℕ := 1024 * 1024

/-- Read at most `limit` bytes. -/
def read (fd : FileDescriptor) (limit : ℕ) (answer : Except String Bytes) :
    Except String Bytes × FileDescriptor :=
  let sizeToRead := min bufferSize limit
  match systemCall "read" answer with
  | .error e => (.error e, fd)
  | .ok str =>
      let fd :=
        if limit > 0 ∧ str.length = 0 then { fd with eof := true } else fd
      if str.length > sizeToRead then
        (.error "read() read more than requested", fd)
      else (.ok str, { fd.registerRead with input := fd.input ++ str })

/-- The loop of `write`, on the answers that the kernel gives.  There is no
result as long as the kernel has not answered. -/
def writeLoop (writeAll : Bool) :
    List (Except String ℕ) → BufferViewList → ℕ → FileDescriptor →
      Option (Except String ℕ × FileDescriptor)
  | [], _, _, _ => none
  | answer :: answers, buffer, totalBytesWritten, fd =>
      match systemCall "writev" answer with
      | .error e => some (.error e, fd)
      | .ok bytesWritten =>
          let fd :=
            { fd with
              output := fd.output ++ buffer.asIovecs.take bytesWritten }
          if bytesWritten = 0 ∧ buffer.size ≠ 0 then
            some (.error "write returned 0 given non-empty input buffer", fd)
          else if bytesWritten > buffer.size then
            some (.error "write wrote more than length of input buffer", fd)
          else
            let fd := fd.registerWrite
            match buffer.removePrefix bytesWritten with
            | none => some (.error "BufferListView::remove_prefix", fd)
            | some buffer =>
                if writeAll ∧ buffer.size ≠ 0 then
                  writeLoop writeAll answers buffer
                    (totalBytesWritten + bytesWritten) fd
                else some (.ok (totalBytesWritten + bytesWritten), fd)

/-- Write a string, all of it or as much as one system call takes. -/
def write (fd : FileDescriptor) (buffer : BufferViewList) (writeAll : Bool)
    (answers : List (Except String ℕ)) :
    Option (Except String ℕ × FileDescriptor) :=
  writeLoop writeAll answers buffer 0 fd

/-- Close the descriptor. -/
def close (fd : FileDescriptor) (answer : Except String Unit) :
    Except String Unit × FileDescriptor :=
  match systemCall "close" answer with
  | .error e => (.error e, fd)
  | .ok () => (.ok (), { fd with eof := true, closed := true })

/-- `Socket::shutdown` with the argument `SHUT_WR`. -/
def shutdownWrite (fd : FileDescriptor) (answer : Except String Unit) :
    Except String Unit × FileDescriptor :=
  match systemCall "shutdown" answer with
  | .error e => (.error e, fd)
  | .ok () => (.ok (), fd.registerWrite)

/-- What the kernel can make an operation on a descriptor throw. -/
inductive Refused : String → Prop
  | call {attempt : String}
      (h : attempt ∈ ["read", "writev", "close", "shutdown"]) (e : String) :
      Refused (attempt ++ ": " ++ e)
  | readMore : Refused "read() read more than requested"
  | writeNone : Refused "write returned 0 given non-empty input buffer"
  | writeMore : Refused "write wrote more than length of input buffer"

/-- The descriptor after `read` has returned some bytes. -/
def returned (fd : FileDescriptor) (limit : ℕ) (bytes : Bytes) :
    FileDescriptor :=
  { fd with
    eof := fd.eof || (decide (0 < limit) && bytes.isEmpty)
    readCount := fd.readCount + 1
    input := fd.input ++ bytes }

theorem read_cases
    (fd : FileDescriptor) (limit : ℕ) (answer : Except String Bytes) :
    (∃ e, Refused e ∧ fd.read limit answer = (.error e, fd)) ∨
      ∃ bytes, bytes.length ≤ limit ∧
        fd.read limit answer = (.ok bytes, fd.returned limit bytes) := by
  cases answer with
  | error e =>
      exact Or.inl ⟨"read" ++ ": " ++ e, .call (by decide) e, rfl⟩
  | ok bytes =>
      by_cases hmore : bytes.length > min bufferSize limit
      · refine Or.inl ⟨"read() read more than requested", .readMore, ?_⟩
        have hbytes : ¬ (limit > 0 ∧ bytes.length = 0) := by omega
        simp only [read, systemCall, if_neg hbytes, if_pos hmore]
      · refine Or.inr ⟨bytes, by omega, ?_⟩
        simp only [read, systemCall, if_neg hmore, registerRead, returned]
        by_cases hend : limit > 0 ∧ bytes.length = 0
        · have hnil := List.length_eq_zero_iff.mp hend.2
          simp [hend.1, hnil]
        · have hflag : (decide (0 < limit) && bytes.isEmpty) = false := by
            rw [Bool.and_eq_false_iff, decide_eq_false_iff_not,
              List.isEmpty_eq_false_iff, ← List.length_pos_iff]
            omega
          rw [if_neg hend, hflag, Bool.or_false]

theorem shutdownWrite_cases
    (answer : Except String Unit) (fd : FileDescriptor) :
    (∃ e, Refused e ∧ fd.shutdownWrite answer = (.error e, fd)) ∨
      fd.shutdownWrite answer = (.ok (), fd.registerWrite) := by
  cases answer with
  | error e =>
      exact Or.inl ⟨"shutdown" ++ ": " ++ e, .call (by decide) e, rfl⟩
  | ok _ => exact Or.inr rfl

theorem close_cases (answer : Except String Unit) (fd : FileDescriptor) :
    (∃ e, Refused e ∧ fd.close answer = (.error e, fd)) ∨
      fd.close answer = (.ok (), { fd with eof := true, closed := true }) := by
  cases answer with
  | error e => exact Or.inl ⟨"close" ++ ": " ++ e, .call (by decide) e, rfl⟩
  | ok _ => exact Or.inr rfl

/-! ## Writing everything -/

section WriteAll

variable {fd : FileDescriptor} {buffer : BufferViewList}

/-- The descriptor after the kernel has accepted some bytes. -/
def accepted (fd : FileDescriptor) (bytes : Bytes) : FileDescriptor :=
  { fd with
    output := fd.output ++ bytes
    writeCount := fd.writeCount + 1 }

/-- One round of the loop whose system call succeeds. -/
theorem writeLoop_of_le
    (writeAll : Bool) {n : ℕ} (answers : List (Except String ℕ))
    (total : ℕ) (hpos : ¬ (n = 0 ∧ buffer.size ≠ 0))
    (hle : n ≤ buffer.size) :
    ∃ rest : BufferViewList, rest.asIovecs = buffer.asIovecs.drop n ∧
      rest.size = buffer.size - n ∧
      writeLoop writeAll (.ok n :: answers) buffer total fd =
        if writeAll ∧ rest.size ≠ 0 then
          writeLoop writeAll answers rest (total + n)
            (fd.accepted (buffer.asIovecs.take n))
        else some (.ok (total + n),
          fd.accepted (buffer.asIovecs.take n)) := by
  obtain ⟨rest, hrest, hdrop⟩ := BufferViewList.removePrefix_eq hle
  have hsize : rest.size = buffer.size - n := by
    rw [← rest.length_asIovecs, hdrop, List.length_drop,
      buffer.length_asIovecs]
  refine ⟨rest, hdrop, hsize, ?_⟩
  rw [writeLoop]
  simp only [systemCall, if_neg hpos, if_neg (not_lt.mpr hle), hrest]
  rfl

/-- However the kernel cuts the bytes, all of them are written, in order. -/
theorem writeLoop_all
    {ns : List ℕ} (hpos : ∀ n ∈ ns, 0 < n) (hne : ns ≠ [])
    (hsum : ns.sum = buffer.size) (more : List (Except String ℕ))
    (total : ℕ) (fd : FileDescriptor) :
    writeLoop true (ns.map .ok ++ more) buffer total fd =
      some (.ok (total + buffer.size),
        { fd with
          output := fd.output ++ buffer.asIovecs
          writeCount := fd.writeCount + UInt32.ofNat ns.length }) := by
  induction ns generalizing buffer total fd with
  | nil => exact absurd rfl hne
  | cons n ns ih =>
      have hn : 0 < n := hpos n List.mem_cons_self
      have htail : ∀ m ∈ ns, 0 < m := fun m hm =>
        hpos m (List.mem_cons_of_mem n hm)
      rw [List.sum_cons] at hsum
      obtain ⟨rest, hdrop, hsize, hround⟩ :=
        @writeLoop_of_le fd buffer true n (ns.map .ok ++ more) total
          (by omega) (by omega)
      have htotal : total + n + rest.size = total + buffer.size := by omega
      have hbytes : fd.output ++ buffer.asIovecs.take n ++ rest.asIovecs =
          fd.output ++ buffer.asIovecs := by
        rw [hdrop, List.append_assoc, List.take_append_drop]
      have hcount : fd.writeCount + UInt32.ofNat (n :: ns).length =
          fd.writeCount + 1 + UInt32.ofNat ns.length := by
        rw [List.length_cons, Nat.add_comm, UInt32.ofNat_add,
          UInt32.add_assoc]
        rfl
      rw [List.map_cons, List.cons_append, hround, hcount, ← hbytes,
        ← htotal]
      by_cases hlast : ns = []
      · -- the last answer takes what is left
        subst hlast
        have hnone : rest.size = 0 := by
          rw [List.sum_nil] at hsum
          omega
        have hempty : rest.asIovecs = [] := by
          rw [← List.length_eq_zero_iff, rest.length_asIovecs, hnone]
        rw [if_neg fun hmore => hmore.2 hnone, hempty, List.append_nil, hnone,
          Nat.add_zero]
        simp [accepted]
      · have hmore : rest.size ≠ 0 := by
          obtain ⟨m, ms, rfl⟩ := List.exists_cons_of_ne_nil hlast
          have hm := htail m List.mem_cons_self
          rw [List.sum_cons] at hsum
          omega
        rw [if_pos ⟨rfl, hmore⟩, ih htail hlast (by omega)]
        rfl

/-- One round throws after the kernel has accepted at most the whole string,
or its system call has succeeded. -/
theorem writeLoop_cases
    (writeAll : Bool) (answer : Except String ℕ)
    (answers : List (Except String ℕ)) (buffer : BufferViewList) (total : ℕ)
    (fd : FileDescriptor) :
    (∃ e, Refused e ∧ ∃ k ≤ buffer.size,
        writeLoop writeAll (answer :: answers) buffer total fd =
          some (.error e,
            { fd with output := fd.output ++ buffer.asIovecs.take k })) ∨
      ∃ n ≤ buffer.size, answer = .ok n ∧ ¬ (n = 0 ∧ buffer.size ≠ 0) := by
  cases answer with
  | error e =>
      refine Or.inl ⟨"writev" ++ ": " ++ e, .call (by decide) e, 0,
        Nat.zero_le _, ?_⟩
      rw [writeLoop, List.take_zero, List.append_nil]
      rfl
  | ok n =>
      by_cases hzero : n = 0 ∧ buffer.size ≠ 0
      · refine Or.inl ⟨"write returned 0 given non-empty input buffer",
          .writeNone, 0, Nat.zero_le _, ?_⟩
        obtain ⟨rfl, hsize⟩ := hzero
        rw [writeLoop]
        exact if_pos ⟨rfl, hsize⟩
      · by_cases hle : n ≤ buffer.size
        · exact Or.inr ⟨n, hle, rfl, hzero⟩
        · have hall : buffer.asIovecs.take n =
              buffer.asIovecs.take buffer.size := by
            rw [← buffer.length_asIovecs, List.take_length,
              List.take_of_length_le]
            rw [buffer.length_asIovecs]
            exact (not_le.mp hle).le
          refine Or.inl ⟨"write wrote more than length of input buffer",
            .writeMore, buffer.size, le_rfl, ?_⟩
          rw [writeLoop]
          simp only [systemCall, if_neg hzero, if_pos (not_le.mp hle), hall]

/-- Whatever the kernel answers, it has accepted the beginning of the string,
and a call that returns tells how much. -/
theorem writeLoop_accepted
    {writeAll : Bool} {answers : List (Except String ℕ)} {total : ℕ}
    {result : Except String ℕ} {fd' : FileDescriptor}
    (h : writeLoop writeAll answers buffer total fd = some (result, fd')) :
    ∃ k ≤ buffer.size,
      fd'.output = fd.output ++ buffer.asIovecs.take k ∧
        ∀ m, result = .ok m →
          m = total + k ∧ (writeAll = true → k = buffer.size) := by
  induction answers generalizing buffer total fd with
  | nil => exact absurd h (by simp [writeLoop])
  | cons answer answers ih =>
      rcases writeLoop_cases writeAll answer answers buffer total fd with
        ⟨e, -, k, hk, hthrows⟩ | ⟨n, hle, rfl, hpos⟩
      · rw [hthrows] at h
        obtain ⟨rfl, rfl⟩ := Prod.mk.inj (Option.some.inj h)
        exact ⟨k, hk, rfl, fun m hm => absurd hm (by simp)⟩
      · obtain ⟨rest, hdrop, hsize, hround⟩ :=
          @writeLoop_of_le fd buffer writeAll n answers total hpos hle
        rw [hround] at h
        split at h
        next hmore =>
          obtain ⟨k, hk, houtput, hresult⟩ := ih h
          refine ⟨n + k, by omega, ?_, fun m hm => ?_⟩
          · rw [houtput, accepted, hdrop, List.append_assoc,
              ← List.take_add]
          · obtain ⟨hm, hall⟩ := hresult m hm
            exact ⟨by omega, fun hwriteAll => by have := hall hwriteAll; omega⟩
        next hdone =>
          obtain ⟨rfl, rfl⟩ := Prod.mk.inj (Option.some.inj h)
          refine ⟨n, hle, rfl, fun m hm => ?_⟩
          obtain rfl := Except.ok.inj hm
          refine ⟨rfl, fun hwriteAll => ?_⟩
          have hnone : ¬ rest.size ≠ 0 := fun hne => hdone ⟨hwriteAll, hne⟩
          omega

end WriteAll

/-! ## One system call -/

theorem write_cases
    (fd : FileDescriptor) (buffer : BufferViewList)
    (answer : Except String ℕ) :
    (∃ e, Refused e ∧ ∃ k,
        fd.write buffer false [answer] =
          some (.error e,
            { fd with output := fd.output ++ buffer.asIovecs.take k })) ∨
      ∃ n ≤ buffer.size,
        fd.write buffer false [answer] =
          some (.ok n, fd.accepted (buffer.asIovecs.take n)) := by
  rcases writeLoop_cases false answer [] buffer 0 fd with
    ⟨e, he, k, -, hthrows⟩ | ⟨n, hle, rfl, hpos⟩
  · exact Or.inl ⟨e, he, k, hthrows⟩
  · obtain ⟨rest, -, -, hround⟩ :=
      @writeLoop_of_le fd buffer false n [] 0 hpos hle
    refine Or.inr ⟨n, hle, ?_⟩
    rw [write, hround, if_neg fun hmore => absurd hmore.1 (by decide),
      Nat.zero_add]

theorem isSome_write
    (fd : FileDescriptor) (buffer : BufferViewList)
    (answer : Except String ℕ) :
    (fd.write buffer false [answer]).isSome = true := by
  rcases write_cases fd buffer answer with ⟨e, -, k, h⟩ | ⟨n, -, h⟩
  · rw [h]
    rfl
  · rw [h]
    rfl

/-- Write what one system call takes. -/
def writeSome (fd : FileDescriptor) (buffer : BufferViewList)
    (answer : Except String ℕ) : Except String ℕ × FileDescriptor :=
  (fd.write buffer false [answer]).get (isSome_write fd buffer answer)

theorem writeSome_cases
    (fd : FileDescriptor) (buffer : BufferViewList)
    (answer : Except String ℕ) :
    (∃ e, Refused e ∧ ∃ k,
        fd.writeSome buffer answer =
          (.error e,
            { fd with output := fd.output ++ buffer.asIovecs.take k })) ∨
      ∃ n ≤ buffer.size,
        fd.writeSome buffer answer =
          (.ok n, fd.accepted (buffer.asIovecs.take n)) := by
  rcases write_cases fd buffer answer with ⟨e, he, k, h⟩ | ⟨n, hn, h⟩
  · exact Or.inl ⟨e, he, k, Option.get_of_eq_some _ h⟩
  · exact Or.inr ⟨n, hn, Option.get_of_eq_some _ h⟩

/-- However the kernel cuts a string into partial writes, `write` hands over
every byte once and in order, and counts the system calls.  Whatever else the
kernel answers, it has accepted the beginning of the string; a call that
returns tells how much of it, and that is all of it if all was to be
written. -/
theorem write_exact
    (fd : FileDescriptor) (buffer : BufferViewList)
    (writeAll : Bool) (answers : List (Except String ℕ)) :
    (∀ ns : List ℕ, (∀ n ∈ ns, 0 < n) → ns ≠ [] → ns.sum = buffer.size →
      fd.write buffer true (ns.map .ok ++ answers) =
        some (.ok buffer.size,
          { fd with
            output := fd.output ++ buffer.asIovecs
            writeCount := fd.writeCount + UInt32.ofNat ns.length })) ∧
    ∀ result fd', fd.write buffer writeAll answers = some (result, fd') →
      ∃ k ≤ buffer.size,
        fd'.output = fd.output ++ buffer.asIovecs.take k ∧
          ∀ m, result = .ok m →
            m = k ∧ (writeAll = true → k = buffer.size) := by
  constructor
  · intro ns hpos hne hsum
    rw [write, writeLoop_all hpos hne hsum answers 0 fd, Nat.zero_add]
  · intro result fd' hwrite
    obtain ⟨k, hk, houtput, hresult⟩ := writeLoop_accepted hwrite
    refine ⟨k, hk, houtput, fun m hm => ?_⟩
    obtain ⟨htotal, hall⟩ := hresult m hm
    exact ⟨htotal.trans (Nat.zero_add k), hall⟩

/-- Three system calls for five bytes in two views. -/
theorem write_exact_three :
    write {} ⟨[[1, 2, 3], [4, 5]]⟩ true [.ok 1, .ok 3, .ok 1] =
      some (.ok 5, { output := [1, 2, 3, 4, 5], writeCount := 3 }) :=
  (write_exact {} ⟨[[1, 2, 3], [4, 5]]⟩ true []).1 [1, 3, 1] (by decide)
    (by decide) (by decide)

end FileDescriptor

end Sponge
