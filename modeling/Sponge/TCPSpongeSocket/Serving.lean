import Sponge.ByteStream.Descriptor
import Sponge.Support.Reach
import Sponge.TCPConnection.Final
import Sponge.TCPConnection.Streams
import Sponge.TCPSpongeSocket.Model

/-!
# What the owner of a socket sees

Each rule of the socket is a few operations of its connection, and together
they keep an account: the outbound stream consists of the bytes that were read
from the owner, the owner got the bytes that were taken from the inbound
stream, and the adapter got the segments that were taken from the queue.  So a
round of the loop is a run of the connection, whatever the kernel answers.
-/

namespace Sponge

namespace TCPSpongeSocket

open EventLoop

variable {δ ε : Type*}

open FileDescriptor (Refused)
open TCPConnection (EndRespected)
open TCPSegment (Fits)

/-- What the socket does with its connection: it writes nothing after the end
of the stream, and the segments that it hands over have come. -/
def Calls (Comes : TCPSegment → Prop) (c : TCPConnection)
    (op : TCPConnection.Op) : Prop :=
  EndRespected c op ∧ ∀ seg, op = .segmentReceived seg → Comes seg

/-- The socket serves its owner, as long as the rules `live` are left: the
outbound stream consists of what was read from the owner, the owner got what
was taken from the inbound stream, and the adapter got the segments that were
taken from the queue.  If nothing hangs up, only the rule that reads from the
owner is ever cancelled. -/
structure Serving (Holds : List TCPSegment → δ → Prop) (calm : Prop)
    (live : List Name) (s : TCPSpongeSocket δ) : Prop where
  input : s.threadData.input = s.tcp.sender.streamIn.written
  output : s.threadData.output = s.tcp.inboundStream.popped
  ended : s.tcp.sender.streamIn.inputEnded = true → s.outboundShutdown = true
  reading : .readPipe ∈ live → s.outboundShutdown = true →
    s.threadData.eof = true
  handed : Holds (s.tcp.segmentsOut.take s.popped) s.datagramAdapter
  popped_le : s.popped ≤ s.tcp.segmentsOut.length
  threadOpen : s.threadData.closed = false
  remaining : calm → ∀ i, i ≠ .readPipe → i ∈ live

/-- The socket has thrown `e`.  Nothing was made up: part of what was read
from the owner may be missing in the outbound stream, and the owner got
beginnings of the inbound stream. -/
structure Stopped (Holds : List TCPSegment → δ → Prop)
    (Fails : String → Prop) (e : String) (s : TCPSpongeSocket δ) : Prop where
  input : s.tcp.sender.streamIn.written <+: s.threadData.input
  output : s.threadData.output <+: s.tcp.inboundStream.written
  handed : Holds (s.tcp.segmentsOut.take s.popped) s.datagramAdapter
  cause : e = "EventLoop: error on polled file descriptor" ∨ Refused e ∨
    Fails e ∨
    (e = "TCPConnection::write() accepted less than advertised length" ∧
      s.tcp.active = false)

theorem take_segmentsOut_step
    {c : TCPConnection} {n : ℕ} (hn : n ≤ c.segmentsOut.length)
    (op : TCPConnection.Op) :
    (c.step op).segmentsOut.take n = c.segmentsOut.take n ∧
      n ≤ (c.step op).segmentsOut.length := by
  obtain ⟨more, hmore⟩ := c.segmentsOut_prefix_step op
  rw [← hmore, List.take_append_of_le_length hn, List.length_append]
  exact ⟨rfl, Nat.le_add_right_of_le hn⟩

section Serving

variable {Holds : List TCPSegment → δ → Prop} {Fails : String → Prop}
  {calm : Prop} {live live' : List Name} {s : TCPSpongeSocket δ}

theorem Serving.stopped
    (h : Serving Holds calm live s) {e : String}
    (he : e = "EventLoop: error on polled file descriptor" ∨ Refused e ∨
      Fails e) : Stopped Holds Fails e s where
  input := h.input ▸ List.prefix_rfl
  output := by
    rw [h.output, s.tcp.inboundStream.written_eq]
    exact List.prefix_append _ _
  handed := h.handed
  cause := he.imp_right fun he => he.imp_right Or.inl

/-- The connection makes a step that the owner does not see. -/
theorem Serving.call
    (h : Serving Holds calm live s) (op : TCPConnection.Op) {d : δ}
    (hwrite : ∀ data, op ≠ .write data) (hend : op ≠ .endInputStream)
    (hread : ∀ len, op ≠ .readInbound len)
    (hd : Holds (s.tcp.segmentsOut.take s.popped) d) :
    Serving Holds calm live
      { s with datagramAdapter := d, tcp := s.tcp.step op } where
  input := h.input.trans (TCPConnection.step_written hwrite).symm
  output := h.output.trans (TCPConnection.step_popped hread).symm
  ended := fun hended =>
    h.ended ((TCPConnection.inputEnded_of_step hended).resolve_right hend)
  reading := h.reading
  handed := (take_segmentsOut_step h.popped_le op).1 ▸ hd
  popped_le := (take_segmentsOut_step h.popped_le op).2
  threadOpen := h.threadOpen
  remaining := h.remaining

theorem Serving.endOutbound
    (h : Serving Holds calm live s)
    (heof : .readPipe ∈ live' → s.threadData.eof = true)
    (hlive : calm → ∀ i, i ≠ .readPipe → i ∈ live') :
    Serving Holds calm live' s.endOutbound where
  input := h.input.trans
    (@TCPConnection.step_written s.tcp .endInputStream (by simp)).symm
  output := h.output.trans
    (@TCPConnection.step_popped s.tcp .endInputStream (by simp)).symm
  ended := fun _ => rfl
  reading := fun hmem _ => heof hmem
  handed := (take_segmentsOut_step h.popped_le .endInputStream).1 ▸ h.handed
  popped_le := (take_segmentsOut_step h.popped_le .endInputStream).2
  threadOpen := h.threadOpen
  remaining := hlive

theorem Serving.withAdapter
    (h : Serving Holds calm live s) {d : δ}
    (hd : Holds (s.tcp.segmentsOut.take s.popped) d) :
    Serving Holds calm live { s with datagramAdapter := d } :=
  ⟨h.input, h.output, h.ended, h.reading, hd, h.popped_le, h.threadOpen,
    h.remaining⟩

end Serving

/-! ## The callbacks -/

/-- The callback of the rule `i` leaves the descriptors of the others as they
are. -/
structure Undisturbed (A : FdAdapter δ ε) (i : Name)
    (s s' : TCPSpongeSocket δ) : Prop where
  thread : s'.threadData.closed = s.threadData.closed ∧
    (i ≠ .readPipe → s'.threadData.eof = s.threadData.eof)
  adapter : (A.fd s'.datagramAdapter).closed =
      (A.fd s.datagramAdapter).closed ∧
    (i ≠ .readDatagram → (A.fd s'.datagramAdapter).eof =
      (A.fd s.datagramAdapter).eof)

theorem Undisturbed.over
    {A : FdAdapter δ ε} {i j : Name} {s s' : TCPSpongeSocket δ}
    (h : Undisturbed A i s s') (hj : j ≠ i) (hover : (rule A j).Over s') :
    (rule A j).Over s := by
  cases j with
  | readDatagram =>
      refine hover.imp (And.imp_right fun heof => ?_) fun hclosed => ?_
      · exact (h.adapter.2 hj.symm).symm.trans heof
      · exact h.adapter.1.symm.trans hclosed
  | readPipe =>
      refine hover.imp (And.imp_right fun heof => ?_) fun hclosed => ?_
      · exact (h.thread.2 hj.symm).symm.trans heof
      · exact h.thread.1.symm.trans hclosed
  | writePipe =>
      refine hover.imp (fun hin => absurd hin.1 (by simp [rule]))
        fun hclosed => ?_
      exact h.thread.1.symm.trans hclosed
  | writeDatagrams =>
      refine hover.imp (fun hin => absurd hin.1 (by simp [rule]))
        fun hclosed => ?_
      exact h.adapter.1.symm.trans hclosed

section Callbacks

variable (A : FdAdapter δ ε) (Holds : List TCPSegment → δ → Prop)
  (Fails : String → Prop) (Comes : TCPSegment → Prop) (c₀ : TCPConnection)
  (calm : Prop)

/-- The socket serves its owner, and has got there from the connection
`c₀`. -/
def Kept (live : List Name) (s : TCPSpongeSocket δ) : Prop :=
  Serving Holds calm live s ∧
    Reaches TCPConnection.step (Calls Comes) c₀ s.tcp

/-- The socket has thrown, and has got there from the connection `c₀`. -/
def Thrown (e : String) (s : TCPSpongeSocket δ) : Prop :=
  Stopped Holds Fails e s ∧
    Reaches TCPConnection.step (Calls Comes) c₀ s.tcp

/-- What the callback of a rule leaves. -/
def Returns (live : List Name) (i : Name) (s : TCPSpongeSocket δ) :
    Except String Unit × TCPSpongeSocket δ → Prop :=
  Leaves (Thrown Holds Fails Comes c₀) fun s' =>
    Kept Holds Comes c₀ calm live s' ∧ (rule A i).Serves s s' ∧
      ∀ j ≠ i, (rule A j).Over s' → (rule A j).Over s

variable {A Holds Fails Comes c₀ calm} {ok : ε → Prop} {live : List Name}
  {s : TCPSpongeSocket δ} {answer : Answer ε}

theorem readDatagram_returns
    (law : A.Lawful Holds Fails ok Comes) (hok : ∀ k, ok (answer.adapter k))
    (h : Kept Holds Comes c₀ calm live s) :
    Returns A Holds Fails Comes c₀ calm live .readDatagram s
      (readDatagram A answer s) := by
  obtain ⟨hserving, hreaches⟩ := h
  unfold readDatagram
  rcases law.read (hok 0) hserving.handed with ⟨e, d, hread, he, hd⟩ |
    ⟨seg, d, hread, hd, hcount, hclosed, hcomes⟩
  · rw [hread]
    exact ⟨(hserving.withAdapter hd).stopped (Or.inr (Or.inr he)), hreaches⟩
  · rw [hread]
    have hothers : ∀ tcp, ∀ j ≠ Name.readDatagram,
        (rule A j).Over { s with datagramAdapter := d, tcp := tcp } →
          (rule A j).Over s := by
      intro tcp j hj
      apply Undisturbed.over _ hj
      exact ⟨⟨rfl, fun _ => rfl⟩, hclosed, fun hne => absurd rfl hne⟩
    cases seg with
    | none =>
        exact ⟨⟨hserving.withAdapter hd, hreaches⟩, Or.inl hcount.symm,
          hothers s.tcp⟩
    | some seg =>
        have hcall : Calls Comes s.tcp (.segmentReceived seg) := by
          refine ⟨trivial, fun seg' hseg' => ?_⟩
          obtain rfl := TCPConnection.Op.segmentReceived.inj hseg'
          exact hcomes seg rfl
        exact ⟨⟨hserving.call (.segmentReceived seg) (by simp) (by simp)
          (by simp) hd, hreaches.concat hcall⟩, Or.inl hcount.symm, hothers _⟩

/-- What the connection accepts is what was read from the owner, unless the
connection is not active any more. -/
theorem Serving.write
    (h : Serving Holds calm live s) {bytes : Bytes}
    (hbytes : bytes.length ≤ s.tcp.remainingOutboundCapacity)
    (hopen : s.outboundShutdown = false) {fd : FileDescriptor}
    (hfd : fd = s.threadData.returned s.tcp.remainingOutboundCapacity bytes)
    (hall : (s.tcp.write bytes).1 = bytes.length) :
    Serving Holds calm live
      { s with threadData := fd, tcp := (s.tcp.write bytes).2 } where
  input := by
    obtain ⟨hamount, hwritten⟩ := s.tcp.write_accepts hbytes
    change fd.input = (s.tcp.write bytes).2.sender.streamIn.written
    rw [hwritten, hfd, FileDescriptor.returned, h.input]
    cases hactive : s.tcp.active with
    | true => rfl
    | false =>
        -- an inactive connection accepts all only if there is nothing
        rw [hactive] at hamount
        have hnil := List.length_eq_zero_iff.mp (hall.symm.trans hamount)
        rw [hnil]
        rfl
  output := by
    have hpopped := @TCPConnection.step_popped s.tcp (.write bytes) (by simp)
    exact (congrArg FileDescriptor.output hfd).trans
      (h.output.trans hpopped.symm)
  ended := fun hended => h.ended <|
    (@TCPConnection.inputEnded_of_step s.tcp (.write bytes) hended).resolve_right
      (by simp)
  reading := fun _ hshutdown =>
    absurd (hopen.symm.trans hshutdown) Bool.false_ne_true
  handed := (take_segmentsOut_step h.popped_le (.write bytes)).1 ▸ h.handed
  popped_le := (take_segmentsOut_step h.popped_le (.write bytes)).2
  threadOpen := (congrArg FileDescriptor.closed hfd).trans h.threadOpen
  remaining := h.remaining

theorem readPipe_returns
    (h : Kept Holds Comes c₀ calm live s) (hi : .readPipe ∈ live)
    (hover : ¬ (rule A .readPipe).Over s) :
    Returns A Holds Fails Comes c₀ calm live .readPipe s
      (readPipe answer s) := by
  obtain ⟨hserving, hreaches⟩ := h
  have hopen : s.outboundShutdown = false := by
    by_contra hshutdown
    rw [Bool.not_eq_false] at hshutdown
    exact hover (Or.inl ⟨rfl, hserving.reading hi hshutdown⟩)
  unfold readPipe
  rcases s.threadData.read_cases s.tcp.remainingOutboundCapacity answer.read
    with ⟨e, he, hread⟩ | ⟨bytes, hbytes, hread⟩
  · rw [hread]
    exact ⟨hserving.stopped (Or.inr (Or.inl he)), hreaches⟩
  · rw [hread]
    dsimp only
    generalize hfd : s.threadData.returned s.tcp.remainingOutboundCapacity
      bytes = fd
    have hclosed : fd.closed = s.threadData.closed := by
      rw [← hfd]
      rfl
    have houtput : fd.output = s.threadData.output := by
      rw [← hfd]
      rfl
    have hwritten : Reaches TCPConnection.step (Calls Comes) c₀
        (s.tcp.write bytes).2 := by
      have hcall : Calls Comes s.tcp (.write bytes) := by
        refine ⟨fun hwrites => ?_, by simp⟩
        have hended := hserving.ended hwrites.2.1
        exact absurd (hopen.symm.trans hended) Bool.false_ne_true
      exact hreaches.concat hcall
    obtain ⟨hamount, hstream⟩ := s.tcp.write_accepts hbytes
    by_cases hall : (s.tcp.write bytes).1 = bytes.length
    · have hs := hserving.write hbytes hopen hfd.symm hall
      rw [if_neg (not_not.mpr hall)]
      have hcount : s.threadData.readCount ≠ fd.readCount := by
        simp [← hfd, FileDescriptor.returned]
      have hothers : ∀ tcp shutdown, ∀ j ≠ Name.readPipe,
          (rule A j).Over { s with
            threadData := fd
            tcp := tcp
            outboundShutdown := shutdown } → (rule A j).Over s := by
        intro tcp shutdown j hj
        apply Undisturbed.over _ hj
        exact ⟨⟨hclosed, fun hne => absurd rfl hne⟩, rfl, fun _ => rfl⟩
      by_cases heof : fd.eof = true
      · rw [if_pos heof]
        have hend : Calls Comes (s.tcp.write bytes).2 .endInputStream :=
          ⟨trivial, by simp⟩
        exact ⟨⟨hs.endOutbound (fun _ => heof) hserving.remaining,
          hwritten.concat hend⟩, Or.inl hcount, hothers _ _⟩
      · rw [if_neg heof]
        exact ⟨⟨hs, hwritten⟩, Or.inl hcount, hothers _ _⟩
    · -- only an inactive connection refuses a part of it
      rw [if_pos hall]
      have hinactive : s.tcp.active = false := by
        by_contra hactive
        rw [Bool.not_eq_false] at hactive
        exact hall (by rw [hamount, hactive]; rfl)
      rw [TCPConnection.write_of_inactive hinactive]
      refine ⟨⟨?_, ?_, hserving.handed,
        Or.inr (Or.inr (Or.inr ⟨rfl, hinactive⟩))⟩, hreaches⟩
      · rw [← hfd, ← hserving.input]
        exact List.prefix_append _ _
      · change fd.output <+: s.tcp.inboundStream.written
        rw [houtput, hserving.output, s.tcp.inboundStream.written_eq]
        exact List.prefix_append _ _

/-- The owner gets the next bytes of the inbound stream. -/
theorem Serving.readInbound
    (h : Serving Holds calm live s) (n : ℕ) :
    Serving Holds calm live
      { s with
        threadData :=
          s.threadData.accepted (s.tcp.inboundStream.peekOutput n)
        tcp := s.tcp.readInbound n } where
  input := h.input.trans
    (@TCPConnection.step_written s.tcp (.readInbound n) (by simp)).symm
  output := by
    change s.threadData.output ++ s.tcp.inboundStream.peekOutput n = _
    rw [h.output, ← s.tcp.readInbound_popped n]
  ended := fun hended => h.ended <|
    (@TCPConnection.inputEnded_of_step s.tcp (.readInbound n)
      hended).resolve_right (by simp)
  reading := h.reading
  handed := h.handed
  popped_le := h.popped_le
  threadOpen := h.threadOpen
  remaining := h.remaining

theorem writePipe_returns (h : Kept Holds Comes c₀ calm live s) :
    Returns A Holds Fails Comes c₀ calm live .writePipe s
      (writePipe answer s) := by
  obtain ⟨hserving, hreaches⟩ := h
  unfold writePipe
  dsimp only
  rcases s.threadData.writeSome_peekOutput s.tcp.inboundStream
    (min 65536 s.tcp.inboundStream.bufferSize) answer.write with
    ⟨e, bytes, he, hbytes, hwrite⟩ | ⟨n, hwrite⟩
  · rw [hwrite]
    refine ⟨⟨hserving.input ▸ List.prefix_rfl, ?_, hserving.handed,
      Or.inr (Or.inl he)⟩, hreaches⟩
    change s.threadData.output ++ bytes <+: s.tcp.inboundStream.written
    rw [hserving.output]
    exact s.tcp.inboundStream.popped_append_front hbytes
  · rw [hwrite]
    dsimp only
    have hs := hserving.readInbound n
    have hread : Reaches TCPConnection.step (Calls Comes) c₀
        (s.tcp.readInbound n) := by
      have hcall : Calls Comes s.tcp (.readInbound n) := ⟨trivial, by simp⟩
      exact hreaches.concat hcall
    split
    · rcases FileDescriptor.shutdownWrite_cases answer.shutdown
        (s.threadData.accepted (s.tcp.inboundStream.peekOutput n)) with
        ⟨e, he, hshutdown⟩ | hshutdown
      · rw [hshutdown]
        exact ⟨hs.stopped (Or.inr (Or.inl he)), hread⟩
      · rw [hshutdown]
        refine ⟨⟨⟨hs.input, hs.output, hs.ended, hs.reading, hs.handed,
          hs.popped_le, hs.threadOpen, hs.remaining⟩, hread⟩, Or.inl ?_,
          fun j hj => ?_⟩
        · simp [Rule.serviceCount, rule, FileDescriptor.registerWrite,
            FileDescriptor.accepted, UInt32.add_assoc]
        · apply Undisturbed.over _ hj
          exact ⟨⟨rfl, fun _ => rfl⟩, rfl, fun _ => rfl⟩
    · refine ⟨⟨hs, hread⟩, Or.inl ?_, fun j hj => ?_⟩
      · simp [Rule.serviceCount, rule, FileDescriptor.accepted]
      · apply Undisturbed.over _ hj
        exact ⟨⟨rfl, fun _ => rfl⟩, rfl, fun _ => rfl⟩

/-- The segments that wait are handed to the adapter, in order. -/
theorem writeSegments_returns
    (law : A.Lawful Holds Fails ok Comes) {answers : ℕ → ε}
    (hok : ∀ k, ok (answers k))
    (hfits : ∀ seg ∈ s.tcp.segmentsOut, Fits seg) {segs : List TCPSegment}
    (hsegs : s.segmentsOut = segs) (k : ℕ)
    (h : Serving Holds calm live s) :
    Leaves (fun e s' => Stopped Holds Fails e s' ∧ s'.tcp = s.tcp)
      (fun s' => Serving Holds calm live s' ∧ s'.tcp = s.tcp ∧
        s'.segmentsOut = [] ∧ Undisturbed A .writeDatagrams s s')
      (writeSegments A answers segs k s) := by
  induction segs generalizing s k with
  | nil =>
      exact ⟨h, rfl, hsegs, ⟨rfl, fun _ => rfl⟩, rfl, fun _ => rfl⟩
  | cons seg segs ih =>
      have hdrop : s.tcp.segmentsOut.drop s.popped = seg :: segs := hsegs
      have hlt : s.popped < s.tcp.segmentsOut.length := by
        by_contra hge
        rw [List.drop_eq_nil_of_le (not_lt.mp hge)] at hdrop
        exact absurd hdrop.symm (List.cons_ne_nil _ _)
      have hnext : s.tcp.segmentsOut[s.popped]? = some seg := by
        rw [← List.head?_drop, hdrop]
        rfl
      have hfit : Fits seg := hfits seg (List.mem_of_getElem? hnext)
      rw [writeSegments]
      rcases law.write (hok k) hfit h.handed with ⟨e, d, hwrite, he, hd⟩ |
        ⟨d, hwrite, hd, heof, hclosed⟩
      · rw [hwrite]
        exact ⟨(h.withAdapter hd).stopped (Or.inr (Or.inr he)), rfl⟩
      · rw [hwrite]
        have htake : s.tcp.segmentsOut.take (s.popped + 1) =
            s.tcp.segmentsOut.take s.popped ++ [seg] := by
          rw [List.take_add_one, hnext]
          rfl
        have hs : Serving Holds calm live
            { s with datagramAdapter := d, popped := s.popped + 1 } :=
          ⟨h.input, h.output, h.ended, h.reading, htake ▸ hd, hlt,
            h.threadOpen, h.remaining⟩
        have hrest : s.tcp.segmentsOut.drop (s.popped + 1) = segs := by
          rw [← List.drop_drop, hdrop]
          rfl
        have hlater := @ih { s with datagramAdapter := d, popped := s.popped + 1 }
          hfits hrest (k + 1) hs
        dsimp only
        generalize writeSegments A answers segs (k + 1) _ = later at hlater ⊢
        rcases later with ⟨e | _, s'⟩
        · exact hlater
        · obtain ⟨hs', htcp, hempty, hsame⟩ := hlater
          exact ⟨hs', htcp, hempty, hsame.thread,
            hsame.adapter.1.trans hclosed,
            fun hne => (hsame.adapter.2 hne).trans heof⟩

theorem writeDatagrams_returns
    (law : A.Lawful Holds Fails ok Comes) (hok : ∀ k, ok (answer.adapter k))
    (hfits : ∀ seg ∈ s.tcp.segmentsOut, Fits seg)
    (h : Kept Holds Comes c₀ calm live s) :
    Returns A Holds Fails Comes c₀ calm live .writeDatagrams s
      (writeSegments A answer.adapter s.segmentsOut 0 s) := by
  have hwritten := writeSegments_returns law hok hfits rfl 0 h.1
  unfold Returns
  generalize writeSegments A answer.adapter s.segmentsOut 0 s = written
    at hwritten ⊢
  rcases written with ⟨e | _, s'⟩
  · obtain ⟨hstopped, htcp⟩ := hwritten
    exact ⟨hstopped, htcp ▸ h.2⟩
  · obtain ⟨hs', htcp, hempty, hsame⟩ := hwritten
    refine ⟨⟨hs', htcp ▸ h.2⟩, Or.inr ?_, fun j hj => hsame.over hj⟩
    change (!s'.segmentsOut.isEmpty) = false
    rw [hempty]
    rfl

/-- If nothing hangs up, nothing happens to the descriptors of the rules but
for the end of what the owner writes. -/
theorem Serving.not_over
    (h : Serving Holds calm live s) (hc : calm)
    (husable : calm → ∀ segs d, Holds segs d →
      (A.fd d).eof = false ∧ (A.fd d).closed = false)
    {i : Name} (hi : i ≠ .readPipe) : ¬ (rule A i).Over s := by
  obtain ⟨heof, hclosed⟩ := husable hc _ _ h.handed
  rintro (⟨hin, hover⟩ | hover)
  · cases i with
    | readDatagram => exact absurd (heof.symm.trans hover) Bool.false_ne_true
    | readPipe => exact hi rfl
    | writePipe => exact absurd hin (by simp [rule])
    | writeDatagrams => exact absurd hin (by simp [rule])
  · cases i with
    | readPipe => exact hi rfl
    | writePipe =>
        exact absurd (h.threadOpen.symm.trans hover) Bool.false_ne_true
    | readDatagram =>
        exact absurd (hclosed.symm.trans hover) Bool.false_ne_true
    | writeDatagrams =>
        exact absurd (hclosed.symm.trans hover) Bool.false_ne_true

/-- Cancelling the rule that reads from the owner ends the outbound stream,
and cancelling another rule does nothing. -/
theorem Kept.cancel
    (h : Kept Holds Comes c₀ calm live s) {i : Name} {live' : List Name}
    (herased : Erased i live live')
    (hwhy : calm → i ≠ .readPipe → False) :
    Kept Holds Comes c₀ calm live' ((rule A i).cancel s) := by
  obtain ⟨hserving, hreaches⟩ := h
  have hothers : i ≠ .readPipe → Kept Holds Comes c₀ calm live' s := by
    intro hi
    refine ⟨⟨hserving.input, hserving.output, hserving.ended, fun hmem => ?_,
      hserving.handed, hserving.popped_le, hserving.threadOpen, fun hc => ?_⟩,
      hreaches⟩
    · exact hserving.reading ((herased.2 _ hi.symm).mp hmem)
    · exact absurd hi (hwhy hc)
  cases i with
  | readPipe =>
      have hcall : Calls Comes s.tcp .endInputStream := ⟨trivial, by simp⟩
      refine ⟨hserving.endOutbound (fun hmem => absurd hmem herased.1) ?_,
        hreaches.concat hcall⟩
      intro hc j hj
      exact (herased.2 j hj).mpr (hserving.remaining hc j hj)
  | readDatagram => exact hothers (by simp)
  | writePipe => exact hothers (by simp)
  | writeDatagrams => exact hothers (by simp)

/-- The rules of the socket keep the account. -/
theorem keeps
    (law : A.Lawful Holds Fails ok Comes)
    (hfits : ∀ c, Reaches TCPConnection.step (Calls Comes) c₀ c →
      ∀ seg ∈ c.segmentsOut, Fits seg)
    (husable : calm → ∀ segs d, Holds segs d →
      (A.fd d).eof = false ∧ (A.fd d).closed = false)
    {hup : Prop} (hcalm : calm → ¬ hup) :
    Keeps (rule A) hup (fun answer => ∀ k, ok (answer.adapter k))
      (Thrown Holds Fails Comes c₀) (Kept Holds Comes c₀ calm) where
  cancel := by
    intro live live' i s herased h hwhy
    refine h.cancel herased fun hc hi => ?_
    rcases hwhy with hover | hhup
    · exact h.1.not_over hc husable hi hover
    · exact hcalm hc hhup
  apart := by
    intro i j s _ hover
    cases i <;> cases j <;> exact hover
  callback := by
    intro live i s answer hok hi h hover
    cases i with
    | readDatagram => exact readDatagram_returns law hok h
    | readPipe => exact readPipe_returns h hi hover
    | writePipe => exact writePipe_returns h
    | writeDatagrams =>
        exact writeDatagrams_returns law hok (hfits s.tcp h.2) h
  polled := fun h => ⟨h.1.stopped (Or.inl rfl), h.2⟩

end Callbacks

/-! ## Rounds -/

/-- The answers of the kernel in a turn are those that can be expected. -/
def Turn.Expected (ok : ε → Prop) (turn : Turn ε) : Prop :=
  ok turn.tick ∧ ∀ idx k, ok ((turn.answers idx).adapter k)

namespace Thread

/-- The account of a thread, which ends when the thread throws. -/
structure Sound (Holds : List TCPSegment → δ → Prop) (Fails : String → Prop)
    (calm : Prop) (t : Thread δ) : Prop where
  rules : t.rules.Sublist allRules
  serving : (∀ e, t.phase ≠ .threw e) → Serving Holds calm t.rules t.socket
  stopped : ∀ e, t.phase = .threw e → Stopped Holds Fails e t.socket

theorem phase_round (A : FdAdapter δ ε) (t : Thread δ) (w : Turn ε) :
    (t.round A w).2.phase = t.phase := by
  unfold round
  split
  · rfl
  · dsimp only
    split
    · rfl
    · split
      · split
        · rfl
        · rfl
      · rfl

section Account

variable {Holds : List TCPSegment → δ → Prop} {Fails : String → Prop}
  {calm : Prop} {t : Thread δ} (hrules : t.rules.Sublist allRules)

include hrules

theorem sound_of_serving
    (hphase : ∀ e, t.phase ≠ .threw e)
    (h : Serving Holds calm t.rules t.socket) : t.Sound Holds Fails calm where
  rules := hrules
  serving := fun _ => h
  stopped := fun e he => absurd he (hphase e)

theorem sound_of_stopped
    {e : String} (h : Stopped Holds Fails e t.socket) :
    Sound Holds Fails calm { t with phase := .threw e } where
  rules := hrules
  serving := fun hne => absurd rfl (hne e)
  stopped := fun _ he => Phase.threw.inj he ▸ h

end Account

section Rounds

variable {A : FdAdapter δ ε} {Holds : List TCPSegment → δ → Prop}
  {Fails : String → Prop} {ok : ε → Prop} {Comes : TCPSegment → Prop}
  {calm : Prop} {t : Thread δ} {w : Turn ε}
  (law : A.Lawful Holds Fails ok Comes)
  (husable : calm → ∀ segs d, Holds segs d →
    (A.fd d).eof = false ∧ (A.fd d).closed = false)
  (hfits : ∀ c, Reaches TCPConnection.step (Calls Comes) t.socket.tcp c →
    ∀ seg ∈ c.segmentsOut, Fits seg)
  (hturn : w.Expected ok) (hcalm : calm → ¬ w.poll.HangsUp)

include law husable hfits hturn hcalm

/-- A round is a run of the connection that keeps the account. -/
theorem round_spec
    (hrules : t.rules.Sublist allRules)
    (h : Serving Holds calm t.rules t.socket) :
    let next := t.round A w
    next.2.rules.Sublist allRules ∧
      Leaves (fun e t' => Thrown Holds Fails Comes t.socket.tcp e t'.socket)
        (fun t' => Kept Holds Comes t.socket.tcp calm t'.rules t'.socket)
        next := by
  have hnodup : t.rules.Nodup := hrules.nodup (by decide)
  obtain ⟨hshorter, hleaves⟩ := waitNextEvent_invariant
    (keeps law hfits husable hcalm) w.answers hturn.2 hnodup
    ⟨h, Reaches.refl _⟩
  unfold round
  generalize waitNextEvent (rule A) t.rules t.socket w.poll w.answers =
    waited at hshorter hleaves
  replace hshorter := hshorter.trans hrules
  rcases waited with ⟨e | ret, rules, s⟩
  · exact ⟨hshorter, hleaves⟩
  · obtain ⟨hserving, hreaches⟩ :
        Kept Holds Comes t.socket.tcp calm rules s := hleaves
    dsimp only
    split
    · exact ⟨hshorter, hserving, hreaches⟩
    · split
      · generalize sub64 w.time t.baseTime = elapsed
        have hcall : Calls Comes s.tcp (.tick elapsed) := ⟨trivial, by simp⟩
        have hticked := hreaches.concat hcall
        have hs : ∀ d, Holds (s.tcp.segmentsOut.take s.popped) d →
            Serving Holds calm rules
              { s with datagramAdapter := d, tcp := s.tcp.tick elapsed } :=
          fun d => hserving.call (.tick elapsed) (by simp) (by simp) (by simp)
        rcases law.tick hturn.1 hserving.handed with ⟨e, d, htick, he, hd⟩ |
          ⟨d, htick, hd⟩
        · rw [htick]
          exact ⟨hshorter, (hs d hd).stopped (Or.inr (Or.inr he)), hticked⟩
        · rw [htick]
          exact ⟨hshorter, hs d hd, hticked⟩
      · exact ⟨hshorter, hserving, hreaches⟩

/-- A turn is a run of the connection that keeps the account. -/
theorem Sound.turn (h : t.Sound Holds Fails calm) :
    (t.turn A w).Sound Holds Fails calm ∧
      Reaches TCPConnection.step (Calls Comes) t.socket.tcp
        (t.turn A w).socket.tcp := by
  have hround := fun hphase => round_spec law husable hfits hturn hcalm h.rules
    (h.serving hphase)
  have hsame := t.phase_round A w
  unfold Thread.turn
  split
  next hphase =>
    have hrunning : ∀ e, t.phase ≠ .threw e := by simp [hphase]
    split
    · obtain ⟨hrules, hleaves⟩ := hround hrunning
      generalize t.round A w = next at hsame hrules hleaves
      rcases next with ⟨e | _ | _, t'⟩
      · exact ⟨sound_of_stopped hrules hleaves.1, hleaves.2⟩
      · exact ⟨sound_of_serving hrules (by simp [enterMain]) hleaves.1,
          hleaves.2⟩
      · exact ⟨sound_of_serving hrules (hsame ▸ hrunning) hleaves.1, hleaves.2⟩
    · exact ⟨sound_of_serving h.rules (by simp [enterMain])
        (h.serving hrunning), Reaches.refl _⟩
  next hphase =>
    have hrunning : ∀ e, t.phase ≠ .threw e := by simp [hphase]
    obtain ⟨hrules, hleaves⟩ := hround hrunning
    generalize t.round A w = next at hsame hrules hleaves
    rcases next with ⟨e | _ | _, t'⟩
    · exact ⟨sound_of_stopped hrules hleaves.1, hleaves.2⟩
    · dsimp only
      cases w.shutdown with
      | error e =>
          have hrefused : Refused ("shutdown" ++ ": " ++ e) :=
            .call (by decide) e
          exact ⟨sound_of_stopped hrules
            (hleaves.1.stopped (Or.inr (Or.inl hrefused))), hleaves.2⟩
      | ok _ =>
          exact ⟨sound_of_serving hrules (by simp [systemCall]) hleaves.1,
            hleaves.2⟩
    · exact ⟨sound_of_serving hrules (hsame ▸ hrunning) hleaves.1, hleaves.2⟩
  next => exact ⟨h, Reaches.refl _⟩
  next => exact ⟨h, Reaches.refl _⟩

end Rounds

end Thread

end TCPSpongeSocket

end Sponge
