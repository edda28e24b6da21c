import Mathlib.Logic.Relation
import Sponge.TCPSender.Model

/-!
# What the sender's operations do

`fill_window` emits the SYN, or it emits segments with bytes of the stream and
possibly one with only a FIN.  `Emission` says once what sending one segment
changes, whichever of the three it is, and `fillWindow_emits` that
`fill_window` is a sequence of emissions.  The acknowledgments and the clock
do not send anything new by themselves; `SameSent` collects what they leave
unchanged.

Every property of runs of the sender is derived from these facts, without
looking at the code again.
-/

namespace Sponge

namespace TCPSender

/-! ## `send_segment` -/

section SendSegment

variable (s : TCPSender) (segment : TCPSegment)

theorem startTimer_eq :
    s.startTimer =
      { s with
        elapsedTime := s.startTimer.elapsedTime
        rto := s.startTimer.rto
        timerOn := true } := by
  unfold startTimer
  split
  next h =>
    obtain ⟨⟩ := s
    simp only at h
    subst h
    rfl
  · rfl

/-- Sending changes the timer and the fields that list what has been sent. -/
theorem sendSegment_eq :
    s.sendSegment segment =
      { s with
        bytesInFlight := s.bytesInFlight + segment.lengthInSequenceSpace
        nextSeqnoAbsolute :=
          s.nextSeqnoAbsolute + segment.lengthInSequenceSpace
        segmentsOut := s.segmentsOut ++ [s.stamp segment]
        outstandingSegments := s.outstandingSegments.insert
          (s.nextSeqnoAbsolute + segment.lengthInSequenceSpace)
          (s.stamp segment)
        created := s.created ++ [(s.nextSeqnoAbsolute, s.stamp segment)]
        elapsedTime := (s.sendSegment segment).elapsedTime
        rto := (s.sendSegment segment).rto
        timerOn := true } :=
  startTimer_eq _

/-- It does not matter whether the FIN is noted before or after it is
sent. -/
theorem sendSegment_setFinSent (fin : Bool) :
    { s.sendSegment segment with finSent := fin } =
      sendSegment { s with finSent := fin } segment := by
  by_cases htimer : s.timerOn = true
  · simp only [sendSegment, startTimer, if_pos htimer]
    rfl
  · simp only [sendSegment, startTimer, if_neg htimer]
    rfl

@[simp] theorem sendSegment_streamIn :
    (s.sendSegment segment).streamIn = s.streamIn := by
  rw [sendSegment_eq]

@[simp] theorem sendSegment_recvWdnSz :
    (s.sendSegment segment).recvWdnSz = s.recvWdnSz := by
  rw [sendSegment_eq]

@[simp] theorem sendSegment_finSent :
    (s.sendSegment segment).finSent = s.finSent := by
  rw [sendSegment_eq]

end SendSegment

/-! ## Emissions -/

/-- One segment is made from the next bytes of the stream, given the next
sequence number and sent. -/
structure Emission (s : TCPSender) (segment : TCPSegment) (t : TCPSender) :
    Prop where
  isn : t.isn = s.isn
  created : t.created = s.created ++ [(s.nextSeqnoAbsolute, segment)]
  segmentsOut : t.segmentsOut = s.segmentsOut ++ [segment]
  next : t.nextSeqnoAbsolute =
    s.nextSeqnoAbsolute + segment.lengthInSequenceSpace
  outstanding : t.outstandingSegments =
    s.outstandingSegments.insert t.nextSeqnoAbsolute segment
  inFlight : t.bytesInFlight =
    s.bytesInFlight + segment.lengthInSequenceSpace
  timerOn : t.timerOn = true
  seqno : segment.header.seqno = wrap s.nextSeqnoAbsolute s.isn
  positive : 0 < segment.lengthInSequenceSpace
  small : segment.payload.size ≤ TCPConfig.maxPayloadSize
  syn : t.syn = true
  synFirst : segment.header.syn = !s.syn
  synAlone : segment.header.syn = true →
    segment.payload.str = [] ∧ segment.header.fin = false
  popped : t.streamIn.popped = s.streamIn.popped ++ segment.payload.str
  written : t.streamIn.written = s.streamIn.written
  inputEnded : t.streamIn.inputEnded = s.streamIn.inputEnded
  error : t.streamIn.error = s.streamIn.error
  cap : t.streamIn.cap = s.streamIn.cap
  fin : segment.header.fin = true → t.streamIn.eof = true
  finSent : t.finSent = (s.finSent || segment.header.fin)
  finOnce : s.syn = true → s.finSent = true →
    0 < segment.payload.str.length
  window : s.syn = true →
    t.recvWdnSz + segment.lengthInSequenceSpace = s.recvWdnSz
  windowSyn : s.syn = false → t.recvWdnSz = s.recvWdnSz
  windowUnderflow : t.windowUnderflow = s.windowUnderflow

/-- A number of emissions, one after the other. -/
def Emits : TCPSender → TCPSender → Prop :=
  Relation.ReflTransGen fun s t => ∃ segment, Emission s segment t

/-- What one emission preserves, any number of them preserves. -/
theorem Emits.preserves
    {P : TCPSender → Prop} {s t : TCPSender}
    (hstep : ∀ s segment t, Emission s segment t → P s → P t)
    (h : Emits s t) (hs : P s) : P t := by
  induction h with
  | refl => exact hs
  | tail _ hlast ih =>
      obtain ⟨segment, hseg⟩ := hlast
      exact hstep _ segment _ hseg ih

section Emits

variable {s t : TCPSender}

/-- What no emission changes stays as it is. -/
theorem Emits.unchanged
    {β : Type*} (f : TCPSender → β)
    (hstep : ∀ {s segment t}, Emission s segment t → f t = f s)
    (h : Emits s t) : f t = f s := by
  refine h.preserves (P := fun r => f r = f s) ?_ rfl
  intro r segment t he hr
  rw [hstep he, hr]

theorem Emits.isn (h : Emits s t) : t.isn = s.isn :=
  h.unchanged TCPSender.isn fun he => he.isn

theorem Emits.written (h : Emits s t) :
    t.streamIn.written = s.streamIn.written :=
  h.unchanged (fun r => r.streamIn.written) fun he => he.written

theorem Emits.inputEnded (h : Emits s t) :
    t.streamIn.inputEnded = s.streamIn.inputEnded :=
  h.unchanged (fun r => r.streamIn.inputEnded) fun he => he.inputEnded

theorem Emits.error (h : Emits s t) :
    t.streamIn.error = s.streamIn.error :=
  h.unchanged (fun r => r.streamIn.error) fun he => he.error

theorem Emits.cap (h : Emits s t) : t.streamIn.cap = s.streamIn.cap :=
  h.unchanged (fun r => r.streamIn.cap) fun he => he.cap

theorem Emits.syn (h : Emits s t) (hsyn : s.syn = true) : t.syn = true :=
  h.preserves (fun _ _ _ he _ => he.syn) hsyn

theorem Emits.finSent (h : Emits s t) (hfin : s.finSent = true) :
    t.finSent = true := by
  refine h.preserves (P := fun r => r.finSent = true) ?_ hfin
  intro r segment t he hr
  rw [he.finSent, hr, Bool.true_or]

theorem Emits.next_le (h : Emits s t) :
    s.nextSeqnoAbsolute ≤ t.nextSeqnoAbsolute := by
  refine h.preserves
    (P := fun r => s.nextSeqnoAbsolute ≤ r.nextSeqnoAbsolute) ?_ le_rfl
  intro r segment t he hr
  rw [he.next]
  exact hr.trans (Nat.le_add_right _ _)

end Emits

/-- The bytes of the segment leave the buffer of the stream. -/
theorem Emission.bufferSize_add
    {s t : TCPSender} {segment : TCPSegment} (h : Emission s segment t) :
    t.streamIn.bufferSize + segment.payload.str.length =
      s.streamIn.bufferSize := by
  have hbefore := s.streamIn.bytesWritten_eq
  have hafter := t.streamIn.bytesWritten_eq
  rw [ByteStream.bytesWritten_eq_length, ByteStream.bytesRead_eq_length]
    at hbefore hafter
  rw [h.written, h.popped, List.length_append] at hafter
  omega

/-- With an empty buffer there is no emission after the FIN. -/
theorem Emission.not_finSent
    {s t : TCPSender} {segment : TCPSegment} (h : Emission s segment t)
    (hsyn : s.syn = true) (hempty : s.streamIn.bufferSize = 0) :
    s.finSent = false := by
  rw [← Bool.not_eq_true]
  intro hfin
  have hpos := h.finOnce hsyn hfin
  have hsize := h.bufferSize_add
  omega

theorem Emission.emits
    {s t : TCPSender} {segment : TCPSegment} (h : Emission s segment t) :
    Emits s t :=
  Relation.ReflTransGen.single ⟨segment, h⟩

/-- The segment is cut from the stream of `s`, which leaves `p` to send
it. -/
structure Cut (s : TCPSender) (segment : TCPSegment) (p : TCPSender) :
    Prop where
  frame : ∃ stream window fin hwindow, p =
    { s with
      streamIn := stream
      recvWdnSz := window
      finSent := fin
      syn := true
      recvWdnSz_lt := hwindow }
  small : segment.payload.size ≤ TCPConfig.maxPayloadSize
  synFirst : segment.header.syn = !s.syn
  synAlone : segment.header.syn = true →
    segment.payload.str = [] ∧ segment.header.fin = false
  popped : p.streamIn.popped = s.streamIn.popped ++ segment.payload.str
  written : p.streamIn.written = s.streamIn.written
  inputEnded : p.streamIn.inputEnded = s.streamIn.inputEnded
  error : p.streamIn.error = s.streamIn.error
  cap : p.streamIn.cap = s.streamIn.cap
  fin : segment.header.fin = true → p.streamIn.eof = true
  finSent : p.finSent = (s.finSent || segment.header.fin)
  window : s.syn = true →
    p.recvWdnSz + segment.lengthInSequenceSpace = s.recvWdnSz
  windowSyn : s.syn = false → p.recvWdnSz = s.recvWdnSz

theorem Cut.emission
    {s p : TCPSender} {segment : TCPSegment} (h : Cut s segment p)
    (hpos : 0 < segment.lengthInSequenceSpace)
    (honce : s.syn = true → s.finSent = true →
      0 < segment.payload.str.length) :
    Emission s (p.stamp segment) (p.sendSegment segment) := by
  obtain ⟨stream, window, fin, hwindow, rfl⟩ := h.frame
  rw [sendSegment_eq]
  exact
    { isn := rfl
      created := rfl
      segmentsOut := rfl
      next := rfl
      outstanding := rfl
      inFlight := rfl
      timerOn := rfl
      seqno := rfl
      positive := hpos
      small := h.small
      syn := rfl
      synFirst := h.synFirst
      synAlone := h.synAlone
      popped := h.popped
      written := h.written
      inputEnded := h.inputEnded
      error := h.error
      cap := h.cap
      fin := h.fin
      finSent := h.finSent
      finOnce := honce
      window := h.window
      windowSyn := h.windowSyn
      windowUnderflow := rfl }

theorem cut_syn {s : TCPSender} (h : s.syn = false) :
    Cut s { header := { syn := true } } { s with syn := true } where
  frame := ⟨_, _, _, s.recvWdnSz_lt, rfl⟩
  small := by decide
  synFirst := by rw [h]; rfl
  synAlone := fun _ => ⟨rfl, rfl⟩
  popped := (List.append_nil _).symm
  written := rfl
  inputEnded := rfl
  error := rfl
  cap := rfl
  fin := nofun
  finSent := (Bool.or_false _).symm
  window := fun hsyn => absurd (h.symm.trans hsyn) (by decide)
  windowSyn := fun _ => rfl

theorem emission_syn {s : TCPSender} (h : s.syn = false) :
    Emission s (s.stamp { header := { syn := true } })
      (sendSegment { s with syn := true } { header := { syn := true } }) :=
  (cut_syn h).emission (by decide)
    fun hsyn => absurd (h.symm.trans hsyn) (by decide)

/-- As long as no more is taken than there is, the counter does not
underflow. -/
theorem consumeWindow_eq {s : TCPSender} {n : ℕ} (h : n ≤ s.recvWdnSz) :
    s.consumeWindow n =
      { s with
        recvWdnSz := s.recvWdnSz - n
        recvWdnSz_lt := lt_of_le_of_lt (Nat.sub_le _ _) s.recvWdnSz_lt } := by
  have hflag : (s.windowUnderflow || decide (s.recvWdnSz < n)) =
      s.windowUnderflow := by
    rw [decide_eq_false (not_lt.mpr h), Bool.or_false]
  simp only [consumeWindow, sub16_eq s.recvWdnSz_lt h, hflag]

/-- Nothing has been cut yet. -/
theorem cut_nothing {s : TCPSender} (h : s.syn = true) : Cut s {} s where
  frame := ⟨_, _, _, s.recvWdnSz_lt, by rw [← h]⟩
  small := by decide
  synFirst := by rw [h]; rfl
  synAlone := nofun
  popped := (List.append_nil _).symm
  written := rfl
  inputEnded := rfl
  error := rfl
  cap := rfl
  fin := nofun
  finSent := (Bool.or_false _).symm
  window := fun _ => rfl
  windowSyn := fun hsyn => absurd (h.symm.trans hsyn) (by decide)

/-- A FIN is added to what has been cut. -/
theorem Cut.setFin
    {s p : TCPSender} {segment : TCPSegment} (h : Cut s segment p)
    (hsyn : s.syn = true) (hno : segment.header.fin = false)
    (heof : p.streamIn.eof = true) (hwin : 0 < p.recvWdnSz) :
    Cut s segment.setFin { p.consumeWindow 1 with finSent := true } := by
  have hframe := h.frame
  rw [consumeWindow_eq hwin]
  exact
    { frame := by
        obtain ⟨stream, window, fin, hwindow, rfl⟩ := hframe
        exact ⟨_, _, _, _, rfl⟩
      small := h.small
      synFirst := h.synFirst
      synAlone := fun hseg => by
        have hfalse := h.synFirst.symm.trans hseg
        rw [hsyn] at hfalse
        exact absurd hfalse (by decide)
      popped := h.popped
      written := h.written
      inputEnded := h.inputEnded
      error := h.error
      cap := h.cap
      fin := fun _ => heof
      finSent := (Bool.or_true _).symm
      window := fun hsyn => by
        have hold := h.window hsyn
        rw [TCPSegment.setFin_length hno]
        simp only
        omega
      windowSyn := fun hsyn' =>
        absurd (hsyn.symm.trans hsyn') (by decide) }

/-! ## The loop of `fill_window` -/

theorem readLimit_eq (s : TCPSender) :
    s.readLimit = min s.recvWdnSz TCPConfig.maxPayloadSize := by
  unfold readLimit
  split
  · omega
  · omega

section Round

variable {s : TCPSender} {segment : TCPSegment}

theorem readPayload_length (hseg : segment.header = {}) :
    (s.readPayload segment).2.lengthInSequenceSpace =
      min s.readLimit s.streamIn.bufferSize := by
  rw [TCPSegment.lengthInSequenceSpace_eq]
  simp [readPayload, hseg, ByteStream.read, Buffer.size,
    ByteStream.length_peekOutput]

/-- The payload of a round is cut from the stream. -/
theorem cut_readPayload
    (hsyn : s.syn = true) (hseg : segment.header = {}) :
    Cut s (s.readPayload segment).2 (s.readPayload segment).1 := by
  have hlen := readPayload_length (s := s) hseg
  have hlimit := s.readLimit_eq
  have hle : (s.readPayload segment).2.lengthInSequenceSpace ≤
      s.recvWdnSz := by
    rw [hlen, hlimit]
    exact (min_le_left _ _).trans (min_le_left _ _)
  have hrest : (s.readPayload segment).1 =
      { s with
        streamIn := s.streamIn.popOutput s.readLimit
        recvWdnSz := s.recvWdnSz -
          (s.readPayload segment).2.lengthInSequenceSpace
        recvWdnSz_lt :=
          lt_of_le_of_lt (Nat.sub_le _ _) s.recvWdnSz_lt } :=
    consumeWindow_eq hle
  have hheader : (s.readPayload segment).2.header = {} := hseg
  rw [hrest]
  exact
    { frame := ⟨_, _, _, _, by rw [← hsyn]⟩
      small := by
        change (s.streamIn.peekOutput s.readLimit).length ≤ _
        rw [ByteStream.length_peekOutput, hlimit]
        exact (min_le_left _ _).trans (min_le_right _ _)
      synFirst := by rw [hheader, hsyn]; rfl
      synAlone := by rw [hheader]; nofun
      popped := ByteStream.popOutput_popped _ _
      written := ByteStream.popOutput_written _ _
      inputEnded := ByteStream.popOutput_inputEnded _ _
      error := ByteStream.popOutput_error _ _
      cap := ByteStream.popOutput_cap _ _
      fin := by rw [hheader]; nofun
      finSent := by rw [hheader]; exact (Bool.or_false _).symm
      window := fun _ => Nat.sub_add_cancel hle
      windowSyn := fun hsyn' =>
        absurd (hsyn.symm.trans hsyn') (by decide) }

theorem Cut.piggybackFin
    {p : TCPSender} (h : Cut s segment p) (hsyn : s.syn = true)
    (hno : segment.header.fin = false) :
    Cut s (p.piggybackFin segment).2 (p.piggybackFin segment).1 := by
  unfold TCPSender.piggybackFin
  split
  next hcond =>
    rw [Bool.and_eq_true, decide_eq_true_iff] at hcond
    exact h.setFin hsyn hno hcond.1 hcond.2
  · exact h

theorem piggybackFin_payload (s : TCPSender) (segment : TCPSegment) :
    (s.piggybackFin segment).2.payload = segment.payload := by
  unfold TCPSender.piggybackFin
  split <;> rfl

theorem cut_prepareSegment
    (hsyn : s.syn = true) (hseg : segment.header = {}) :
    Cut s (s.prepareSegment segment).2 (s.prepareSegment segment).1 := by
  apply (cut_readPayload hsyn hseg).piggybackFin hsyn
  change segment.header.fin = false
  rw [hseg]

theorem prepareSegment_payload_pos
    (segment : TCPSegment) (hbuf : 0 < s.streamIn.bufferSize) (hwin : 0 < s.recvWdnSz) :
    0 < (s.prepareSegment segment).2.payload.str.length := by
  rw [prepareSegment, piggybackFin_payload]
  change 0 < (s.streamIn.peekOutput s.readLimit).length
  rw [ByteStream.length_peekOutput, readLimit_eq]
  exact lt_min (lt_min hwin (by decide)) hbuf

/-- A round sends the segment it has prepared. -/
theorem fillRound_eq
    (hbuf : 0 < s.streamIn.bufferSize) (hwin : 0 < s.recvWdnSz) :
    s.fillRound segment =
      ((s.prepareSegment segment).1.sendSegment
        (s.prepareSegment segment).2, (s.prepareSegment segment).2) := by
  have hpayload := prepareSegment_payload_pos segment hbuf hwin
  have hpos : 0 < (s.prepareSegment segment).2.lengthInSequenceSpace := by
    rw [TCPSegment.lengthInSequenceSpace_eq, Buffer.size]
    omega
  exact if_pos hpos

/-- A round sends one segment, and its payload is not empty. -/
theorem fillRound_emission
    (hsyn : s.syn = true) (hseg : segment.header = {})
    (hbuf : 0 < s.streamIn.bufferSize) (hwin : 0 < s.recvWdnSz) :
    ∃ sent, Emission s sent (s.fillRound segment).1 ∧
      0 < sent.payload.str.length := by
  have hpayload := prepareSegment_payload_pos segment hbuf hwin
  have hpos : 0 < (s.prepareSegment segment).2.lengthInSequenceSpace := by
    rw [TCPSegment.lengthInSequenceSpace_eq, Buffer.size]
    omega
  have hsent := (cut_prepareSegment hsyn hseg).emission hpos
    fun _ _ => hpayload
  rw [fillRound_eq hbuf hwin]
  exact ⟨_, hsent, hpayload⟩

end Round

/-- What holds between two rounds.  The segment object is fresh, or it is the
one that was sent in the last round; in the second case the stream has not
ended, or there was no room for the FIN, or the FIN was sent. -/
structure Looping (s : TCPSender) (segment : TCPSegment) : Prop where
  syn : s.syn = true
  header : segment.header = {} ∨ s.streamIn.bufferSize = 0
  finDone : segment = {} ∨
    (s.streamIn.eof = true → s.finSent = true ∨ s.recvWdnSz = 0)

theorem eof_iff (bs : ByteStream) :
    bs.eof = true ↔ bs.inputEnded = true ∧ bs.bufferSize = 0 := by
  rw [ByteStream.eof, Bool.and_eq_true, ByteStream.bufferEmpty,
    beq_iff_eq]
  rfl

theorem Looping.fillRound
    {s : TCPSender} {segment : TCPSegment} (h : Looping s segment)
    (hbuf : 0 < s.streamIn.bufferSize) (hwin : 0 < s.recvWdnSz) :
    Emits s (s.fillRound segment).1 ∧
      Looping (s.fillRound segment).1 (s.fillRound segment).2 ∧
      (s.fillRound segment).1.streamIn.bufferSize <
        s.streamIn.bufferSize := by
  have hseg : segment.header = {} :=
    h.header.resolve_right (Nat.pos_iff_ne_zero.mp hbuf)
  obtain ⟨sent, hsent, hpayload⟩ :=
    fillRound_emission h.syn hseg hbuf hwin
  have hsize := hsent.bufferSize_add
  refine ⟨hsent.emits, ⟨hsent.syn, ?_, Or.inr ?_⟩, by omega⟩
  · rw [fillRound_eq hbuf hwin]
    simp only [sendSegment_streamIn]
    unfold prepareSegment piggybackFin
    split
    next hcond =>
      rw [Bool.and_eq_true] at hcond
      exact Or.inr ((eof_iff _).mp hcond.1).2
    · exact Or.inl hseg
  · rw [fillRound_eq hbuf hwin]
    simp only [sendSegment_streamIn, sendSegment_recvWdnSz,
      sendSegment_finSent]
    unfold prepareSegment piggybackFin
    split
    · exact fun _ => Or.inl rfl
    next hcond =>
      intro heof
      rw [Bool.and_eq_true, decide_eq_true_iff] at hcond
      exact Or.inr (Nat.eq_zero_of_not_pos fun hroom => hcond ⟨heof, hroom⟩)

/-- With one unit of fuel for each buffered byte the loop ends because its
condition fails. -/
theorem fillLoop_spec
    (fuel : ℕ) {s : TCPSender} {segment : TCPSegment}
    (h : Looping s segment) (hfuel : s.streamIn.bufferSize ≤ fuel) :
    Emits s (fillLoop fuel s segment).1 ∧
      Looping (fillLoop fuel s segment).1 (fillLoop fuel s segment).2 ∧
      ((fillLoop fuel s segment).1.streamIn.bufferSize = 0 ∨
        (fillLoop fuel s segment).1.recvWdnSz = 0) := by
  induction fuel generalizing s segment with
  | zero =>
      exact ⟨Relation.ReflTransGen.refl, h, Or.inl (Nat.le_zero.mp hfuel)⟩
  | succ fuel ih =>
      rw [fillLoop]
      by_cases hcond : s.streamIn.bufferSize > 0 ∧ s.recvWdnSz > 0
      · rw [if_pos hcond]
        obtain ⟨hemits, hloop, hless⟩ := h.fillRound hcond.1 hcond.2
        obtain ⟨hrest, hend⟩ := ih hloop (by omega)
        exact ⟨Relation.ReflTransGen.trans hemits hrest, hend⟩
      · have hstop : s.streamIn.bufferSize = 0 ∨ s.recvWdnSz = 0 := by
          omega
        rw [if_neg hcond]
        exact ⟨Relation.ReflTransGen.refl, h, hstop⟩

/-- The window is used up, or everything has been sent that there is. -/
def Drained (s : TCPSender) : Prop :=
  s.recvWdnSz = 0 ∨
    (s.streamIn.bufferSize = 0 ∧
      (s.streamIn.inputEnded = true → s.finSent = true))

theorem sendFin_spec
    {s : TCPSender} {segment : TCPSegment} (h : Looping s segment)
    (hend : s.streamIn.bufferSize = 0 ∨ s.recvWdnSz = 0) :
    Emits s (s.sendFin segment) ∧ Drained (s.sendFin segment) := by
  unfold sendFin
  split
  next hcond =>
    rw [Bool.and_eq_true, Bool.and_eq_true, Bool.not_eq_true',
      decide_eq_true_iff] at hcond
    obtain ⟨⟨hno, heof⟩, hwin⟩ := hcond
    have hfresh : segment = {} := by
      refine h.finDone.resolve_right fun hdone => ?_
      rcases hdone heof with hsent | hzero
      · exact absurd (hno.symm.trans hsent) (by decide)
      · omega
    subst hfresh
    have hsent := ((cut_nothing h.syn).setFin h.syn rfl heof hwin).emission
      (by decide) fun _ hfin => absurd (hno.symm.trans hfin) (by decide)
    rw [sendSegment_setFinSent]
    refine ⟨hsent.emits, Or.inr ⟨((eof_iff _).mp (hsent.fin rfl)).2, ?_⟩⟩
    intro _
    exact hsent.finSent.trans (Bool.or_true _)
  next hcond =>
    refine ⟨Relation.ReflTransGen.refl, ?_⟩
    rcases Nat.eq_zero_or_pos s.recvWdnSz with hzero | hwin
    · exact Or.inl hzero
    · have hbuf := hend.resolve_right (Nat.pos_iff_ne_zero.mp hwin)
      refine Or.inr ⟨hbuf, fun hended => ?_⟩
      by_contra hno
      rw [Bool.not_eq_true] at hno
      apply hcond
      rw [hno, (eof_iff _).mpr ⟨hended, hbuf⟩, decide_eq_true hwin]
      rfl

/-! ## `fill_window` -/

section FillWindow

variable {s : TCPSender}

theorem fillWindow_of_not_syn (h : s.syn = false) :
    s.fillWindow =
      sendSegment { s with syn := true } { header := { syn := true } } := by
  simp [fillWindow, h]

theorem fillWindow_spec (h : s.syn = true) :
    Emits s s.fillWindow ∧ Drained s.fillWindow := by
  have hloop : Looping s {} := ⟨h, Or.inl rfl, Or.inl rfl⟩
  obtain ⟨hemits, hlooping, hend⟩ := fillLoop_spec _ hloop le_rfl
  obtain ⟨hfin, hdrained⟩ := sendFin_spec hlooping hend
  have heq : s.fillWindow =
      sendFin (fillLoop s.streamIn.bufferSize s {}).1
        (fillLoop s.streamIn.bufferSize s {}).2 := by
    simp [fillWindow, h]
  rw [heq]
  exact ⟨Relation.ReflTransGen.trans hemits hfin, hdrained⟩

theorem fillWindow_emits (s : TCPSender) : Emits s s.fillWindow := by
  cases h : s.syn with
  | false =>
      rw [fillWindow_of_not_syn h]
      exact (emission_syn h).emits
  | true => exact (fillWindow_spec h).1

end FillWindow

section SynSent

variable (capacity : ℕ) (retxTimeout : UInt16)
  (fixedIsn : Option WrappingInt32) (randomIsn : UInt32)

/-- A new sender after the `fill_window` that emits the SYN. -/
def synSent : TCPSender :=
  (new capacity retxTimeout fixedIsn randomIsn).fillWindow

theorem emission_synSent :
    ∃ segment, Emission (new capacity retxTimeout fixedIsn randomIsn) segment
      (synSent capacity retxTimeout fixedIsn randomIsn) := by
  have he := emission_syn (s := new capacity retxTimeout fixedIsn randomIsn)
    rfl
  rw [← fillWindow_of_not_syn rfl] at he
  exact ⟨_, he⟩

end SynSent

end TCPSender

end Sponge
