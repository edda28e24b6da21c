import Sponge.EndToEnd.Pipe

/-!
# One direction of a reliable network

Now the network keeps the order and loses nothing: the segments of an end
arrive one by one, in the order in which it has sent them.  As long as no end
gives up and the applications read what arrives, everything then goes forward.
The segments in transit continue what the receiver has reached, and the
acknowledgments in transit lead the sender to what the receiver says.

An end that has become inactive ignores what arrives, but then it has nothing
left to expect.
-/

namespace Sponge

/-! ## What the headers show -/

/-- What a sender knows of its peer: the acknowledgment number and the end of
the window. -/
structure View where
  acked : ℕ
  edge : ℕ

/-- What the sender knows. -/
def TCPSender.view (s : TCPSender) : View := ⟨s.absAckno, s.edge⟩

/-- The end of the window that the receiver offers.  Before the SYN there is
room for the SYN. -/
def TCPReceiver.edge (r : TCPReceiver) : ℕ :=
  if r.syn then r.reached + min r.windowSize 65535 else 1

namespace Pair

open TCPSender (Advances Attentive)
open TCPConnection (UpToDate EndRespected Greeted Ending)

/-- With an acknowledgment the header shows a window that is open and not
behind the one known; without one it shows nothing. -/
def Advertises (isn : WrappingInt32) (v : View) (seg : TCPSegment)
    (v' : View) : Prop :=
  if seg.header.ack then
    seg.header.ackno = wrap v'.acked isn ∧
      v'.edge = v'.acked + seg.header.win.toNat ∧
      0 < seg.header.win.toNat ∧ v.acked ≤ v'.acked ∧ v.edge ≤ v'.edge
  else v' = v

/-- The headers lead from the view `v` to what the receiver has reached, and
not beyond its window. -/
def Shows (isn : WrappingInt32) (v : View) (segs : List TCPSegment)
    (r : TCPReceiver) : Prop :=
  ∃ edge ≤ r.edge, Path (Advertises isn) v segs ⟨r.reached, edge⟩

section Shows

variable {isn : WrappingInt32} {v w : View} {seg : TCPSegment}
  {segs pushed : List TCPSegment} {r t : TCPReceiver}

theorem Advertises.le (h : Advertises isn v seg w) :
    v.acked ≤ w.acked ∧ v.edge ≤ w.edge := by
  unfold Advertises at h
  split at h
  · exact h.2.2.2
  · rw [h]
    exact ⟨le_rfl, le_rfl⟩

theorem path_advertises_le (h : Path (Advertises isn) v segs w) :
    v.acked ≤ w.acked ∧ v.edge ≤ w.edge := by
  refine h.preserves (P := fun u => v.acked ≤ u.acked ∧ v.edge ≤ u.edge) ?_
    ⟨le_rfl, le_rfl⟩
  rintro u seg u' - hadv ⟨hacked, hedge⟩
  exact ⟨hacked.trans hadv.le.1, hedge.trans hadv.le.2⟩

/-- To a sender that has missed a wider window the headers show the same
acknowledgment numbers. -/
theorem path_advertises_behind
    {u : View} (h : Path (Advertises isn) u segs w)
    (hacked : v.acked = u.acked) (hedge : v.edge ≤ u.edge) :
    ∃ edge ≤ w.edge, Path (Advertises isn) v segs ⟨w.acked, edge⟩ := by
  induction segs generalizing u with
  | nil =>
      obtain rfl : u = w := h
      exact ⟨v.edge, hedge, by rw [← hacked]; rfl⟩
  | cons seg segs ih =>
      obtain ⟨m, hm, hrest⟩ := h
      cases hack : seg.header.ack with
      | true =>
          rw [Advertises, if_pos hack, ← hacked] at hm
          refine ⟨w.edge, le_rfl, m, ?_, hrest⟩
          rw [Advertises, if_pos hack]
          exact ⟨hm.1, hm.2.1, hm.2.2.1, hm.2.2.2.1, hedge.trans hm.2.2.2.2⟩
      | false =>
          rw [Advertises, hack, if_neg Bool.false_ne_true] at hm
          obtain ⟨edge, hle, hpath⟩ := ih (hm ▸ hrest) hacked hedge
          refine ⟨edge, hle, v, ?_, hpath⟩
          rw [Advertises, hack, if_neg Bool.false_ne_true]

end Shows

end Pair

namespace TCPReceiver

section Edge

variable {r t : TCPReceiver}

/-- The receiver acknowledges what it has reached if nothing waits. -/
theorem Invariant.expAck_eq_reached
    (h : Invariant r) (hsyn : r.syn = true)
    (hempty : r.reassembler.empty = true) : r.expAck = r.reached := by
  rw [h.expAck_eq hsyn, computedAck, hempty, Bool.and_true, reached,
    if_pos hsyn]

theorem Invariant.reached_add_windowSize
    (h : Invariant r) (hsyn : r.syn = true) :
    r.reached + r.windowSize =
      1 + r.streamOut.bytesRead + r.capacity + r.ended.toNat := by
  have hwritten := r.streamOut.bytesWritten_eq
  have hsize := r.streamOut.bufferSize_le
  rw [h.cap_eq] at hsize
  rw [reached, if_pos hsyn, h.windowSize_eq, ByteStream.remainingCapacity_eq,
    h.cap_eq]
  omega

theorem Grows.edge_le
    (h : Grows r t) (hr : Invariant r) (ht : Invariant t) :
    r.edge ≤ t.edge := by
  have hreached := h.reached_le
  unfold edge
  cases hsyn : r.syn with
  | true =>
      have hsyn' := h.syn hsyn
      have hbefore := hr.reached_add_windowSize hsyn
      have hafter := ht.reached_add_windowSize hsyn'
      have hended := toNat_le h.ended
      have hread := h.read
      have hcapacity := h.capacity
      rw [if_pos rfl, if_pos hsyn']
      omega
  | false =>
      rw [if_neg Bool.false_ne_true]
      split
      next hsyn' =>
        rw [reached, if_pos hsyn']
        omega
      · exact le_rfl

end Edge

end TCPReceiver

namespace Pair

open TCPSender (Advances Attentive)
open TCPConnection (UpToDate EndRespected Greeted Ending)

section Shows

variable {isn : WrappingInt32} {v : View} {segs pushed : List TCPSegment}
  {r t : TCPReceiver}

/-- What the receiver says now is appended to what it has said before. -/
theorem Shows.push
    (h : Shows isn v segs r) (ht : t.Invariant)
    (hempty : t.reassembler.empty = true)
    (hisn : t.syn = true → t.isn = isn) (hroom : 0 < t.windowSize)
    (hreached : r.reached ≤ t.reached) (hedge : r.edge ≤ t.edge)
    (hpushed : ∀ seg ∈ pushed, UpToDate t seg)
    (hquiet : t.syn = false → ∀ seg ∈ pushed, seg.header.ack = false)
    (hnew : t.reached = r.reached ∨ pushed ≠ []) :
    Shows isn v (segs ++ pushed) t := by
  obtain ⟨edge, hle, hpath⟩ := h
  have hrest : ∃ edge' ≤ t.edge,
      Path (Advertises isn) ⟨r.reached, edge⟩ pushed ⟨t.reached, edge'⟩ := by
    cases hsyn : t.syn with
    | false =>
        have hzero : t.reached = 0 := by
          rw [TCPReceiver.reached, hsyn]
          rfl
        obtain heq : t.reached = r.reached := by omega
        refine ⟨edge, hle.trans hedge, ?_⟩
        rw [heq]
        refine path_of_forall fun seg hmem => ?_
        rw [Advertises, hquiet hsyn seg hmem, if_neg Bool.false_ne_true]
    | true =>
        have hackno : t.ackno = some (wrap t.reached isn) := by
          rw [TCPReceiver.ackno, if_pos hsyn, ht.ack_eq hsyn,
            ht.expAck_eq_reached hsyn hempty, hisn hsyn]
        have htop : t.edge = t.reached + min t.windowSize 65535 := by
          rw [TCPReceiver.edge, if_pos hsyn]
        -- every header shows the whole window
        have hadv : ∀ u : View, u.acked ≤ t.reached → u.edge ≤ t.edge →
            ∀ seg ∈ pushed, Advertises isn u seg ⟨t.reached, t.edge⟩ := by
          intro u hu hu' seg hmem
          obtain ⟨hack, heq, hwin⟩ := hpushed seg hmem _ hackno
          rw [Advertises, if_pos hack, hwin]
          exact ⟨heq, htop, by omega, hu, hu'⟩
        cases pushed with
        | nil =>
            obtain heq := hnew.resolve_right (not_not.mpr rfl)
            exact ⟨edge, hle.trans hedge, by rw [heq]; rfl⟩
        | cons seg rest =>
            refine ⟨t.edge, le_rfl, ⟨t.reached, t.edge⟩,
              hadv ⟨r.reached, edge⟩ hreached (hle.trans hedge) seg
                List.mem_cons_self, ?_⟩
            exact path_of_forall fun seg' hmem =>
              hadv _ le_rfl le_rfl seg' (List.mem_cons_of_mem seg hmem)
  obtain ⟨edge', hle', hpath'⟩ := hrest
  exact ⟨edge', hle', path_append.mpr ⟨_, hpath, hpath'⟩⟩

end Shows

/-! ## One end -/

/-- An end that has not failed, has greeted its peer in time and has room. -/
structure Fit (c : TCPConnection) : Prop where
  sound : Sound c
  greeted : Greeted c
  ending : Ending c
  room : 0 < c.receiver.windowSize
  capacity : c.receiver.capacity + 2 ^ 32 ≤ 2 ^ 64

section Sender

variable {c : TCPConnection} {op : TCPConnection.Op} {seg : TCPSegment}

theorem attentive_mute
    {s : TCPSender} (h : Attentive s) (out : List TCPSegment) (error : Bool) :
    Attentive (s.mute out error) :=
  (h.congr (t := s.mute out error)
    (h.segmented.congr (h.segmented.tracked.mute out error) rfl rfl rfl rfl
      rfl rfl fun _ heof => heof) rfl rfl rfl rfl rfl).1

/-- Without an acknowledgment a step teaches the sender nothing. -/
theorem attentive_step
    (h : Attentive c.sender) (hop : EndRespected c op)
    (hack : ∀ seg, op = .segmentReceived seg → c.active = true →
      seg.header.rst = false → seg.header.ack = false) :
    Attentive (c.step op).sender ∧
      (c.step op).sender.view = c.sender.view := by
  have hops : Guarded TCPSender.drivenStep
      (fun s op => TCPSender.EndRespected s op ∧
        ∀ ackno windowSize, op ≠ .ackReceived ackno windowSize)
      c.sender (c.senderOps op) := by
    apply TCPConnection.guarded_senderOps
    · exact fun _ => ⟨trivial, nofun⟩
    · exact fun _ _ => ⟨trivial, nofun⟩
    · exact fun _ _ => ⟨trivial, nofun⟩
    · rintro data rfl hactive
      exact ⟨TCPConnection.accepted_eq_zero hop hactive, nofun⟩
    · intro seg heq hactive hrst hflag
      have hnone := hack seg heq hactive hrst
      exact absurd (hnone.symm.trans hflag) (by decide)
  refine c.step_sender_invariant
    (P := fun s => Attentive s ∧ s.view = c.sender.view) ?_ ?_ ⟨h, rfl⟩ hops
  · exact fun _ out error hs => ⟨attentive_mute hs.1 out error, hs.2⟩
  · rintro s op ⟨hs, hview⟩ ⟨hrespected, hnone⟩
    obtain ⟨hattentive, habs, hedge⟩ := hs.drivenStep hrespected hnone
    refine ⟨hattentive, ?_⟩
    rw [← hview, TCPSender.view, TCPSender.view, habs, hedge]

/-- A sender that receives an acknowledgment does nothing else. -/
theorem step_sender_of_ack
    (hactive : c.active = true) (hrst : seg.header.rst = false)
    (hack : seg.header.ack = true) :
    ∃ out error, (c.step (.segmentReceived seg)).sender =
      (c.sender.ackReceived seg.header.ackno seg.header.win).mute out
        error := by
  obtain ⟨out, heq⟩ := c.step_sender (.segmentReceived seg)
  have hopens : ¬ (seg.lengthInSequenceSpace > 0 ∧ c.opens seg = true) := by
    rintro ⟨-, hopens⟩
    exact absurd (hack.symm.trans (TCPConnection.ack_of_opens hopens))
      (by decide)
  rw [TCPConnection.senderOps, hactive, hrst, Bool.not_false, Bool.and_true,
    if_pos rfl, TCPConnection.inboundOps, if_pos hack, if_neg hopens] at heq
  exact ⟨out, _, heq⟩

end Sender

/-! ## One direction -/

/-- How many segments an end has received after a call. -/
def heard (got : ℕ) : TCPConnection.Op → ℕ
  | .segmentReceived _ => got + 1
  | .connect => got
  | .write _ => got
  | .endInputStream => got
  | .tick _ => got
  | .readInbound _ => got

/-- The call hands over the first of the segments that an end has not received
yet, if it hands one over. -/
def Next (sent : List TCPSegment) (got : ℕ) (op : TCPConnection.Op) : Prop :=
  ∀ seg, op = .segmentReceived seg → sent[got]? = some seg

/-- The stream of `c` flows to `d` in order.  The end `d` has received `gotD`
segments of `c`, and `c` has received `gotC` of `d`. -/
structure Reliable (c d : TCPConnection) (gotC gotD : ℕ) : Prop where
  acks : Acknowledges c d
  attentive : Attentive c.sender
  ahead : c.sender.view.acked < c.sender.view.edge
  inOrder : InOrder c.sender d.receiver
  gotC_le : gotC ≤ d.segmentsOut.length
  gotD_le : gotD ≤ c.segmentsOut.length
  data : Path (Advances c.sender.isn) d.receiver.reached (c.pipe.drop gotD)
    c.sender.nextSeqnoAbsolute
  view : Shows c.sender.isn c.sender.view (d.segmentsOut.drop gotC) d.receiver

section Reliable

variable {c d : TCPConnection} {gotC gotD : ℕ} {op : TCPConnection.Op}
  {seg : TCPSegment}

theorem drop_of_next
    {sent : List TCPSegment} {got : ℕ} (h : sent[got]? = some seg) :
    sent.drop got = seg :: sent.drop (got + 1) := by
  obtain ⟨hlt, heq⟩ := List.getElem?_eq_some_iff.mp h
  rw [List.drop_eq_getElem_cons hlt, heq]

theorem path_advances_le
    {isn : WrappingInt32} {pos pos' : ℕ} {segs : List TCPSegment}
    (h : Path (Advances isn) pos segs pos') : pos ≤ pos' := by
  refine h.preserves (P := fun p => pos ≤ p) ?_ le_rfl
  rintro p seg p' - ⟨n, -, ⟨-, heq⟩ | ⟨-, heq⟩⟩ hle
  · omega
  · omega

/-- An inactive end that has not failed has received everything, and
everything that it has sent was acknowledged. -/
theorem Fit.finished (h : Fit c) (hinactive : c.active = false) :
    c.receiver.streamOut.inputEnded = true ∧ c.sender.bytesInFlight = 0 := by
  rcases TCPConnection.inactive_cases hinactive with
    ⟨herror, -⟩ | ⟨heof, -, hflight⟩
  · exact absurd (h.sound.sender.symm.trans herror) (by decide)
  · exact ⟨((TCPSender.eof_iff _).mp heof).1, hflight⟩

/-- The receiver has room for everything that has been sent. -/
theorem Reliable.fits
    (h : Reliable c d gotC gotD) (hsyn : d.receiver.syn = true) :
    c.sender.nextSeqnoAbsolute ≤
      1 + d.receiver.reassembler.windowEnd + d.receiver.ended.toNat := by
  have hinv := h.acks.flows.follows.invariant
  obtain ⟨edge, hedge, hpath⟩ := h.view
  have hle : c.sender.edge ≤ edge := (path_advertises_le hpath).2
  have hnext : c.sender.nextSeqnoAbsolute ≤ c.sender.edge := by
    rw [TCPSender.edge]
    omega
  have hwindow := hinv.reached_add_windowSize hsyn
  have htop : d.receiver.edge ≤ d.receiver.reached + d.receiver.windowSize := by
    rw [TCPReceiver.edge, if_pos hsyn]
    omega
  rw [hinv.windowEnd_eq]
  omega

theorem Reliable.windowEnd_lt
    (h : Reliable c d gotC gotD) (hd : Fit d) :
    d.receiver.reassembler.windowEnd < 2 ^ 64 := by
  have hinv := h.acks.flows.follows.invariant
  have hbelow := h.acks.flows.below
  have hwithin := h.acks.flows.follows.agrees.within
  have hnext := h.acks.flows.segmented.next_eq
  have hread := d.receiver.streamOut.bytesWritten_eq
  have hcapacity := hd.capacity
  rw [hinv.expectedIndex_eq] at hwithin
  rw [hinv.windowEnd_eq]
  omega

/-! ### The sending end makes a step -/

theorem Reliable.view_step
    (h : Reliable c d gotC gotD) (hc : Fit c) (hd : Fit d)
    (hop : EndRespected c op) (hseg : Next d.segmentsOut gotC op) :
    Attentive (c.step op).sender ∧
      (c.step op).sender.view.acked < (c.step op).sender.view.edge ∧
      Shows c.sender.isn (c.step op).sender.view
        (d.segmentsOut.drop (heard gotC op)) d.receiver := by
  -- the sender learns nothing, and there is nothing to learn from
  have hunaware : heard gotC op = gotC →
      (∀ seg, op = .segmentReceived seg → c.active = true →
        seg.header.rst = false → seg.header.ack = false) →
      Attentive (c.step op).sender ∧
        (c.step op).sender.view.acked < (c.step op).sender.view.edge ∧
        Shows c.sender.isn (c.step op).sender.view
          (d.segmentsOut.drop (heard gotC op)) d.receiver := by
    intro hgot hnone
    obtain ⟨hattentive, hview⟩ := attentive_step h.attentive hop hnone
    rw [hview, hgot]
    exact ⟨hattentive, h.ahead, h.view⟩
  cases op with
  | connect => exact hunaware rfl nofun
  | write data => exact hunaware rfl nofun
  | endInputStream => exact hunaware rfl nofun
  | tick ms => exact hunaware rfl nofun
  | readInbound len => exact hunaware rfl nofun
  | segmentReceived seg =>
      have hmem := List.mem_of_getElem? (hseg seg rfl)
      have hrst := hd.sound.rst_eq_false hmem
      obtain ⟨edge, hedge, hpath⟩ := h.view
      rw [drop_of_next (hseg seg rfl)] at hpath
      obtain ⟨m, hadv, hrest⟩ := hpath
      have hfirst : c.sender.absAckno ≤ m.acked := hadv.le.1
      have hreached : m.acked ≤ d.receiver.reached :=
        (path_advertises_le hrest).1
      have hsent := h.acks.flows.reached_le
      have hbelow := h.acks.flows.below
      cases hactive : c.active with
      | false =>
          have hidle := h.attentive.idle_iff.mp (hc.finished hactive).2
          have hknown : c.sender.absAckno = m.acked := by omega
          obtain ⟨edge', hle, hbehind⟩ :=
            path_advertises_behind hrest hknown hadv.le.2
          rw [TCPConnection.step,
            TCPConnection.segmentReceived_of_inactive hactive]
          exact ⟨h.attentive, h.ahead, edge', hle.trans hedge, hbehind⟩
      | true =>
          cases hack : seg.header.ack with
          | false =>
              obtain ⟨hattentive, hview⟩ := attentive_step h.attentive hop
                (fun _ heq _ _ => TCPConnection.Op.segmentReceived.inj heq ▸
                  hack)
              rw [Advertises, hack, if_neg Bool.false_ne_true] at hadv
              rw [hview]
              exact ⟨hattentive, h.ahead, edge, hedge, hadv ▸ hrest⟩
          | true =>
              rw [Advertises, if_pos hack] at hadv
              obtain ⟨hackno, hwindow, hpos, -, hwider⟩ := hadv
              have hk := h.acks.absoluteAckno_eq hreached hackno
              have hwin := seg.header.win.toNat_lt
              have hsyn := h.acks.flows.syn (h.acks.acks seg hmem hrst hack).1
              obtain ⟨hattentive, habs, htop⟩ :=
                h.attentive.ackReceived hk (by omega) hsyn hpos hfirst
                  (by omega) (hwindow ▸ hwider)
              obtain ⟨out, error, heq⟩ := step_sender_of_ack hactive hrst hack
              have hview :
                  (c.step (.segmentReceived seg)).sender.view = m := by
                rw [heq]
                show View.mk _ _ = m
                rw [← hwindow] at htop
                exact congrArg₂ View.mk habs htop
              rw [hview, heq]
              refine ⟨attentive_mute hattentive out error, ?_, edge, hedge,
                hrest⟩
              omega

theorem Reliable.send
    (h : Reliable c d gotC gotD) (hc : Fit c) (hd : Fit d)
    (hop : EndRespected c op)
    (hbelow : (c.step op).sender.nextSeqnoAbsolute < 2 ^ 31)
    (hconnect : op = .connect → c.receiver.syn = false)
    (hreset : c.resets op = false) (hseg : Next d.segmentsOut gotC op) :
    Reliable (c.step op) d (heard gotC op) gotD := by
  have hmem : ∀ seg, op = .segmentReceived seg → seg ∈ d.segmentsOut :=
    fun seg heq => List.mem_of_getElem? (hseg seg heq)
  have hext := c.step_sender_extends op
  have hkept := hc.ending.finKept_step hop
  obtain ⟨pushed, hout, -⟩ := answers_of_connectsUnheard hconnect
  obtain ⟨hattentive, hahead, hview⟩ := h.view_step hc hd hop hseg
  refine
    { acks := h.acks.send hop hbelow hmem
      attentive := hattentive
      ahead := hahead
      inOrder := ⟨h.inOrder.empty, h.inOrder.ended, fun hended => ?_⟩
      gotC_le := ?_
      gotD_le := ?_
      data := ?_
      view := ?_ }
  · have hfin := h.acks.flows.ended hended
    rw [(hkept hfin).2.2]
    exact h.inOrder.complete hended
  · cases op with
    | segmentReceived seg =>
        exact (List.getElem?_eq_some_iff.mp (hseg seg rfl)).1
    | connect => exact h.gotC_le
    | write data => exact h.gotC_le
    | endInputStream => exact h.gotC_le
    | tick ms => exact h.gotC_le
    | readInbound len => exact h.gotC_le
  · rw [hout, List.length_append]
    exact h.gotD_le.trans (Nat.le_add_right _ _)
  · have hconveys := TCPConnection.conveys_step h.attentive.segmented hreset
    obtain ⟨new, hpipe, hnew⟩ := hconveys.piped
    have hlength : gotD ≤ c.pipe.length := by
      rw [TCPConnection.pipe, List.length_append]
      exact h.gotD_le.trans (Nat.le_add_right _ _)
    have hlonger : Path (Advances c.sender.isn) d.receiver.reached
        ((c.pipe ++ new).drop gotD) (c.step op).sender.nextSeqnoAbsolute := by
      rw [List.drop_append_of_le_length hlength]
      exact path_append.mpr ⟨_, h.data, hnew⟩
    rw [hext.isn]
    refine hlonger.congr
      (fun _ _ _ _ => TCPConnection.advances_of_content_eq) ?_
    rw [List.map_drop, List.map_drop, hpipe]
  · rw [hext.isn]
    exact hview

/-! ### The receiving end makes a step -/

theorem InOrder.popOutput
    {s : TCPSender} {r : TCPReceiver} (h : InOrder s r) (len : ℕ) :
    InOrder s (r.popOutput len) ∧ (r.popOutput len).reached = r.reached := by
  have hreached : (r.popOutput len).reached = r.reached := by
    rw [TCPReceiver.reached, TCPReceiver.reached,
      TCPReceiver.popOutput_streamOut, ByteStream.popOutput_bytesWritten]
    rfl
  refine ⟨⟨h.empty, ?_, ?_⟩, hreached⟩
  · rw [TCPReceiver.popOutput_streamOut, ByteStream.popOutput_inputEnded]
    exact h.ended
  · rw [hreached]
    exact h.complete

/-- Only a segment takes the receiver further. -/
theorem InOrder.step_still
    {s : TCPSender} (h : InOrder s d.receiver)
    (hop : ∀ seg, op ≠ .segmentReceived seg) :
    InOrder s (d.step op).receiver ∧
      (d.step op).receiver.reached = d.receiver.reached :=
  TCPConnection.step_receiver_rule
    (P := fun r => InOrder s r ∧ r.reached = d.receiver.reached)
    ⟨h, rfl⟩ ⟨⟨h.empty, h.ended, h.complete⟩, rfl⟩
    (fun len _ => h.popOutput len)
    (fun seg heq _ _ => absurd heq (hop seg))

/-- The next segment takes the receiver as far as it advances. -/
theorem Reliable.arrive
    (h : Reliable c d gotC gotD) (hd : Fit d)
    (hnext : c.segmentsOut[gotD]? = some seg) :
    ∃ pos, Advances c.sender.isn d.receiver.reached seg pos ∧
      InOrder c.sender (d.receiver.segmentReceived seg) ∧
      (d.receiver.segmentReceived seg).reached = pos ∧
      Path (Advances c.sender.isn) pos (c.pipe.drop (gotD + 1))
        c.sender.nextSeqnoAbsolute := by
  have hfirst : c.pipe[gotD]? = some seg := by
    have hlt := (List.getElem?_eq_some_iff.mp hnext).1
    rw [TCPConnection.pipe, List.getElem?_append_left hlt]
    exact hnext
  have hpath := h.data
  rw [drop_of_next hfirst] at hpath
  obtain ⟨pos, hadv, hrest⟩ := hpath
  obtain ⟨hinOrder, hreached⟩ := h.inOrder.arrive h.acks.flows
    (List.mem_of_getElem? hnext) hadv hd.room h.fits (h.windowEnd_lt hd)
  exact ⟨pos, hadv, hinOrder, hreached, hrest⟩

/-- An inactive end has nothing to expect. -/
theorem Reliable.nothing_new
    (h : Reliable c d gotC gotD) (hd : Fit d) (hinactive : d.active = false)
    {pos : ℕ} (hge : d.receiver.reached ≤ pos)
    (hle : pos ≤ c.sender.nextSeqnoAbsolute) :
    pos = d.receiver.reached := by
  have hinv := h.acks.flows.follows.invariant
  have hcomplete := h.inOrder.complete (hinv.ended_of_inputEnded
    (hinv.inputEnded_of_output (hd.finished hinactive).1))
  omega

theorem Reliable.data_step
    (h : Reliable c d gotC gotD) (hc : Fit c) (hd : Fit d)
    (hseg : Next c.segmentsOut gotD op) :
    InOrder c.sender (d.step op).receiver ∧
      Path (Advances c.sender.isn) (d.step op).receiver.reached
        (c.pipe.drop (heard gotD op)) c.sender.nextSeqnoAbsolute := by
  have hstill : heard gotD op = gotD →
      (∀ seg, op ≠ .segmentReceived seg) →
      InOrder c.sender (d.step op).receiver ∧
        Path (Advances c.sender.isn) (d.step op).receiver.reached
          (c.pipe.drop (heard gotD op)) c.sender.nextSeqnoAbsolute := by
    intro hgot hno
    obtain ⟨hinOrder, hreached⟩ := h.inOrder.step_still hno
    rw [hgot, hreached]
    exact ⟨hinOrder, h.data⟩
  cases op with
  | connect => exact hstill rfl nofun
  | write data => exact hstill rfl nofun
  | endInputStream => exact hstill rfl nofun
  | tick ms => exact hstill rfl nofun
  | readInbound len => exact hstill rfl nofun
  | segmentReceived seg =>
      have hnext := hseg seg rfl
      have hrst := hc.sound.rst_eq_false (List.mem_of_getElem? hnext)
      obtain ⟨pos, hadv, hinOrder, hreached, hrest⟩ := h.arrive hd hnext
      rw [TCPConnection.step]
      cases hactive : d.active with
      | false =>
          have hold := h.nothing_new hd hactive
            (path_advances_le (path_singleton.mpr hadv))
            (path_advances_le hrest)
          rw [TCPConnection.segmentReceived_of_inactive hactive]
          exact ⟨h.inOrder, hold ▸ hrest⟩
      | true =>
          rw [TCPConnection.segmentReceived_of_active hactive hrst,
            TCPConnection.handle_receiver]
          exact ⟨hinOrder, hreached.symm ▸ hrest⟩

/-- If a step takes the receiver further, something is sent that says so. -/
theorem Reliable.replies
    (h : Reliable c d gotC gotD) (hc : Fit c) (hd : Fit d)
    (hseg : Next c.segmentsOut gotD op) :
    (d.step op).receiver.reached = d.receiver.reached ∨
      (d.step op).segmentsOut ≠ d.segmentsOut := by
  have hstill : (∀ seg, op ≠ .segmentReceived seg) →
      (d.step op).receiver.reached = d.receiver.reached :=
    fun hno => (h.inOrder.step_still hno).2
  cases op with
  | connect => exact Or.inl (hstill nofun)
  | write data => exact Or.inl (hstill nofun)
  | endInputStream => exact Or.inl (hstill nofun)
  | tick ms => exact Or.inl (hstill nofun)
  | readInbound len => exact Or.inl (hstill nofun)
  | segmentReceived seg =>
      have hnext := hseg seg rfl
      have hrst := hc.sound.rst_eq_false (List.mem_of_getElem? hnext)
      rw [TCPConnection.step]
      cases hactive : d.active with
      | false =>
          rw [TCPConnection.segmentReceived_of_inactive hactive]
          exact Or.inl rfl
      | true =>
          rw [TCPConnection.segmentReceived_of_active hactive hrst,
            TCPConnection.handle_receiver]
          by_cases hlen : seg.lengthInSequenceSpace > 0
          · by_cases hlate : d.LateSyn seg
            · -- the SYN of an end that is not the initiator was received before
              have hheard := (hd.greeted.mp hlate.2.2.2.1).resolve_left
                (by rw [hlate.2.2.1]; decide)
              have hignored : ¬ d.receiver.Takes seg := by
                rw [TCPReceiver.Takes, hlate.1, hheard]
                decide
              rw [TCPReceiver.segmentReceived_of_not_takes hignored]
              exact Or.inl rfl
            · right
              rw [TCPConnection.handle_pushed _ _ hlen]
              intro hnone
              have hqueue := List.append_right_eq_self.mp hnone
              refine hlate ((TCPConnection.answering_eq_nil_iff
                (c := { d with timeSinceLastSegmentReceived := 0 })
                hd.ending.orderly.filled).mp ?_)
              rw [Option.toList_eq_nil_iff, Option.map_eq_none_iff,
                List.head?_eq_none_iff] at hqueue
              exact hqueue
          · obtain ⟨pos, ⟨n, -, hpos⟩, -, hreached, -⟩ := h.arrive hd hnext
            left
            rw [hreached]
            omega

theorem Reliable.receive
    (h : Reliable c d gotC gotD) (hc : Fit c) (hd : Fit d)
    (hroom : 0 < (d.step op).receiver.windowSize)
    (hconnect : op = .connect → d.receiver.syn = false)
    (hreset : d.resets op = false) (hseg : Next c.segmentsOut gotD op) :
    Reliable c (d.step op) gotC (heard gotD op) := by
  have hmem : ∀ seg, op = .segmentReceived seg → seg ∈ c.segmentsOut :=
    fun seg heq => List.mem_of_getElem? (hseg seg heq)
  have hacks := h.acks.receive hconnect hmem
  have hgrows := h.acks.grows hmem
  have hsound := hd.sound.step hreset
  have hreplies := h.replies hc hd hseg
  obtain ⟨hinOrder, hdata⟩ := h.data_step hc hd hseg
  obtain ⟨pushed, hout, hpushed⟩ := answers_of_connectsUnheard hconnect
  have hsent : ∀ seg ∈ pushed, seg ∈ (d.step op).segmentsOut := by
    intro seg hseg
    rw [hout]
    exact List.mem_append_right _ hseg
  refine
    { acks := hacks
      attentive := h.attentive
      ahead := h.ahead
      inOrder := hinOrder
      gotC_le := ?_
      gotD_le := ?_
      data := hdata
      view := ?_ }
  · rw [hout, List.length_append]
    exact h.gotC_le.trans (Nat.le_add_right _ _)
  · cases op with
    | segmentReceived seg =>
        exact (List.getElem?_eq_some_iff.mp (hseg seg rfl)).1
    | connect => exact h.gotD_le
    | write data => exact h.gotD_le
    | endInputStream => exact h.gotD_le
    | tick ms => exact h.gotD_le
    | readInbound len => exact h.gotD_le
  · rw [hout, List.drop_append_of_le_length h.gotC_le]
    apply h.view.push hacks.flows.follows.invariant hinOrder.empty
      hacks.flows.follows.isn_eq hroom hgrows.reached_le
      (hgrows.edge_le h.acks.flows.follows.invariant
        hacks.flows.follows.invariant)
    · exact fun seg hseg => hpushed seg hseg
        (hsound.rst_eq_false (hsent seg hseg))
    · exact fun hsyn seg hseg => (hacks.unheard hsyn).quiet seg
        (hsent seg hseg) (hsound.rst_eq_false (hsent seg hseg))
    · refine hreplies.imp_right fun hne hnil => hne ?_
      rw [hout, hnil, List.append_nil]

end Reliable

end Pair

end Sponge
