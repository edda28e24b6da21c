import Sponge.TCPSender.Accounting
import Sponge.TCPSender.Closing

/-!
# A sender under bounds

Suppose that every acknowledgment which the sender does not ignore is of at
most the sequence number `acked`, and that its window ends at most at `limit`.
Then the sender never regards more than `acked` as acknowledged and never
sends anything beyond `limit`.

The bounds may grow in the course of a run.  They are what a peer has
received and what it has room for.
-/

namespace Sponge

namespace TCPSender

/-- The sender keeps within the bounds. -/
structure Within (limit acked : ℕ) (s : TCPSender) : Prop where
  tracked : Tracked s
  fresh : s.syn = false → s.nextSeqnoAbsolute = 0 ∧ s.recvWdnSz = 0
  window : s.nextSeqnoAbsolute + s.recvWdnSz ≤ limit
  una : s.nextSeqnoAbsolute ≤ s.bytesInFlight + acked
  absAckno : s.absAckno ≤ s.nextSeqnoAbsolute

/-- An acknowledgment keeps within the bounds, and arrives after the SYN was
sent. -/
def Granted (limit acked : ℕ) (s : TCPSender) : Op → Prop
  | .ackReceived ackno windowSize =>
      s.syn = true ∧ s.absoluteAckno ackno ≤ acked ∧
        s.absoluteAckno ackno + max windowSize.toNat 1 ≤ limit
  | .write _ => True
  | .endInput => True
  | .fillWindow => True
  | .tick _ => True
  | .sendEmptySegment => True

theorem within_new
    (capacity : ℕ) (retxTimeout : UInt16) (fixedIsn : Option WrappingInt32)
    (randomIsn : UInt32) (limit acked : ℕ) :
    Within limit acked (new capacity retxTimeout fixedIsn randomIsn) where
  tracked := tracked_new capacity retxTimeout fixedIsn randomIsn
  fresh := fun _ => ⟨rfl, rfl⟩
  window := Nat.zero_le _
  una := Nat.zero_le _
  absAckno := le_rfl

section Within

variable {limit acked : ℕ} {s t : TCPSender} {op : Op}

theorem Within.mono
    {limit' acked' : ℕ} (h : Within limit acked s) (hlimit : limit ≤ limit')
    (hacked : acked ≤ acked') : Within limit' acked' s where
  tracked := h.tracked
  fresh := h.fresh
  window := h.window.trans hlimit
  una := h.una.trans (Nat.add_le_add_left hacked _)
  absAckno := h.absAckno

/-- Emissions move the next sequence number through the window and count as
in flight.  The SYN alone is sent without a window. -/
theorem Within.emits
    (hlimit : 1 ≤ limit) (h : Within limit acked s) (he : Emits s t)
    (habs : t.absAckno = s.absAckno) : Within limit acked t := by
  have hrest : Tracked t ∧
      (t.syn = false → t.nextSeqnoAbsolute = 0 ∧ t.recvWdnSz = 0) ∧
      t.nextSeqnoAbsolute + t.recvWdnSz ≤ limit ∧
      t.nextSeqnoAbsolute ≤ t.bytesInFlight + acked := by
    refine he.preserves (P := fun r => Tracked r ∧
      (r.syn = false → r.nextSeqnoAbsolute = 0 ∧ r.recvWdnSz = 0) ∧
      r.nextSeqnoAbsolute + r.recvWdnSz ≤ limit ∧
      r.nextSeqnoAbsolute ≤ r.bytesInFlight + acked) ?_
      ⟨h.tracked, h.fresh, h.window, h.una⟩
    rintro r segment t hemission ⟨htracked, hfresh, hwindow, huna⟩
    have hnext := hemission.next
    have hflight := hemission.inFlight
    refine ⟨htracked.emission hemission, ?_, ?_, by omega⟩
    · intro hno
      exact absurd (hemission.syn.symm.trans hno) (by decide)
    · cases hsyn : r.syn with
      | true =>
          have hused := hemission.window hsyn
          omega
      | false =>
          have hsegment : segment.header.syn = true := by
            rw [hemission.synFirst, hsyn]
            rfl
          obtain ⟨hpayload, hfin⟩ := hemission.synAlone hsegment
          have hlength : segment.lengthInSequenceSpace = 1 := by
            rw [TCPSegment.lengthInSequenceSpace, hpayload, hsegment, hfin]
            rfl
          obtain ⟨hzero, hnone⟩ := hfresh hsyn
          rw [hemission.windowSyn hsyn, hnone]
          omega
  exact
    { tracked := hrest.1
      fresh := hrest.2.1
      window := hrest.2.2.1
      una := hrest.2.2.2
      absAckno := by
        rw [habs]
        exact h.absAckno.trans he.next_le }

theorem Within.fillWindow (hlimit : 1 ≤ limit) (h : Within limit acked s) :
    Within limit acked s.fillWindow :=
  h.emits hlimit (fillWindow_emits s) (fillWindow_absAckno s)

/-- What is taken over from an acknowledgment within the bounds. -/
theorem Within.applyAck
    (h : Within limit acked s) {ackno : WrappingInt32} {windowSize : UInt16}
    (hop : Granted limit acked s (.ackReceived ackno windowSize))
    (hsent : s.absoluteAckno ackno ≤ s.nextSeqnoAbsolute)
    (hroom : s.nextSeqnoAbsolute ≤
      add64 (s.absoluteAckno ackno) windowSize.toNat) :
    Within limit acked
      (s.applyAck (s.absoluteAckno ackno) windowSize) := by
  obtain ⟨hsyn, hacked, hwindow⟩ := hop
  have happlied := applied_applyAck s (s.absoluteAckno ackno) windowSize
  have hopened := applied_window hsent hroom
  have hnext := happlied.sameSent.next
  obtain ⟨una, done, rest, hin⟩ := h.tracked
  obtain ⟨una', front, back, hsplit, hafter, hboundary⟩ :=
    hin.applied happlied
  refine ⟨⟨_, _, _, hafter⟩, ?_, by omega, ?_, ?_⟩
  · intro hno
    exact absurd (hsyn.symm.trans (happlied.sameSent.syn.symm.trans hno))
      (by decide)
  · have hbefore := hin.inFlight_eq
    have hnow := hafter.inFlight_eq
    have hle := h.una
    rcases hboundary with heq | hnone
    · omega
    · -- without a removed segment, as much is acknowledged as before
      have hsame : una' = una := by
        have hsum := hin.acked_contiguous.sum_eq
        have hsum' := hafter.acked_contiguous.sum_eq
        rw [hnone, List.append_nil] at hsum'
        omega
      omega
  · rw [happlied.absAckno_eq, hnext]
    exact hsent

theorem Within.ackReceived
    (hlimit : 1 ≤ limit) (h : Within limit acked s) {ackno : WrappingInt32}
    {windowSize : UInt16}
    (hop : Granted limit acked s (.ackReceived ackno windowSize)) :
    Within limit acked (s.ackReceived ackno windowSize) := by
  rcases ackReceived_cases s ackno windowSize with
    ⟨-, heq⟩ | ⟨-, -, heq⟩ | ⟨hsent, hroom, heq⟩
  · rw [heq]
    exact h
  · rw [heq]
    exact
      { tracked := h.tracked.congr rfl rfl rfl rfl rfl
        fresh := fun hno => ⟨(h.fresh hno).1, rfl⟩
        window := (Nat.le_add_right _ _).trans h.window
        una := h.una
        absAckno := h.absAckno }
  · rw [heq]
    exact (h.applyAck hop hsent hroom).fillWindow hlimit

theorem Within.tick (h : Within limit acked s) (ms : ℕ) :
    Within limit acked (s.tick ms) := by
  have hticked := ticked_tick s ms
  have hsame := hticked.sameSent
  refine ⟨h.tracked.tick ms, ?_, ?_, ?_, ?_⟩
  · rw [hsame.syn, hsame.next, hticked.window]
    exact h.fresh
  · rw [hsame.next, hticked.window]
    exact h.window
  · rw [hsame.next, hticked.inFlight]
    exact h.una
  · rw [hsame.next, tick_absAckno]
    exact h.absAckno

theorem Within.drivenStep
    (hlimit : 1 ≤ limit) (h : Within limit acked s)
    (hop : Granted limit acked s op) :
    Within limit acked (s.drivenStep op) := by
  cases op with
  | write data =>
      have hwritten : Within limit acked (s.step (.write data)) :=
        ⟨h.tracked.step _, h.fresh, h.window, h.una, h.absAckno⟩
      exact hwritten.fillWindow hlimit
  | endInput =>
      have hended : Within limit acked (s.step .endInput) :=
        ⟨h.tracked.step _, h.fresh, h.window, h.una, h.absAckno⟩
      exact hended.fillWindow hlimit
  | fillWindow => exact h.fillWindow hlimit
  | ackReceived ackno windowSize => exact h.ackReceived hlimit hop
  | tick ms => exact h.tick ms
  | sendEmptySegment =>
      exact ⟨h.tracked.step .sendEmptySegment, h.fresh, h.window, h.una,
        h.absAckno⟩

end Within

end TCPSender

end Sponge
