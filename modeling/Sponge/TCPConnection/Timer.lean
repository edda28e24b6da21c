import Sponge.TCPConnection.Final
import Sponge.TCPSender.Timer

/-!
# The retransmission timer of a connection

A connection gives up when its sender has counted more than
`MAX_RETX_ATTEMPTS` consecutive retransmissions, and then takes no further
part in anything.  So the count stays within one of that bound, and the
timeout, which starts at a 16-bit number and is doubled with every count, far
below the 32 bits it is stored in.
-/

namespace Sponge

namespace TCPConnection

/-- The timer of the sender, with the bound that giving up keeps. -/
structure TimerKept (timeout : UInt16) (c : TCPConnection) : Prop where
  timed : c.sender.Timed timeout.toNat
  count_le : c.sender.consecutiveRetransmissions ≤
    TCPConfig.maxRetxAttempts + 1
  given_up : TCPConfig.maxRetxAttempts <
      c.sender.consecutiveRetransmissions →
    c.sender.streamIn.error = true ∧ c.receiver.streamOut.error = true

variable {timeout : UInt16} {c : TCPConnection}

theorem timerKept_new (cfg : TCPConfig) (randomIsn : UInt32) :
    TimerKept cfg.rtTimeout (new cfg randomIsn) where
  timed := TCPSender.timed_new _ _ _ _
  count_le := Nat.zero_le _
  given_up := fun hmany => absurd hmany (Nat.not_lt_zero _)

/-- An active connection has not counted too many retransmissions. -/
theorem TimerKept.count_of_active
    (h : TimerKept timeout c) (hactive : c.active = true) :
    c.sender.consecutiveRetransmissions ≤ TCPConfig.maxRetxAttempts := by
  by_contra hmany
  obtain ⟨hsender, hreceiver⟩ := h.given_up (not_le.mp hmany)
  have hinactive := inactive_of_errors hsender hreceiver
  exact absurd (hactive.symm.trans hinactive) (by decide)

/-- The operations of the sender that an operation of the connection causes
are ticks only if it is a tick itself. -/
theorem senderOps_untimed
    (c : TCPConnection) {op : Op} (hop : ∀ ms, op ≠ .tick ms) :
    ∀ o ∈ c.senderOps op, ∀ ms, o ≠ .tick ms := by
  rintro _ ho ms rfl
  cases op with
  | connect => simp [senderOps] at ho
  | write data => simp [senderOps] at ho
  | endInputStream => simp [senderOps] at ho
  | tick ms' => exact hop ms' rfl
  | segmentReceived seg =>
      simp only [senderOps, inboundOps] at ho
      split_ifs at ho <;> simp at ho
  | readInbound len => simp [senderOps] at ho

/-- The run of the sender behind an operation of the connection. -/
theorem TimerKept.run_senderOps (h : TimerKept timeout c) (op : Op) :
    (run TCPSender.drivenStep c.sender (c.senderOps op)).Timed
        timeout.toNat ∧
      ((run TCPSender.drivenStep c.sender
          (c.senderOps op)).consecutiveRetransmissions ≤
          c.sender.consecutiveRetransmissions ∨
        (c.active = true ∧ ∃ ms, op = .tick ms ∧
          run TCPSender.drivenStep c.sender (c.senderOps op) =
            c.sender.tick ms ∧
          (c.sender.tick ms).consecutiveRetransmissions ≤
            TCPConfig.maxRetxAttempts + 1)) := by
  by_cases hop : ∃ ms, op = .tick ms
  · obtain ⟨ms, rfl⟩ := hop
    rw [senderOps]
    split
    next hactive =>
      have hcount := h.count_of_active hactive
      obtain ⟨htimed, hmore⟩ := h.timed.tick timeout.toNat_lt hcount ms
      refine ⟨htimed, Or.inr ⟨hactive, ms, rfl, rfl, ?_⟩⟩
      exact hmore.trans (Nat.succ_le_succ hcount)
    · exact ⟨h.timed, Or.inl le_rfl⟩
  · have huntimed := c.senderOps_untimed fun ms heq => hop ⟨ms, heq⟩
    have hrun := run_invariant
      (fun s o (hs : s.Timed timeout.toNat ∧
          s.consecutiveRetransmissions ≤
            c.sender.consecutiveRetransmissions) ho =>
        (hs.1.drivenStep ho).imp_right fun hle => hle.trans hs.2)
      ⟨h.timed, le_rfl⟩ (guarded_of_forall_mem huntimed c.sender)
    exact ⟨hrun.1, Or.inl hrun.2⟩

theorem TimerKept.step (h : TimerKept timeout c) (op : Op) :
    TimerKept timeout (c.step op) := by
  obtain ⟨out, hsender⟩ := c.step_sender op
  have herror := c.step_sender_error op
  have herror' := c.step_receiver_error op
  obtain ⟨htimed, hcount⟩ := h.run_senderOps op
  have hnew : (c.step op).sender.consecutiveRetransmissions =
      (run TCPSender.drivenStep c.sender
        (c.senderOps op)).consecutiveRetransmissions := by
    rw [hsender]
    rfl
  refine
    { timed := ?_
      count_le := ?_
      given_up := ?_ }
  · rw [hsender]
    exact htimed.congr rfl rfl rfl rfl rfl rfl rfl htimed.rto_eq
      htimed.count_zero
  · rw [hnew]
    rcases hcount with hle | ⟨-, ms, -, heq, hle⟩
    · exact hle.trans h.count_le
    · rw [heq]
      exact hle
  · intro hmany
    rw [hnew] at hmany
    rw [herror, herror']
    rcases hcount with hle | ⟨hactive, ms, rfl, heq, -⟩
    · obtain ⟨hbefore, hbefore'⟩ := h.given_up (lt_of_lt_of_le hmany hle)
      rw [hbefore, hbefore']
      exact ⟨rfl, rfl⟩
    · -- the tick that counts one too many is the one that gives up
      rw [heq] at hmany
      rw [resets, hactive, decide_eq_true hmany]
      exact ⟨Bool.or_true _, Bool.or_true _⟩

/-- In every state that a connection with any timeout reaches: the timer of
the sender runs exactly while a segment is outstanding; while it runs, the
timeout is the initial one doubled once for every consecutive retransmission;
their number is at most one more than the allowed one, and is that only on a
connection that has been given up; and doubling the timeout on an active
connection stays within 32 bits. -/
theorem run_timer_and_backOff
    (cfg : TCPConfig) (randomIsn : UInt32) (ops : List Op) :
    let c := run step (new cfg randomIsn) ops
    (c.sender.timerOn = true ↔ c.sender.outstandingSegments.entries ≠ []) ∧
      (c.sender.timerOn = true →
        c.sender.rto = cfg.rtTimeout.toNat *
          2 ^ c.sender.consecutiveRetransmissions) ∧
      c.sender.consecutiveRetransmissions ≤
        TCPConfig.maxRetxAttempts + 1 ∧
      (c.sender.consecutiveRetransmissions =
        TCPConfig.maxRetxAttempts + 1 → c.active = false) ∧
      (c.active = true → c.sender.timerOn = true →
        c.sender.rto * 2 < 2 ^ 32) := by
  intro c
  have h : TimerKept cfg.rtTimeout c :=
    run_preserves (fun _ op hc => hc.step op)
      (timerKept_new cfg randomIsn) ops
  refine ⟨?_, h.timed.rto_eq, h.count_le, ?_, ?_⟩
  · rw [h.timed.on_iff, OrderedMap.isEmpty, List.isEmpty_eq_false_iff]
  · intro hcount
    obtain ⟨hsender, hreceiver⟩ := h.given_up (by omega)
    exact inactive_of_errors hsender hreceiver
  · intro hactive hon
    exact h.timed.rto_double_lt cfg.rtTimeout.toNat_lt
      (h.count_of_active hactive) hon

end TCPConnection

end Sponge
