import Mathlib.Data.List.Induction
import Sponge.NetworkInterface.Freshness

/-!
# The rate of ARP requests

A request should not be repeated within five seconds, unless an answer came in
between.  The interface compares the present with the stored time, which is
that of the first request and does not move when the request is repeated.  So
once a request has been repeated, the next datagram repeats it again.
-/

namespace Sponge

/-- The message is one from the address. -/
def Event.IsFrom (ip : UInt32) : Event → Prop
  | .accepted m => m.arp.senderIpAddress = ip
  | _ => False

/-- Any two requests for one address, with no message from it in between, are
more than five seconds apart. -/
def RateLimited (history : List Event) : Prop :=
  ∀ ip pre mid post time time' frame frame',
    history = pre ++ .request time ip frame ::
      (mid ++ .request time' ip frame' :: post) →
    (∀ e ∈ mid, ¬ e.IsFrom ip) →
    time + NetworkInterface.fiveThousandsMs < time'

/-- The requests for an address are noted until a message comes from it. -/
def notePending (ip : UInt32) (pending : List ℕ) : Event → List ℕ
  | .request time target _ =>
      if target = ip then pending ++ [time] else pending
  | .accepted m => if m.arp.senderIpAddress = ip then [] else pending
  | _ => pending

/-- The times of the requests for an address since the last message from
it. -/
def pendingRequests (ip : UInt32) (history : List Event) : List ℕ :=
  history.foldl (notePending ip) []

theorem pendingRequests_concat (ip : UInt32) (history : List Event)
    (e : Event) :
    pendingRequests ip (history ++ [e]) =
      notePending ip (pendingRequests ip history) e := by
  rw [pendingRequests, List.foldl_append]
  rfl

/-- No message from the address came after a request for it. -/
def Unanswered (ip : UInt32) (history : List Event) (time : ℕ) : Prop :=
  ∃ pre frame mid, history = pre ++ .request time ip frame :: mid ∧
    ∀ e ∈ mid, ¬ e.IsFrom ip

theorem unanswered_concat_iff {ip : UInt32} {history : List Event}
    {e : Event} {time : ℕ} :
    Unanswered ip (history ++ [e]) time ↔
      (∃ frame, e = .request time ip frame) ∨
        (¬ e.IsFrom ip ∧ Unanswered ip history time) := by
  constructor
  · rintro ⟨pre, frame, mid, hsplit, hmid⟩
    rcases List.eq_nil_or_concat mid with rfl | ⟨mid, last, rfl⟩
    · obtain ⟨-, hlast⟩ := List.append_inj' hsplit rfl
      exact Or.inl ⟨frame, (List.cons.inj hlast).1⟩
    · rw [List.concat_eq_append, ← List.cons_append,
        ← List.append_assoc] at hsplit
      obtain ⟨rfl, hlast⟩ := List.append_inj' hsplit rfl
      obtain ⟨rfl, -⟩ := List.cons.inj hlast
      rw [List.concat_eq_append] at hmid
      refine Or.inr ⟨hmid e (by simp), pre, frame, mid, rfl, ?_⟩
      intro e' he'
      exact hmid e' (List.mem_append_left _ he')
  · rintro (⟨frame, rfl⟩ | ⟨hfrom, pre, frame, mid, rfl, hmid⟩)
    · exact ⟨history, frame, [], rfl, nofun⟩
    · refine ⟨pre, frame, mid ++ [e], by simp, ?_⟩
      intro e' he'
      rcases List.mem_append.mp he' with he' | he'
      · exact hmid e' he'
      · rw [List.mem_singleton.mp he']
        exact hfrom

/-- The pending requests are the unanswered ones. -/
theorem mem_pendingRequests_iff {ip : UInt32} {history : List Event}
    {time : ℕ} :
    time ∈ pendingRequests ip history ↔ Unanswered ip history time := by
  induction history using List.reverseRecOn with
  | nil =>
      refine ⟨nofun, ?_⟩
      rintro ⟨pre, frame, mid, hnil, -⟩
      exact absurd hnil (by simp)
  | append_singleton history e ih =>
      rw [pendingRequests_concat, unanswered_concat_iff, ← ih]
      cases e with
      | request time' target frame =>
          by_cases htarget : target = ip
          · subst htarget
            simp [notePending, Event.IsFrom, or_comm, eq_comm]
          · simp [notePending, Event.IsFrom, htarget]
      | accepted m =>
          by_cases hsender : m.arp.senderIpAddress = ip <;>
            simp [notePending, Event.IsFrom, hsender]
      | _ => simp [notePending, Event.IsFrom]

/-- Only a request can break the limit, by coming too soon after one that is
pending. -/
theorem rateLimited_concat_iff {history : List Event} {e : Event} :
    RateLimited (history ++ [e]) ↔ RateLimited history ∧
      ∀ ip time' frame', e = .request time' ip frame' →
        ∀ time ∈ pendingRequests ip history,
          time + NetworkInterface.fiveThousandsMs < time' := by
  constructor
  · intro h
    constructor
    · intro ip pre mid post time time' frame frame' hsplit hmid
      exact h ip pre mid (post ++ [e]) time time' frame frame'
        (by rw [hsplit]; simp) hmid
    · rintro ip time' frame' rfl time htime
      obtain ⟨pre, frame, mid, rfl, hmid⟩ := mem_pendingRequests_iff.mp htime
      exact h ip pre mid [] time time' frame frame' (by simp) hmid
  · rintro ⟨h, hlast⟩ ip pre mid post time time' frame frame' hsplit hmid
    rcases List.eq_nil_or_concat post with rfl | ⟨post, last, rfl⟩
    · rw [← List.cons_append, ← List.append_assoc] at hsplit
      obtain ⟨rfl, heq⟩ := List.append_inj' hsplit rfl
      refine hlast ip time' frame' (List.cons.inj heq).1 time ?_
      exact mem_pendingRequests_iff.mpr ⟨pre, frame, mid, rfl, hmid⟩
    · rw [List.concat_eq_append, ← List.cons_append, ← List.append_assoc,
        ← List.cons_append, ← List.append_assoc] at hsplit
      obtain ⟨rfl, -⟩ := List.append_inj' hsplit rfl
      exact h ip pre mid post time time' frame frame' (by simp) hmid

theorem pendingRequests_append_of_other {ip : UInt32}
    {history events : List Event}
    (h : ∀ e ∈ events, ∀ pending, notePending ip pending e = pending) :
    pendingRequests ip (history ++ events) = pendingRequests ip history := by
  induction events using List.reverseRecOn with
  | nil => rw [List.append_nil]
  | append_singleton events e ih =>
      rw [← List.append_assoc, pendingRequests_concat, h e (by simp),
        ih fun e' he' => h e' (List.mem_append_left _ he')]

/-- Other events do not matter. -/
theorem rateLimited_append_of_other {history events : List Event}
    (h : ∀ e ∈ events, ∀ time ip frame, e ≠ .request time ip frame) :
    RateLimited (history ++ events) ↔ RateLimited history := by
  induction events using List.reverseRecOn with
  | nil => rw [List.append_nil]
  | append_singleton events e ih =>
      rw [← List.append_assoc, rateLimited_concat_iff, ih fun e' he' =>
        h e' (List.mem_append_left _ he')]
      refine ⟨fun hand => hand.1, fun hlimited => ⟨hlimited, ?_⟩⟩
      intro ip time' frame' heq
      exact absurd heq (h e (by simp) time' ip frame')

namespace NetworkInterface

/-- The times of the requests for an address since the last message from
it. -/
def pending (n : NetworkInterface) (ip : UInt32) : List ℕ :=
  pendingRequests ip n.history

/-- The last request for an address that is sent to and not known is more than
five seconds old, or its time is the stored one. -/
def RequestsPaced (n : NetworkInterface) : Op → Prop
  | .sendDatagram _ nextHop =>
      n.mapping nextHop.ipv4Numeric = none →
      ∀ time ∈ (n.pending nextHop.ipv4Numeric).getLast?,
        n.systemTime ≤ time + fiveThousandsMs →
        n.timestamp nextHop.ipv4Numeric = some time
  | _ => True

instance (n : NetworkInterface) : ∀ op, Decidable (n.RequestsPaced op)
  | .sendDatagram _ nextHop =>
      inferInstanceAs (Decidable (n.mapping nextHop.ipv4Numeric = none →
        ∀ time ∈ (n.pending nextHop.ipv4Numeric).getLast?, _))
  | .recvFrame _ => isTrue trivial
  | .tick _ => isTrue trivial

/-! ## The pending requests of a step -/

theorem pending_send_of_some {n : NetworkInterface} {nextHop : Address}
    {eth : EthernetAddress} (h : n.mapping nextHop.ipv4Numeric = some eth)
    (dgram : InternetDatagram) (ip : UInt32) :
    (n.sendDatagram dgram nextHop).2.pending ip = n.pending ip := by
  rw [pending, (sendEffect n dgram nextHop).logs.history_eq,
    sendEvents_of_some h]
  exact pendingRequests_append_of_other (forall_flushEvents fun _ _ _ => rfl)

theorem pending_send_of_none {n : NetworkInterface} {nextHop : Address}
    (h : n.mapping nextHop.ipv4Numeric = none) (dgram : InternetDatagram)
    (ip : UInt32) :
    (n.sendDatagram dgram nextHop).2.pending ip =
      if ip = nextHop.ipv4Numeric ∧ n.Asks ip then
        n.pending ip ++ [n.systemTime]
      else n.pending ip := by
  rw [pending, (sendEffect n dgram nextHop).logs.history_eq,
    sendEvents_of_none h]
  by_cases hasks : n.Asks nextHop.ipv4Numeric
  · rw [if_pos hasks, pendingRequests_concat, requestEvent, notePending]
    by_cases hip : ip = nextHop.ipv4Numeric
    · rw [if_pos hip.symm, if_pos ⟨hip, hip ▸ hasks⟩]
      rfl
    · rw [if_neg (Ne.symm hip), if_neg fun hand => hip hand.1]
      rfl
  · rw [if_neg hasks, List.append_nil, if_neg]
    · rfl
    · rintro ⟨rfl, hand⟩
      exact hasks hand

theorem pending_arp {n n' : NetworkInterface} {frameSrc : EthernetAddress}
    {arp : ARPMessage} (h : ArpEffect frameSrc arp n n') (ip : UInt32) :
    n'.pending ip =
      if ip = arp.senderIpAddress then [] else n.pending ip := by
  have hother : ∀ e ∈ n.answerEvents frameSrc arp, ∀ pending,
      notePending ip pending e = pending :=
    forall_answerEvents (fun _ => rfl) (fun _ => rfl) fun _ _ _ => rfl
  rw [pending, h.logs.history_eq, arpEvents_eq_cons, List.append_cons,
    pendingRequests_append_of_other hother, pendingRequests_concat,
    notePending]
  by_cases hip : ip = arp.senderIpAddress
  · rw [if_pos hip.symm, if_pos hip]
  · rw [if_neg (Ne.symm hip), if_neg hip]
    rfl

/-! ## Pacing -/

/-- The stored time of an address is that of the last pending request for it,
or from more than five seconds before that. -/
structure PacedAt (n : NetworkInterface) (ip : UInt32) : Prop where
  ordered : (n.pending ip).Pairwise (· ≤ ·)
  pending_le : ∀ time ∈ n.pending ip, time ≤ n.systemTime
  last : ∀ request ∈ (n.pending ip).getLast?, ∀ time ∈ n.timestamp ip,
    time = request ∨ time + fiveThousandsMs < request

structure Paced (n : NetworkInterface) : Prop extends Fresh n where
  pacedAt : ∀ ip, n.PacedAt ip

theorem paced_new (eth : EthernetAddress) (ip : Address) :
    (new eth ip).Paced where
  toFresh := fresh_new eth ip
  pacedAt := fun _ => ⟨List.Pairwise.nil, nofun, nofun⟩

/-- Time may pass, and the stored time may be forgotten. -/
theorem PacedAt.carry {n n' : NetworkInterface} {ip : UInt32}
    (h : n.PacedAt ip) (hclock : n.systemTime ≤ n'.systemTime)
    (htimestamp : ∀ time ∈ n'.timestamp ip, time ∈ n.timestamp ip)
    (hpending : n'.pending ip = n.pending ip) : n'.PacedAt ip where
  ordered := by
    rw [hpending]
    exact h.ordered
  pending_le := by
    rw [hpending]
    exact fun time htime => (h.pending_le time htime).trans hclock
  last := by
    rw [hpending]
    exact fun request hrequest time htime =>
      h.last request hrequest time (htimestamp time htime)

/-- The pending requests are all old if the last one is. -/
theorem PacedAt.forall_pending_iff {n : NetworkInterface} {ip : UInt32}
    (h : n.PacedAt ip) :
    (∀ time ∈ n.pending ip, time + fiveThousandsMs < n.systemTime) ↔
      ∀ time ∈ (n.pending ip).getLast?,
        time + fiveThousandsMs < n.systemTime := by
  constructor
  · intro hall time htime
    exact hall time (List.mem_of_getLast? htime)
  · intro hlast time htime
    rcases List.eq_nil_or_concat (n.pending ip) with hnil |
      ⟨init, last, hconcat⟩
    · rw [hnil] at htime
      exact nomatch htime
    · have hordered := h.ordered
      rw [List.concat_eq_append] at hconcat
      rw [hconcat] at htime hlast hordered
      have hold := hlast last List.getLast?_concat
      rcases List.mem_append.mp htime with hinit | hinit
      · have hle := (List.pairwise_append.mp hordered).2.2 time hinit last
          (List.mem_singleton.mpr rfl)
        omega
      · rw [List.mem_singleton.mp hinit]
        exact hold

theorem Fresh.asks_iff {n : NetworkInterface} (h : n.Fresh) (ip : UInt32) :
    n.Asks ip ↔ ∀ time ∈ n.timestamp ip,
      time + fiveThousandsMs < n.systemTime := by
  have hsub : ∀ time ∈ n.timestamp ip,
      sub64 n.systemTime time = n.systemTime - time := fun time htime =>
    sub64_eq h.time_lt (h.stored ip time htime).1
  constructor
  · intro hasks time htime
    have hold := hasks time htime
    rw [hsub time htime] at hold
    omega
  · intro hold time htime
    have hlt := hold time htime
    rw [hsub time htime]
    omega

/-- After a request, the stored time is the present or old. -/
theorem Paced.pacedAt_request {n n' : NetworkInterface} {ip : UInt32}
    (h : n.Paced) (hasks : n.Asks ip) (hclock : n'.systemTime = n.systemTime)
    (htimestamp : n'.timestamp ip =
      some ((n.timestamp ip).getD n.systemTime))
    (hpending : n'.pending ip = n.pending ip ++ [n.systemTime]) :
    n'.PacedAt ip := by
  rw [h.toFresh.asks_iff] at hasks
  have htime : (n.timestamp ip).getD n.systemTime = n.systemTime ∨
      (n.timestamp ip).getD n.systemTime + fiveThousandsMs <
        n.systemTime := by
    cases hstored : n.timestamp ip with
    | none => exact Or.inl rfl
    | some time => exact Or.inr (hasks time hstored)
  constructor
  · rw [hpending, List.pairwise_append]
    refine ⟨(h.pacedAt ip).ordered, List.pairwise_singleton _ _, ?_⟩
    intro time hmem now hnow
    rw [List.mem_singleton.mp hnow]
    exact (h.pacedAt ip).pending_le time hmem
  · intro time hmem
    rw [hpending] at hmem
    rw [hclock]
    rcases List.mem_append.mp hmem with hmem | hmem
    · exact (h.pacedAt ip).pending_le time hmem
    · exact (List.mem_singleton.mp hmem).le
  · intro request hrequest time hmem
    rw [hpending, List.getLast?_concat] at hrequest
    rw [htimestamp] at hmem
    obtain rfl := Option.some.inj hrequest
    obtain rfl := Option.some.inj hmem
    exact htime

theorem Paced.send {n : NetworkInterface} (h : n.Paced)
    (dgram : InternetDatagram) (nextHop : Address) :
    (n.sendDatagram dgram nextHop).2.Paced := by
  have heffect := sendEffect n dgram nextHop
  refine ⟨h.toFresh.send dgram nextHop, fun ip => ?_⟩
  cases hmap : n.mapping nextHop.ipv4Numeric with
  | some eth =>
      refine (h.pacedAt ip).carry heffect.systemTime_eq.ge ?_
        (pending_send_of_some hmap dgram ip)
      rw [heffect.timestamp_eq, hmap, if_neg (by simp)]
      exact fun _ htime => htime
  | none =>
      have hpending := pending_send_of_none hmap dgram ip
      have htimestamp := heffect.timestamp_eq ip
      by_cases hip : ip = nextHop.ipv4Numeric
      · rw [if_pos ⟨hip, hmap⟩] at htimestamp
        by_cases hasks : n.Asks ip
        · rw [if_pos ⟨hip, hasks⟩] at hpending
          exact h.pacedAt_request hasks heffect.systemTime_eq htimestamp
            hpending
        · rw [if_neg fun hand => hasks hand.2] at hpending
          rw [some_getD_of_not_asks hasks] at htimestamp
          refine (h.pacedAt ip).carry heffect.systemTime_eq.ge ?_ hpending
          rw [htimestamp]
          exact fun _ htime => htime
      · rw [if_neg fun hand => hip hand.1] at hpending htimestamp
        refine (h.pacedAt ip).carry heffect.systemTime_eq.ge ?_ hpending
        rw [htimestamp]
        exact fun _ htime => htime

theorem Paced.arp {n n' : NetworkInterface} {frameSrc : EthernetAddress}
    {arp : ARPMessage} (h : n.Paced) (heffect : ArpEffect frameSrc arp n n') :
    n'.Paced := by
  refine ⟨h.toFresh.arp heffect, fun ip => ?_⟩
  have hpending := pending_arp heffect ip
  by_cases hip : ip = arp.senderIpAddress
  · rw [if_pos hip] at hpending
    constructor
    · rw [hpending]
      exact List.Pairwise.nil
    · rw [hpending]
      exact nofun
    · rw [hpending]
      exact nofun
  · rw [if_neg hip] at hpending
    refine (h.pacedAt ip).carry heffect.systemTime_eq.ge ?_ hpending
    rw [heffect.timestamp_eq, if_neg fun hand => hip hand.1]
    exact fun _ htime => htime

theorem Paced.tick {n : NetworkInterface} {ms : ℕ} (h : n.Paced)
    (hclock : n.systemTime + ms < 2 ^ 64) : (n.tick ms).Paced := by
  have hnow : (n.tick ms).systemTime = n.systemTime + ms := add64_eq hclock
  refine ⟨h.toFresh.tick hclock, fun ip => (h.pacedAt ip).carry ?_ ?_ rfl⟩
  · rw [hnow]
    exact Nat.le_add_right _ _
  · rw [timestamp_tick]
    split
    · exact nofun
    · exact fun _ htime => htime

theorem Paced.step {n : NetworkInterface} {op : Op} (h : n.Paced)
    (hclock : n.ClockFits op) : (n.step op).Paced := by
  apply step_rule h
  · exact h.send
  · intro frameSrc arp n' heffect
    exact h.arp heffect
  · rintro ms rfl
    exact h.tick hclock

/-! ## When the limit is kept -/

/-- A datagram to an unknown address keeps the limit exactly if it is paced:
then the interface asks only when the last request is old. -/
theorem rateLimited_send_iff {n : NetworkInterface} (h : n.Paced)
    (hlimited : RateLimited n.history) (dgram : InternetDatagram)
    {nextHop : Address} (hmap : n.mapping nextHop.ipv4Numeric = none) :
    RateLimited (n.sendDatagram dgram nextHop).2.history ↔
      ∀ time ∈ (n.pending nextHop.ipv4Numeric).getLast?,
        n.systemTime ≤ time + fiveThousandsMs →
        n.timestamp nextHop.ipv4Numeric = some time := by
  have hpaced := h.pacedAt nextHop.ipv4Numeric
  rw [(sendEffect n dgram nextHop).logs.history_eq, sendEvents_of_none hmap]
  by_cases hasks : n.Asks nextHop.ipv4Numeric
  · have hold := (h.toFresh.asks_iff _).mp hasks
    have hrequest : RateLimited (n.history ++
        [n.requestEvent nextHop.ipv4Numeric]) ↔
        ∀ time ∈ (n.pending nextHop.ipv4Numeric).getLast?,
          time + fiveThousandsMs < n.systemTime := by
      rw [rateLimited_concat_iff, ← hpaced.forall_pending_iff]
      constructor
      · exact fun hand => hand.2 _ _ _ rfl
      · intro hall
        refine ⟨hlimited, ?_⟩
        rintro ip time' frame' heq
        obtain ⟨rfl, rfl, -⟩ := Event.request.inj heq
        exact hall
    rw [if_pos hasks, hrequest]
    constructor
    · intro hlast time htime hrecent
      have hlt := hlast time htime
      omega
    · intro hpace time htime
      by_contra hrecent
      have hlt := hold time (hpace time htime (not_lt.mp hrecent))
      exact hrecent hlt
  · rw [if_neg hasks, List.append_nil]
    refine ⟨fun _ request hrequest hrecent => ?_, fun _ => hlimited⟩
    rw [h.toFresh.asks_iff] at hasks
    push Not at hasks
    obtain ⟨time, htime, hyoung⟩ := hasks
    have hle := hpaced.pending_le request (List.mem_of_getLast? hrequest)
    rcases hpaced.last request hrequest time htime with rfl | hbefore
    · exact htime
    · omega

theorem rateLimited_step_iff {n : NetworkInterface} {op : Op}
    (h : n.Paced) (hlimited : RateLimited n.history) :
    RateLimited (n.step op).history ↔ n.RequestsPaced op := by
  cases op with
  | sendDatagram dgram nextHop =>
      cases hmap : n.mapping nextHop.ipv4Numeric with
      | none =>
          rw [step, rateLimited_send_iff h hlimited dgram hmap]
          exact ⟨fun hall _ => hall, fun hpaced => hpaced hmap⟩
      | some eth =>
          rw [step, (sendEffect n dgram nextHop).logs.history_eq,
            sendEvents_of_some hmap, rateLimited_append_of_other
              (forall_flushEvents fun _ _ => by simp)]
          refine ⟨fun _ hnone => ?_, fun _ => hlimited⟩
          rw [hmap] at hnone
          exact absurd hnone (Option.some_ne_none eth)
  | recvFrame frame =>
      refine ⟨fun _ => trivial, fun _ => ?_⟩
      cases hacc : n.acceptedArp frame with
      | none =>
          rw [step_recvFrame_of_none hacc]
          exact hlimited
      | some arp =>
          rw [(step_recvFrame_of_some hacc).logs.history_eq,
            rateLimited_append_of_other]
          · exact hlimited
          · rw [arpEvents_eq_cons, List.forall_mem_cons]
            exact ⟨by simp, forall_answerEvents (by simp) (by simp)
              fun _ _ => by simp⟩
  | tick ms => exact ⟨fun _ => trivial, fun _ => hlimited⟩

/-- The requests are limited throughout a run exactly if every datagram to an
unknown address is paced. -/
theorem rateLimited_iff_paced
    (eth : EthernetAddress) (ip : Address) {ops : List Op}
    (hclock : Guarded step ClockFits (new eth ip) ops) :
    (∀ pre, pre <+: ops →
        RateLimited (run step (new eth ip) pre).history) ↔
      Guarded step RequestsPaced (new eth ip) ops := by
  refine forall_prefix_iff_guarded (fun _ _ h hop => Paced.step h hop)
    (fun _ _ h _ hlimited => rateLimited_step_iff h hlimited)
    (paced_new eth ip) ?_ hclock
  intro ip pre mid post time time' frame frame' hnil
  exact absurd hnil (by simp [new])

/-- A request is repeated after more than five seconds. -/
def repeatedRun : List Op :=
  [.sendDatagram bareDatagram neighbourIp, .tick 5001,
    .sendDatagram bareDatagram neighbourIp]

theorem rateLimited_repeatedRun :
    Guarded step ClockFits (new ownEth ownIp) repeatedRun ∧
      ∀ pre, pre <+: repeatedRun →
        RateLimited (run step (new ownEth ownIp) pre).history :=
  ⟨by decide, (rateLimited_iff_paced ownEth ownIp (by decide)).mpr
    (by decide)⟩

/-- One more datagram is sent after a request has been repeated. -/
def repeatedAgainRun : List Op :=
  repeatedRun ++ [.sendDatagram bareDatagram neighbourIp]

/-- The request is repeated in the same millisecond. -/
theorem not_rateLimited_repeatedAgainRun :
    Guarded step ClockFits (new ownEth ownIp) repeatedAgainRun ∧
      ¬ RateLimited
        (run step (new ownEth ownIp) repeatedAgainRun).history := by
  refine ⟨by decide, fun h => ?_⟩
  have hhistory : (run step (new ownEth ownIp) repeatedAgainRun).history =
      [(0 : ℕ), 5001, 5001].map fun time =>
        { new ownEth ownIp with systemTime := time }.requestEvent
          neighbourIp.ipv4Numeric := by
    decide
  rw [hhistory] at h
  have hlt := h neighbourIp.ipv4Numeric [_] [] [] 5001 5001 _ _ rfl nofun
  exact absurd hlt (by decide)

end NetworkInterface

end Sponge
