import Sponge.NetworkInterface.Lan

/-!
# No datagram is forgotten

A host that has datagrams for another one, but not its address, has asked for
the address.  The network of this module hands over the frames between two
hosts in order, and loses none.  Then a host that waits for an address is owed
something: its request has not arrived yet, or the answer to it has not.

So when everything has been handed over, nobody waits, and the datagrams have
all arrived, in the order in which they were sent.  The clocks may advance at
any moment and by any amount.  An address that is forgotten while an answer is
on its way does no harm, since the time of the request is forgotten as well.
-/

namespace Sponge

open NetworkInterface (sentTo)

namespace NetworkInterface

/-- There are datagrams for an address, or it was asked for and is not known. -/
def WaitsFor (n : NetworkInterface) (ip : UInt32) : Prop :=
  n.queue ip ≠ [] ∨ n.mapping ip = none ∧ n.timestamp ip ≠ none

/-- The call hands over an answer about the address. -/
def Answers (n : NetworkInterface) (ip : UInt32) (op : Op) : Prop :=
  ∃ frame arp, op = .recvFrame frame ∧ n.acceptedArp frame = some arp ∧
    n.IsReply arp ∧ arp.senderIpAddress = ip

section WaitsFor

variable {n : NetworkInterface} {ip : UInt32}

/-- Who starts to wait asks. -/
theorem waitsFor_send {dgram : InternetDatagram} {nextHop : Address}
    (hqueue : ∀ d ∈ n.queue ip, d.Serializable)
    (hdgram : nextHop.ipv4Numeric = ip → dgram.Serializable)
    (h : (n.sendDatagram dgram nextHop).2.WaitsFor ip) :
    n.WaitsFor ip ∨ n.requestEvent ip ∈ n.sendEvents dgram nextHop := by
  have heffect := sendEffect n dgram nextHop
  rw [WaitsFor, heffect.queue_eq, heffect.mapping_eq, heffect.timestamp_eq] at h
  by_cases hip : ip = nextHop.ipv4Numeric
  · subst hip
    cases hmap : n.mapping nextHop.ipv4Numeric with
    | some eth =>
        have hempty : unsent (n.queue nextHop.ipv4Numeric ++ [dgram]) = [] := by
          apply unsent_eq_nil
          rw [List.forall_mem_append, List.forall_mem_singleton]
          exact ⟨hqueue, hdgram rfl⟩
        rw [if_pos rfl, hmap] at h
        rcases h with hne | ⟨hnone, -⟩
        · exact absurd hempty hne
        · exact absurd hnone (Option.some_ne_none eth)
    | none =>
        rw [sendEvents_of_none hmap]
        by_cases hasks : n.Asks nextHop.ipv4Numeric
        · rw [if_pos hasks]
          exact Or.inr (List.mem_singleton_self _)
        · -- a request is held back only after another one
          have htime := some_getD_of_not_asks hasks
          refine Or.inl (Or.inr ⟨hmap, ?_⟩)
          rw [← htime]
          exact Option.some_ne_none _
  · rw [if_neg hip, if_neg fun hand => hip hand.1] at h
    exact Or.inl h

theorem waitsFor_arp {frameSrc : EthernetAddress} {arp : ARPMessage}
    {n' : NetworkInterface} (heffect : ArpEffect frameSrc arp n n')
    (hqueue : ∀ d ∈ n.queue ip, d.Serializable) (h : n'.WaitsFor ip) :
    n.WaitsFor ip ∧ ¬ (n.IsReply arp ∧ arp.senderIpAddress = ip) := by
  rw [WaitsFor, heffect.queue_eq, heffect.mapping_eq, heffect.timestamp_eq] at h
  by_cases hip : ip = arp.senderIpAddress
  · -- the address is known now, so it is the queue that waits
    rw [if_pos hip] at h
    rcases h with hne | ⟨hnone, -⟩
    · by_cases hreply : n.IsReply arp
      · rw [if_pos ⟨hip, hreply⟩] at hne
        exact absurd (unsent_eq_nil hqueue) hne
      · rw [if_neg fun hand => hreply hand.2] at hne
        exact ⟨Or.inl hne, fun hand => hreply hand.1⟩
    · exact absurd hnone (Option.some_ne_none _)
  · rw [if_neg hip, if_neg fun hand => hip hand.1,
      if_neg fun hand => hip hand.1] at h
    exact ⟨h, fun hand => hip hand.2.symm⟩

theorem waitsFor_tick {ms : ℕ} (h : (n.tick ms).WaitsFor ip) :
    n.WaitsFor ip := by
  rcases h with hne | ⟨hmap, htime⟩
  · exact Or.inl hne
  · -- the address and the time are forgotten together
    rw [timestamp_tick] at htime
    by_cases hexpires : n.Expires ms ip
    · rw [if_pos hexpires] at htime
      exact absurd rfl htime
    · rw [if_neg hexpires] at htime
      rw [mapping_tick, if_neg hexpires] at hmap
      exact Or.inr ⟨hmap, htime⟩

/-- Who waits after a call has waited before and has not been answered, or
asks in this call. -/
theorem waitsFor_step {op : Op}
    (hqueue : ∀ d ∈ n.queue ip, d.Serializable)
    (hsent : ∀ d ∈ op.sentTo? ip, d.Serializable)
    (h : (n.step op).WaitsFor ip) :
    n.WaitsFor ip ∧ ¬ n.Answers ip op ∨
      n.requestEvent ip ∈ n.opEvents op := by
  cases op with
  | sendDatagram dgram nextHop =>
      have hdgram : nextHop.ipv4Numeric = ip → dgram.Serializable :=
        fun heq => hsent dgram (if_pos heq)
      refine (waitsFor_send hqueue hdgram h).imp_left fun hwaits => ⟨hwaits, ?_⟩
      rintro ⟨frame, arp, hop, -⟩
      exact absurd hop (by simp)
  | recvFrame frame =>
      left
      cases harp : n.acceptedArp frame with
      | none =>
          rw [step_recvFrame_of_none harp] at h
          refine ⟨h, ?_⟩
          rintro ⟨frame', arp, hop, harp', -⟩
          obtain rfl := Op.recvFrame.inj hop
          exact absurd (harp.symm.trans harp') (by simp)
      | some arp =>
          obtain ⟨hwaits, hnot⟩ :=
            waitsFor_arp (step_recvFrame_of_some harp) hqueue h
          refine ⟨hwaits, ?_⟩
          rintro ⟨frame', arp', hop, harp', hreply⟩
          obtain rfl := Op.recvFrame.inj hop
          obtain rfl := Option.some.inj (harp.symm.trans harp')
          exact hnot hreply
  | tick ms =>
      refine Or.inl ⟨waitsFor_tick h, ?_⟩
      rintro ⟨frame, arp, hop, -⟩
      exact absurd hop (by simp)

end WaitsFor

end NetworkInterface

/-! ## Asking and answering -/

namespace Addressing

variable {ι : Type} {a : Addressing ι} {x y : ι} {n : NetworkInterface}

/-- The host that is asked for answers. -/
theorem Truthful.reply_mem (h : a.Truthful x n) (y : ι) :
    .reply (a.replyFrame x y) ∈
      n.opEvents (.recvFrame (a.requestFrame y (a.hop x))) := by
  have harp : n.acceptedArp (a.requestFrame y (a.hop x)) =
      some ((a.host y).arpRequest (a.hop x)) := by
    rw [requestFrame, NetworkInterface.acceptedArp_arpFrame _ _ _ rfl,
      if_pos (Or.inl rfl)]
  have hrequest : n.IsRequest ((a.host y).arpRequest (a.hop x)) := by
    rw [NetworkInterface.IsRequest, h.ipAddress_eq]
    exact ⟨rfl, rfl⟩
  simp only [NetworkInterface.opEvents, harp, NetworkInterface.arpEvents,
    if_pos hrequest]
  apply List.mem_append_right
  rw [List.mem_singleton]
  exact congrArg Event.reply (h.replyFrame_eq rfl).symm

/-- The host that has asked takes the answer. -/
theorem Truthful.answers (h : a.Truthful y n) (x : ι) :
    n.Answers (a.hop x) (.recvFrame (a.replyFrame x y)) := by
  refine ⟨a.replyFrame x y, a.reply x y, rfl, ?_, ?_, rfl⟩
  · rw [replyFrame, NetworkInterface.acceptedArp_arpFrame _ _ _ rfl,
      if_pos (Or.inr h.ethernetAddress_eq.symm)]
  · rw [NetworkInterface.IsReply, h.ipAddress_eq]
    exact ⟨rfl, rfl⟩

end Addressing

theorem IPv4Datagram.Proper.serializable {d : IPv4Datagram} (h : d.Proper) :
    d.Serializable := by
  obtain ⟨l, hl, -⟩ := IPv4Datagram.parse_serialize h.canonical h.length
  exact NetworkInterface.serializable_of_ok hl

namespace Lan

open IPv4Datagram (Delivered)
open Station (Sound)

variable {ι : Type}

/-- The network hands over the next frame. -/
def Consecutive (l : Lan ι) : Op ι → Prop
  | .deliver x y i => i = (l x).taken y
  | _ => True

instance consecutiveDecidable (l : Lan ι) :
    ∀ op, Decidable (l.Consecutive op)
  | .deliver _ _ _ => inferInstanceAs (Decidable (_ = _))
  | .send _ _ _ => isTrue trivial
  | .tick _ _ => isTrue trivial

/-- The frames of the host `y` on their way to the host `x`. -/
def inTransit (l : Lan ι) (x y : ι) : List EthernetFrame :=
  (l.frames y).drop ((l x).taken y)

/-- Every host has received the frames of the others. -/
def Quiet (l : Lan ι) : Prop :=
  ∀ x y, x ≠ y → l.inTransit x y = []

/-- The host `y` is owed an answer about the host `x`: its request is on the
way, or the reply is. -/
def Owed (a : Addressing ι) (l : Lan ι) (x y : ι) : Prop :=
  a.requestFrame y (a.hop x) ∈ l.inTransit x y ∨
    a.replyFrame x y ∈ l.inTransit y x

variable [DecidableEq ι] {a : Addressing ι} {l : Lan ι} {op : Op ι}

/-- A frame in transit stays there, unless it is the one that is handed
over. -/
theorem mem_inTransit_step (hop : l.Consecutive op) {x y : ι}
    (hle : (l x).taken y ≤ (l.frames y).length) {frame : EthernetFrame}
    (h : frame ∈ l.inTransit x y) :
    frame ∈ (l.step op).inTransit x y ∨
      op = .deliver x y ((l x).taken y) ∧
        (l.frames y)[(l x).taken y]? = some frame := by
  obtain ⟨more, hmore⟩ := l.frames_step op y
  have hgrow : ∀ k, k ≤ (l.frames y).length →
      frame ∈ (l.frames y).drop k → frame ∈ ((l.step op).frames y).drop k := by
    intro k hk hmem
    rw [hmore, List.drop_append_of_le_length hk]
    exact List.mem_append_left more hmem
  -- the cursor stays where it is, or moves behind the frame
  by_cases hdeliver : op = .deliver x y ((l x).taken y) ∧
      (l x).taken y < (l.frames y).length
  · obtain ⟨rfl, hlt⟩ := hdeliver
    have hnext : (l.frames y)[(l x).taken y]? =
        some (l.frames y)[(l x).taken y] := List.getElem?_eq_getElem hlt
    have htaken : ((l.step (.deliver x y ((l x).taken y))) x).taken y =
        (l x).taken y + 1 := by
      rw [step_deliver hnext, Function.update_self, Station.receive]
      exact Function.update_self _ _ _
    rw [inTransit, List.drop_eq_getElem_cons hlt, List.mem_cons] at h
    rcases h with rfl | hrest
    · exact Or.inr ⟨rfl, hnext⟩
    · left
      rw [inTransit, htaken]
      exact hgrow _ hlt hrest
  · have htaken : ((l.step op) x).taken y = (l x).taken y := by
      rcases l.step_cases op with heq | ⟨z, call, -, -, heq⟩ |
        ⟨z, w, i, frame, rfl, hframe, heq⟩
      · rw [heq]
      · rw [heq]
        by_cases hx : x = z
        · subst hx
          rw [Function.update_self]
          rfl
        · rw [Function.update_of_ne hx]
      · obtain rfl : i = (l z).taken w := hop
        have hlt := (List.getElem?_eq_some_iff.mp hframe).1
        rw [heq]
        by_cases hx : x = z
        · subst hx
          have hy : y ≠ w := by
            rintro rfl
            exact hdeliver ⟨rfl, hlt⟩
          rw [Function.update_self, Station.receive]
          exact Function.update_of_ne hy _ _
        · rw [Function.update_of_ne hx]
    left
    rw [inTransit, htaken]
    exact hgrow _ hle h

/-- What a call emits is in transit to every other host. -/
theorem mem_inTransit_of_mem_opEvents {x y : ι} (hxy : x ≠ y)
    (hle : (l x).taken y ≤ (l.frames y).length)
    {call : NetworkInterface.Op} {s : Station ι}
    (hs : s.interface = (l y).interface.step call) {e : Event}
    (he : e ∈ (l y).interface.opEvents call) {frame : EthernetFrame}
    (hframe : e.frame? = some frame) :
    frame ∈ inTransit (Function.update l y s) x y := by
  have hframes : frames (Function.update l y s) y = l.frames y ++
      ((l y).interface.opEvents call).filterMap Event.frame? := by
    rw [frames, Function.update_self, hs]
    exact (NetworkInterface.step_logs (l y).interface call).framesOut_eq
  rw [inTransit, hframes, Function.update_of_ne hxy,
    List.drop_append_of_le_length hle]
  exact List.mem_append_right _ (List.mem_filterMap.mpr ⟨e, he, hframe⟩)

/-- The host `y` waits for the host `x` only if it is owed an answer. -/
def Settling (a : Addressing ι) (x y : ι) (l : Lan ι) : Prop :=
  (l y).interface.WaitsFor (a.hop x) → l.Owed a x y

theorem sentTo_concat (hop : UInt32) (calls : List NetworkInterface.Op)
    (op : NetworkInterface.Op) :
    sentTo hop (calls ++ [op]) =
      sentTo hop calls ++ (op.sentTo? hop).toList := by
  rw [sentTo, sentTo, List.filterMap_append, List.filterMap_cons]
  cases op.sentTo? hop <;> rfl

/-- A call adds to what a host was asked to send. -/
theorem mem_sent_step {x y : ι} {d : InternetDatagram}
    (h : d ∈ sent a l x y) (op : Op ι) : d ∈ sent a (l.step op) x y := by
  have hcall : ∀ z call s, s.calls = (l z).calls ++ [call] →
      d ∈ sent a (Function.update l z s) x y := by
    intro z call s hs
    by_cases hz : y = z
    · subst hz
      rw [sent, Function.update_self, hs, sentTo_concat]
      exact List.mem_append_left _ h
    · rw [sent, Function.update_of_ne hz]
      exact h
  rcases l.step_cases op with heq | ⟨z, call, -, -, heq⟩ |
    ⟨z, w, i, frame, -, -, heq⟩
  · rw [heq]
    exact h
  · rw [heq]
    exact hcall z call _ rfl
  · rw [heq]
    exact hcall z (.recvFrame frame) _ rfl

section Settling

variable {x y : ι} (hxy : x ≠ y) (hsound : ∀ x, Sound a x (l x))
  (hle : ∀ x y, (l x).taken y ≤ (l.frames y).length)
  (hproper : ∀ d ∈ sent a (l.step op) x y, d.Proper)
  (hop : l.Consecutive op) (hsettling : l.Settling a x y)

include hxy hsound hle hop

/-- As long as a host waits, it stays owed: a request that arrives is
answered, and after the arrival of an answer nobody waits for it. -/
theorem Owed.step (h : l.Owed a x y)
    (hnot : ∀ frame, op = .deliver y x ((l y).taken x) →
      (l.frames x)[(l y).taken x]? = some frame →
      ¬ (l y).interface.Answers (a.hop x) (.recvFrame frame)) :
    (l.step op).Owed a x y := by
  rcases h with hrequest | hreply
  · rcases mem_inTransit_step hop (hle x y) hrequest with
      hstays | ⟨rfl, hframe⟩
    · exact Or.inl hstays
    · right
      rw [step_deliver hframe]
      exact mem_inTransit_of_mem_opEvents hxy.symm (hle y x) rfl
        ((hsound x).truthful.reply_mem y) rfl
  · rcases mem_inTransit_step hop (hle y x) hreply with
      hstays | ⟨hdeliver, hframe⟩
    · exact Or.inr hstays
    · exact absurd ((hsound y).truthful.answers x)
        (hnot _ hdeliver hframe)

include hproper hsettling

theorem Settling.step : (l.step op).Settling a x y := by
  intro hwaits
  -- what waits can be serialized
  have hserializable : ∀ call s, s.interface = (l y).interface.step call →
      s.calls = (l y).calls ++ [call] → l.step op = Function.update l y s →
      (∀ d ∈ (l y).interface.queue (a.hop x), d.Serializable) ∧
        ∀ d ∈ call.sentTo? (a.hop x), d.Serializable := by
    intro call s hs hcalls heq
    have hsent := hproper
    rw [heq, sent, Function.update_self, hcalls, sentTo_concat] at hsent
    refine ⟨fun d hd => (hsent d (List.mem_append_left _ ?_)).serializable,
      fun d hd => (hsent d (List.mem_append_right _ ?_)).serializable⟩
    · rw [← (hsound y).emittedFor_append_queue]
      exact List.mem_append_right _ hd
    · exact Option.mem_toList.mpr hd
  have hcall : ∀ call s, s.interface = (l y).interface.step call →
      s.calls = (l y).calls ++ [call] → l.step op = Function.update l y s →
      (∀ frame, op = .deliver y x ((l y).taken x) →
        (l.frames x)[(l y).taken x]? = some frame →
        call = .recvFrame frame) → (l.step op).Owed a x y := by
    intro call s hs hcalls heq hframe
    obtain ⟨hqueue, hsent⟩ := hserializable call s hs hcalls heq
    rw [heq, Function.update_self, hs] at hwaits
    rcases NetworkInterface.waitsFor_step hqueue hsent hwaits with
      ⟨hbefore, hnot⟩ | hasks
    · refine (hsettling hbefore).step hxy hsound hle hop ?_
      intro frame hdeliver hnext
      rw [← hframe frame hdeliver hnext]
      exact hnot
    · left
      rw [heq]
      refine mem_inTransit_of_mem_opEvents hxy (hle x y) hs hasks ?_
      exact congrArg some ((hsound y).truthful.honest_request (a.hop x))
  have hother : (l.step op y).interface = (l y).interface →
      (∀ i, op ≠ .deliver y x i) → (l.step op).Owed a x y := by
    intro heq hne
    rw [heq] at hwaits
    refine (hsettling hwaits).step hxy hsound hle hop ?_
    exact fun _ hdeliver => absurd hdeliver (hne _)
  rcases l.step_cases op with heq | ⟨z, call, -, hlocal, heq⟩ |
    ⟨z, w, i, frame, rfl, hframe, heq⟩
  · rw [heq] at hwaits ⊢
    exact hsettling hwaits
  · by_cases hz : y = z
    · subst hz
      exact hcall call _ rfl rfl heq
        fun _ hdeliver => absurd hdeliver (hlocal _ _ _)
    · exact hother (by rw [heq, Function.update_of_ne hz])
        (hlocal y x)
  · by_cases hz : y = z
    · subst hz
      refine hcall (.recvFrame frame) _ rfl rfl heq ?_
      rintro frame' ⟨rfl⟩ hnext
      rw [hframe] at hnext
      exact congrArg _ (Option.some.inj hnext)
    · refine hother (by rw [heq, Function.update_of_ne hz]) ?_
      rintro j ⟨⟩
      exact hz rfl

end Settling

/-! ## Runs -/

section Runs

variable (a : Addressing ι) {ops : List (Op ι)}
  (hconsecutive : Guarded step Consecutive (new a) ops)

include hconsecutive

/-- The frames that have arrived at a host are the first ones. -/
theorem run_taken (x y : ι) :
    let l := run step (new a) ops
    (l x).taken y ≤ (l.frames y).length ∧
      (l x).arrived y = (l.frames y).take ((l x).taken y) := by
  refine run_arrived (P := fun fs k frames => k ≤ frames.length ∧
    fs = frames.take k) a ⟨le_rfl, rfl⟩ ?_ ?_ hconsecutive x y
  · rintro fs k frames more ⟨hk, rfl⟩
    rw [List.take_append_of_le_length hk, List.length_append]
    exact ⟨Nat.le_add_right_of_le hk, rfl⟩
  · rintro l x y i frame rfl hframe ⟨-, hfs⟩
    rw [take_succ_of_getElem? hframe, ← hfs]
    exact ⟨(List.getElem?_eq_some_iff.mp hframe).1, rfl⟩

theorem run_settling {x y : ι} (hxy : x ≠ y)
    (hproper : ∀ d ∈ sent a (run step (new a) ops) x y, d.Proper) :
    Settling a x y (run step (new a) ops) := by
  induction ops using List.reverseRecOn with
  | nil =>
      rintro (hne | ⟨-, htime⟩)
      · exact absurd rfl hne
      · exact absurd rfl htime
  | append_singleton ops op ih =>
      rw [guarded_concat] at hconsecutive
      rw [run_concat] at hproper ⊢
      have hbefore := ih hconsecutive.1 fun d hd =>
        hproper d (mem_sent_step hd op)
      exact Settling.step hxy (run_sound a ops)
        (fun x y => (run_taken a hconsecutive.1 x y).1) hproper
        hconsecutive.2 hbefore

end Runs

/-- Over a network that hands over the frames between two hosts in order and
loses none: when nothing is in transit, every host has received exactly what
the others were asked to send to it, in this order.  Nothing waits for an
address, whatever was asked and forgotten before. -/
theorem quiet_means_delivered
    (a : Addressing ι) {ops : List (Op ι)}
    (hconsecutive : Guarded step Consecutive (new a) ops)
    (hquiet : Quiet (run step (new a) ops)) {x y : ι} (hxy : x ≠ y)
    (hproper : ∀ d ∈ sent a (run step (new a) ops) x y, d.Proper) :
    let l := run step (new a) ops
    List.Forall₂ Delivered (sent a l x y) ((l x).received y) := by
  intro l
  have hsound := run_sound a ops y
  have hempty : (l y).interface.queue (a.hop x) = [] := by
    by_contra hne
    rcases run_settling a hconsecutive hxy hproper (Or.inl hne) with h | h
    · rw [hquiet x y hxy] at h
      exact absurd h List.not_mem_nil
    · rw [hquiet y x hxy.symm] at h
      exact absurd h List.not_mem_nil
  have hall : (l.frames y).take ((l x).taken y) = l.frames y :=
    List.take_of_length_le (List.drop_eq_nil_iff.mp (hquiet x y hxy))
  have hsent := hsound.emittedFor_append_queue (a.hop x)
  rw [hempty, List.append_nil] at hsent
  rw [(run_sound a ops x).received_eq, (run_taken a hconsecutive x y).2, hall,
    sent, ← hsent]
  exact hsound.forall₂_delivered hproper

theorem quiet_means_delivered_resolvingRun :
    let l := run step (new twoHosts) resolvingRun
    (sent twoHosts l true false).length = 2 ∧
      List.Forall₂ Delivered (sent twoHosts l true false)
        ((l true).received false) := by
  have hquiet : Quiet (run step (new twoHosts) resolvingRun) := by
    intro x y hxy
    cases x <;> cases y <;> first | exact absurd rfl hxy | decide
  exact ⟨by decide, quiet_means_delivered twoHosts (by decide) hquiet
    (by decide) proper_resolvingRun⟩

end Lan

end Sponge
