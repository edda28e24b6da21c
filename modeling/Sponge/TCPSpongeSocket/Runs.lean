import Sponge.EndToEnd.Wire
import Sponge.TCPSpongeSocket.Serving

/-!
# Runs of the thread of a socket

The turns of a thread, from the call of `connect` or `listen_and_accept` on,
are a run of its connection.  Over UDP the account of the thread holds whatever
the kernel answers, whatever the network brings and whatever the adapter loses
on purpose.  A thread that is left to itself finishes only when its connection
is not active any more, and then everything has been handed over: the inbound
stream to the owner, and the segments to the network.
-/

namespace Sponge

namespace TCPConnection

/-- Whatever the connection has sent was made by its sender, which respects the
end of its stream. -/
structure Sends (c : TCPConnection) : Prop where
  outbound : Outbound c
  ending : Ending c

theorem sends_new (cfg : TCPConfig) (randomIsn : UInt32) :
    Sends (new cfg randomIsn) :=
  ⟨outbound_new cfg randomIsn, ending_new cfg randomIsn⟩

theorem Sends.step {c : TCPConnection} (h : Sends c) {op : Op}
    (hop : EndRespected c op) : Sends (c.step op) :=
  ⟨h.outbound.step op, h.ending.step hop⟩

theorem Sends.fits {c : TCPConnection} (h : Sends c) :
    ∀ seg ∈ c.segmentsOut, TCPSegment.Fits seg :=
  h.outbound.fits h.ending.orderly.segmented

end TCPConnection

namespace TCPSpongeSocket

open EventLoop
open TCPConnection (Sends EndRespected)
open TCPOverUDPSocketAdapter (adapter Carries)

variable {δ ε : Type*}

theorem sends_of_reaches
    {Comes : TCPSegment → Prop} {c c' : TCPConnection} (hc : Sends c)
    (h : Reaches TCPConnection.step (Calls Comes) c c') : Sends c' :=
  h.invariant (fun _ _ hs hop => hs.step hop.1) hc

/-! ## Opening a socket -/

/-- What happens to the connection before the first turn. -/
def Role.begin (role : Role) (tcp : TCPConnection) : TCPConnection :=
  match role with
  | .connect => tcp.connect
  | .listenAndAccept => tcp

/-- What happens to the adapter before the first turn. -/
def Role.prepare (role : Role) (A : FdAdapter δ ε) (cAd : FdAdapterConfig)
    (adapter : δ) : δ :=
  match role with
  | .connect => A.configMut cAd adapter
  | .listenAndAccept => A.setListening true (A.configMut cAd adapter)

namespace Thread

/-- The socket after `connect` or `listen_and_accept` has been called, before
the first turn. -/
def opened (A : FdAdapter δ ε) (role : Role) (adapter : δ)
    (cTcp : TCPConfig) (randomIsn : UInt32) (cAd : FdAdapterConfig)
    (time : ℕ) : Except String (Thread δ) :=
  match role with
  | .connect => connect A adapter cTcp randomIsn cAd time
  | .listenAndAccept =>
      .ok (listenAndAccept A adapter cTcp randomIsn cAd time)

theorem state_connect (cfg : TCPConfig) (randomIsn : UInt32) :
    (TCPConnection.new cfg randomIsn).connect.state =
      TCPState.ofState .synSent := rfl

/-- The check of the state in `connect` never fails. -/
theorem opened_eq (A : FdAdapter δ ε) (role : Role) (adapter : δ)
    (cTcp : TCPConfig) (randomIsn : UInt32) (cAd : FdAdapterConfig)
    (time : ℕ) :
    opened A role adapter cTcp randomIsn cAd time =
      .ok (start role (role.prepare A cAd adapter)
        (role.begin (TCPConnection.new cTcp randomIsn)) time) := by
  cases role with
  | connect =>
      have hstate := not_not.mpr (state_connect cTcp randomIsn)
      rw [opened, connect, if_neg hstate]
      rfl
  | listenAndAccept => rfl

theorem begin_reaches (role : Role) (c : TCPConnection)
    (Comes : TCPSegment → Prop) :
    Reaches TCPConnection.step (Calls Comes) c (role.begin c) := by
  cases role with
  | connect =>
      have hcall : Calls Comes c .connect := ⟨trivial, by simp⟩
      exact (Reaches.refl c).concat hcall
  | listenAndAccept => exact Reaches.refl c

theorem sound_start {Holds : List TCPSegment → δ → Prop} {d : δ}
    (hd : Holds [] d) (Fails : String → Prop) (calm : Prop) (role : Role)
    (cTcp : TCPConfig) (randomIsn : UInt32) (time : ℕ) :
    Sound Holds Fails calm
      (start role d (role.begin (TCPConnection.new cTcp randomIsn)) time) := by
  have hnew : Serving Holds calm allRules
      (start role d (TCPConnection.new cTcp randomIsn) time).socket :=
    { input := rfl
      output := rfl
      ended := fun hended => hended
      reading := fun _ hshutdown => absurd hshutdown Bool.false_ne_true
      handed := hd
      popped_le := le_rfl
      threadOpen := rfl
      remaining := fun _ i _ => by cases i <;> decide }
  refine sound_of_serving (List.Sublist.refl allRules) (by simp [start]) ?_
  cases role with
  | connect => exact hnew.call .connect (by simp) (by simp) (by simp) hd
  | listenAndAccept => exact hnew

section Sound

variable {Holds : List TCPSegment → δ → Prop} {Fails : String → Prop}
  {calm : Prop} {t : Thread δ} (h : t.Sound Holds Fails calm)

include h

/-- What holds of a thread, whether it has thrown or not. -/
theorem Sound.account :
    t.socket.tcp.sender.streamIn.written <+: t.socket.threadData.input ∧
      t.socket.threadData.output <+: t.socket.tcp.inboundStream.written ∧
      Holds (t.socket.tcp.segmentsOut.take t.socket.popped)
        t.socket.datagramAdapter := by
  have hstopped : ∃ e, Stopped Holds Fails e t.socket := by
    by_cases hthrown : ∃ e, t.phase = .threw e
    · obtain ⟨e, he⟩ := hthrown
      exact ⟨e, h.stopped e he⟩
    · have hserving := h.serving fun e he => hthrown ⟨e, he⟩
      exact ⟨_, hserving.stopped (Or.inl rfl)⟩
  obtain ⟨e, hs⟩ := hstopped
  exact ⟨hs.input, hs.output, hs.handed⟩

end Sound

/-! ## Any number of turns -/

/-- The turns of a thread are a run of the connection that keeps the
account. -/
theorem sound_run
    {A : FdAdapter δ ε} {Holds : List TCPSegment → δ → Prop}
    {Fails : String → Prop} {ok : ε → Prop} {Comes : TCPSegment → Prop}
    {calm : Prop} (law : A.Lawful Holds Fails ok Comes)
    (husable : calm → ∀ segs d, Holds segs d →
      (A.fd d).eof = false ∧ (A.fd d).closed = false)
    (ws : List (Turn ε)) (hturns : ∀ w ∈ ws, w.Expected ok)
    (hcalm : calm → ∀ w ∈ ws, ¬ w.poll.HangsUp) {t : Thread δ}
    (hsends : Sends t.socket.tcp) (h : t.Sound Holds Fails calm) :
    (run (turn A) t ws).Sound Holds Fails calm ∧
      Reaches TCPConnection.step (Calls Comes) t.socket.tcp
        (run (turn A) t ws).socket.tcp := by
  induction ws generalizing t with
  | nil => exact ⟨h, Reaches.refl _⟩
  | cons w ws ih =>
      obtain ⟨hsound, hreaches⟩ := h.turn law husable
        (fun c hc => (sends_of_reaches hsends hc).fits)
        (hturns w List.mem_cons_self)
        (fun hc => hcalm hc w List.mem_cons_self)
      obtain ⟨hlater, hthen⟩ := ih
        (fun w' hw' => hturns w' (List.mem_cons_of_mem w hw'))
        (fun hc w' hw' => hcalm hc w' (List.mem_cons_of_mem w hw'))
        (sends_of_reaches hsends hreaches) hsound
      rw [run_cons]
      exact ⟨hlater, hreaches.trans hthen⟩

/-- The same from the moment at which the socket is opened. -/
theorem sound_opened
    {A : FdAdapter δ ε} {Holds : List TCPSegment → δ → Prop}
    {Fails : String → Prop} {ok : ε → Prop} {Comes : TCPSegment → Prop}
    {calm : Prop} (law : A.Lawful Holds Fails ok Comes)
    (husable : calm → ∀ segs d, Holds segs d →
      (A.fd d).eof = false ∧ (A.fd d).closed = false)
    {role : Role} {d : δ} {cTcp : TCPConfig} {randomIsn : UInt32}
    {cAd : FdAdapterConfig} {time : ℕ} (hd : Holds [] (role.prepare A cAd d))
    {t : Thread δ}
    (hopen : opened A role d cTcp randomIsn cAd time = .ok t)
    (ws : List (Turn ε)) (hturns : ∀ w ∈ ws, w.Expected ok)
    (hcalm : calm → ∀ w ∈ ws, ¬ w.poll.HangsUp) :
    (run (turn A) t ws).Sound Holds Fails calm ∧
      Reaches TCPConnection.step (Calls Comes)
        (TCPConnection.new cTcp randomIsn)
        (run (turn A) t ws).socket.tcp := by
  rw [opened_eq] at hopen
  obtain rfl := Except.ok.inj hopen
  have hbegin :=
    begin_reaches role (TCPConnection.new cTcp randomIsn) Comes
  have hsends :=
    sends_of_reaches (TCPConnection.sends_new cTcp randomIsn) hbegin
  obtain ⟨hsound, hreaches⟩ := sound_run law husable ws hturns hcalm hsends
    (sound_start hd Fails calm role cTcp randomIsn time)
  exact ⟨hsound, hbegin.trans hreaches⟩

/-! ## Over UDP -/

/-- The adapter of a new socket, after a call of `connect` or
`listen_and_accept`. -/
theorem holds_prepare {Peer : Address → Prop} (role : Role)
    (cAd : FdAdapterConfig)
    (hpeer : role = .connect → Peer cAd.destination) :
    TCPOverUDPSocketAdapter.Holds Peer (role == .listenAndAccept) []
      (role.prepare adapter cAd {}) := by
  cases role with
  | connect => exact ⟨.nil, fun hno => hno, fun _ => hpeer rfl, rfl, rfl⟩
  | listenAndAccept =>
      exact ⟨.nil, fun _ => rfl, fun hno => absurd hno.symm Bool.false_ne_true,
        rfl, rfl⟩

theorem prepare_lossy (role : Role) (A : FdAdapter δ ε)
    (lossRateUp lossRateDn : UInt16) (cAd : FdAdapterConfig) (d : δ) :
    role.prepare (A.lossy lossRateUp lossRateDn) cAd d =
      role.prepare A cAd d := by
  cases role <;> rfl

/-- Whatever the kernel answers, the network brings and the adapter loses: the
connection of a socket over UDP is in a state that it reaches by operations
which respect the end of its stream; nothing stands in its outbound stream
that was not read from the owner, and the owner got nothing that does not
stand in its inbound stream; and what left were segments of the connection, in
order.  As long as the thread has not thrown, nothing is missing on the way
either.  It throws only if the kernel refuses something, or if the owner writes
to a connection that has ended. -/
theorem account_of_run
    (lossRateUp lossRateDn : UInt16) {role : Role} {cTcp : TCPConfig}
    {randomIsn : UInt32} {cAd : FdAdapterConfig} {time : ℕ}
    {t : Thread TCPOverUDPSocketAdapter}
    (hopen : opened (adapter.lossy lossRateUp lossRateDn) role {} cTcp
      randomIsn cAd time = .ok t)
    (ws : List (Turn (UInt32 × TCPOverUDPSocketAdapter.Answer))) :
    let t' := run (turn (adapter.lossy lossRateUp lossRateDn)) t ws
    let s := t'.socket
    Reaches TCPConnection.step EndRespected
        (TCPConnection.new cTcp randomIsn) s.tcp ∧
      s.tcp.sender.streamIn.written <+: s.threadData.input ∧
      s.threadData.output <+: s.tcp.inboundStream.written ∧
      (∃ part, part.Sublist (s.tcp.segmentsOut.take s.popped) ∧
        List.Forall₂ Carries part s.datagramAdapter.sock.sent) ∧
      ((∀ e, t'.phase ≠ .threw e) →
        s.threadData.input = s.tcp.sender.streamIn.written ∧
          s.threadData.output = s.tcp.inboundStream.popped) ∧
      ∀ e, t'.phase = .threw e →
        e = "EventLoop: error on polled file descriptor" ∨
          FileDescriptor.Refused e ∨ UDPSocket.Refused e ∨
          (e = "TCPConnection::write() accepted less than advertised length" ∧
            s.tcp.active = false) := by
  intro t' s
  have hholds : FdAdapter.HoldsSome (TCPOverUDPSocketAdapter.Holds
      (fun _ => True) (role == .listenAndAccept)) []
      (role.prepare (adapter.lossy lossRateUp lossRateDn) cAd {}) := by
    rw [prepare_lossy]
    exact ⟨[], List.Sublist.refl [], holds_prepare role cAd fun _ => trivial⟩
  obtain ⟨hsound, hreaches⟩ := @sound_opened _ _ _ _ _ _ _ False
    (TCPOverUDPSocketAdapter.lawful_any.lossy lossRateUp lossRateDn)
    (fun hno => absurd hno id) _ _ _ _ _ _ hholds _ hopen ws
    (fun w _ => ⟨trivial, fun _ _ => trivial⟩) (fun hno => absurd hno id)
  obtain ⟨hinput, houtput, part, hpart, hcarried⟩ := hsound.account
  refine ⟨hreaches.mono fun _ _ hcall => hcall.1, hinput, houtput,
    ⟨part, hpart, hcarried.sent⟩, fun hrunning => ?_, ?_⟩
  · exact ⟨(hsound.serving hrunning).input, (hsound.serving hrunning).output⟩
  · exact fun e he => (hsound.stopped e he).cause

/-- A turn in which the descriptors of some rules are ready.  The owner has
written `data` and takes `room` bytes. -/
def readyTurn (ready : List ℕ) (data : Bytes) (room : ℕ)
    (adapter : ℕ → ε) : Turn ε where
  poll := .ready fun idx =>
    { pollIn := ready.contains idx, pollOut := ready.contains idx }
  answers := fun _ =>
    { read := .ok data
      write := .ok room
      shutdown := .ok ()
      adapter := adapter }
  abort := false
  time := 0
  tick := adapter 0
  shutdown := .ok ()

/-- A socket that connects to 0.0.0.2, port 2. -/
def connecting (A : FdAdapter TCPOverUDPSocketAdapter ε) :
    Thread TCPOverUDPSocketAdapter :=
  start .connect (Role.prepare .connect A ⟨⟨1, 1⟩, ⟨2, 2⟩⟩ {})
    (Role.begin .connect (TCPConnection.new TCPConnection.smallConfig 0)) 0

/-- The owner writes a byte at once, and the SYN leaves. -/
theorem account_of_connecting :
    let t' := run (turn (adapter.lossy 1 1)) (connecting (adapter.lossy 1 1))
      [readyTurn [1, 3] [97] 0 fun _ => (1, ⟨.error "", .ok 20⟩)]
    t'.socket.datagramAdapter.sock.sent.length = 1 ∧
      t'.socket.tcp.sender.streamIn.written = [97] ∧
      t'.socket.tcp.sender.streamIn.written <+: t'.socket.threadData.input :=
  ⟨by decide +kernel, by decide +kernel,
    (account_of_run 1 1 (opened_eq (adapter.lossy 1 1) .connect {}
      TCPConnection.smallConfig 0 ⟨⟨1, 1⟩, ⟨2, 2⟩⟩ 0) _).2.1⟩

/-! ## The end of a thread -/

/-- Cancelling a rule wakes up no rule before it. -/
theorem cancel_quiet (A : FdAdapter δ ε) :
    allRules.Pairwise fun i j => ∀ s, Idle (rule A) i s →
      Idle (rule A) i ((rule A j).cancel s) := by
  have hread : ∀ s, Idle (rule A) .readDatagram s →
      Idle (rule A) .readDatagram s.endOutbound := by
    rintro s ⟨hover, hinactive⟩
    have hsame : s.tcp.endInputStream = s.tcp :=
      TCPConnection.endInputStream_of_inactive hinactive
    refine ⟨hover, ?_⟩
    change s.tcp.endInputStream.active = false
    rw [hsame]
    exact hinactive
  simp only [allRules, List.pairwise_cons, List.mem_cons, List.not_mem_nil,
    or_false, forall_eq_or_imp, forall_eq, List.Pairwise.nil]
  exact ⟨⟨hread, fun _ h => h, fun _ h => h⟩, ⟨fun _ h => h, fun _ h => h⟩,
    fun _ h => h, by simp⟩

section Finish

variable {A : FdAdapter δ ε} {t t' : Thread δ} {w : Turn ε}

/-- A round that nobody interrupts ends the loop only if no rule is
interested. -/
theorem idle_of_round
    (hrules : t.rules.Sublist allRules) (hpoll : w.poll ≠ .interrupted)
    (habort : w.abort = false) (h : t.round A w = (.ok false, t')) :
    ∀ i ∈ t'.rules, Idle (rule A) i t'.socket := by
  unfold round at h
  cases hwait : waitNextEvent (rule A) t.rules t.socket w.poll w.answers with
  | mk outcome rest =>
    obtain ⟨rules, s⟩ := rest
    rw [hwait] at h
    cases outcome with
    | error e => exact absurd (Prod.mk.inj h).1 (by simp)
    | ok ret =>
        dsimp only at h
        rw [habort] at h
        split at h
        next hexit =>
          obtain rfl : ret = .exit := hexit.resolve_right Bool.false_ne_true
          have hidle := (waitNextEvent_exit
            ((cancel_quiet A).sublist hrules) hwait).resolve_left hpoll
          rw [← (Prod.mk.inj h).2]
          exact hidle
        next =>
          split at h
          · split at h
            · exact absurd (Prod.mk.inj h).1 (by simp)
            · exact absurd (Prod.mk.inj h).1 (by simp)
          · exact absurd (Prod.mk.inj h).1 (by simp)

/-- A thread finishes at the end of a round of its own loop. -/
theorem exists_round_of_turn
    (hrunning : t.phase ≠ .finished) (h : (t.turn A w).phase = .finished) :
    ∃ t', t.round A w = (.ok false, t') ∧
      t.turn A w = { t' with phase := .finished } := by
  have hphase := t.phase_round A w
  unfold Thread.turn at h ⊢
  cases hround : t.round A w with
  | mk outcome t' =>
    rw [hround] at h hphase
    split at h
    next hopening =>
      have hsame : t'.phase = .opening := hphase.trans hopening
      split at h
      · rcases outcome with e | _ | _
        · exact absurd h (by simp)
        · exact absurd h (by simp [enterMain])
        · exact absurd (hsame.symm.trans h) (by simp)
      · exact absurd h (by simp [enterMain])
    next hmain =>
      have hsame : t'.phase = .main := hphase.trans hmain
      rcases outcome with e | _ | _
      · exact absurd h (by simp)
      · refine ⟨t', rfl, ?_⟩
        dsimp only at h ⊢
        split at h
        · exact absurd h (by simp)
        next => rfl
      · exact absurd (hsame.symm.trans h) (by simp)
    next hfinished => exact absurd hfinished hrunning
    next e hthrew => exact absurd (hthrew.symm.trans h) (by simp)

/-- A thread that nobody interrupts finishes only if no rule is interested. -/
theorem idle_of_finished
    {ws : List (Turn ε)} (hrules : ∀ pre, pre <+: ws →
      (run (turn A) t pre).rules.Sublist allRules)
    (hcalm : ∀ w ∈ ws, w.poll ≠ .interrupted ∧ w.abort = false)
    (hrunning : t.phase ≠ .finished)
    (h : (run (turn A) t ws).phase = .finished) :
    ∀ i ∈ (run (turn A) t ws).rules,
      Idle (rule A) i (run (turn A) t ws).socket := by
  induction ws using List.reverseRecOn with
  | nil => exact absurd h hrunning
  | append_singleton ws w ih =>
      rw [List.forall_mem_append, List.forall_mem_singleton] at hcalm
      have hbefore := hrules ws (List.prefix_append ws [w])
      rw [run_concat] at h ⊢
      by_cases hfinished : (run (turn A) t ws).phase = .finished
      · have hsame : (run (turn A) t ws).turn A w = run (turn A) t ws := by
          rw [Thread.turn, hfinished]
        rw [hsame]
        exact ih (fun pre hpre => hrules pre
          (hpre.trans (List.prefix_append ws [w]))) hcalm.1 hfinished
      · obtain ⟨t', hround, heq⟩ := exists_round_of_turn hfinished h
        have hidle := idle_of_round hbefore hcalm.2.1 hcalm.2.2 hround
        rw [heq]
        exact hidle

end Finish

/-- A thread over UDP that nobody interrupts finishes only when its connection
is not active any more.  Then both streams have failed, or both have ended and
everything is acknowledged; all that was read from the owner stands in the
outbound stream, the owner has got all of the inbound stream and has been told
that it is over, and all segments have left. -/
theorem finishes_when_done
    {role : Role} {cTcp : TCPConfig} {randomIsn : UInt32}
    {cAd : FdAdapterConfig} {time : ℕ} {t : Thread TCPOverUDPSocketAdapter}
    (hopen : opened adapter role {} cTcp randomIsn cAd time = .ok t)
    {ws : List (Turn TCPOverUDPSocketAdapter.Answer)}
    (hcalm : ∀ w ∈ ws, w.poll ≠ .interrupted ∧ ¬ w.poll.HangsUp ∧
      w.abort = false)
    (hfinished : (run (turn adapter) t ws).phase = .finished) :
    let s := (run (turn adapter) t ws).socket
    ((s.tcp.sender.streamIn.error = true ∧
          s.tcp.inboundStream.error = true) ∨
        (s.tcp.inboundStream.eof = true ∧ s.tcp.sender.streamIn.eof = true ∧
          s.tcp.bytesInFlight = 0)) ∧
      s.threadData.input = s.tcp.sender.streamIn.written ∧
      s.threadData.output = s.tcp.inboundStream.written ∧
      s.inboundShutdown = true ∧
      List.Forall₂ Carries s.tcp.segmentsOut s.datagramAdapter.sock.sent := by
  intro s
  have hsound : ∀ pre, pre <+: ws →
      (run (turn adapter) t pre).Sound (TCPOverUDPSocketAdapter.Holds
        (fun _ => True) (role == .listenAndAccept)) UDPSocket.Refused True := by
    intro pre hpre
    exact (sound_opened TCPOverUDPSocketAdapter.lawful_any
      (fun _ _ _ hd => hd.usable)
      (holds_prepare role cAd fun _ => trivial) hopen pre
      (fun w _ => ⟨trivial, fun _ _ => trivial⟩)
      fun _ w hw => (hcalm w (hpre.mem hw)).2.1).1
  have hstart : t.phase ≠ .finished := by
    rw [opened_eq] at hopen
    obtain rfl := Except.ok.inj hopen
    simp [start]
  have hserving := (hsound ws List.prefix_rfl).serving (by simp [hfinished])
  have hidle := idle_of_finished (fun pre hpre => (hsound pre hpre).rules)
    (fun w hw => ⟨(hcalm w hw).1, (hcalm w hw).2.2⟩) hstart hfinished
  have hleft : ∀ i, i ≠ .readPipe → (rule adapter i).interest s = false :=
    fun i hi => (hidle i (hserving.remaining trivial i hi)).2
  have hcases := TCPConnection.inactive_cases (hleft .readDatagram (by simp))
  have hsegments : s.segmentsOut = [] := by
    have hno : (!s.segmentsOut.isEmpty) = false :=
      hleft .writeDatagrams (by simp)
    simpa using hno
  have hpipe : (!s.tcp.inboundStream.bufferEmpty ||
      ((s.tcp.inboundStream.eof || s.tcp.inboundStream.error) &&
        !s.inboundShutdown)) = false := hleft .writePipe (by simp)
  rw [Bool.or_eq_false_iff, Bool.not_eq_false', Bool.and_eq_false_iff,
    Bool.not_eq_false'] at hpipe
  have hover : (s.tcp.inboundStream.eof || s.tcp.inboundStream.error) =
      true := by
    rw [Bool.or_eq_true]
    exact hcases.elim (fun hbroken => Or.inr hbroken.2) fun hended =>
      Or.inl hended.1
  refine ⟨hcases, hserving.input, ?_, ?_, ?_⟩
  · rw [hserving.output]
    exact (ByteStream.written_of_bufferEmpty hpipe.1).symm
  · refine hpipe.2.resolve_left fun hno => ?_
    exact absurd (hno.symm.trans hover) Bool.false_ne_true
  · have htake : s.tcp.segmentsOut.take s.popped = s.tcp.segmentsOut :=
      List.take_of_length_le (List.drop_eq_nil_iff.mp hsegments)
    rw [← htake]
    exact hserving.handed.sent

/-- The datagram with which the peer refuses the connection. -/
def resetDatagram : Address × Bytes :=
  (⟨2, 2⟩, [0, 2, 0, 1, 0, 0, 0, 0, 0, 0, 0, 0, 80, 4, 0, 0, 175, 248, 0, 0])

/-- The SYN leaves and a reset arrives, of which the owner is told. -/
def refusedTurns : List (Turn TCPOverUDPSocketAdapter.Answer) :=
  [readyTurn [1, 3] [97] 0 fun _ => ⟨.error "", .ok 20⟩,
    readyTurn [0] [] 0 fun _ => ⟨.ok resetDatagram, .error ""⟩,
    readyTurn [] [] 0 fun _ => ⟨.error "", .error ""⟩,
    readyTurn [2] [] 0 fun _ => ⟨.error "", .error ""⟩,
    readyTurn [] [] 0 fun _ => ⟨.error "", .error ""⟩]

theorem calm_refusedTurns :
    ∀ w ∈ refusedTurns, w.poll ≠ .interrupted ∧ ¬ w.poll.HangsUp ∧
      w.abort = false := by
  simp [refusedTurns, readyTurn, Poll.HangsUp, Poll.revents]

theorem finishes_when_refused :
    let t' := run (turn adapter) (connecting adapter) refusedTurns
    t'.phase = .finished ∧ t'.socket.inboundShutdown = true ∧
      List.Forall₂ Carries t'.socket.tcp.segmentsOut
        t'.socket.datagramAdapter.sock.sent := by
  intro t'
  have hfinished : t'.phase = .finished := by decide +kernel
  have hdone := finishes_when_done (opened_eq adapter .connect {}
    TCPConnection.smallConfig 0 ⟨⟨1, 1⟩, ⟨2, 2⟩⟩ 0) calm_refusedTurns hfinished
  exact ⟨hfinished, hdone.2.2.2⟩

end Thread

end TCPSpongeSocket

end Sponge
