import Sponge.TCPSpongeSocket.Runs

/-!
# Two sockets

Two sockets over UDP are joined by a network that loses, repeats, delays and
reorders datagrams, and carries those of strangers as well.  Their threads take
turns in any order.  A turn of a thread is a run of its connection, so a run of
the two threads is a run of the pair of connections, and what the owner of one
socket gets was read from the owner of the other.
-/

namespace Sponge

open TCPSegment (Arrives)
open TCPConnection (EndRespected Sends)

/-! ## Runs of the connections -/

namespace Pair

/-- At the end that is called, no byte is accepted after the end of its
stream. -/
def Respectful (p : Pair) (op : Op) : Prop :=
  ∀ call ∈ p.call op, EndRespected (p call.1) call.2

theorem next_le_step (p : Pair) (op : Op) (x : Side) :
    (p x).sender.nextSeqnoAbsolute ≤
      (p.step op x).sender.nextSeqnoAbsolute := by
  rcases p.step_cases op with heq | ⟨y, call, -, heq⟩
  · rw [heq]
  · rw [heq]
    by_cases hx : x = y
    · subst hx
      rw [Function.update_self]
      exact ((p x).step_sender_extends call).next
    · rw [Function.update_of_ne hx]

/-- Sequence numbers only grow, so it is enough to look at the last ones. -/
theorem guarded_admissible
    {p : Pair} {ops : List Op} (hops : Guarded step Respectful p ops)
    (hbelow : ∀ x, (run step p ops x).sender.nextSeqnoAbsolute < 2 ^ 31) :
    Guarded step Admissible p ops := by
  induction ops using List.reverseRecOn with
  | nil => trivial
  | append_singleton ops op ih =>
      rw [guarded_concat] at hops ⊢
      rw [run_concat] at hbelow
      refine ⟨ih hops.1 fun x => ?_, ?_⟩
      · exact lt_of_le_of_lt (next_le_step _ op x) (hbelow x)
      · rintro ⟨x, call⟩ hcall
        refine ⟨hops.2 (x, call) hcall, ?_⟩
        have hx := hbelow x
        rw [step, Option.mem_def.mp hcall] at hx
        simpa only [Function.update_self] using hx

/-- What a connection does is a step of the pair, if the segments that it
receives have come from the other end. -/
theorem takes_update
    {p : Pair} {x : Side} {op : TCPConnection.Op}
    (hend : EndRespected (p x) op)
    (hcomes : ∀ seg, op = .segmentReceived seg →
      ∃ seg' ∈ (p x.other).segmentsOut, Arrives seg' seg) :
    Takes step Respectful p (Function.update p x ((p x).step op)) := by
  have hact : ∀ a : Act, a.op = op →
      Takes step Respectful p (Function.update p x ((p x).step op)) := by
    rintro a rfl
    refine ⟨.act x a, ?_, rfl⟩
    intro call hcall
    obtain rfl := Option.some.inj hcall
    exact hend
  cases op with
  | connect => exact hact .connect rfl
  | write data => exact hact (.write data) rfl
  | endInputStream => exact hact .endInputStream rfl
  | tick ms => exact hact (.tick ms) rfl
  | readInbound len => exact hact (.readInbound len) rfl
  | segmentReceived seg =>
      obtain ⟨seg', hseg', harrives⟩ := hcomes seg rfl
      obtain ⟨i, hi⟩ := List.mem_iff_getElem?.mp hseg'
      have hcall : p.call (.deliver x i) = some (x, .segmentReceived seg') := by
        rw [call, hi]
        rfl
      refine ⟨.deliver x i, fun call hmem => ?_, ?_⟩
      · obtain rfl := Option.some.inj (hcall.symm.trans hmem)
        trivial
      · rw [step, hcall]
        simp only [TCPConnection.step]
        rw [(p x).segmentReceived_arrives harrives]

/-- A run of one connection is a run of the pair. -/
theorem reaches_update
    {Comes : TCPSegment → Prop} {p : Pair} {x : Side} {c : TCPConnection}
    (h : Reaches TCPConnection.step (TCPSpongeSocket.Calls Comes) (p x) c)
    (hcomes : ∀ seg, Comes seg →
      ∃ seg' ∈ (p x.other).segmentsOut, Arrives seg' seg) :
    Reaches step Respectful p (Function.update p x c) := by
  have hstep : ∀ c op, TCPSpongeSocket.Calls Comes c op →
      Takes step Respectful (Function.update p x c)
        (Function.update p x (c.step op)) := by
    rintro c op ⟨hend, hop⟩
    have htakes := @takes_update (Function.update p x c) x op
    rw [Function.update_self, Function.update_of_ne x.other_ne,
      Function.update_idem] at htakes
    exact htakes hend fun seg hseg => hcomes seg (hop seg hseg)
  have hlift := h.lift (Function.update p x) hstep
  rw [Function.update_eq_self] at hlift
  exact hlift

end Pair

/-! ## Turns of the threads -/

/-- A socket at each end. -/
abbrev SocketPair (δ : Type*) := Side → TCPSpongeSocket.Thread δ

namespace SocketPair

open TCPSpongeSocket (Turn Role Thread)
open TCPOverUDPSocketAdapter (adapter)

variable {δ ε : Type*}

/-- The connections of the sockets. -/
def connections (p : SocketPair δ) : Pair := fun x => (p x).socket.tcp

/-- One of the threads takes a turn. -/
def step (A : Side → FdAdapter δ ε) (p : SocketPair δ)
    (op : Side × Turn ε) : SocketPair δ :=
  Function.update p op.1 ((p op.1).turn (A op.1) op.2)

/-- The adapters bring segments from one end to the other: what is read at an
end has been written at the other end, provided that the kernel answers as can
be expected there, given the state of the other adapter. -/
def Joins (A : Side → FdAdapter δ ε)
    (Holds : Side → List TCPSegment → δ → Prop) (Fails : String → Prop)
    (ok : Side → δ → ε → Prop) : Prop :=
  ∀ x segs d, Holds x.other segs d →
    (A x).Lawful (Holds x) Fails (ok x d)
      (fun seg => ∃ seg' ∈ segs, Arrives seg' seg)

/-- Adapters that lose segments do so as well. -/
theorem Joins.lossy
    {A : Side → FdAdapter δ ε} {Holds : Side → List TCPSegment → δ → Prop}
    {Fails : String → Prop} {ok : Side → δ → ε → Prop}
    (h : Joins A Holds Fails ok) (lossRateUp lossRateDn : Side → UInt16) :
    Joins (fun x => (A x).lossy (lossRateUp x) (lossRateDn x))
      (fun x => FdAdapter.HoldsSome (Holds x)) Fails
      (fun x d e => ok x d e.2) := by
  rintro x segs d ⟨part, hpart, hd⟩
  refine ((h x part d hd).lossy (lossRateUp x) (lossRateDn x)).mono
    (fun _ he => he) ?_
  rintro seg ⟨seg', hseg', harrives⟩
  exact ⟨seg', hpart.mem hseg', harrives⟩

/-- The threads keep their accounts, and the connections have got where they
are as a pair. -/
structure Sound (Holds : Side → List TCPSegment → δ → Prop)
    (Fails : String → Prop) (start : Pair) (p : SocketPair δ) : Prop where
  threads : ∀ x, (p x).Sound (Holds x) Fails False
  sends : ∀ x, Sends (p x).socket.tcp
  reaches : Reaches Pair.step Pair.Respectful start p.connections

theorem Sound.step
    {A : Side → FdAdapter δ ε} {Holds : Side → List TCPSegment → δ → Prop}
    {Fails : String → Prop} {ok : Side → δ → ε → Prop}
    (J : Joins A Holds Fails ok) {start : Pair} {p : SocketPair δ}
    (h : Sound Holds Fails start p) {op : Side × Turn ε}
    (hop : op.2.Expected (ok op.1 (p op.1.other).socket.datagramAdapter)) :
    Sound Holds Fails start (step A p op) := by
  obtain ⟨x, w⟩ := op
  obtain ⟨-, -, hheld⟩ := (h.threads x.other).account
  obtain ⟨hthread, hreaches⟩ := (h.threads x).turn (J x _ _ hheld)
    (fun hno => absurd hno id)
    (fun c hc => (TCPSpongeSocket.sends_of_reaches (h.sends x) hc).fits)
    hop (fun hno => absurd hno id)
  refine ⟨?_, ?_, ?_⟩
  · rw [SocketPair.step, Function.forall_update_iff p fun y t =>
      Thread.Sound (Holds y) Fails False t]
    exact ⟨hthread, fun y _ => h.threads y⟩
  · rw [SocketPair.step, Function.forall_update_iff p fun _ t =>
      Sends t.socket.tcp]
    exact ⟨TCPSpongeSocket.sends_of_reaches (h.sends x) hreaches,
      fun y _ => h.sends y⟩
  · have hupdate : (SocketPair.step A p (x, w)).connections =
        Function.update p.connections x
          ((p x).turn (A x) w).socket.tcp := by
      funext y
      by_cases hy : y = x
      · subst hy
        rw [connections, SocketPair.step, Function.update_self,
          Function.update_self]
      · rw [connections, SocketPair.step, Function.update_of_ne hy,
          Function.update_of_ne hy]
        rfl
    rw [hupdate]
    refine h.reaches.trans (Pair.reaches_update hreaches ?_)
    rintro seg ⟨seg', hseg', harrives⟩
    exact ⟨seg', List.mem_of_mem_take hseg', harrives⟩

/-! ## Over UDP -/

theorem joins_udp (addr : Side → Address) (listens : Side → Bool) :
    Joins (fun _ => adapter)
      (fun x => TCPOverUDPSocketAdapter.Holds (· = addr x.other) (listens x))
      UDPSocket.Refused
      (fun x d => TCPOverUDPSocketAdapter.FromPeer (addr x) (addr x.other)
        (listens x) d.sock.sent) :=
  fun _ _ _ hd => TCPOverUDPSocketAdapter.lawful.mono
    (fun _ hanswer => hanswer.expected hd.sent) fun _ h => h

/-- The adapters of two sockets over UDP that lose segments on purpose. -/
def udp (lossRateUp lossRateDn : Side → UInt16) (x : Side) :
    FdAdapter TCPOverUDPSocketAdapter
      (UInt32 × TCPOverUDPSocketAdapter.Answer) :=
  adapter.lossy (lossRateUp x) (lossRateDn x)

/-- The network hands over what was sent, any number of times or never: a
datagram that arrives with the address of the other end was sent by the other
end to this one.  What strangers send may arrive as well, but nobody else opens
a connection to a socket that listens. -/
def Carried (addr : Side → Address) (role : Side → Role)
    (p : SocketPair TCPOverUDPSocketAdapter)
    (op : Side × Turn (UInt32 × TCPOverUDPSocketAdapter.Answer)) : Prop :=
  op.2.Expected fun e => TCPOverUDPSocketAdapter.FromPeer (addr op.1)
    (addr op.1.other) (role op.1 == .listenAndAccept)
    (p op.1.other).socket.datagramAdapter.sock.sent e.2

section Udp

variable {addr : Side → Address} {lossRateUp lossRateDn : Side → UInt16}
  {role : Side → Role} {cfg : Side → TCPConfig} {randomIsn : Side → UInt32}
  {cAd : Side → FdAdapterConfig} {time : Side → ℕ}
  {start : SocketPair TCPOverUDPSocketAdapter}

/-- The account of the two sockets. -/
def UdpSound (addr : Side → Address) (role : Side → Role)
    (cfg : Side → TCPConfig) (randomIsn : Side → UInt32)
    (p : SocketPair TCPOverUDPSocketAdapter) : Prop :=
  Sound (fun x => FdAdapter.HoldsSome (TCPOverUDPSocketAdapter.Holds
    (· = addr x.other) (role x == .listenAndAccept))) UDPSocket.Refused
    (Pair.new cfg randomIsn) p

theorem UdpSound.udp_step
    {p : SocketPair TCPOverUDPSocketAdapter}
    {op : Side × Turn (UInt32 × TCPOverUDPSocketAdapter.Answer)}
    (h : UdpSound addr role cfg randomIsn p) (hop : Carried addr role p op) :
    UdpSound addr role cfg randomIsn
      (step (udp lossRateUp lossRateDn) p op) :=
  Sound.step ((joins_udp addr fun x => role x == .listenAndAccept).lossy
    lossRateUp lossRateDn) h hop

/-- Both ends have been opened, one after the other. -/
theorem connections_opened
    (hopen : ∀ x, Thread.opened (udp lossRateUp lossRateDn x) (role x) {}
      (cfg x) (randomIsn x) (cAd x) (time x) = .ok (start x)) :
    Reaches Pair.step Pair.Respectful (Pair.new cfg randomIsn)
      start.connections := by
  have hbegin : ∀ p x, Reaches Pair.step Pair.Respectful p
      (Function.update p x ((role x).begin (p x))) := fun p x =>
    Pair.reaches_update (Thread.begin_reaches (role x) (p x) fun _ => False)
      fun _ hno => absurd hno id
  have hboth : start.connections = Function.update
      (Function.update (Pair.new cfg randomIsn) .left
        ((role .left).begin (Pair.new cfg randomIsn .left))) .right
      ((role .right).begin (Pair.new cfg randomIsn .right)) := by
    funext x
    have hx := hopen x
    rw [Thread.opened_eq] at hx
    rw [connections, ← Except.ok.inj hx]
    cases x <;> rfl
  rw [hboth]
  exact (hbegin _ .left).trans (hbegin _ .right)

theorem sound_opened
    (hpeer : ∀ x, role x = .connect → (cAd x).destination = addr x.other)
    (hopen : ∀ x, Thread.opened (udp lossRateUp lossRateDn x) (role x) {}
      (cfg x) (randomIsn x) (cAd x) (time x) = .ok (start x)) :
    UdpSound addr role cfg randomIsn start := by
  refine ⟨fun x => ?_, fun x => ?_, connections_opened hopen⟩
  · have hx := hopen x
    rw [Thread.opened_eq, udp, Thread.prepare_lossy] at hx
    rw [← Except.ok.inj hx]
    exact Thread.sound_start ⟨[], List.Sublist.refl [],
      Thread.holds_prepare (role x) (cAd x) (hpeer x)⟩ ..
  · have hx := hopen x
    rw [Thread.opened_eq] at hx
    rw [← Except.ok.inj hx]
    exact TCPSpongeSocket.sends_of_reaches (TCPConnection.sends_new _ _)
      (Thread.begin_reaches (role x) _ fun _ => False)

/-- Sockets over UDP, whatever the network and the kernel do and in whichever
order the threads take their turns: the owner of one socket has got a
beginning of what was read from the owner of the other.  The sequence numbers
must not wrap around. -/
theorem owners_agree
    (hcap : ∀ x, (cfg x).recvCapacity < 2 ^ 64)
    (hpeer : ∀ x, role x = .connect → (cAd x).destination = addr x.other)
    (hopen : ∀ x, Thread.opened (udp lossRateUp lossRateDn x) (role x) {}
      (cfg x) (randomIsn x) (cAd x) (time x) = .ok (start x))
    {ops : List (Side × Turn (UInt32 × TCPOverUDPSocketAdapter.Answer))}
    (hops : Guarded (step (udp lossRateUp lossRateDn)) (Carried addr role)
      start ops)
    (hsmall : ∀ x, (run (step (udp lossRateUp lossRateDn)) start
      ops x).socket.threadData.input.length + 2 < 2 ^ 31) (x : Side) :
    (run (step (udp lossRateUp lossRateDn)) start
        ops x).socket.threadData.output <+:
      (run (step (udp lossRateUp lossRateDn)) start
        ops x.other).socket.threadData.input := by
  generalize hp : run (step (udp lossRateUp lossRateDn)) start ops = p
    at hsmall ⊢
  have hsound : UdpSound addr role cfg randomIsn p := by
    rw [← hp]
    exact run_invariant (fun _ _ h hop => h.udp_step hop)
      (sound_opened hpeer hopen) hops
  obtain ⟨calls, hcalls, hrun⟩ := hsound.reaches.exists_run
  have hbelow : ∀ y,
      (p.connections y).sender.nextSeqnoAbsolute < 2 ^ 31 := by
    intro y
    have hnext := (hsound.sends y).ending.orderly.segmented.next_eq
    have hpopped := (System.popped_prefix_written
      (p y).socket.tcp.sender.streamIn).length_le
    have hread := (hsound.threads y).account.1.length_le
    have hlimit := hsmall y
    rw [connections, hnext]
    have hsyn := Bool.toNat_le (p y).socket.tcp.sender.syn
    have hfin := Bool.toNat_le (p y).socket.tcp.sender.finSent
    omega
  have hadmissible : Guarded Pair.step Pair.Admissible
      (Pair.new cfg randomIsn) calls := by
    apply Pair.guarded_admissible hcalls
    rw [hrun]
    exact hbelow
  have hflows := Pair.run_flows hcap randomIsn hadmissible x.other
  rw [hrun, Side.other_other] at hflows
  calc (p x).socket.threadData.output
      <+: (p.connections x).inboundStream.written :=
        (hsound.threads x).account.2.1
    _ <+: (p.connections x.other).sender.streamIn.written :=
        hflows.written_prefix_written
    _ <+: (p x.other).socket.threadData.input :=
        (hsound.threads x.other).account.1

end Udp

/-! ## A byte from one owner to the other -/

section Greeting

open TCPSpongeSocket.Thread (readyTurn)

def ownAddress : Side → Address
  | .left => ⟨1, 1⟩
  | .right => ⟨2, 2⟩

def ownRole : Side → Role
  | .left => .connect
  | .right => .listenAndAccept

/-- The left socket connects to the right one.  Both drop a segment if the
random number is zero. -/
def greetingSockets : SocketPair TCPOverUDPSocketAdapter := fun x =>
  Thread.start (ownRole x)
    ((ownRole x).prepare (udp (fun _ => 1) (fun _ => 1) x)
      ⟨ownAddress x, ownAddress x.other⟩ {})
    ((ownRole x).begin (TCPConnection.new (Pair.smallConfigs x) 0)) 0

/-- A turn in which segments of some sizes leave. -/
def sending (x : Side) (ready : List ℕ) (data : Bytes) (room : ℕ)
    (sizes : List ℕ) : Side × Turn (UInt32 × TCPOverUDPSocketAdapter.Answer) :=
  (x, readyTurn ready data room fun k =>
    (1, ⟨.error "", .ok (sizes.getD k 0)⟩))

/-- A turn in which a datagram of the other end arrives. -/
def receiving (x : Side) (payload : Bytes) :
    Side × Turn (UInt32 × TCPOverUDPSocketAdapter.Answer) :=
  (x, readyTurn [0] [] 0 fun _ =>
    (1, ⟨.ok (ownAddress x.other, payload), .error ""⟩))

theorem carried_sending
    {p : SocketPair TCPOverUDPSocketAdapter} {x : Side} {ready : List ℕ}
    {data : Bytes} {room : ℕ} {sizes : List ℕ} :
    Carried ownAddress ownRole p (sending x ready data room sizes) := by
  have hnone : ∀ n, TCPOverUDPSocketAdapter.FromPeer (ownAddress x)
      (ownAddress x.other) (ownRole x == .listenAndAccept)
      (p x.other).socket.datagramAdapter.sock.sent ⟨.error "", n⟩ :=
    fun _ _ _ hanswer => absurd hanswer (by simp)
  exact ⟨hnone _, fun _ k => hnone _⟩

theorem carried_receiving
    {p : SocketPair TCPOverUDPSocketAdapter} {x : Side} {payload : Bytes}
    (h : (ownAddress x, payload) ∈
      (p x.other).socket.datagramAdapter.sock.sent) :
    Carried ownAddress ownRole p (receiving x payload) := by
  have hsent : TCPOverUDPSocketAdapter.FromPeer (ownAddress x)
      (ownAddress x.other) (ownRole x == .listenAndAccept)
      (p x.other).socket.datagramAdapter.sock.sent
      ⟨.ok (ownAddress x.other, payload), .error ""⟩ := by
    intro source payload' hanswer
    obtain ⟨rfl, rfl⟩ := Prod.mk.inj (Except.ok.inj hanswer)
    exact ⟨fun _ => h, fun hne => absurd rfl hne⟩
  exact ⟨hsent, fun _ _ => hsent⟩

/-- The handshake and one byte, which is handed to the owner at the end. -/
def greetingTurns :
    List (Side × Turn (UInt32 × TCPOverUDPSocketAdapter.Answer)) :=
  [sending .left [1, 3] [97] 0 [20],
    receiving .right
      [0, 1, 0, 2, 0, 0, 0, 0, 0, 0, 0, 0, 80, 2, 0, 0, 175, 250, 0, 0],
    sending .right [3] [] 0 [20],
    receiving .left
      [0, 2, 0, 1, 0, 0, 0, 0, 0, 0, 0, 1, 80, 18, 0, 4, 175, 229, 0, 0],
    sending .left [] [] 0 [], sending .left [3] [] 0 [21, 20],
    receiving .right
      [0, 1, 0, 2, 0, 0, 0, 1, 0, 0, 0, 1, 80, 16, 0, 4, 78, 230, 0, 0, 97],
    sending .right [] [] 0 [], sending .right [2] [] 1 []]

theorem carried_greetingTurns :
    Guarded (step (udp (fun _ => 1) fun _ => 1))
      (Carried ownAddress ownRole) greetingSockets greetingTurns := by
  refine And.intro carried_sending ?_
  refine And.intro (carried_receiving (by decide +kernel)) ?_
  refine And.intro carried_sending ?_
  refine And.intro (carried_receiving (by decide +kernel)) ?_
  refine And.intro carried_sending (And.intro carried_sending ?_)
  refine And.intro (carried_receiving (by decide +kernel)) ?_
  exact And.intro carried_sending (And.intro carried_sending trivial)

theorem owners_agree_greeting :
    let p := run (step (udp (fun _ => 1) fun _ => 1)) greetingSockets
      greetingTurns
    (p .right).socket.threadData.output = [97] ∧
      (p .right).socket.threadData.output <+:
        (p .left).socket.threadData.input := by
  have hsmall : ∀ x, (run (step (udp (fun _ => 1) fun _ => 1))
      greetingSockets greetingTurns x).socket.threadData.input.length + 2 <
        2 ^ 31 := by
    intro x
    cases x <;> decide +kernel
  have hpeer : ∀ x, ownRole x = .connect →
      (FdAdapterConfig.mk (ownAddress x) (ownAddress x.other)).destination =
        ownAddress x.other := fun _ _ => rfl
  exact ⟨by decide +kernel, owners_agree Pair.smallConfigs_capacity hpeer
    (fun x => Thread.opened_eq (udp (fun _ => 1) (fun _ => 1) x) (ownRole x)
      {} (Pair.smallConfigs x) 0 ⟨ownAddress x, ownAddress x.other⟩ 0)
    carried_greetingTurns hsmall .right⟩

end Greeting

end SocketPair

end Sponge
