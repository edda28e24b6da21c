import Mathlib.Data.List.Forall2
import Sponge.TCPHelpers.TCPConfig
import Sponge.TCPHelpers.TCPOverIP
import Sponge.Util.FileDescriptor

/-!
# Adapters between segments and descriptors

A socket reads and writes TCP segments by means of an adapter, of which there
are several.  What the socket uses of an adapter is the record `FdAdapter`, and
what it relies on is `Lawful`.  Here are the adapter that puts segments into
UDP datagrams, and the one that makes another adapter lose segments.

A datagram is accepted by the kernel as a whole or not at all.  The field
`sent` of a UDP socket is not in the source and no operation reads it.  It
holds the datagrams that the kernel has accepted.
-/

namespace Sponge

namespace TCPSegment

/-- The segment arrives as `seg'`: the ports and the checksum have been filled
in, and the payload may be stored in another way. -/
structure Arrives (seg seg' : TCPSegment) : Prop where
  header : ∃ sport dport cksum, seg'.header =
    { seg.header with sport := sport, dport := dport, cksum := cksum }
  payload : seg'.payload.str = seg.payload.str

/-- The segment has no options and fits into a datagram. -/
structure Fits (seg : TCPSegment) : Prop where
  doff : seg.header.doff = 5
  small : seg.payload.size ≤ TCPConfig.maxPayloadSize

/-- The segment with the ports of a configuration. -/
def withPorts (seg : TCPSegment) (config : FdAdapterConfig) : TCPSegment :=
  { seg with
    header :=
      { seg.header with
        sport := config.source.port
        dport := config.destination.port } }

end TCPSegment

open TCPSegment (Arrives Fits)

/-- The adapters with states in `δ`.  What the kernel answers to the system
calls of an operation is an argument of type `ε`. -/
structure FdAdapter (δ ε : Type*) where
  fd : δ → FileDescriptor
  read : ε → δ → Except String (Option TCPSegment) × δ
  write : ε → TCPSegment → δ → Except String Unit × δ
  tick : ε → ℕ → δ → Except String Unit × δ
  configMut : FdAdapterConfig → δ → δ
  setListening : Bool → δ → δ

namespace FdAdapter

variable {δ ε : Type*}

/-- What a socket relies on.  `Holds segs d` says that the segments `segs` have
been written and are accounted for in the state `d`; `ok` are the answers that
can be expected, `Fails` the errors, and `Comes` holds of the segments that can
be read.  A read is counted, and neither a write nor the clock closes the
descriptor or brings it to its end. -/
structure Lawful (A : FdAdapter δ ε) (Holds : List TCPSegment → δ → Prop)
    (Fails : String → Prop) (ok : ε → Prop) (Comes : TCPSegment → Prop) :
    Prop where
  read : ∀ {e segs d}, ok e → Holds segs d →
    (∃ err d', A.read e d = (.error err, d') ∧ Fails err ∧ Holds segs d') ∨
      ∃ seg d', A.read e d = (.ok seg, d') ∧ Holds segs d' ∧
        (A.fd d').readCount ≠ (A.fd d).readCount ∧
        (A.fd d').closed = (A.fd d).closed ∧ ∀ seg' ∈ seg, Comes seg'
  write : ∀ {e seg segs d}, ok e → Fits seg → Holds segs d →
    (∃ err d', A.write e seg d = (.error err, d') ∧ Fails err ∧
        Holds segs d') ∨
      ∃ d', A.write e seg d = (.ok (), d') ∧ Holds (segs ++ [seg]) d' ∧
        (A.fd d').eof = (A.fd d).eof ∧ (A.fd d').closed = (A.fd d).closed
  tick : ∀ {e ms segs d}, ok e → Holds segs d →
    (∃ err d', A.tick e ms d = (.error err, d') ∧ Fails err ∧
        Holds segs d') ∨
      ∃ d', A.tick e ms d = (.ok (), d') ∧ Holds segs d'

/-- What can be read may be described less exactly, and fewer answers be
expected. -/
theorem Lawful.mono
    {A : FdAdapter δ ε} {Holds : List TCPSegment → δ → Prop}
    {Fails : String → Prop} {ok ok' : ε → Prop}
    {Comes Comes' : TCPSegment → Prop} (h : A.Lawful Holds Fails ok Comes)
    (hok : ∀ e, ok' e → ok e) (hcomes : ∀ seg, Comes seg → Comes' seg) :
    A.Lawful Holds Fails ok' Comes' where
  read := by
    intro e segs d he hd
    rcases h.read (hok e he) hd with herror |
      ⟨seg, d', hread, hd', hcount, hclosed, hall⟩
    · exact Or.inl herror
    · exact Or.inr ⟨seg, d', hread, hd', hcount, hclosed,
        fun seg' hseg' => hcomes seg' (hall seg' hseg')⟩
  write := fun he => h.write (hok _ he)
  tick := fun he => h.tick (hok _ he)

end FdAdapter

/-! ## UDP sockets -/

/-- A socket for datagrams. -/
structure UDPSocket where
  fd : FileDescriptor := {}
  sent : List (Address × Bytes) := []
deriving DecidableEq

namespace UDPSocket

/-- The size of the buffer for a datagram. -/
def mtu : ℕ := 65536

/-- Receive a datagram and the address of its sender. -/
def recv (sock : UDPSocket) (answer : Except String (Address × Bytes)) :
    Except String (Address × Bytes) × UDPSocket :=
  match systemCall "recvfrom" answer with
  | .error e => (.error e, sock)
  | .ok datagram =>
      if datagram.2.length > mtu then
        (.error "recvfrom (oversized datagram)", sock)
      else (.ok datagram, { sock with fd := sock.fd.registerRead })

/-- Send a datagram. -/
def sendto (sock : UDPSocket) (destination : Address)
    (payload : BufferViewList) (answer : Except String ℕ) :
    Except String Unit × UDPSocket :=
  match systemCall "sendmsg" answer with
  | .error e => (.error e, sock)
  | .ok bytesSent =>
      if bytesSent ≠ payload.size then
        (.error "datagram payload too big for sendmsg()", sock)
      else
        (.ok (),
          { fd := sock.fd.registerWrite
            sent := sock.sent ++ [(destination, payload.asIovecs)] })

/-- What the kernel can make an operation on a socket throw. -/
inductive Refused : String → Prop
  | call {attempt : String} (h : attempt ∈ ["recvfrom", "sendmsg"])
      (e : String) : Refused (attempt ++ ": " ++ e)
  | oversized : Refused "recvfrom (oversized datagram)"
  | tooBig : Refused "datagram payload too big for sendmsg()"

theorem recv_cases
    (sock : UDPSocket) (answer : Except String (Address × Bytes)) :
    (∃ e, Refused e ∧ sock.recv answer = (.error e, sock)) ∨
      ∃ datagram, answer = .ok datagram ∧ sock.recv answer =
        (.ok datagram, { sock with fd := sock.fd.registerRead }) := by
  cases answer with
  | error e =>
      exact Or.inl ⟨"recvfrom" ++ ": " ++ e, .call (by decide) e, rfl⟩
  | ok datagram =>
      by_cases hsize : datagram.2.length > mtu
      · exact Or.inl ⟨"recvfrom (oversized datagram)", .oversized,
          if_pos hsize⟩
      · exact Or.inr ⟨datagram, rfl, if_neg hsize⟩

theorem sendto_cases
    (sock : UDPSocket) (destination : Address) (payload : BufferViewList)
    (answer : Except String ℕ) :
    (∃ e, Refused e ∧
        sock.sendto destination payload answer = (.error e, sock)) ∨
      sock.sendto destination payload answer =
        (.ok (),
          { fd := sock.fd.registerWrite
            sent := sock.sent ++ [(destination, payload.asIovecs)] }) := by
  cases answer with
  | error e =>
      exact Or.inl ⟨"sendmsg" ++ ": " ++ e, .call (by decide) e, rfl⟩
  | ok bytesSent =>
      by_cases hsize : bytesSent ≠ payload.size
      · exact Or.inl ⟨"datagram payload too big for sendmsg()", .tooBig,
          if_pos hsize⟩
      · exact Or.inr (if_neg hsize)

end UDPSocket

/-! ## TCP in UDP -/

/-- The adapter that reads and writes segments in UDP payloads. -/
structure TCPOverUDPSocketAdapter where
  sock : UDPSocket := {}
  config : FdAdapterConfig := {}
  listening : Bool := false
deriving DecidableEq

namespace TCPOverUDPSocketAdapter

/-- What the kernel answers: the datagram that is received, and how many bytes
are sent. -/
structure Answer where
  recvfrom : Except String (Address × Bytes)
  sendmsg : Except String ℕ

/-- The adapter that answers the sender of a segment from now on. -/
def lockedTo (a : TCPOverUDPSocketAdapter) (source : Address) :
    TCPOverUDPSocketAdapter :=
  { a with
    config := { a.config with destination := source }
    listening := false }

/-- The segment in a datagram, if it is one for us. -/
def unwrap (a : TCPOverUDPSocketAdapter) (datagram : Address × Bytes) :
    Option TCPSegment × TCPOverUDPSocketAdapter :=
  if ¬ a.listening ∧ datagram.1 ≠ a.config.destination then (none, a)
  else
    let (result, seg) := TCPSegment.parse {} (Buffer.ofString datagram.2) 0
    if .noError ≠ result then (none, a)
    else if a.listening then
      if seg.header.syn ∧ ¬ seg.header.rst then
        (some seg, a.lockedTo datagram.1)
      else (none, a)
    else (some seg, a)

/-- Receive a datagram, and read a segment from it. -/
def read (answer : Answer) (a : TCPOverUDPSocketAdapter) :
    Except String (Option TCPSegment) × TCPOverUDPSocketAdapter :=
  match a.sock.recv answer.recvfrom with
  | (.error e, sock) => (.error e, { a with sock := sock })
  | (.ok datagram, sock) =>
      let unwrapped := unwrap { a with sock := sock } datagram
      (.ok unwrapped.1, unwrapped.2)

/-- Send a segment as the payload of a datagram. -/
def write (answer : Answer) (seg : TCPSegment)
    (a : TCPOverUDPSocketAdapter) :
    Except String Unit × TCPOverUDPSocketAdapter :=
  match (seg.withPorts a.config).serialize 0 with
  | .error e => (.error e, a)
  | .ok payload =>
      let sent := a.sock.sendto a.config.destination
        (.ofBufferList payload) answer.sendmsg
      (sent.1, { a with sock := sent.2 })

/-- The operations, with those of the base class. -/
def adapter : FdAdapter TCPOverUDPSocketAdapter Answer where
  fd := fun a => a.sock.fd
  read := read
  write := write
  tick := fun _ _ a => (.ok (), a)
  configMut := fun config a => { a with config := config }
  setListening := fun l a => { a with listening := l }

/-! ### What goes from one end to the other -/

/-- What is read from the datagram is the segment. -/
def Carries (seg : TCPSegment) (datagram : Address × Bytes) : Prop :=
  ∃ parsed, TCPSegment.parse {} (Buffer.ofString datagram.2) 0 =
    (.noError, parsed) ∧ Arrives seg parsed

/-- The adapter at one end of a connection, whose other end has an address in
`Peer`.  The segments have left in datagrams, in order. -/
structure Holds (Peer : Address → Prop) (listens : Bool)
    (segs : List TCPSegment) (a : TCPOverUDPSocketAdapter) : Prop where
  sent : List.Forall₂ Carries segs a.sock.sent
  listening : a.listening = true → listens = true
  destination : a.listening = false → Peer a.config.destination
  usable : a.sock.fd.eof = false ∧ a.sock.fd.closed = false

/-- What a peer sends is described by `Comes`.  Others may send what they
like, but as long as this end may be waiting for its peer nobody else opens a
connection. -/
def Expected (Peer : Address → Prop) (listens : Bool)
    (Comes : TCPSegment → Prop) (answer : Answer) : Prop :=
  ∀ source payload, answer.recvfrom = .ok (source, payload) → ∀ seg,
    TCPSegment.parse {} (Buffer.ofString payload) 0 = (.noError, seg) →
      (Peer source → Comes seg) ∧
        (¬ Peer source → listens = true → seg.header.syn = true →
          seg.header.rst = true)

/-- A datagram with the address of the peer was sent by the peer to this
end. -/
def FromPeer (own peer : Address) (listens : Bool)
    (sent : List (Address × Bytes)) (answer : Answer) : Prop :=
  ∀ source payload, answer.recvfrom = .ok (source, payload) →
    (source = peer → (own, payload) ∈ sent) ∧
      (source ≠ peer → listens = true → ∀ seg,
        TCPSegment.parse {} (Buffer.ofString payload) 0 = (.noError, seg) →
          seg.header.syn = true → seg.header.rst = true)

section Laws

variable {Peer : Address → Prop} {listens : Bool}
  {Comes : TCPSegment → Prop} {segs theirs : List TCPSegment}
  {sent : List (Address × Bytes)} {a : TCPOverUDPSocketAdapter}

theorem carries_serialize
    {seg : TCPSegment} (h : Fits seg) (config : FdAdapterConfig) :
    ∃ l, (seg.withPorts config).serialize 0 = .ok l ∧
      ∀ destination, Carries seg (destination, l.concatenate) := by
  have hdoff : (seg.withPorts config).header.doff.toNat = 5 :=
    congrArg UInt8.toNat h.doff
  have hsize : (seg.withPorts config).payload.size ≤ 1452 := h.small
  obtain ⟨l, hl, -, hparse⟩ := @TCPSegment.parse_serialize
    (seg.withPorts config) 0 (by omega) (by omega) (by omega) (by decide)
  obtain ⟨rest, hrest, hparsed⟩ :=
    hparse {} (Buffer.ofString l.concatenate) rfl
  exact ⟨l, hl, fun _ => ⟨_, hparsed, ⟨_, _, _, rfl⟩, hrest⟩⟩

/-- What is read from a datagram of the peer is a segment of the peer. -/
theorem arrives_of_mem
    (htheirs : List.Forall₂ Carries theirs sent)
    {datagram : Address × Bytes} (hmem : datagram ∈ sent)
    {parsed : TCPSegment}
    (hparsed : TCPSegment.parse {} (Buffer.ofString datagram.2) 0 =
      (.noError, parsed)) :
    ∃ seg ∈ theirs, Arrives seg parsed := by
  induction htheirs with
  | nil => exact absurd hmem List.not_mem_nil
  | cons hcarries _ ih =>
      rcases List.mem_cons.mp hmem with rfl | hmem
      · obtain ⟨parsed', hparsed', harrives⟩ := hcarries
        obtain rfl := (Prod.mk.inj (hparsed'.symm.trans hparsed)).2
        exact ⟨_, List.mem_cons_self, harrives⟩
      · obtain ⟨seg, hseg, harrives⟩ := ih hmem
        exact ⟨seg, List.mem_cons_of_mem _ hseg, harrives⟩

/-- A datagram gives a segment of the peer, or of the first one who opens a
connection to an adapter that waits for its peer. -/
theorem unwrap_cases
    (a : TCPOverUDPSocketAdapter) (datagram : Address × Bytes) :
    a.unwrap datagram = (none, a) ∨
      ∃ seg, TCPSegment.parse {} (Buffer.ofString datagram.2) 0 =
          (.noError, seg) ∧
        ((a.listening = false ∧ datagram.1 = a.config.destination ∧
            a.unwrap datagram = (some seg, a)) ∨
          (a.listening = true ∧ seg.header.syn = true ∧
            seg.header.rst = false ∧
            a.unwrap datagram = (some seg, a.lockedTo datagram.1))) := by
  unfold unwrap
  split
  · exact Or.inl rfl
  next hsource =>
    generalize TCPSegment.parse {} (Buffer.ofString datagram.2) 0 = parsed
    rcases parsed with ⟨result, seg⟩
    dsimp only
    split
    · exact Or.inl rfl
    next hresult =>
      obtain rfl := not_not.mp hresult
      split
      next hlistening =>
        split
        next hsyn =>
          exact Or.inr ⟨seg, rfl, Or.inr ⟨hlistening, hsyn.1,
            Bool.eq_false_iff.mpr hsyn.2, rfl⟩⟩
        · exact Or.inl rfl
      next hlistening =>
        refine Or.inr ⟨seg, rfl, Or.inl ⟨Bool.eq_false_iff.mpr hlistening, ?_,
          rfl⟩⟩
        by_contra hne
        exact hsource ⟨hlistening, hne⟩

/-- What the peer has sent to this end can be expected. -/
theorem FromPeer.expected
    {own peer : Address} {answer : Answer}
    (h : FromPeer own peer listens sent answer)
    (htheirs : List.Forall₂ Carries theirs sent) :
    Expected (· = peer) listens (fun seg => ∃ seg' ∈ theirs, Arrives seg' seg)
      answer := by
  intro source payload hanswer seg hparsed
  obtain ⟨hpeer, hstranger⟩ := h source payload hanswer
  exact ⟨fun hsource => arrives_of_mem htheirs (hpeer hsource) hparsed,
    fun hne hlistens => hstranger hne hlistens seg hparsed⟩

/-- A datagram that can be expected gives a segment of the peer. -/
theorem Holds.unwrap
    (h : Holds Peer listens segs a) {answer : Answer}
    {datagram : Address × Bytes} (hanswer : answer.recvfrom = .ok datagram)
    (hexpected : Expected Peer listens Comes answer) :
    Holds Peer listens segs (a.unwrap datagram).2 ∧
      (a.unwrap datagram).2.sock = a.sock ∧
      ∀ seg ∈ (a.unwrap datagram).1, Comes seg := by
  rcases a.unwrap_cases datagram with hnone | ⟨seg, hparsed, hsome⟩
  · rw [hnone]
    exact ⟨h, rfl, by simp⟩
  · obtain ⟨hpeer, hstranger⟩ :=
      hexpected datagram.1 datagram.2 hanswer seg hparsed
    rcases hsome with ⟨hlistening, hsource, heq⟩ | ⟨hlistening, hsyn, hrst, heq⟩
    · rw [heq]
      refine ⟨h, rfl, fun seg' hseg' => ?_⟩
      obtain rfl := Option.some.inj hseg'
      exact hpeer (hsource ▸ h.destination hlistening)
    · have hsource : Peer datagram.1 := by
        by_contra hne
        have hreset := hstranger hne (h.listening hlistening) hsyn
        exact absurd (hrst.symm.trans hreset) Bool.false_ne_true
      rw [heq]
      refine ⟨⟨h.sent, fun hnow => absurd hnow Bool.false_ne_true,
        fun _ => hsource, h.usable⟩, rfl, fun seg' hseg' => ?_⟩
      obtain rfl := Option.some.inj hseg'
      exact hpeer hsource

/-- Segments go from one end to the other, whatever strangers send. -/
theorem lawful :
    adapter.Lawful (Holds Peer listens) UDPSocket.Refused
      (Expected Peer listens Comes) Comes where
  read := by
    intro answer segs a hexpected h
    change (∃ err d', read answer a = _ ∧ _) ∨ ∃ seg d', read answer a = _ ∧ _
    unfold read
    rcases a.sock.recv_cases answer.recvfrom with
      ⟨e, he, hrecv⟩ | ⟨datagram, hdatagram, hrecv⟩
    · rw [hrecv]
      exact Or.inl ⟨e, a, rfl, he, h⟩
    · have hcounted : Holds Peer listens segs
          { a with sock := { a.sock with fd := a.sock.fd.registerRead } } :=
        ⟨h.sent, h.listening, h.destination, h.usable⟩
      obtain ⟨hholds, hsock, hcomes⟩ := hcounted.unwrap hdatagram hexpected
      rw [hrecv]
      refine Or.inr ⟨_, _, rfl, hholds, ?_, ?_, hcomes⟩
      · change (TCPOverUDPSocketAdapter.unwrap _ _).2.sock.fd.readCount ≠ _
        rw [hsock]
        simp [adapter, FileDescriptor.registerRead]
      · change (TCPOverUDPSocketAdapter.unwrap _ _).2.sock.fd.closed = _
        rw [hsock]
        rfl
  write := by
    intro answer seg segs a _ hfits h
    obtain ⟨l, hl, hcarries⟩ := carries_serialize hfits a.config
    change (∃ err d', write answer seg a = _ ∧ _) ∨
      ∃ d', write answer seg a = _ ∧ _
    unfold write
    rw [hl]
    dsimp only
    rcases a.sock.sendto_cases a.config.destination (.ofBufferList l)
      answer.sendmsg with ⟨e, he, hsend⟩ | hsend
    · rw [hsend]
      exact Or.inl ⟨e, a, rfl, he, h⟩
    · rw [hsend]
      refine Or.inr ⟨_, rfl, ⟨?_, h.listening, h.destination, h.usable⟩, rfl,
        rfl⟩
      rw [BufferViewList.asIovecs_ofBufferList]
      exact List.rel_append h.sent (.cons (hcarries _) .nil)
  tick := fun _ h => Or.inr ⟨_, rfl, h⟩

/-- If everybody may be the peer, anything can be expected. -/
theorem lawful_any :
    adapter.Lawful (Holds (fun _ => True) listens) UDPSocket.Refused
      (fun _ => True) (fun _ => True) := by
  refine lawful.mono (fun answer _ => ?_) fun _ h => h
  exact fun _ _ _ _ _ => ⟨fun _ => trivial, fun hno => absurd trivial hno⟩

end Laws

end TCPOverUDPSocketAdapter

/-! ## Losing segments -/

/-- Drop a segment at random; a rate of zero drops none. -/
def shouldDrop (loss : UInt16) (rand : UInt32) : Bool :=
  loss != 0 && rand.toUInt16 < loss

namespace FdAdapter

variable {δ ε : Type*}

/-- An adapter that drops segments in both directions.  The random number that
an operation draws comes with the answer of the kernel. -/
def lossy (A : FdAdapter δ ε) (lossRateUp lossRateDn : UInt16) :
    FdAdapter δ (UInt32 × ε) where
  fd := A.fd
  read := fun e d =>
    match A.read e.2 d with
    | (.error err, d') => (.error err, d')
    | (.ok ret, d') =>
        if shouldDrop lossRateDn e.1 then (.ok none, d') else (.ok ret, d')
  write := fun e seg d =>
    if shouldDrop lossRateUp e.1 then (.ok (), d) else A.write e.2 seg d
  tick := fun e => A.tick e.2
  configMut := A.configMut
  setListening := A.setListening

/-- Some of the segments have been written. -/
def HoldsSome (Holds : List TCPSegment → δ → Prop) (segs : List TCPSegment)
    (d : δ) : Prop :=
  ∃ part, part.Sublist segs ∧ Holds part d

/-- An adapter that loses segments is as good as the one below. -/
theorem Lawful.lossy
    {A : FdAdapter δ ε} {Holds : List TCPSegment → δ → Prop}
    {Fails : String → Prop} {ok : ε → Prop} {Comes : TCPSegment → Prop}
    (h : A.Lawful Holds Fails ok Comes) (lossRateUp lossRateDn : UInt16) :
    (A.lossy lossRateUp lossRateDn).Lawful (HoldsSome Holds) Fails
      (fun e => ok e.2) Comes where
  read := by
    rintro e segs d hok ⟨part, hpart, hd⟩
    rcases h.read hok hd with ⟨err, d', hread, herr, hd'⟩ |
      ⟨seg, d', hread, hd', hcount, hclosed, hcomes⟩
    · refine Or.inl ⟨err, d', ?_, herr, part, hpart, hd'⟩
      simp only [FdAdapter.lossy, hread]
    · by_cases hdrop : shouldDrop lossRateDn e.1 = true
      · refine Or.inr ⟨none, d', ?_, ⟨part, hpart, hd'⟩, hcount, hclosed, ?_⟩
        · simp only [FdAdapter.lossy, hread, hdrop, if_true]
        · simp
      · refine Or.inr ⟨seg, d', ?_, ⟨part, hpart, hd'⟩, hcount, hclosed,
          hcomes⟩
        simp only [FdAdapter.lossy, hread, if_neg hdrop]
  write := by
    rintro e seg segs d hok hfits ⟨part, hpart, hd⟩
    by_cases hdrop : shouldDrop lossRateUp e.1 = true
    · refine Or.inr ⟨d, if_pos hdrop, ⟨part, ?_, hd⟩, rfl, rfl⟩
      exact hpart.trans (List.sublist_append_left segs [seg])
    · have hkept : (A.lossy lossRateUp lossRateDn).write e seg d =
          A.write e.2 seg d := if_neg hdrop
      rw [hkept]
      rcases h.write hok hfits hd with ⟨err, d', hwrite, herr, hd'⟩ |
        ⟨d', hwrite, hd', heof, hclosed⟩
      · exact Or.inl ⟨err, d', hwrite, herr, part, hpart, hd'⟩
      · exact Or.inr ⟨d', hwrite, ⟨part ++ [seg],
          hpart.append (List.Sublist.refl [seg]), hd'⟩, heof, hclosed⟩
  tick := by
    rintro e ms segs d hok ⟨part, hpart, hd⟩
    rcases h.tick hok hd with ⟨err, d', htick, herr, hd'⟩ | ⟨d', htick, hd'⟩
    · exact Or.inl ⟨err, d', htick, herr, part, hpart, hd'⟩
    · exact Or.inr ⟨d', htick, part, hpart, hd'⟩

end FdAdapter

end Sponge
