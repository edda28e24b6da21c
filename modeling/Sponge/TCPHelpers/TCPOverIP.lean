import Sponge.Support.Run
import Sponge.TCPHelpers.IPv4Datagram
import Sponge.TCPHelpers.TCPCodec

/-!
# TCP over IPv4

The adapter between a TCP connection and the network layer.  Outgoing segments
get the configured ports and are wrapped into a datagram.  Of the incoming
datagrams only those of one peer are unwrapped.  A listening adapter takes as
its peer the sender of the first SYN, and its own address from there.

An address is the number and the port that the source reads from it.
-/

namespace Sponge

/-- An IPv4 address with a port. -/
structure Address where
  ipv4Numeric : UInt32
  port : UInt16
deriving DecidableEq

/-- The two ends of a connection. -/
structure FdAdapterConfig where
  source : Address := ⟨0, 0⟩
  destination : Address := ⟨0, 0⟩
deriving DecidableEq

/-- The adapter: its configuration, and whether it still waits for a peer. -/
structure TCPOverIPv4Adapter where
  config : FdAdapterConfig := {}
  listening : Bool := false
deriving DecidableEq

namespace TCPOverIPv4Adapter

/-- The last filter of `unwrapTcpInIp`: is the segment from our peer? -/
def fromPeer (a : TCPOverIPv4Adapter) (tcpSeg : TCPSegment) :
    Option TCPSegment :=
  if tcpSeg.header.sport ≠ a.config.destination.port then none
  else some tcpSeg

/-- The adapter that has taken the sender of a segment as its peer. -/
def lockedTo (a : TCPOverIPv4Adapter) (header : IPv4Header)
    (tcpSeg : TCPSegment) : TCPOverIPv4Adapter :=
  { config :=
      { source := ⟨header.dst, a.config.source.port⟩
        destination := ⟨header.src, tcpSeg.header.sport⟩ }
    listening := false }

/-- The filters of `unwrapTcpInIp` behind the parser. -/
def filterSegment (a : TCPOverIPv4Adapter) (header : IPv4Header)
    (tcpSeg : TCPSegment) : Option TCPSegment × TCPOverIPv4Adapter :=
  if tcpSeg.header.dport ≠ a.config.source.port then (none, a)
  else if a.listening then
    if tcpSeg.header.syn ∧ ¬ tcpSeg.header.rst then
      let a := a.lockedTo header tcpSeg
      (a.fromPeer tcpSeg, a)
    else (none, a)
  else (a.fromPeer tcpSeg, a)

/-- The TCP segment in a datagram, if it is one for us. -/
def unwrapTcpInIp (a : TCPOverIPv4Adapter) (ipDgram : InternetDatagram) :
    Except String (Option TCPSegment × TCPOverIPv4Adapter) :=
  if ¬ a.listening ∧ ipDgram.header.dst ≠ a.config.source.ipv4Numeric then
    .ok (none, a)
  else if ¬ a.listening ∧
      ipDgram.header.src ≠ a.config.destination.ipv4Numeric then
    .ok (none, a)
  else if ipDgram.header.proto ≠ IPv4Header.protoTcp then .ok (none, a)
  else do
    let buffer ← ipDgram.payload.toBuffer
    let (result, tcpSeg) :=
      TCPSegment.parse {} buffer ipDgram.header.pseudoCksum
    if .noError ≠ result then return (none, a)
    else return a.filterSegment ipDgram.header tcpSeg

/-- The segment with the configured ports. -/
def setPorts (a : TCPOverIPv4Adapter) (seg : TCPSegment) : TCPSegment :=
  { seg with header := { seg.header with
      sport := a.config.source.port
      dport := a.config.destination.port } }

/-- The header of the datagram for a segment: a new header with the addresses
and the length. -/
def wrapHeader (a : TCPOverIPv4Adapter) (seg : TCPSegment) : IPv4Header :=
  let header : IPv4Header :=
    { src := a.config.source.ipv4Numeric
      dst := a.config.destination.ipv4Numeric }
  { header with len := UInt16.ofNat (header.hlen.toNat * 4 +
      seg.header.doff.toNat * 4 + seg.payload.size) }

/-- Put a segment into a datagram; the segment gets the configured ports. -/
def wrapTcpInIp (a : TCPOverIPv4Adapter) (seg : TCPSegment) :
    Except String (TCPSegment × InternetDatagram) := do
  let seg := a.setPorts seg
  let header := a.wrapHeader seg
  let payload ← seg.serialize header.pseudoCksum
  return (seg, ⟨header, payload⟩)

/-! ## Round trip between two adapters -/

/-- The pseudo-header adds six words. -/
theorem pseudoCksum_lt (h : IPv4Header) :
    h.pseudoCksum.toNat < 2 ^ 31 := by
  have hhalves : ∀ n : UInt32,
      ((n >>> 16) + (n &&& (0xffff : UInt32))).toNat ≤ 2 * 65535 := by
    intro n
    have hn := n.toNat_lt
    have hlow : (n &&& (0xffff : UInt32)).toNat = n.toNat % 2 ^ 16 := by
      rw [UInt32.toNat_and]
      exact Nat.and_two_pow_sub_one_eq_mod _ 16
    have hhigh : (n >>> 16).toNat = n.toNat / 2 ^ 16 := by
      rw [UInt32.toNat_shiftRight]
      exact Nat.shiftRight_eq_div_pow _ 16
    rw [UInt32.toNat_add, hlow, hhigh]
    refine (Nat.mod_le _ _).trans ?_
    omega
  have hsrc := hhalves h.src
  have hdst := hhalves h.dst
  have hproto := h.proto.toNat_lt
  have hlength := h.payloadLength.toNat_lt
  rw [IPv4Header.pseudoCksum, UInt32.toNat_add, UInt32.toNat_add,
    UInt32.toNat_add, UInt8.toNat_toUInt32, UInt16.toNat_toUInt32]
  omega

/-- The pseudo-header does not contain the checksum of the header. -/
theorem pseudoCksum_cksum (h : IPv4Header) (cksum : UInt16) :
    { h with cksum := cksum }.pseudoCksum = h.pseudoCksum :=
  rfl

/-- A segment with the port numbers of its connection passes the filters. -/
theorem filterSegment_of_ports
    {a : TCPOverIPv4Adapter} {tcpSeg : TCPSegment} (header : IPv4Header)
    (hlisten : a.listening = false)
    (hdport : tcpSeg.header.dport = a.config.source.port)
    (hsport : tcpSeg.header.sport = a.config.destination.port) :
    a.filterSegment header tcpSeg = (some tcpSeg, a) := by
  rw [filterSegment, if_neg (not_not.mpr hdport), hlisten,
    if_neg Bool.false_ne_true, fromPeer, if_neg (not_not.mpr hsport)]

theorem wrapHeader_canonical (a : TCPOverIPv4Adapter) (seg : TCPSegment) :
    (a.wrapHeader seg).Canonical where
  ver_eq := rfl
  five_le_hlen := le_rfl
  hlen_le := show 5 ≤ 15 by decide
  offset_lt := show 0 < 2 ^ 13 by decide

theorem wrapHeader_len
    (a : TCPOverIPv4Adapter) {seg : TCPSegment}
    (hsize : 20 + 4 * seg.header.doff.toNat + seg.payload.size ≤ 65535) :
    (a.wrapHeader seg).len.toNat =
      20 + (4 * seg.header.doff.toNat + seg.payload.size) := by
  change (UInt16.ofNat (5 * 4 + seg.header.doff.toNat * 4 +
    seg.payload.size)).toNat = _
  rw [UInt16.toNat_ofNat']
  omega

/-- A datagram from the peer with a segment from the peer is unwrapped. -/
theorem unwrap_of_peer
    {a : TCPOverIPv4Adapter} {ipDgram : InternetDatagram} {buffer : Buffer}
    {tcpSeg : TCPSegment} (hlisten : a.listening = false)
    (hdst : ipDgram.header.dst = a.config.source.ipv4Numeric)
    (hsrc : ipDgram.header.src = a.config.destination.ipv4Numeric)
    (hproto : ipDgram.header.proto = IPv4Header.protoTcp)
    (hbuffer : ipDgram.payload.toBuffer = .ok buffer)
    (hparse : TCPSegment.parse {} buffer ipDgram.header.pseudoCksum =
      (.noError, tcpSeg))
    (hdport : tcpSeg.header.dport = a.config.source.port)
    (hsport : tcpSeg.header.sport = a.config.destination.port) :
    a.unwrapTcpInIp ipDgram = .ok (some tcpSeg, a) := by
  have hfilter := filterSegment_of_ports ipDgram.header hlisten hdport
    hsport
  rw [unwrapTcpInIp, if_neg fun h => h.2 hdst, if_neg fun h => h.2 hsrc,
    if_neg (not_not.mpr hproto), hbuffer]
  change (match TCPSegment.parse {} buffer ipDgram.header.pseudoCksum with
    | (result, tcpSeg) => if ParseResult.noError ≠ result then
        (Except.ok (none, a) : Except String _)
      else .ok (a.filterSegment ipDgram.header tcpSeg)) = _
  rw [hparse]
  simp only [ne_eq, not_true_eq_false, if_false, hfilter]

/-- What an adapter wraps, the adapter at the other end unwraps. -/
theorem unwrap_wrap
    {x y : TCPOverIPv4Adapter} (hlisten : y.listening = false)
    (hsource : x.config.source = y.config.destination)
    (hdestination : x.config.destination = y.config.source)
    {seg : TCPSegment} (hdoff : 5 ≤ seg.header.doff.toNat)
    (hdoff' : seg.header.doff.toNat ≤ 15)
    (hsize : 20 + 4 * seg.header.doff.toNat + seg.payload.size ≤ 65535) :
    ∃ sent ipDgram l, x.wrapTcpInIp seg = .ok (sent, ipDgram) ∧
      ipDgram.serialize = .ok l ∧
      ∀ fresh : InternetDatagram, ∃ parsed received,
        fresh.parse (Buffer.ofString l.concatenate) = (.noError, parsed) ∧
        y.unwrapTcpInIp parsed = .ok (some received, y) ∧
        received.header =
          { seg.header with
            sport := x.config.source.port
            dport := x.config.destination.port
            cksum := received.header.cksum } ∧
        received.payload.str = seg.payload.str := by
  have hsegmentSize :
      4 * seg.header.doff.toNat + seg.payload.size ≤ 65535 := by
    omega
  obtain ⟨payload, hpayload, hpayloadSize, hsegment⟩ :=
    @TCPSegment.parse_serialize (x.setPorts seg) _ hdoff hdoff' hsegmentSize
      (pseudoCksum_lt (x.wrapHeader (x.setPorts seg)))
  have hlen : (x.wrapHeader (x.setPorts seg)).len.toNat =
      4 * (x.wrapHeader (x.setPorts seg)).hlen.toNat + payload.size := by
    rw [hpayloadSize]
    exact @wrapHeader_len x (x.setPorts seg) hsize
  obtain ⟨l, hl, hdatagram⟩ := IPv4Datagram.parse_serialize
    (d := ⟨x.wrapHeader (x.setPorts seg), payload⟩)
    (wrapHeader_canonical x _) hlen
  refine ⟨x.setPorts seg, ⟨x.wrapHeader (x.setPorts seg), payload⟩, l, ?_,
    hl, ?_⟩
  · rw [wrapTcpInIp, hpayload]
    rfl
  · intro fresh
    obtain ⟨rest, hrest, hparsed⟩ :=
      hdatagram fresh (Buffer.ofString l.concatenate) rfl
    obtain ⟨bytes, hbytes, hreceived⟩ := hsegment {} rest hrest
    rw [← pseudoCksum_cksum _ (IPv4Datagram.headerCksum
      (x.wrapHeader (x.setPorts seg)))] at hreceived
    refine ⟨_, _, hparsed, unwrap_of_peer hlisten ?_ ?_ rfl rfl hreceived
      ?_ ?_, rfl, hbytes⟩
    · rw [← hdestination]
      rfl
    · rw [← hsource]
      rfl
    · rw [← hdestination]
      rfl
    · rw [← hsource]
      rfl

def client : TCPOverIPv4Adapter where
  config := { source := ⟨1, 4000⟩, destination := ⟨2, 80⟩ }

def server : TCPOverIPv4Adapter where
  config := { source := ⟨2, 80⟩, destination := ⟨1, 4000⟩ }

/-- A SYN with three bytes and a word of options. -/
def greeting : TCPSegment where
  header := { seqno := ⟨7⟩, doff := 6, syn := true, win := 1000 }
  payload := Buffer.ofString [1, 2, 3]

theorem unwrap_wrap_greeting :
    ∃ sent ipDgram l, client.wrapTcpInIp greeting = .ok (sent, ipDgram) ∧
      ipDgram.serialize = .ok l ∧ ∃ parsed received,
        IPv4Datagram.parse {} (Buffer.ofString l.concatenate) =
          (.noError, parsed) ∧
        server.unwrapTcpInIp parsed = .ok (some received, server) ∧
        received.header.seqno = ⟨7⟩ ∧ received.payload.str = [1, 2, 3] := by
  obtain ⟨sent, ipDgram, l, hwrap, hl, hunwrap⟩ :=
    unwrap_wrap (x := client) (y := server) rfl rfl rfl
      (show 5 ≤ greeting.header.doff.toNat by decide) (by decide) (by decide)
  obtain ⟨parsed, received, hparse, hreceived, hheader, hpayload⟩ :=
    hunwrap {}
  exact ⟨sent, ipDgram, l, hwrap, hl, parsed, received, hparse, hreceived,
    by rw [hheader]; rfl, hpayload⟩

/-! ## Isolation of connections -/

/-- The addresses and ports of the two ends: where segments come from, and
where they go to. -/
structure FourTuple where
  src : UInt32
  sport : UInt16
  dst : UInt32
  dport : UInt16
deriving DecidableEq

/-- The ends that are named in the bytes of a datagram. -/
def fourTuple (ipDgram : InternetDatagram) : FourTuple :=
  let tcp := TCPHeader.decode ipDgram.payload.concatenate
  ⟨ipDgram.header.src, tcp.sport, ipDgram.header.dst, tcp.dport⟩

/-- The ends of the datagrams that an adapter with a peer waits for. -/
def configured (a : TCPOverIPv4Adapter) : FourTuple :=
  ⟨a.config.destination.ipv4Numeric, a.config.destination.port,
    a.config.source.ipv4Numeric, a.config.source.port⟩

/-- The adapter after a datagram.  An exception is thrown before anything
changes. -/
def step (a : TCPOverIPv4Adapter) (ipDgram : InternetDatagram) :
    TCPOverIPv4Adapter :=
  match a.unwrapTcpInIp ipDgram with
  | .ok (_, a') => a'
  | .error _ => a

/-- The segments that a sequence of datagrams gives, each with its
datagram. -/
def returned (a : TCPOverIPv4Adapter) :
    List InternetDatagram → List (InternetDatagram × TCPSegment)
  | [] => []
  | ipDgram :: rest =>
      match a.unwrapTcpInIp ipDgram with
      | .ok (some tcpSeg, _) =>
          (ipDgram, tcpSeg) :: (a.step ipDgram).returned rest
      | _ => (a.step ipDgram).returned rest

section Isolation

variable {a a' : TCPOverIPv4Adapter} {ipDgram : InternetDatagram}
  {tcpSeg : TCPSegment}

/-- A new peer is the sender of the segment, so the segment is from it. -/
theorem fromPeer_lockedTo
    (a : TCPOverIPv4Adapter) (header : IPv4Header) (tcpSeg : TCPSegment) :
    (a.lockedTo header tcpSeg).fromPeer tcpSeg = some tcpSeg :=
  if_neg (not_not.mpr rfl)

/-- What the last filters do to a segment. -/
theorem filterSegment_cases
    (a : TCPOverIPv4Adapter) (header : IPv4Header) (tcpSeg : TCPSegment) :
    a.filterSegment header tcpSeg = (none, a) ∨
      tcpSeg.header.dport = a.config.source.port ∧
        ((a.listening = true ∧ tcpSeg.header.syn = true ∧
            tcpSeg.header.rst = false ∧
            a.filterSegment header tcpSeg =
              (some tcpSeg, a.lockedTo header tcpSeg)) ∨
          (a.listening = false ∧
            tcpSeg.header.sport = a.config.destination.port ∧
            a.filterSegment header tcpSeg = (some tcpSeg, a))) := by
  unfold filterSegment
  split
  · exact Or.inl rfl
  next hdport =>
    split
    next hlisten =>
      split
      next hsyn =>
        refine Or.inr ⟨not_not.mp hdport, Or.inl ⟨hlisten, hsyn.1, ?_, ?_⟩⟩
        · exact Bool.eq_false_iff.mpr hsyn.2
        · simp only [fromPeer_lockedTo]
      · exact Or.inl rfl
    next hlisten =>
      unfold fromPeer
      split
      · exact Or.inl rfl
      next hsport =>
        exact Or.inr ⟨not_not.mp hdport, Or.inr
          ⟨Bool.eq_false_iff.mpr hlisten, not_not.mp hsport, rfl⟩⟩

/-- What a call that returns did: the parser was not reached or refused the
payload, or the segment went through the last filters. -/
theorem unwrap_cases
    {out : Option TCPSegment} (h : a.unwrapTcpInIp ipDgram = .ok (out, a')) :
    (out = none ∧ a' = a) ∨
      ∃ tcpSeg : TCPSegment,
        a.filterSegment ipDgram.header tcpSeg = (out, a') ∧
        tcpSeg.header = TCPHeader.decode ipDgram.payload.concatenate ∧
        (a.listening = false →
          ipDgram.header.dst = a.config.source.ipv4Numeric ∧
          ipDgram.header.src = a.config.destination.ipv4Numeric) := by
  have hrefused : ∀ {o : Option TCPSegment} {b : TCPOverIPv4Adapter},
      (Except.ok (none, a) : Except String _) = .ok (o, b) →
      o = none ∧ b = a := by
    intro o b hok
    obtain ⟨rfl, rfl⟩ := Prod.mk.inj (Except.ok.inj hok)
    exact ⟨rfl, rfl⟩
  unfold unwrapTcpInIp at h
  split at h
  · exact Or.inl (hrefused h)
  next hdst =>
    split at h
    · exact Or.inl (hrefused h)
    next hsrc =>
      split at h
      · exact Or.inl (hrefused h)
      · cases hbuffer : ipDgram.payload.toBuffer with
        | error e => simp [hbuffer, bind, Except.bind] at h
        | ok buffer =>
            simp only [hbuffer, bind, Except.bind] at h
            split at h
            · exact Or.inl (hrefused h)
            next hparse =>
              have haccepted := (not_not.mp hparse).symm
              refine Or.inr ⟨_, Except.ok.inj h, ?_, fun hlisten => ⟨?_, ?_⟩⟩
              · rw [TCPSegment.header_of_parse haccepted,
                  BufferList.str_of_toBuffer hbuffer]
              · by_contra hne
                exact hdst ⟨by rw [hlisten]; exact Bool.false_ne_true, hne⟩
              · by_contra hne
                exact hsrc ⟨by rw [hlisten]; exact Bool.false_ne_true, hne⟩

/-- A datagram without a segment for us leaves the adapter as it is. -/
theorem unwrap_none (h : a.unwrapTcpInIp ipDgram = .ok (none, a')) :
    a' = a := by
  rcases unwrap_cases h with ⟨-, ha⟩ | ⟨tcpSeg, hfilter, -, -⟩
  · exact ha
  · rcases filterSegment_cases a ipDgram.header tcpSeg with hnone |
      ⟨-, ⟨-, -, -, hsome⟩ | ⟨-, -, hsome⟩⟩
    · rw [hnone] at hfilter
      exact (Prod.mk.inj hfilter).2.symm
    · rw [hsome] at hfilter
      exact absurd (Prod.mk.inj hfilter).1 (Option.some_ne_none _)
    · rw [hsome] at hfilter
      exact absurd (Prod.mk.inj hfilter).1 (Option.some_ne_none _)

/-- A segment comes from the configured peer, or from a new one, which a SYN
makes the configured one. -/
theorem unwrap_some (h : a.unwrapTcpInIp ipDgram = .ok (some tcpSeg, a')) :
    a'.listening = false ∧ fourTuple ipDgram = a'.configured ∧
      (a.listening = false → a' = a) ∧
      (a.listening = true →
        tcpSeg.header.syn = true ∧ tcpSeg.header.rst = false) := by
  rcases unwrap_cases h with ⟨hout, -⟩ | ⟨seg, hfilter, hheader, haddr⟩
  · exact absurd hout (Option.some_ne_none _)
  · have htuple : fourTuple ipDgram = ⟨ipDgram.header.src, seg.header.sport,
        ipDgram.header.dst, seg.header.dport⟩ := by
      rw [fourTuple, hheader]
    rw [htuple]
    rcases filterSegment_cases a ipDgram.header seg with hnone |
      ⟨hdport, ⟨hlisten, hsyn, hrst, hsome⟩ | ⟨hlisten, hsport, hsome⟩⟩
    · rw [hnone] at hfilter
      exact absurd (Prod.mk.inj hfilter).1.symm (Option.some_ne_none _)
    · rw [hsome] at hfilter
      obtain ⟨hseg, rfl⟩ := Prod.mk.inj hfilter
      obtain rfl := Option.some.inj hseg
      refine ⟨rfl, ?_, ?_, fun _ => ⟨hsyn, hrst⟩⟩
      · rw [hdport]
        rfl
      · intro hnot
        rw [hlisten] at hnot
        exact absurd hnot.symm Bool.false_ne_true
    · rw [hsome] at hfilter
      obtain ⟨hseg, rfl⟩ := Prod.mk.inj hfilter
      obtain rfl := Option.some.inj hseg
      obtain ⟨hdst, hsrc⟩ := haddr hlisten
      refine ⟨hlisten, ?_, fun _ => rfl, ?_⟩
      · rw [hdst, hsrc, hdport, hsport]
        rfl
      · intro hnot
        rw [hlisten] at hnot
        exact absurd hnot Bool.false_ne_true

/-- One datagram either gives nothing and changes nothing, or it gives a
segment. -/
theorem step_cases (a : TCPOverIPv4Adapter) (ipDgram : InternetDatagram)
    (rest : List InternetDatagram) :
    (a.step ipDgram = a ∧
        a.returned (ipDgram :: rest) = a.returned rest) ∨
      ∃ tcpSeg, a.unwrapTcpInIp ipDgram = .ok (some tcpSeg, a.step ipDgram) ∧
        a.returned (ipDgram :: rest) =
          (ipDgram, tcpSeg) :: (a.step ipDgram).returned rest := by
  rcases hcall : a.unwrapTcpInIp ipDgram with e | ⟨_ | tcpSeg, a'⟩
  · have hstep : a.step ipDgram = a := by
      rw [step, hcall]
    refine Or.inl ⟨hstep, ?_⟩
    rw [returned, hcall, hstep]
  · have hstep : a.step ipDgram = a := by
      rw [step, hcall]
      exact unwrap_none hcall
    refine Or.inl ⟨hstep, ?_⟩
    rw [returned, hcall, hstep]
  · have hstep : a.step ipDgram = a' := by
      rw [step, hcall]
    refine Or.inr ⟨tcpSeg, ?_, ?_⟩
    · rw [hstep]
    · rw [returned, hcall]

/-- An adapter with a peer returns nothing that is not from it. -/
theorem returned_of_not_listening
    (hlisten : a.listening = false) (ipDgrams : List InternetDatagram) :
    ∀ r ∈ a.returned ipDgrams, fourTuple r.1 = a.configured := by
  induction ipDgrams with
  | nil => exact fun r hr => nomatch hr
  | cons ipDgram rest ih =>
      rcases step_cases a ipDgram rest with ⟨-, hreturned⟩ |
        ⟨tcpSeg, hcall, hreturned⟩
      · rw [hreturned]
        exact ih
      · obtain ⟨-, htuple, hsame, -⟩ := unwrap_some hcall
        rw [hsame hlisten] at htuple hreturned
        rw [hreturned]
        intro r hr
        rcases List.mem_cons.mp hr with rfl | hr
        · exact htuple
        · exact ih r hr

/-- The first segment that a listening adapter returns is a SYN, and all
segments have its ends. -/
theorem returned_of_listening
    (hlisten : a.listening = true) {ipDgrams : List InternetDatagram}
    {first : InternetDatagram × TCPSegment}
    {more : List (InternetDatagram × TCPSegment)}
    (h : a.returned ipDgrams = first :: more) :
    first.2.header.syn = true ∧ first.2.header.rst = false ∧
      ∀ r ∈ a.returned ipDgrams, fourTuple r.1 = fourTuple first.1 := by
  induction ipDgrams with
  | nil => exact nomatch h
  | cons ipDgram rest ih =>
      rcases step_cases a ipDgram rest with ⟨-, hreturned⟩ |
        ⟨tcpSeg, hcall, hreturned⟩
      · rw [hreturned] at h ⊢
        exact ih h
      · obtain ⟨hlocked, htuple, -, hsyn⟩ := unwrap_some hcall
        rw [hreturned] at h ⊢
        obtain ⟨rfl, rfl⟩ := List.cons.inj h
        refine ⟨(hsyn hlisten).1, (hsyn hlisten).2, ?_⟩
        intro r hr
        rcases List.mem_cons.mp hr with rfl | hr
        · rfl
        · rw [htuple]
          exact returned_of_not_listening hlocked rest r hr

/-- All segments that an adapter returns are from one connection, and a
datagram that gives nothing changes nothing. -/
theorem returned_isolated
    (a : TCPOverIPv4Adapter) (ipDgrams : List InternetDatagram) :
    (a.listening = false →
        ∀ r ∈ a.returned ipDgrams, fourTuple r.1 = a.configured) ∧
      (a.listening = true → ∀ first more,
        a.returned ipDgrams = first :: more →
          first.2.header.syn = true ∧ first.2.header.rst = false ∧
          ∀ r ∈ a.returned ipDgrams, fourTuple r.1 = fourTuple first.1) ∧
      ∀ ipDgram a', (run step a ipDgrams).unwrapTcpInIp ipDgram =
        .ok (none, a') → a' = run step a ipDgrams := by
  refine ⟨?_, ?_, ?_⟩
  · intro hlisten
    exact returned_of_not_listening hlisten ipDgrams
  · intro hlisten first more hreturned
    exact returned_of_listening hlisten hreturned
  · intro ipDgram a' hcall
    exact unwrap_none hcall

end Isolation

end TCPOverIPv4Adapter

end Sponge
