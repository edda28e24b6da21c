import Sponge.NetworkInterface.Poisoned
import Sponge.Router.Routes

/-!
# Forwarding

One call of `route` forwards every datagram that the interfaces received, once
and in the order of the queues.  This fails if an interface throws.  It does
so if it knows the address of the next hop, and a datagram that waits there
cannot be serialized.
-/

namespace Sponge

open NetworkInterface

/-- What becomes of a datagram: it is sent once if a route is applicable and
its time to live is at least two. -/
def RoutingTable.forward (t : RoutingTable) (dgram : InternetDatagram) :
    Option Send :=
  match t.destination dgram.header.dst with
  | none => none
  | some nextHop =>
      if 2 ≤ dgram.header.ttl then
        some ⟨nextHop.interfaceNum,
          ⟨{ dgram.header with ttl := dgram.header.ttl - 1 }, dgram.payload⟩,
          nextHop.address.getD (Address.fromIpv4Numeric dgram.header.dst)⟩
      else none

/-- The call as one of the interface. -/
def Send.op (s : Send) : NetworkInterface.Op :=
  .sendDatagram s.dgram s.nextHop

/-- The interfaces after a call of `send_datagram`. -/
def deliver (nets : List NetworkInterface) (s : Send) :
    List NetworkInterface :=
  nets.modify s.interfaceNum fun n => n.step s.op

/-- The interface exists and does not throw. -/
def Succeeds (nets : List NetworkInterface) (s : Send) : Prop :=
  ∃ n ∈ nets[s.interfaceNum]?, n.FlushesSerializable s.op

namespace Router

/-- The interfaces without the datagrams that they received. -/
def nets (r : Router) : List NetworkInterface :=
  r.interfaces.map AsyncNetworkInterface.toNetworkInterface

/-- What the interfaces received, in the order in which it is forwarded. -/
def queued (r : Router) : List InternetDatagram :=
  (List.range r.interfaces.length).flatMap r.queue

/-- The routes name interfaces of the router. -/
def RoutesExist (r : Router) : Prop :=
  ∀ route ∈ r.rtable.entries,
    route.nextHop.interfaceNum < r.interfaces.length

instance (r : Router) : Decidable r.RoutesExist :=
  inferInstanceAs (Decidable (∀ route ∈ r.rtable.entries, _))

/-- Where a datagram will be forwarded to a known address, everything that
waits there can be serialized. -/
def Unpoisoned (r : Router) : Prop :=
  ∀ dgram ∈ r.queued, ∀ s ∈ r.rtable.forward dgram,
    ∀ interface ∈ r.interfaces[s.interfaceNum]?,
      interface.mapping s.nextHop.ipv4Numeric ≠ none →
        ∀ d ∈ interface.queue s.nextHop.ipv4Numeric, d.Serializable

instance (r : Router) : Decidable r.Unpoisoned :=
  inferInstanceAs (Decidable (∀ dgram ∈ r.queued, _))

/-- What one call of `route` should do. -/
structure Conserves (r : Router) : Prop where
  ok : r.route.1 = .ok ()
  queue_eq : ∀ interfaceNum, r.route.2.queue interfaceNum = []
  sends_eq : r.route.2.sends =
    r.sends ++ r.queued.filterMap r.rtable.forward
  nets_eq : r.route.2.nets =
    run deliver r.nets (r.queued.filterMap r.rtable.forward)

/-! ## One datagram -/

/-- The call of `send_datagram` for a datagram that goes by way of the
route. -/
def sendBy (route : Route) (dgram : InternetDatagram) : Send :=
  ⟨route.nextHop.interfaceNum,
    ⟨{ dgram.header with ttl := dgram.header.ttl - 1 }, dgram.payload⟩,
    route.nextHop.address.getD (Address.fromIpv4Numeric dgram.header.dst)⟩

theorem exists_select_of_forward
    {t : RoutingTable} {dgram : InternetDatagram} {s : Send}
    (h : t.forward dgram = some s) :
    ∃ it, t.select dgram.header.dst = some it ∧ 2 ≤ dgram.header.ttl ∧
      s = sendBy it dgram := by
  rw [RoutingTable.forward, RoutingTable.destination] at h
  cases hselect : t.select dgram.header.dst with
  | none =>
      rw [hselect] at h
      cases h
  | some it =>
      rw [hselect] at h
      simp only [Option.map_some] at h
      split at h
      next hlive => exact ⟨it, rfl, hlive, (Option.some.inj h).symm⟩
      next => cases h

theorem ttl_decrementTtl_eq_zero_iff {dgram : InternetDatagram} :
    (decrementTtl dgram).header.ttl = 0 ↔ ¬ 2 ≤ dgram.header.ttl := by
  have htwo : (2 : UInt8).toNat = 2 := rfl
  rw [decrementTtl, UInt8.le_iff_toNat_le, htwo, ← UInt8.toNat_inj,
    UInt8.toNat_zero]
  split
  next hpos =>
    have hpos' : 0 < dgram.header.ttl.toNat := hpos
    have hone : (1 : UInt8) ≤ dgram.header.ttl := hpos'
    rw [UInt8.toNat_sub_of_le _ _ hone, UInt8.toNat_one]
    omega
  next hzero =>
    have hzero' : ¬ 0 < dgram.header.ttl.toNat := hzero
    omega

/-- The second router is the first after some calls of `send_datagram`, with
any queues. -/
structure Forwards (r r' : Router) (sends : List Send) : Prop where
  length_eq : r'.interfaces.length = r.interfaces.length
  rtable_eq : r'.rtable = r.rtable
  sends_eq : r'.sends = r.sends ++ sends
  nets_eq : r'.nets = run deliver r.nets sends

theorem Forwards.refl (r : Router) : Forwards r r [] :=
  ⟨rfl, rfl, (List.append_nil _).symm, rfl⟩

theorem Forwards.trans {r r' r'' : Router} {sends sends' : List Send}
    (h : Forwards r r' sends) (h' : Forwards r' r'' sends') :
    Forwards r r'' (sends ++ sends') where
  length_eq := h'.length_eq.trans h.length_eq
  rtable_eq := h'.rtable_eq.trans h.rtable_eq
  sends_eq := by rw [h'.sends_eq, h.sends_eq, List.append_assoc]
  nets_eq := by rw [h'.nets_eq, h.nets_eq, run_append]

theorem getElem?_nets (r : Router) (interfaceNum : ℕ) :
    r.nets[interfaceNum]? =
      r.interfaces[interfaceNum]?.map
        AsyncNetworkInterface.toNetworkInterface :=
  List.getElem?_map ..

theorem forwards_setQueue (r : Router) (interfaceNum : ℕ)
    (q : List InternetDatagram) :
    Forwards r (r.setQueue interfaceNum q) [] := by
  refine ⟨List.length_modify .., rfl, (List.append_nil _).symm, ?_⟩
  apply List.ext_getElem?
  intro other
  rw [run_nil, getElem?_nets, getElem?_nets, setQueue, List.getElem?_modify]
  cases r.interfaces[other]? with
  | none => rfl
  | some interface =>
      by_cases h : interfaceNum = other
      · simp [h]
      · simp [h]

theorem queue_setQueue {r : Router} {interfaceNum : ℕ}
    (h : interfaceNum < r.interfaces.length) (q : List InternetDatagram)
    (other : ℕ) :
    (r.setQueue interfaceNum q).queue other =
      if other = interfaceNum then q else r.queue other := by
  rw [queue, setQueue, List.getElem?_modify, queue]
  by_cases hother : other = interfaceNum
  · rw [if_pos hother, hother, List.getElem?_eq_getElem h]
    simp
  · rw [if_neg hother]
    cases r.interfaces[other]? with
    | none => rfl
    | some interface => simp [Ne.symm hother]

section SendOn

variable {r : Router} {s : Send}

/-- A call of `send_datagram` on an interface of the router. -/
theorem forwards_sendOn (h : s.interfaceNum < r.interfaces.length) :
    Forwards r (r.sendOn s.interfaceNum s.dgram s.nextHop).2 [s] := by
  have hget := List.getElem?_eq_getElem h
  simp only [sendOn, hget]
  refine ⟨List.length_set, rfl, rfl, ?_⟩
  apply List.ext_getElem?
  intro other
  rw [run_cons, run_nil, deliver, List.getElem?_modify, getElem?_nets,
    getElem?_nets, List.getElem?_set]
  by_cases hother : s.interfaceNum = other
  · rw [if_pos hother, ← hother, if_pos h, hget]
    simp [AsyncNetworkInterface.sendDatagram, Send.op,
      NetworkInterface.step]
  · rw [if_neg hother]
    cases r.interfaces[other]? with
    | none => rfl
    | some interface => simp [hother]

theorem queue_sendOn (h : s.interfaceNum < r.interfaces.length)
    (other : ℕ) :
    (r.sendOn s.interfaceNum s.dgram s.nextHop).2.queue other =
      r.queue other := by
  have hget := List.getElem?_eq_getElem h
  simp only [sendOn, hget, queue, List.getElem?_set]
  by_cases hother : s.interfaceNum = other
  · rw [if_pos hother, ← hother, if_pos h, hget]
    rfl
  · rw [if_neg hother]

theorem sendOn_ok_iff (h : s.interfaceNum < r.interfaces.length) :
    (r.sendOn s.interfaceNum s.dgram s.nextHop).1 = .ok () ↔
      Succeeds r.nets s := by
  have hget := List.getElem?_eq_getElem h
  simp only [sendOn, hget, Succeeds, getElem?_nets, Option.map_some,
    Option.mem_some, exists_eq_left']
  rw [flushesSerializable_iff]
  rfl

end SendOn

/-- A datagram that is not forwarded leaves the router as it is. -/
theorem routeOneDatagram_of_none
    {r : Router} {dgram : InternetDatagram}
    (h : r.rtable.forward dgram = none) :
    ∃ dgram', r.routeOneDatagram dgram = (.ok (), dgram', r) := by
  rw [RoutingTable.forward, RoutingTable.destination] at h
  rw [routeOneDatagram]
  cases hselect : r.rtable.select dgram.header.dst with
  | none => exact ⟨dgram, rfl⟩
  | some it =>
      rw [hselect] at h
      have hexpired : ¬ 2 ≤ dgram.header.ttl := by
        intro hlive
        simp [hlive] at h
      refine ⟨decrementTtl dgram, ?_⟩
      simp only [ttl_decrementTtl_eq_zero_iff.mpr hexpired, if_true]

theorem decrementTtl_of_le {dgram : InternetDatagram}
    (h : 2 ≤ dgram.header.ttl) :
    decrementTtl dgram =
      ⟨{ dgram.header with ttl := dgram.header.ttl - 1 }, dgram.payload⟩ := by
  have hpos : dgram.header.ttl > 0 := by
    have htwo : 2 ≤ dgram.header.ttl.toNat := h
    exact lt_of_lt_of_le two_pos htwo
  rw [decrementTtl, if_pos hpos]

/-- The other datagrams are sent once. -/
theorem routeOneDatagram_of_some
    {r : Router} {dgram : InternetDatagram} {s : Send}
    (h : r.rtable.forward dgram = some s) :
    r.routeOneDatagram dgram =
      ((r.sendOn s.interfaceNum s.dgram s.nextHop).1, s.dgram,
        (r.sendOn s.interfaceNum s.dgram s.nextHop).2) := by
  obtain ⟨it, hselect, hlive, rfl⟩ := exists_select_of_forward h
  have hnonzero := mt ttl_decrementTtl_eq_zero_iff.mp (not_not.mpr hlive)
  rw [routeOneDatagram, hselect]
  simp only [hnonzero, if_false]
  rw [decrementTtl_of_le hlive, sendBy]
  cases it.nextHop.address with
  | none => rfl
  | some address => rfl

theorem RoutesExist.lt {r : Router} (h : r.RoutesExist)
    {dgram : InternetDatagram} {s : Send}
    (hs : r.rtable.forward dgram = some s) :
    s.interfaceNum < r.interfaces.length := by
  obtain ⟨it, hselect, -, rfl⟩ := exists_select_of_forward hs
  exact h it (rank_le_of_lastMatch r.rtable.sorted_toNat hselect).1

theorem RoutesExist.forwards {r r' : Router} {sends : List Send}
    (h : r.RoutesExist) (hforwards : Forwards r r' sends) :
    r'.RoutesExist := by
  rw [RoutesExist, hforwards.rtable_eq, hforwards.length_eq]
  exact h

/-! ## The longest prefix -/

theorem forward_of_select
    {t : RoutingTable} {dgram : InternetDatagram} {route : Route}
    (h : t.select dgram.header.dst = some route)
    (hlive : 2 ≤ dgram.header.ttl) :
    t.forward dgram = some (sendBy route dgram) := by
  rw [RoutingTable.forward, RoutingTable.destination, h]
  exact if_pos hlive

theorem forward_eq_none
    {t : RoutingTable} {dgram : InternetDatagram}
    (h : dgram.header.ttl < 2 ∨ t.select dgram.header.dst = none) :
    t.forward dgram = none := by
  cases hforward : t.forward dgram with
  | none => rfl
  | some s =>
      obtain ⟨it, hselect, hlive, -⟩ := exists_select_of_forward hforward
      rcases h with hexpired | hnone
      · exact absurd hlive (UInt8.not_le.mpr hexpired)
      · rw [hnone] at hselect
        cases hselect

/-- Every route that was added is in the table, whatever else was called.  A
datagram is sent by way of the applicable route with the longest prefix.  It
makes no difference in which order the routes were added, or where the map
puts a route among those of the same length. -/
theorem routeOneDatagram_longest
    {routes routes' : List Route} (hperm : routes.Perm routes')
    (hdistinct : (routes.map Route.info).Nodup) :
    (∀ ops : List Op, ops.filterMap Op.added = routes →
      Built routes (run step {} ops).rtable) ∧
    ∀ r r' : Router, Built routes r.rtable → Built routes' r'.rtable →
      r.rtable.entries.Perm routes ∧
      ∀ dgram : InternetDatagram,
        (∀ route, r.rtable.select dgram.header.dst = some route ↔
          Route.Longest routes dgram.header.dst route) ∧
        (∀ route, Route.Longest routes dgram.header.dst route →
          2 ≤ dgram.header.ttl →
          route.nextHop.interfaceNum < r.interfaces.length →
          (r.routeOneDatagram dgram).2.2.sends =
            r.sends ++ [sendBy route dgram]) ∧
        (dgram.header.ttl < 2 ∨
            (∀ route ∈ routes, ¬ route.Applies dgram.header.dst) →
          (r.routeOneDatagram dgram).2.2 = r) ∧
        r'.rtable.select dgram.header.dst =
          r.rtable.select dgram.header.dst := by
  constructor
  · rintro ops rfl
    rw [rtable_run]
    exact built_tableOf _
  · intro r r' h h'
    refine ⟨h.perm, fun dgram => ?_⟩
    have hselect := h.select_eq_some_iff hdistinct dgram.header.dst
    refine ⟨hselect, ?_, ?_, h.select_eq_of_perm hdistinct h' hperm _⟩
    · intro route hlongest hlive hexists
      have hforward := forward_of_select ((hselect route).mpr hlongest) hlive
      rw [routeOneDatagram_of_some hforward]
      exact (forwards_sendOn hexists).sends_eq
    · intro hnot
      rw [← h.select_eq_none_iff] at hnot
      obtain ⟨dgram', hroute⟩ :=
        routeOneDatagram_of_none (forward_eq_none hnot)
      rw [hroute]

/-- A default route, and two routes into the same network. -/
def overlappingRoutes : List Op :=
  [.addRoute 0x0A010000 16 none 1, .addRoute 0 0 (some ⟨7, 0⟩) 0,
    .addRoute 0x0A000000 8 none 2]

/-- Two interfaces. -/
def twoInterfaces : List Op :=
  [.addInterface (AsyncNetworkInterface.new ownEth ownIp),
    .addInterface (AsyncNetworkInterface.new neighbourEth neighbourIp)]

/-- The routers with these routes, added in either order, and a datagram for
10.1.2.3. -/
theorem routeOneDatagram_overlappingRoutes :
    ((run step {} (twoInterfaces ++ overlappingRoutes)).routeOneDatagram
        ⟨{ dst := 0x0A010203 }, .empty⟩).2.2.sends =
      [⟨1, ⟨{ dst := 0x0A010203, ttl := 127 }, .empty⟩, ⟨0x0A010203, 0⟩⟩] ∧
    (run step {} (twoInterfaces ++ overlappingRoutes.reverse)).rtable.select
        0x0A010203 =
      (run step {} (twoInterfaces ++ overlappingRoutes)).rtable.select
        0x0A010203 := by
  have hperm : (overlappingRoutes.filterMap Op.added).Perm
      (overlappingRoutes.reverse.filterMap Op.added) :=
    (List.reverse_perm overlappingRoutes).symm.filterMap Op.added
  have hlongest := routeOneDatagram_longest hperm (by decide)
  have hbuilt := hlongest.1 (twoInterfaces ++ overlappingRoutes) rfl
  have hbuilt' := (routeOneDatagram_longest hperm.symm (by decide)).1
    (twoInterfaces ++ overlappingRoutes.reverse) rfl
  have hdgram := (hlongest.2 _ _ hbuilt hbuilt').2
    ⟨{ dst := 0x0A010203 }, .empty⟩
  exact ⟨hdgram.2.1 ⟨⟨16, 0x0A010000⟩, ⟨none, 1⟩⟩ (by decide) (by decide)
    (by decide), hdgram.2.2.2⟩

/-- A route that may be replaced by another may be so in any run of calls. -/
theorem forward_eq_of_replaceable
    {route route' : Route} (h : Replaceable route route') {op op' : Op}
    (hop : op.added = some route) (hop' : op'.added = some route')
    (before after : List Op) (dgram : InternetDatagram) :
    (run step {} (before ++ op :: after)).rtable.forward dgram =
      (run step {} (before ++ op' :: after)).rtable.forward dgram := by
  have hdestination := h (before.filterMap Op.added)
    (after.filterMap Op.added) dgram.header.dst
  rw [rtable_run, rtable_run, List.filterMap_append, List.filterMap_append,
    List.filterMap_cons_some hop, List.filterMap_cons_some hop',
    RoutingTable.forward, RoutingTable.forward, hdestination]

/-! ## The loops -/

/-- The result of forwarding some datagrams.  It is an exception exactly if
one of the calls of `send_datagram` throws. -/
structure Outcome (r : Router) (q : List InternetDatagram)
    (result : Except String Unit × Router) : Prop where
  ok_iff : result.1 = .ok () ↔
    Guarded deliver Succeeds r.nets (q.filterMap r.rtable.forward)
  forwards : result.1 = .ok () →
    Forwards r result.2 (q.filterMap r.rtable.forward)

theorem Outcome.nil (r : Router) : Outcome r [] (.ok (), r) :=
  ⟨iff_of_true rfl trivial, fun _ => Forwards.refl r⟩

/-- Some datagrams after others, unless there was an exception. -/
theorem Outcome.append
    {r : Router} {q q' : List InternetDatagram}
    {result result' : Except String Unit × Router} (h : Outcome r q result)
    (hok : result.1 = .ok () → Outcome result.2 q' result')
    (herror : ∀ e, result.1 = .error e → result'.1 = .error e) :
    Outcome r (q ++ q') result' := by
  cases hresult : result.1 with
  | error e =>
      have hthrows := herror e hresult
      have hnot : ¬ Guarded deliver Succeeds r.nets
          (q.filterMap r.rtable.forward) := by
        intro hguarded
        have hok' := h.ok_iff.mpr hguarded
        rw [hresult] at hok'
        exact nomatch hok'
      constructor
      · rw [hthrows, List.filterMap_append, guarded_append]
        exact iff_of_false nofun fun hand => hnot hand.1
      · intro hok'
        rw [hthrows] at hok'
        exact nomatch hok'
  | ok u =>
      have hforwards := h.forwards hresult
      have hlater := hok hresult
      have hguarded := h.ok_iff.mp hresult
      have hafter := hlater.ok_iff
      rw [hforwards.nets_eq, hforwards.rtable_eq] at hafter
      constructor
      · rw [hafter, List.filterMap_append, guarded_append,
          and_iff_right hguarded]
      · intro hok'
        have hboth := hforwards.trans (hlater.forwards hok')
        rw [hforwards.rtable_eq, ← List.filterMap_append] at hboth
        exact hboth

/-- One datagram, before it is popped. -/
theorem outcome_routeOneDatagram {r : Router} (hroutes : r.RoutesExist)
    (dgram : InternetDatagram) :
    Outcome r [dgram]
      ((r.routeOneDatagram dgram).1, (r.routeOneDatagram dgram).2.2) := by
  cases hforward : r.rtable.forward dgram with
  | none =>
      obtain ⟨dgram', hroute⟩ := routeOneDatagram_of_none hforward
      have hsends : [dgram].filterMap r.rtable.forward = [] := by
        rw [List.filterMap_cons_none hforward, List.filterMap_nil]
      rw [hroute]
      refine ⟨?_, fun _ => ?_⟩
      · rw [hsends]
        exact iff_of_true rfl trivial
      · rw [hsends]
        exact Forwards.refl r
  | some s =>
      have hlt := hroutes.lt hforward
      have hsends : [dgram].filterMap r.rtable.forward = [s] := by
        rw [List.filterMap_cons_some hforward, List.filterMap_nil]
      rw [routeOneDatagram_of_some hforward]
      refine ⟨?_, fun _ => ?_⟩
      · rw [hsends, sendOn_ok_iff hlt]
        exact (and_iff_left trivial).symm
      · rw [hsends]
        exact forwards_sendOn hlt

/-- Setting a queue afterwards makes no difference. -/
theorem Outcome.setQueue
    {r r' : Router} {q : List InternetDatagram} {result : Except String Unit}
    (h : Outcome r q (result, r')) (interfaceNum : ℕ)
    (left : List InternetDatagram) :
    Outcome r q (result, r'.setQueue interfaceNum left) := by
  refine ⟨h.ok_iff, fun hok => ?_⟩
  have hset := (h.forwards hok).trans (forwards_setQueue r' interfaceNum left)
  rw [List.append_nil] at hset
  exact hset

theorem routeQueue_cons (interfaceNum : ℕ) (front : InternetDatagram)
    (rest : List InternetDatagram) (r : Router) :
    routeQueue interfaceNum (front :: rest) r =
      match (r.routeOneDatagram front).1 with
      | .error e => (.error e, (r.routeOneDatagram front).2.2.setQueue
          interfaceNum ((r.routeOneDatagram front).2.1 :: rest))
      | .ok () => routeQueue interfaceNum rest
          ((r.routeOneDatagram front).2.2.setQueue interfaceNum rest) := by
  rw [routeQueue]
  split <;> simp_all

theorem outcome_routeQueue
    (interfaceNum : ℕ) (q : List InternetDatagram) {r : Router}
    (hroutes : r.RoutesExist) :
    Outcome r q (routeQueue interfaceNum q r) := by
  induction q generalizing r with
  | nil => exact Outcome.nil r
  | cons front rest ih =>
      have hfront := (outcome_routeOneDatagram hroutes front).setQueue
        interfaceNum rest
      rw [routeQueue_cons]
      change Outcome r ([front] ++ rest) _
      apply hfront.append
      · intro hok
        have hroute : (r.routeOneDatagram front).1 = .ok () := hok
        rw [hroute]
        exact ih (hroutes.forwards (hfront.forwards hok))
      · intro e he
        have hroute : (r.routeOneDatagram front).1 = .error e := he
        rw [hroute]

theorem queue_routeOneDatagram {r : Router} (hroutes : r.RoutesExist)
    (dgram : InternetDatagram) (other : ℕ) :
    (r.routeOneDatagram dgram).2.2.queue other = r.queue other := by
  cases hforward : r.rtable.forward dgram with
  | none =>
      obtain ⟨dgram', hroute⟩ := routeOneDatagram_of_none hforward
      rw [hroute]
  | some s =>
      rw [routeOneDatagram_of_some hforward]
      exact queue_sendOn (hroutes.lt hforward) other

/-- The list that the inner loop runs over is the queue of the interface. -/
theorem queue_routeQueue
    {interfaceNum : ℕ} {q : List InternetDatagram} {r : Router}
    (hroutes : r.RoutesExist) (hlt : interfaceNum < r.interfaces.length)
    (hq : r.queue interfaceNum = q)
    (hok : (routeQueue interfaceNum q r).1 = .ok ()) (other : ℕ) :
    (routeQueue interfaceNum q r).2.queue other =
      if other = interfaceNum then [] else r.queue other := by
  induction q generalizing r with
  | nil =>
      by_cases hother : other = interfaceNum
      · rw [if_pos hother, hother]
        exact hq
      · rw [if_neg hother]
        rfl
  | cons front rest ih =>
      have hfront := outcome_routeOneDatagram hroutes front
      rw [routeQueue_cons] at hok ⊢
      cases hroute : (r.routeOneDatagram front).1 with
      | error e =>
          rw [hroute] at hok
          exact nomatch hok
      | ok u =>
          rw [hroute] at hok
          have hset := hfront.setQueue interfaceNum rest |>.forwards hroute
          have hlt' : interfaceNum <
              (r.routeOneDatagram front).2.2.interfaces.length := by
            rw [(hfront.forwards hroute).length_eq]
            exact hlt
          have hqueue := queue_setQueue hlt' rest
          have hrest := ih (hroutes.forwards hset) (by
            rw [hset.length_eq]
            exact hlt) ((hqueue interfaceNum).trans (if_pos rfl)) hok
          refine hrest.trans ?_
          by_cases hother : other = interfaceNum
          · rw [if_pos hother, if_pos hother]
          · rw [if_neg hother, if_neg hother, hqueue, if_neg hother,
              queue_routeOneDatagram hroutes]

theorem routeInterfaces_cons (interfaceNum : ℕ) (rest : List ℕ)
    (r : Router) :
    routeInterfaces (interfaceNum :: rest) r =
      match (routeQueue interfaceNum (r.queue interfaceNum) r).1 with
      | .error e =>
          (.error e, (routeQueue interfaceNum (r.queue interfaceNum) r).2)
      | .ok () => routeInterfaces rest
          (routeQueue interfaceNum (r.queue interfaceNum) r).2 := by
  rw [routeInterfaces]
  split <;> simp_all

theorem outcome_routeInterfaces
    {interfaceNums : List ℕ} (hdistinct : interfaceNums.Nodup) {r : Router}
    (hroutes : r.RoutesExist)
    (hlt : ∀ interfaceNum ∈ interfaceNums,
      interfaceNum < r.interfaces.length) :
    Outcome r (interfaceNums.flatMap r.queue)
        (routeInterfaces interfaceNums r) ∧
      ((routeInterfaces interfaceNums r).1 = .ok () →
        ∀ other, (routeInterfaces interfaceNums r).2.queue other =
          if other ∈ interfaceNums then [] else r.queue other) := by
  induction interfaceNums generalizing r with
  | nil => exact ⟨Outcome.nil r, fun _ other => rfl⟩
  | cons interfaceNum rest ih =>
      obtain ⟨hnew, hdistinct⟩ := List.nodup_cons.mp hdistinct
      obtain ⟨hfirst, hlt⟩ := List.forall_mem_cons.mp hlt
      have houtcome := outcome_routeQueue interfaceNum
        (r.queue interfaceNum) hroutes
      have hqueue := queue_routeQueue hroutes hfirst rfl
      rw [routeInterfaces_cons, List.flatMap_cons]
      cases hresult : (routeQueue interfaceNum (r.queue interfaceNum) r).1 with
      | error e =>
          refine ⟨houtcome.append ?_ fun _ he => hresult.symm.trans he, nofun⟩
          intro hok
          rw [hresult] at hok
          exact nomatch hok
      | ok u =>
          have hforwards := houtcome.forwards hresult
          have hsame : rest.flatMap
              (routeQueue interfaceNum (r.queue interfaceNum) r).2.queue =
              rest.flatMap r.queue := by
            apply List.flatMap_congr
            intro other hother
            have hne : other ≠ interfaceNum := fun heq => hnew (heq ▸ hother)
            rw [hqueue hresult, if_neg hne]
          obtain ⟨hrest, hempty⟩ := ih hdistinct (hroutes.forwards hforwards)
            (by rw [hforwards.length_eq]; exact hlt)
          rw [hsame] at hrest
          refine ⟨houtcome.append (fun _ => hrest) fun e he => ?_, ?_⟩
          · rw [hresult] at he
            exact nomatch he
          · intro hok other
            rw [hempty hok, hqueue hresult]
            simp only [List.mem_cons]
            by_cases hother : other = interfaceNum
            · simp [hother]
            · simp [hother]

/-! ## One call of `route` -/

theorem succeeds_stable (nets : List NetworkInterface) (s s' : Send)
    (h : Succeeds nets s) :
    Succeeds (deliver nets s) s' ↔ Succeeds nets s' := by
  obtain ⟨n, hn, hflushes⟩ := h
  rw [Succeeds, Succeeds, deliver, List.getElem?_modify]
  by_cases hsame : s.interfaceNum = s'.interfaceNum
  · rw [hsame] at hn
    rw [Option.mem_def.mp hn]
    simp only [hsame, if_true, Option.map_eq_map, Option.map_some,
      Option.mem_some, exists_eq_left']
    exact hflushes.send_iff s'.dgram s'.nextHop
  · simp [hsame]

theorem serializable_of_forward
    {t : RoutingTable} {dgram : InternetDatagram} {s : Send}
    (h : t.forward dgram = some s) (hdgram : dgram.Serializable) :
    s.dgram.Serializable := by
  obtain ⟨it, -, -, rfl⟩ := exists_select_of_forward h
  exact (IPv4Datagram.serializable_ttl dgram _).mpr hdgram

theorem succeeds_iff {r : Router} {s : Send}
    (hlt : s.interfaceNum < r.interfaces.length)
    (hdgram : s.dgram.Serializable) :
    Succeeds r.nets s ↔
      ∀ interface ∈ r.interfaces[s.interfaceNum]?,
        interface.mapping s.nextHop.ipv4Numeric ≠ none →
          ∀ d ∈ interface.queue s.nextHop.ipv4Numeric, d.Serializable := by
  rw [Succeeds, getElem?_nets, List.getElem?_eq_getElem hlt]
  simp only [Option.map_some, Option.mem_some, exists_eq_left',
    forall_eq']
  rw [Send.op, flushesSerializable_send_iff, and_iff_left hdgram]

/-- Every call of `send_datagram` succeeds. -/
theorem unpoisoned_iff {r : Router} (hroutes : r.RoutesExist)
    (hqueued : ∀ dgram ∈ r.queued, dgram.Serializable) :
    r.Unpoisoned ↔ Guarded deliver Succeeds r.nets
      (r.queued.filterMap r.rtable.forward) := by
  rw [guarded_iff_of_stable succeeds_stable, Unpoisoned]
  simp only [List.mem_filterMap]
  constructor
  · rintro h s ⟨dgram, hdgram, hs⟩
    exact (succeeds_iff (hroutes.lt hs)
      (serializable_of_forward hs (hqueued dgram hdgram))).mpr
        (h dgram hdgram s hs)
  · intro h dgram hdgram s hs
    exact (succeeds_iff (hroutes.lt hs)
      (serializable_of_forward hs (hqueued dgram hdgram))).mp
        (h s ⟨dgram, hdgram, hs⟩)

theorem queue_of_not_mem_range {r : Router} {interfaceNum : ℕ}
    (h : interfaceNum ∉ List.range r.interfaces.length) :
    r.queue interfaceNum = [] := by
  rw [List.mem_range, not_lt] at h
  rw [queue, List.getElem?_eq_none h]

/-- One call of `route` forwards everything once exactly if no queue on the
way holds a datagram that cannot be serialized. -/
theorem conserves_iff_unpoisoned (r : Router) (hroutes : r.RoutesExist)
    (hqueued : ∀ dgram ∈ r.queued, dgram.Serializable) :
    r.Conserves ↔ r.Unpoisoned := by
  obtain ⟨houtcome, hqueue⟩ := outcome_routeInterfaces
    (List.nodup_range (n := r.interfaces.length)) hroutes
    fun _ hmem => List.mem_range.mp hmem
  rw [unpoisoned_iff hroutes hqueued]
  constructor
  · intro h
    exact houtcome.ok_iff.mp h.ok
  · intro hguarded
    have hok := houtcome.ok_iff.mpr hguarded
    have hforwards := houtcome.forwards hok
    refine ⟨hok, fun interfaceNum => ?_, hforwards.sends_eq,
      hforwards.nets_eq⟩
    refine (hqueue hok interfaceNum).trans ?_
    split
    next => rfl
    next hout => exact queue_of_not_mem_range hout

/-- A router with one interface, which sends everything to the neighbour. -/
def oneInterface : Router :=
  (({} : Router).addInterface (AsyncNetworkInterface.new ownEth ownIp)).2
    |>.addRoute 0 0 (some neighbourIp) 0

/-- A frame from the neighbour with an IPv4 packet. -/
def packetFromNeighbour (packet : Bytes) : EthernetFrame where
  header := { type := EthernetHeader.typeIPv4, src := neighbourEth,
              dst := ownEth }
  payload := BufferList.ofBuffer (Buffer.ofString packet)

/-- A packet of the given version, with a time to live of 64. -/
def bareSixtyFour (firstByte : UInt8) : Bytes :=
  [firstByte, 0, 0, 20, 0, 0, 0, 0, 64] ++ List.replicate 11 0

/-- A packet arrives, and the address of the neighbour is known. -/
def healthyRun : List Op :=
  [.recvFrame 0 (arpFromNeighbour ARPMessage.opcodeRequest neighbourEth),
    .recvFrame 0 (packetFromNeighbour (bareSixtyFour 0x45))]

theorem conserves_healthyRun :
    (run step oneInterface healthyRun).queued.length = 1 ∧
      (run step oneInterface healthyRun).Conserves := by
  refine ⟨by decide +kernel, ?_⟩
  exact (conserves_iff_unpoisoned (run step oneInterface healthyRun)
    (by decide +kernel) (by decide +kernel)).mpr (by decide +kernel)

/-- A packet of version 6 is forwarded before the address is known. -/
def poisoningRun : List Op :=
  [.recvFrame 0 (packetFromNeighbour (bareSixtyFour 0x65)), .route] ++
    healthyRun

/-- The next packet is good, but `route` throws and leaves it in the queue,
with its time to live counted down. -/
theorem not_conserves_poisoningRun :
    (run step oneInterface poisoningRun).RoutesExist ∧
      (∀ dgram ∈ (run step oneInterface poisoningRun).queued,
        dgram.Serializable) ∧
      (run step oneInterface poisoningRun).queued.map (·.header.ttl) = [64] ∧
      ((run step oneInterface poisoningRun).route.2.queue 0).map
        (·.header.ttl) = [63] ∧
      (run step oneInterface poisoningRun).route.1.isOk = false ∧
      ¬ (run step oneInterface poisoningRun).Conserves := by
  have hthrows :
      (run step oneInterface poisoningRun).route.1.isOk = false := by
    decide +kernel
  refine ⟨by decide +kernel, by decide +kernel, by decide +kernel,
    by decide +kernel, hthrows, fun h => ?_⟩
  rw [h.ok] at hthrows
  exact nomatch hthrows

end Router
end Sponge
