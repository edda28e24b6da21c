import Sponge.NetworkInterface.Model
import Sponge.Support.Ranked

/-!
# The router

A router forwards the datagrams that its interfaces received.  Its table is a
map whose comparator looks at the length of the prefix only, and is not
strict: two routes of the same length are each less than the other.  The
behaviour of a map with such a comparator is undefined.  It is an assumption
here that an insertion descends as in libstdc++ before GCC 12: to the place
before the first entry that is not shorter, without ever meeting an entry that
is equal to the new one.  Then no route is refused, and the table is a list
that is sorted by the length.  The choice of a route does not depend on the
place among the routes of the same length (`Built`).

An index of an interface that does not exist is undefined behaviour in the
source.  It is an exception here.

The list `sends` is not in the source.  It records the calls of
`send_datagram`.
-/

namespace Sponge

/-- An address without a port. -/
def Address.fromIpv4Numeric (ipAddress : UInt32) : Address := ⟨ipAddress, 0⟩

/-! ## Interfaces that keep what they receive -/

/-- An interface with the datagrams that it received. -/
structure AsyncNetworkInterface extends NetworkInterface where
  datagramsOut : List InternetDatagram := []

namespace AsyncNetworkInterface

def new (ethernetAddress : EthernetAddress) (ipAddress : Address) :
    AsyncNetworkInterface where
  toNetworkInterface := NetworkInterface.new ethernetAddress ipAddress

/-- Receive a frame, and push its datagram. -/
def recvFrame (i : AsyncNetworkInterface) (frame : EthernetFrame) :
    Except String Unit × AsyncNetworkInterface :=
  let (outcome, n) := i.toNetworkInterface.recvFrame frame
  match outcome with
  | .error e => (.error e, { i with toNetworkInterface := n })
  | .ok none => (.ok (), { i with toNetworkInterface := n })
  | .ok (some dgram) =>
      (.ok (), { i with
        toNetworkInterface := n
        datagramsOut := i.datagramsOut ++ [dgram] })

def sendDatagram (i : AsyncNetworkInterface) (dgram : InternetDatagram)
    (nextHop : Address) : Except String Unit × AsyncNetworkInterface :=
  let (outcome, n) := i.toNetworkInterface.sendDatagram dgram nextHop
  (outcome, { i with toNetworkInterface := n })

def tick (i : AsyncNetworkInterface) (msSinceLastTick : ℕ) :
    AsyncNetworkInterface :=
  { i with toNetworkInterface := i.toNetworkInterface.tick msSinceLastTick }

end AsyncNetworkInterface

/-! ## The table -/

/-- The key of a route. -/
structure RoutingInfo where
  prefixLength : UInt8
  routePrefix : UInt32
deriving DecidableEq

/-- Where a route leads to.  Without an address, it leads to the destination
of the datagram. -/
structure NextHop where
  address : Option Address
  interfaceNum : ℕ
deriving DecidableEq

/-- An entry of the table. -/
structure Route where
  info : RoutingInfo
  nextHop : NextHop
deriving DecidableEq

/-- The comparator of the table. -/
def ComparePrefixLength (rf1 rf2 : Route) : Prop :=
  rf1.info.prefixLength ≤ rf2.info.prefixLength

instance comparePrefixLengthDecidable : DecidableRel ComparePrefixLength :=
  fun rf1 rf2 => inferInstanceAs
    (Decidable (rf1.info.prefixLength ≤ rf2.info.prefixLength))

instance comparePrefixLengthTotal : Std.Total ComparePrefixLength :=
  ⟨fun rf1 rf2 => UInt8.le_total rf1.info.prefixLength rf2.info.prefixLength⟩

instance comparePrefixLengthTrans : IsTrans Route ComparePrefixLength :=
  ⟨fun _ _ _ h h' => UInt8.le_trans h h'⟩

/-- The routes, sorted by the length of the prefix. -/
structure RoutingTable where
  entries : List Route
  sorted : entries.Pairwise ComparePrefixLength

namespace RoutingTable

def empty : RoutingTable := ⟨[], List.Pairwise.nil⟩

/-- Insert a route before the first one that is not shorter.  That the map does
so is assumed. -/
def insert (t : RoutingTable) (route : Route) : RoutingTable where
  entries := t.entries.orderedInsert ComparePrefixLength route
  sorted := t.sorted.orderedInsert route _

end RoutingTable

/-- The part of an address that is compared.  The difference of two signed
numbers wraps around if the length is 1. -/
def maskNet (ip : UInt32) (prefixLength : UInt8) : UInt32 :=
  if prefixLength > 32 then 0
  else if prefixLength > 0 then
    ip &&& (0xFFFFFFFF - (((1 : UInt32) <<< (32 - prefixLength.toUInt32)) - 1))
  else 0

/-- Is the route applicable to the destination? -/
def Route.Applies (route : Route) (dst : UInt32) : Prop :=
  route.info.routePrefix = maskNet dst route.info.prefixLength

instance (route : Route) (dst : UInt32) : Decidable (route.Applies dst) :=
  inferInstanceAs (Decidable (_ = _))

/-- The route that the scan of the table from its end stops at. -/
def RoutingTable.select (t : RoutingTable) (dst : UInt32) : Option Route :=
  lastMatch (fun route : Route => route.Applies dst) t.entries

/-! ## The router -/

/-- A call of `send_datagram`. -/
structure Send where
  interfaceNum : ℕ
  dgram : InternetDatagram
  nextHop : Address
deriving DecidableEq

structure Router where
  interfaces : List AsyncNetworkInterface := []
  rtable : RoutingTable := RoutingTable.empty
  sends : List Send := []

namespace Router

/-- Add an interface.  Its index is returned. -/
def addInterface (r : Router) (interface : AsyncNetworkInterface) :
    ℕ × Router :=
  (r.interfaces.length,
    { r with interfaces := r.interfaces ++ [interface] })

def addRoute (r : Router) (routePrefix : UInt32) (prefixLength : UInt8)
    (nextHop : Option Address) (interfaceNum : ℕ) : Router :=
  { r with rtable :=
      r.rtable.insert ⟨⟨prefixLength, routePrefix⟩, ⟨nextHop, interfaceNum⟩⟩ }

/-- Send a datagram on an interface. -/
def sendOn (r : Router) (interfaceNum : ℕ) (dgram : InternetDatagram)
    (nextHop : Address) : Except String Unit × Router :=
  match r.interfaces[interfaceNum]? with
  | none => (.error "no such interface", r)
  | some interface =>
      let (outcome, interface) := interface.sendDatagram dgram nextHop
      (outcome, { r with
        interfaces := r.interfaces.set interfaceNum interface
        sends := r.sends ++ [⟨interfaceNum, dgram, nextHop⟩] })

/-- The datagram with its time to live counted down. -/
def decrementTtl (dgram : InternetDatagram) : InternetDatagram :=
  if dgram.header.ttl > 0 then
    ⟨{ dgram.header with ttl := dgram.header.ttl - 1 }, dgram.payload⟩
  else dgram

/-- Forward a datagram.  It is changed in its place, so it is returned. -/
def routeOneDatagram (r : Router) (dgram : InternetDatagram) :
    Except String Unit × InternetDatagram × Router :=
  match r.rtable.select dgram.header.dst with
  | none => (.ok (), dgram, r)
  | some it =>
      let dgram := decrementTtl dgram
      if dgram.header.ttl = 0 then (.ok (), dgram, r)
      else
        let nextHop :=
          match it.nextHop.address with
          | some address => address
          | none => Address.fromIpv4Numeric dgram.header.dst
        let (outcome, r) := r.sendOn it.nextHop.interfaceNum dgram nextHop
        (outcome, dgram, r)

/-- The datagrams that an interface received. -/
def queue (r : Router) (interfaceNum : ℕ) : List InternetDatagram :=
  match r.interfaces[interfaceNum]? with
  | some interface => interface.datagramsOut
  | none => []

def setQueue (r : Router) (interfaceNum : ℕ) (q : List InternetDatagram) :
    Router :=
  { r with interfaces := r.interfaces.modify interfaceNum fun interface =>
      { interface with datagramsOut := q } }

/-- The inner loop of `route`, on the datagrams that are left in the queue of
an interface. -/
def routeQueue (interfaceNum : ℕ) :
    List InternetDatagram → Router → Except String Unit × Router
  | [], r => (.ok (), r)
  | front :: rest, r =>
      match r.routeOneDatagram front with
      | (.error e, front, r) =>
          (.error e, r.setQueue interfaceNum (front :: rest))
      | (.ok (), _, r) =>
          routeQueue interfaceNum rest (r.setQueue interfaceNum rest)

/-- The outer loop of `route`, on the interfaces that are left. -/
def routeInterfaces : List ℕ → Router → Except String Unit × Router
  | [], r => (.ok (), r)
  | interfaceNum :: rest, r =>
      match routeQueue interfaceNum (r.queue interfaceNum) r with
      | (.error e, r) => (.error e, r)
      | (.ok (), r) => routeInterfaces rest r

/-- Forward everything that the interfaces received. -/
def route (r : Router) : Except String Unit × Router :=
  routeInterfaces (List.range r.interfaces.length) r

/-! ## Runs -/

/-- The calls of the owner of a router and of its interfaces. -/
inductive Op where
  | addInterface (interface : AsyncNetworkInterface)
  | addRoute (routePrefix : UInt32) (prefixLength : UInt8)
      (nextHop : Option Address) (interfaceNum : ℕ)
  | recvFrame (interfaceNum : ℕ) (frame : EthernetFrame)
  | tick (interfaceNum : ℕ) (msSinceLastTick : ℕ)
  | route

/-- The state after a call, also if it throws. -/
def step (r : Router) : Op → Router
  | .addInterface interface => (r.addInterface interface).2
  | .addRoute routePrefix prefixLength nextHop interfaceNum =>
      r.addRoute routePrefix prefixLength nextHop interfaceNum
  | .recvFrame interfaceNum frame =>
      { r with interfaces := r.interfaces.modify interfaceNum fun interface =>
          (interface.recvFrame frame).2 }
  | .tick interfaceNum msSinceLastTick =>
      { r with interfaces := r.interfaces.modify interfaceNum fun interface =>
          interface.tick msSinceLastTick }
  | .route => r.route.2

end Router
end Sponge
