import DistanceVector.Clock
import DistanceVector.Metric
import DistanceVector.OrderedMap.Basic
import DistanceVector.Seqno

/-!
# Neighbours and routes

The names by which nodes, destinations, neighbours, next hops and interfaces are told apart, the
links to the neighbours, and the routes that they announce.  Names are compared and never looked
into.

Main definitions:

* `Neighbour` — the link to a neighbour, `NeighbourTable` — the links to all of them;
* `RouteId` — the name of a route in the table;
* `Route` — a way to a destination through one neighbour, as last announced by it;
* `Route.through` — whether a route is the one for a destination, a neighbour and a next hop.
-/

set_option relaxedAutoImplicit false
set_option autoImplicit false

namespace DistanceVector

/-! ### Names -/

/-- The address of the node that originates a route. -/
abbrev NodeAddress := String

/-- A destination: the address block that a route leads to. -/
abbrev Prefix := String

/-- The name of a directly connected neighbour. -/
abbrev NeighbourId := String

/-- The address that traffic is handed to next. -/
abbrev NextHop := String

/-- The number of a local interface. -/
abbrev InterfaceId := UInt32

/-! ### Neighbours -/

/-- The link to a neighbour. -/
structure Neighbour where
  /-- The local interface that leads to it. -/
  interface : InterfaceId
  /-- The cost of the link, infinite while it is down. -/
  cost : Metric
  deriving DecidableEq

/-- The links to all known neighbours. -/
abbrev NeighbourTable := OrderedMap NeighbourId Neighbour

namespace NeighbourTable

/-- The cost of the link to a neighbour, infinite if it is unknown. -/
def cost (t : NeighbourTable) (neigh : NeighbourId) : Metric :=
  (t.get? neigh).elim Metric.infinity Neighbour.cost

/-- The interface that leads to a neighbour, if it is known. -/
def interface? (t : NeighbourTable) (neigh : NeighbourId) : Option InterfaceId :=
  (t.get? neigh).map Neighbour.interface

end NeighbourTable

/-! ### Routes -/

/-- The name of a route in the table.  Names are given out in ascending order; the one after the
last is the first again. -/
abbrev RouteId := UInt64

/-- A name is written as a number. -/
instance : Coe RouteId Nat := ⟨UInt64.toNat⟩

/-- A number names a route by its last 64 bits. -/
instance : Coe Nat RouteId := ⟨UInt64.ofNat⟩

namespace RouteId

/-- The written form of a route's name. -/
def label (id : RouteId) : String := "#" ++ id.toNat.repr

/-- The name that is given out after another one. -/
def next (id : RouteId) : RouteId := id + 1

/-- Names are given out around the circle of all numbers of 64 bits. -/
theorem toNat_next (id : RouteId) : id.next.toNat = (id.toNat + 1) % UInt64.size :=
  UInt64.toNat_add id 1

/-- Names are in the order of the numbers that they are. -/
theorem compare_eq_lt {id other : RouteId} : compare id other = .lt ↔ id < other :=
  compareOfLessAndEq_eq_lt

end RouteId

/-- A way to a destination through one neighbour. -/
structure Route where
  /-- Where the route leads to. -/
  dest : Prefix
  /-- Who originates the route; together with the destination this names its source. -/
  origin : NodeAddress
  /-- The neighbour that announced the route. -/
  neigh : NeighbourId
  /-- The address that traffic is handed to. -/
  nexthop : NextHop
  /-- The interface that leads to the neighbour. -/
  interface : InterfaceId
  /-- The origin's number, as announced. -/
  seqno : Seqno
  /-- The metric that the neighbour announced, infinite for a retracted route. -/
  refmetric : Metric
  /-- The announced metric with the cost of the link and the filter's penalty. -/
  metric : Metric
  /-- When the route was last refreshed by a feasible announcement. -/
  time : Instant
  /-- When the route last came into reach. -/
  origtime : Instant
  /-- Whether the route is in the forwarding table. -/
  installed : Bool
  deriving DecidableEq

namespace Route

/-- Whether the destination can be reached by the route. -/
def reachable (route : Route) : Bool := route.metric.reachable

/-- Whether the route is the one for a destination through a neighbour and a next hop. -/
def through (route : Route) (dest : Prefix) (neigh : NeighbourId) (nexthop : NextHop) : Bool :=
  route.neigh == neigh && route.nexthop == nexthop && route.dest == dest

end Route

end DistanceVector
