import DistanceVector.Route

/-!
# Advertisements and packets

An advertisement is what a neighbour says about a destination, and a rejection is why it did not
lead to a route.  A packet is what a router itself tells and asks its neighbours.

Main definitions:

* `Advertisement` — what a neighbour says;
* `Rejection` — why it was of no use;
* `Packet`, `OutboundPacket` — a message to neighbours, without and with its addressee;
* `Route.ofAdvertisement`, `Route.withAdvertisement` — a new route, and a route that is advertised
  again.
-/

set_option relaxedAutoImplicit false
set_option autoImplicit false

namespace DistanceVector

/-- What a neighbour says about a destination. -/
structure Advertisement where
  origin : NodeAddress
  dest : Prefix
  seqno : Seqno
  /-- The neighbour's own metric, infinite if it takes the route back. -/
  refmetric : Metric
  /-- The neighbour that says it. -/
  neigh : NeighbourId
  nexthop : NextHop
  deriving DecidableEq, Inhabited

/-- Why an advertisement did not lead to a route. -/
inductive Rejection where
  /-- The destination must never be routed. -/
  | martian
  /-- The neighbour is unknown. -/
  | unknownNeighbour
  /-- The input filter rejects the advertisement. -/
  | filtered
  /-- The source has no record and none can be opened. -/
  | noSource
  /-- The advertisement might have come around a loop. -/
  | unfeasible
  /-- A route that is not in the table is taken back. -/
  | unknownRetraction
  /-- There is no room for another route. -/
  | tableFull
  deriving DecidableEq

/-- The text that names the reason. -/
def Rejection.message : Rejection → String
  | .martian => "martian destination"
  | .unknownNeighbour => "advertisement from an unknown neighbour"
  | .filtered => "rejected by input filter"
  | .noSource => "no source record for origin"
  | .unfeasible => "unfeasible update"
  | .unknownRetraction => "retraction for an unknown route"
  | .tableFull => "route table full"

/-! ### Packets -/

/-- A message to neighbours. -/
inductive Packet where
  /-- Announces the present route to a destination, at once if it is urgent. -/
  | routeUpdate (dest : Prefix) (urgent : Bool)
  /-- Asks for an announcement of a destination. -/
  | routeRequest (dest : Prefix)
  /-- Asks the origin for an announcement with at least this number. -/
  | seqnoRequest (dest : Prefix) (origin : NodeAddress) (seqno : Seqno)
  deriving DecidableEq

/-- The destination that the message is about. -/
def Packet.dest : Packet → Prefix
  | .routeUpdate dest _ => dest
  | .routeRequest dest => dest
  | .seqnoRequest dest _ _ => dest

/-- A message with its addressee. -/
structure OutboundPacket where
  /-- The neighbour to send to, or none to send to every neighbour. -/
  neigh : Option NeighbourId
  packet : Packet
  deriving DecidableEq

/-- A message to every neighbour. -/
def Packet.toAll (packet : Packet) : OutboundPacket := ⟨none, packet⟩

/-- A message to one neighbour. -/
def Packet.toNeighbour (packet : Packet) (neigh : NeighbourId) : OutboundPacket :=
  ⟨some neigh, packet⟩

/-! ### What is said of a route -/

namespace Route

/-- The route that an advertisement leads to when it is heard for the first time. -/
def ofAdvertisement (adv : Advertisement) (now : Instant) (interface : InterfaceId)
    (metric : Metric) : Route where
  dest := adv.dest
  origin := adv.origin
  neigh := adv.neigh
  nexthop := adv.nexthop
  interface := interface
  seqno := adv.seqno
  refmetric := adv.refmetric
  metric := metric
  time := now
  origtime := now
  installed := false

/-- The route with a new advertisement of it recorded.  Only a feasible one that is no retraction
refreshes the route. -/
def withAdvertisement (route : Route) (now : Instant) (adv : Advertisement) (feasible : Bool) :
    Route :=
  let refreshed := feasible && adv.refmetric.reachable
  { route with
    origin := adv.origin
    seqno := adv.seqno
    refmetric := adv.refmetric
    time := if refreshed then now else route.time
    origtime := if refreshed && !route.refmetric.reachable then now else route.origtime }

end Route

end DistanceVector
