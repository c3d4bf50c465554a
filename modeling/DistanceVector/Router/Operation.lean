import DistanceVector.Router.Ageing
import DistanceVector.Router.Receiving

/-!
# Operations

What a router may be asked to do, as data, so that one can speak of a run: a sequence of
operations at given times.
-/

set_option relaxedAutoImplicit false
set_option autoImplicit false

namespace DistanceVector

/-- What a router may be asked to do. -/
inductive Operation where
  | receive (adv : Advertisement)
  | flush (id : RouteId)
  | flushNeighbour (neigh : NeighbourId)
  | remetric (id : RouteId)
  | remetricNeighbour (neigh : NeighbourId)
  | remetricInterface (interface : InterfaceId)
  | expire
  | makeRoom
  | consider (id : RouteId)
  | replaceLost (origin : NodeAddress) (dest : Prefix) (oldMetric : Metric)
  | reconsider (id : RouteId) (oldOrigin : NodeAddress) (oldMetric : Metric)
  | uninstall (id : RouteId)
  | setMetric (id : RouteId) (metric : Metric)
  | retryLeftovers
  deriving DecidableEq

/-- The router after an operation at the time `now`; what it returns is left out. -/
def Router.perform (r : Router) (now : Instant) : Operation → Router
  | .receive adv => (r.receive now adv).2
  | .flush id => r.flush now id
  | .flushNeighbour neigh => r.flushNeighbour now neigh
  | .remetric id => r.remetric now id
  | .remetricNeighbour neigh => r.remetricNeighbour now neigh
  | .remetricInterface interface => r.remetricInterface now interface
  | .expire => r.expire now
  | .makeRoom => r.makeRoom now
  | .consider id => r.consider now id
  | .replaceLost origin dest oldMetric => r.replaceLost now origin dest oldMetric
  | .reconsider id oldOrigin oldMetric => r.reconsider now id oldOrigin oldMetric
  | .uninstall id => r.uninstall id
  | .setMetric id metric => r.setMetric id metric
  | .retryLeftovers => r.retryLeftovers

end DistanceVector
