import DistanceVector.Router.Withdrawal

/-!
# Changing costs and passing time

Routes change without being announced again when the cost of a link changes and when time passes.

Main definitions:

* `Router.remetric` — recomputes the metric of a route, or retracts it if it timed out;
* `Router.remetricNeighbour`, `Router.remetricInterface` — the same for all routes concerned;
* `Router.expire` — the periodic sweep over all routes.
-/

set_option relaxedAutoImplicit false
set_option autoImplicit false

namespace DistanceVector.Router

/-- The metric that a route has at present: infinity if it timed out, else what its announced
metric, the cost of its link and the penalty come to. -/
def currentMetric (r : Router) (now : Instant) (route : Route) : Metric :=
  if r.timedOut now route then Metric.infinity
  else r.pathMetric route.origin route.dest route.neigh route.interface route.refmetric

/-- The number that a retracted route stands for: the one after that on record for its source. -/
def retractionSeqno (r : Router) (route : Route) : Seqno :=
  (r.sources.find? route.origin route.dest).elim route.seqno fun s => s.seqno.next

/-- Retracts a route that timed out, unless it was retracted before. -/
def retractIfTimedOut (r : Router) (now : Instant) (id : RouteId) (route : Route) : Router :=
  if r.timedOut now route && route.refmetric.reachable then
    r.modifyRoute id
      ({ · with seqno := r.retractionSeqno route, refmetric := Metric.infinity })
  else r

/-- Recomputes the metric of a route from its announced metric, or retracts the route if it was
not refreshed in time. -/
def remetric (r : Router) (now : Instant) (id : RouteId) : Router :=
  match r.route? id with
  | none => r
  | some route =>
    ((r.retractIfTimedOut now id route).setMetric id (r.currentMetric now route)).reconsider
      now id route.origin route.metric

theorem remetric_of_absent {r : Router} {id : RouteId} (hr : r.table.get? id = none)
    (now : Instant) : r.remetric now id = r := by
  simp [remetric, route?, hr]

theorem remetric_of_get? {r : Router} {id : RouteId} {route : Route}
    (hr : r.table.get? id = some route) (now : Instant) :
    r.remetric now id =
      ((r.retractIfTimedOut now id route).setMetric id (r.currentMetric now route)).reconsider
        now id route.origin route.metric := by
  simp [remetric, route?, hr]

/-- Recomputes the metrics of the routes of the given names, one after the other. -/
def remetricAll (r : Router) (now : Instant) (ids : List RouteId) : Router :=
  ids.foldl (fun r id => r.remetric now id) r

/-- Recomputes the metric of every route through a neighbour, after the cost of its link changed. -/
def remetricNeighbour (r : Router) (now : Instant) (neigh : NeighbourId) : Router :=
  r.remetricAll now (r.table.idsThrough neigh)

/-- Recomputes the metric of every route over an interface, after its costs changed. -/
def remetricInterface (r : Router) (now : Instant) (interface : InterfaceId) : Router :=
  r.remetricAll now (r.table.idsOver interface)

/-! ### The periodic sweep -/

/-- Whether a route needs to be refreshed: it is installed, not retracted, and about to time
out. -/
def needsRefresh (r : Router) (now : Instant) (route : Route) : Bool :=
  route.installed && route.refmetric.reachable && route.time.expired r.params.refreshDelay now

/-- Asks for a refresh of a route that needs one. -/
def refreshIfNeeded (r : Router) (now : Instant) (id : RouteId) : Router :=
  match r.route? id with
  | none => r
  | some route =>
    if r.needsRefresh now route then r.requestRefresh route.neigh route.dest else r

/-- What the sweep does to one route: it removes a route past its time, and recomputes the metric
of any other. -/
def expireRoute (r : Router) (now : Instant) (id : RouteId) : Router :=
  match r.route? id with
  | none => r
  | some route =>
    if route.time.expired r.params.gcDelay now then r.flush now id
    else (r.remetric now id).refreshIfNeeded now id

/-- **The periodic sweep**: leftovers are retried, then every route is looked after. -/
def expire (r : Router) (now : Instant) : Router :=
  let r := (r.report .expiring).retryLeftovers
  r.table.ids.foldl (fun r id => r.expireRoute now id) r

end DistanceVector.Router
