import DistanceVector.Event
import DistanceVector.Filter
import DistanceVector.Kernel.Forwarding
import DistanceVector.Params
import DistanceVector.RouteTable
import DistanceVector.SourceTable

/-!
# The router

The state of a router: its routes and everything it consults and drives.  This module holds the
state, what can be asked of it, and the two smallest steps, reporting an event and queueing a
packet.

Main definitions:

* `Router` — the state;
* `Router.routeFeasible` — whether a route may be used without danger of a loop;
* `Router.pathMetric` — the metric of an announcement heard over a link;
* `Router.best?` — the best route for a destination.

Main results:

* `Router.eligible_of_best?`, `Router.best?_eq_none_iff`, `Router.metric_le_of_best?` — **the best
  route comes into question, there is none only if no route does, and none that does is better**.
-/

set_option relaxedAutoImplicit false
set_option autoImplicit false

namespace DistanceVector

/-- A request for fresher news that awaits an answer. -/
structure Request where
  dest : Prefix
  seqno : Seqno
  origin : NodeAddress
  deriving DecidableEq

/-- The state of a router. -/
structure Router where
  params : Params := {}
  table : RouteTable
  sources : SourceTable := {}
  neighbours : NeighbourTable := .empty
  filter : Filter := {}
  /-- The destinations that this node announces itself. -/
  exports : List Prefix := []
  /-- The requests that await an answer. -/
  requests : List Request := []
  kernel : Kernel := {}
  /-- Entries of routes that left the table while the kernel refused to flush them. -/
  leftovers : OrderedMap Prefix KernelEntry := .empty
  /-- The packets to send, from the first to the last. -/
  outbox : List OutboundPacket := []
  /-- What there is to report, from the first to the last. -/
  events : List Event := []
  deriving DecidableEq, Inhabited

namespace Router

/-- A router that knows nothing yet. -/
def ofParams (params : Params) : Router :=
  { params, table := .ofCapacity params.maxRoutes }

/-! ### The smallest steps -/

/-- Reports an event. -/
def report (r : Router) (e : Event) : Router := { r with events := r.events ++ [e] }

/-- Queues a packet. -/
def queue (r : Router) (p : OutboundPacket) : Router :=
  { r.report (.queueing p) with outbox := r.outbox ++ [p] }

@[simp] theorem outbox_report (r : Router) (e : Event) : (r.report e).outbox = r.outbox := rfl

@[simp] theorem outbox_queue (r : Router) (p : OutboundPacket) :
    (r.queue p).outbox = r.outbox ++ [p] := rfl

/-- The router with its packets, events and kernel calls taken away. -/
def drained (r : Router) : Router :=
  { r with outbox := [], events := [], kernel := r.kernel.forgetCalls }

/-! ### Questions -/

/-- The route of a name. -/
def route? (r : Router) (id : RouteId) : Option Route := r.table.get? id

@[grind =] theorem route?_eq_get? (r : Router) (id : RouteId) : r.route? id = r.table.get? id := rfl

/-- Whether a name is that of an installed route. -/
def isInstalled (r : Router) (id : RouteId) : Bool := (r.route? id).any Route.installed

theorem isInstalled_of_get? {r : Router} {id : RouteId} {route : Route}
    (hget : r.table.get? id = some route) : r.isInstalled id = route.installed := by
  rw [isInstalled, route?_eq_get?, hget]
  rfl

/-- Whether an announcement is feasible. -/
def feasible (r : Router) (now : Instant) (origin : NodeAddress) (dest : Prefix) (seqno : Seqno)
    (refmetric : Metric) : Bool :=
  Source.feasible (r.sources.find? origin dest) r.params.staleDelay now seqno refmetric

/-- Whether a route is feasible, as last announced. -/
def routeFeasible (r : Router) (now : Instant) (route : Route) : Bool :=
  r.feasible now route.origin route.dest route.seqno route.refmetric

/-- Whether a route was not refreshed in time. -/
def timedOut (r : Router) (now : Instant) (route : Route) : Bool :=
  route.time.expired r.params.timeoutDelay now

/-- The metric of an announcement: the announced metric, the cost of the link and the penalty. -/
def pathMetric (r : Router) (origin : NodeAddress) (dest : Prefix) (neigh : NeighbourId)
    (interface : InterfaceId) (refmetric : Metric) : Metric :=
  (refmetric.plus (r.neighbours.cost neigh)).plus (r.filter.penalty origin dest neigh interface)

/-- Whether a request that a route would answer still awaits its answer. -/
def awaits (r : Router) (route : Route) : Bool :=
  (⟨route.dest, route.seqno, route.origin⟩ : Request) ∈ r.requests

/-- Whether a route comes into question for its destination. -/
def eligible (r : Router) (now : Instant) (feasibleOnly : Bool) (exclude : Option NeighbourId)
    (route : Route) : Bool :=
  !r.timedOut now route && (!feasibleOnly || r.routeFeasible now route) &&
    exclude != some route.neigh

/-- The best route for a destination: of those that come into question the one with the least
metric, and the oldest of several. -/
def best? (r : Router) (now : Instant) (dest : Prefix) (feasibleOnly : Bool)
    (exclude : Option NeighbourId) : Option (RouteId × Route) :=
  ((r.table.routesFor dest).filter fun e => r.eligible now feasibleOnly exclude e.2).minOn?
    fun e => e.2.metric

/-! ### The best route -/

/-- Through any neighbour, a route comes into question if it is not timed out and feasible. -/
theorem eligible_iff {r : Router} {now : Instant} {route : Route} :
    r.eligible now true none route = true ↔
      r.timedOut now route = false ∧ r.routeFeasible now route = true := by
  simp [eligible]

/-- The best route is one for the destination that comes into question. -/
theorem eligible_of_best? {r : Router} {now : Instant} {dest : Prefix} {feasibleOnly : Bool}
    {exclude : Option NeighbourId} {id : RouteId} {route : Route}
    (h : r.best? now dest feasibleOnly exclude = some (id, route)) :
    r.route? id = some route ∧ route.dest = dest ∧
      r.eligible now feasibleOnly exclude route = true := by
  have hmem := List.minOn?_mem h
  rw [List.mem_filter, RouteTable.routesFor, List.mem_filter, RouteTable.mem_toList_iff] at hmem
  exact ⟨hmem.1.1, by simpa using hmem.1.2, hmem.2⟩

/-- There is no best route exactly if no route for the destination comes into question. -/
theorem best?_eq_none_iff {r : Router} {now : Instant} {dest : Prefix} {feasibleOnly : Bool}
    {exclude : Option NeighbourId} :
    r.best? now dest feasibleOnly exclude = none ↔
      ∀ id route, r.route? id = some route → route.dest = dest →
        r.eligible now feasibleOnly exclude route = false := by
  rw [← Option.not_isSome_iff_eq_none, best?, List.isSome_minOn?_iff]
  simp only [ne_eq, Classical.not_not, List.filter_eq_nil_iff, RouteTable.routesFor,
    List.mem_filter, Prod.forall, RouteTable.mem_toList_iff, beq_iff_eq, and_imp, Router.route?,
    Bool.not_eq_true]

/-- No route for the destination that comes into question is better than the best. -/
theorem metric_le_of_best? {r : Router} {now : Instant} {dest : Prefix} {feasibleOnly : Bool}
    {exclude : Option NeighbourId} {id other : RouteId} {route ρ : Route}
    (h : r.best? now dest feasibleOnly exclude = some (id, route))
    (hρ : r.route? other = some ρ) (hd : ρ.dest = dest)
    (he : r.eligible now feasibleOnly exclude ρ = true) : route.metric ≤ ρ.metric := by
  have hmem : (other, ρ) ∈ (r.table.routesFor dest).filter
      fun e => r.eligible now feasibleOnly exclude e.2 := by
    rw [List.mem_filter, RouteTable.routesFor, List.mem_filter, RouteTable.mem_toList_iff]
    exact ⟨⟨hρ, by simpa using hd⟩, he⟩
  have hle := List.apply_get_minOn?_le_of_mem (f := fun e : RouteId × Route => e.2.metric) hmem
  have hbest : (((r.table.routesFor dest).filter fun e =>
    r.eligible now feasibleOnly exclude e.2).minOn? fun e => e.2.metric) = some (id, route) := h
  simp only [hbest, Option.get_some] at hle
  exact hle

end Router

end DistanceVector
