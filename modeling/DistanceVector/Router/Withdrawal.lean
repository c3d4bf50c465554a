import DistanceVector.Router.Promotion

/-!
# Withdrawal

How routes leave the table.

Main definitions:

* `Router.flush` — removes a route, and looks for a new one if it was installed;
* `Router.flushNeighbour` — removes all routes through a neighbour;
* `Router.makeRoom` — removes routes that are of little use.
-/

set_option relaxedAutoImplicit false
set_option autoImplicit false

namespace DistanceVector.Router

/-- The router without the route of that name in its table. -/
def eraseRoute (r : Router) (id : RouteId) : Router := { r with table := r.table.erase id }

/-- Removes a route.  An installed one is taken out of the forwarding table first, and leaves the
route table even if the kernel refuses; then a new one is sought. -/
def flush (r : Router) (now : Instant) (id : RouteId) : Router :=
  match r.route? id with
  | none => r
  | some route =>
    if route.installed then
      ((r.release id).eraseRoute id).replaceLost now route.origin route.dest route.metric
    else r.eraseRoute id

theorem flush_of_absent {r : Router} {id : RouteId} (hr : r.table.get? id = none)
    (now : Instant) : r.flush now id = r := by
  simp [flush, route?, hr]

theorem flush_of_not_installed {r : Router} {id : RouteId} {route : Route}
    (hr : r.table.get? id = some route) (hi : route.installed = false) (now : Instant) :
    r.flush now id = r.eraseRoute id := by
  simp [flush, route?, hr, hi]

/-- Removes the routes of the given names, one after the other. -/
def flushAll (r : Router) (now : Instant) (ids : List RouteId) : Router :=
  ids.foldl (fun r id => r.flush now id) r

/-- Removes every route through a neighbour. -/
def flushNeighbour (r : Router) (now : Instant) (neigh : NeighbourId) : Router :=
  r.flushAll now (r.table.idsThrough neigh)

/-! ### Making room -/

/-- Whether a route is of no use: it is old, and it is not installed or not reachable. -/
def useless (r : Router) (now : Instant) (route : Route) : Bool :=
  route.time.expired r.params.dropDelay now && (!route.installed || !route.reachable)

/-- Removes a route if it is of no use. -/
def flushIfUseless (r : Router) (now : Instant) (id : RouteId) : Router :=
  if (r.route? id).any (r.useless now) then r.flush now id else r

/-- Removes every route that is of no use. -/
def flushUseless (r : Router) (now : Instant) : Router :=
  r.table.ids.foldl (fun r id => r.flushIfUseless now id) r

/-- The route that is least missed: the oldest unfeasible one, else the oldest that is not
installed. -/
def victim? (r : Router) (now : Instant) : Option RouteId :=
  ((r.table.find? fun route => !r.routeFeasible now route).or
    (r.table.find? fun route => !route.installed)).map (·.1)

/-- Removes the route that is least missed. -/
def evict (r : Router) (now : Instant) : Router :=
  match r.victim? now with
  | none => r
  | some id => (r.report (.evicting id)).flush now id

/-- Removes the routes that are of no use, and if the table is still full, the one that is least
missed. -/
def makeRoom (r : Router) (now : Instant) : Router :=
  let r := r.flushUseless now
  if r.table.isFull then r.evict now else r

end DistanceVector.Router
