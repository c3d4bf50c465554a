import DistanceVector.Hysteresis
import DistanceVector.Router.Announcing
import DistanceVector.Router.Forwarding

/-!
# Promotion

How a route comes to be installed, and what happens when an installed route changes or goes away.

Main definitions:

* `Router.candidate?` — the route of a name, if it may be installed at all;
* `Router.consider` — installs a route if it is good enough;
* `Router.replaceLost` — looks for a new route after the installed one was lost;
* `Router.reconsider` — draws the conclusions from the change of a route.

Main results:

* `Router.consider_of_vacant`, `Router.consider_of_gain`, `Router.seekBetter_of_margin` and the like
  — what each of these comes to;
* `Router.get?_consider_of_unfeasible` — **a route that is neither installed nor feasible stays as it
  is**, whichever is considered.
-/

set_option relaxedAutoImplicit false
set_option autoImplicit false

namespace DistanceVector.Router

/-- The route of a name, if it may be installed: it is not yet, it is feasible, and this node does
not announce the destination itself. -/
def candidate? (r : Router) (now : Instant) (id : RouteId) : Option Route :=
  (r.route? id).filter fun route =>
    !route.installed && r.routeFeasible now route && !(r.exports.contains route.dest)

/-- A candidate is the route of its name; it is not installed, it is feasible, and its destination
is not one that this node announces itself. -/
theorem get?_of_candidate? {r : Router} {now : Instant} {id : RouteId} {route : Route}
    (h : r.candidate? now id = some route) :
    r.table.get? id = some route ∧ route.installed = false ∧ r.routeFeasible now route = true ∧
      route.dest ∉ r.exports := by
  obtain ⟨hr, htest⟩ := Option.filter_eq_some_iff.1 h
  simp only [Bool.and_eq_true, Bool.not_eq_true', List.contains_eq_mem, decide_eq_false_iff_not]
    at htest
  exact ⟨hr, htest.1.1, htest.1.2, htest.2⟩

/-- A route that is not installed is a candidate if it passes the tests. -/
theorem candidate?_of_get? {r : Router} {now : Instant} {id : RouteId} {route : Route}
    (hr : r.table.get? id = some route) (hi : route.installed = false)
    (hf : r.routeFeasible now route = true) (hx : route.dest ∉ r.exports) :
    r.candidate? now id = some route := by
  simp [candidate?, route?, hr, hi, hf, hx]

/-- Installs a route where no other is installed, and announces the destination. -/
def promoteAlone (r : Router) (id : RouteId) (route : Route) : Router :=
  ((r.report (.switching id route)).install id).announce route.dest true

/-- Installs a route in the place of the installed one, and announces what changed. -/
def promoteOver (r : Router) (id : RouteId) (route : Route) (oldId : RouteId) (old : Route) :
    Router :=
  let r := (r.report (.switching id route)).replaceInstalled oldId id
  if r.isInstalled id then r.announceChange id old.origin old.metric
  else r.announce route.dest true

/-- **Installs a route if it is good enough**: it may be installed at all, and it is enough of a
gain over the installed route, if there is one. -/
def consider (r : Router) (now : Instant) (id : RouteId) : Router :=
  match r.candidate? now id with
  | none => r
  | some route =>
    match r.table.installed? route.dest with
    | none => r.promoteAlone id route
    | some (oldId, old) =>
      if shouldSwitch old.metric route.metric (old.origin == route.origin) then
        r.promoteOver id route oldId old
      else r

/-- Looks for a new route after the installed one was lost.  If there is none, the loss is
announced, and if the lost route was of use, its origin is asked for fresher news. -/
def replaceLost (r : Router) (now : Instant) (origin : NodeAddress) (dest : Prefix)
    (oldMetric : Metric) : Router :=
  match r.best? now dest true none with
  | some (id, _) => r.consider now id
  | none =>
    let r := r.announce dest true
    if oldMetric.reachable then r.requestSeqno origin dest else r

/-- Considers the best route for the destination of a route that got worse. -/
def seekBetter (r : Router) (now : Instant) (route : Route) : Router :=
  match r.best? now route.dest true none with
  | none => r
  | some (id, better) =>
    if better.metric.toNat + routeMargin ≤ route.metric.toNat then r.consider now id else r

/-- Draws the conclusions from the change of a route.  If it is installed and got worse, a better
one is sought; if it still is installed then, the change is announced.  If it is not installed, it
may be good enough now. -/
def reconsider (r : Router) (now : Instant) (id : RouteId) (oldOrigin : NodeAddress)
    (oldMetric : Metric) : Router :=
  match r.route? id with
  | none => r
  | some route =>
    if route.installed then
      let r := if oldMetric < route.metric then r.seekBetter now route else r
      if r.isInstalled id then r.announceChange id oldOrigin oldMetric else r
    else r.consider now id

/-! ### What is decided

A candidate is installed where no other route is, and it takes the place of another if it is enough
of a gain.  The best route is considered in the place of one that was lost, and in that of one that
got worse if it passes the margin. -/

section Decisions

variable {r : Router} {now : Instant} {id oldId : RouteId} {route old better : Route}

theorem consider_of_no_candidate (hc : r.candidate? now id = none) : r.consider now id = r := by
  simp [consider, hc]

theorem consider_of_vacant (hc : r.candidate? now id = some route)
    (ho : r.table.installed? route.dest = none) :
    r.consider now id = r.promoteAlone id route := by
  simp [consider, hc, ho]

theorem consider_of_gain (hc : r.candidate? now id = some route)
    (ho : r.table.installed? route.dest = some (oldId, old))
    (hgain : shouldSwitch old.metric route.metric (old.origin == route.origin) = true) :
    r.consider now id = r.promoteOver id route oldId old := by
  simp [consider, hc, ho, hgain]

theorem consider_of_no_gain (hc : r.candidate? now id = some route)
    (ho : r.table.installed? route.dest = some (oldId, old))
    (hgain : shouldSwitch old.metric route.metric (old.origin == route.origin) = false) :
    r.consider now id = r := by
  simp [consider, hc, ho, hgain]

theorem seekBetter_of_none (hbest : r.best? now route.dest true none = none) :
    r.seekBetter now route = r := by
  simp [seekBetter, hbest]

theorem seekBetter_of_margin (hbest : r.best? now route.dest true none = some (id, better))
    (hmargin : better.metric.toNat + routeMargin ≤ route.metric.toNat) :
    r.seekBetter now route = r.consider now id := by
  simp [seekBetter, hbest, hmargin]

theorem seekBetter_of_short (hbest : r.best? now route.dest true none = some (id, better))
    (hshort : route.metric.toNat < better.metric.toNat + routeMargin) :
    r.seekBetter now route = r := by
  simp [seekBetter, hbest, Nat.not_le.2 hshort]

theorem replaceLost_of_some {dest : Prefix}
    (hbest : r.best? now dest true none = some (id, better)) (origin : NodeAddress)
    (oldMetric : Metric) : r.replaceLost now origin dest oldMetric = r.consider now id := by
  simp [replaceLost, hbest]

end Decisions

/-! ### What becomes of the table -/

theorem table_promoteAlone (r : Router) (id : RouteId) (route : Route) :
    (r.promoteAlone id route).table = r.table ∨
      (r.promoteAlone id route).table = r.table.modify id ({ · with installed := true }) :=
  (r.report (.switching id route)).table_install id

theorem table_promoteOver (r : Router) (id : RouteId) (route : Route) (oldId : RouteId)
    (old : Route) :
    (r.promoteOver id route oldId old).table = r.table ∨
      (r.promoteOver id route oldId old).table =
        (r.table.modify oldId ({ · with installed := false })).modify id
          ({ · with installed := true }) := by
  have hreplaced := (r.report (.switching id route)).table_replaceInstalled oldId id
  unfold promoteOver
  simp only []
  split
  · rwa [table_announceChange]
  · rwa [table_announce]

/-- A route that is neither installed nor feasible stays as it is, whichever is considered. -/
theorem get?_consider_of_unfeasible {r : Router} {now : Instant} {id : RouteId} {route : Route}
    (hr : r.table.get? id = some route) (hi : route.installed = false)
    (hf : r.routeFeasible now route = false) (other : RouteId) :
    (r.consider now other).table.get? id = some route := by
  unfold consider
  split
  · exact hr
  · next candidate hc =>
    obtain ⟨hget, -, hfeasible, -⟩ := get?_of_candidate? hc
    have hne : id ≠ other := by
      rintro rfl
      rw [Option.some.inj (hr.symm.trans hget), hfeasible] at hf
      cases hf
    split
    · rcases r.table_promoteAlone other candidate with htable | htable
      · rw [htable, hr]
      · rw [htable, RouteTable.get?_modify, if_neg hne, hr]
    · next oldId old hold =>
      have hneOld := (RouteTable.owns_of_installed? hold).ne_of_not_installed hr hi
      split
      · rcases r.table_promoteOver other candidate oldId old with htable | htable
        · rw [htable, hr]
        · rw [htable, RouteTable.get?_modify, if_neg hne, RouteTable.get?_modify,
            if_neg hneOld.symm, hr]
      · exact hr

theorem get?_replaceLost_of_unfeasible {r : Router} {now : Instant} {id : RouteId} {route : Route}
    (hr : r.table.get? id = some route) (hi : route.installed = false)
    (hf : r.routeFeasible now route = false) (origin : NodeAddress) (dest : Prefix)
    (oldMetric : Metric) :
    (r.replaceLost now origin dest oldMetric).table.get? id = some route := by
  unfold replaceLost
  split
  · exact get?_consider_of_unfeasible hr hi hf _
  · simp only []
    split
    · rw [table_requestSeqno, table_announce, hr]
    · rw [table_announce, hr]

end DistanceVector.Router
