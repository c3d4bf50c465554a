import DistanceVector.Router.Basic

/-!
# Announcing and asking

What a router tells its neighbours when its installed routes change, and what it asks for when it
needs better ones.

Main definitions:

* `Router.announce`, `Router.requestRoute`, `Router.requestRefresh`, `Router.requestSeqno` — the
  single packets;
* `Router.announceChange` — the packets that a change of an installed route calls for;
* `Router.requestFeasible` — the packet that an unfeasible announcement calls for.
-/

set_option relaxedAutoImplicit false
set_option autoImplicit false

namespace DistanceVector.Router

/-! ### Single packets -/

/-- Announces the present route to a destination. -/
def announce (r : Router) (dest : Prefix) (urgent : Bool) : Router :=
  r.queue (Packet.routeUpdate dest urgent).toAll

/-- Asks all neighbours to announce a destination. -/
def requestRoute (r : Router) (dest : Prefix) : Router :=
  r.queue (Packet.routeRequest dest).toAll

/-- Asks one neighbour to announce a destination again. -/
def requestRefresh (r : Router) (neigh : NeighbourId) (dest : Prefix) : Router :=
  r.queue ((Packet.routeRequest dest).toNeighbour neigh)

/-- Asks the origin for fresher news than those on record; without a record nothing is asked. -/
def requestSeqno (r : Router) (origin : NodeAddress) (dest : Prefix) : Router :=
  match r.sources.find? origin dest with
  | none => r.report (.sourceMissing dest origin)
  | some s => r.queue (Packet.seqnoRequest dest origin s.wantedSeqno).toAll

/-! ### What a change calls for -/

/-- Whether two metrics are at least `margin` apart. -/
def farApart (a b : Metric) (margin : Nat) : Bool :=
  a.toNat + margin ≤ b.toNat || b.toNat + margin ≤ a.toNat

/-- Whether a change must be heard at once: the origin changed, which may cause a loop for a
while; the destination came into reach or went out of it; the metric changed a lot; or somebody
is waiting for the announcement. -/
def changeIsUrgent (r : Router) (route : Route) (oldOrigin : NodeAddress) (oldMetric : Metric) :
    Bool :=
  route.origin != oldOrigin || oldMetric.reachable != route.metric.reachable ||
    farApart oldMetric route.metric 512 || r.awaits route

/-- Announces an installed route if it changed enough. -/
def announceIfChanged (r : Router) (route : Route) (oldOrigin : NodeAddress) (oldMetric : Metric) :
    Router :=
  let urgent := r.changeIsUrgent route oldOrigin oldMetric
  if urgent || farApart oldMetric route.metric 256 then r.announce route.dest urgent else r

/-- Asks for better news of an installed route if it got much worse. -/
def requestIfWorse (r : Router) (route : Route) (oldMetric : Metric) : Router :=
  if !oldMetric.reachable then r
  else if !route.metric.reachable || oldMetric.toNat + 384 ≤ route.metric.toNat then
    r.requestSeqno route.origin route.dest
  else if oldMetric.toNat + 288 ≤ route.metric.toNat then r.requestRoute route.dest
  else r

/-- Announces an installed route if it changed enough, and asks for better news if it got much
worse. -/
def announceChange (r : Router) (id : RouteId) (oldOrigin : NodeAddress) (oldMetric : Metric) :
    Router :=
  match r.route? id with
  | none => r
  | some route =>
    if route.installed then
      (r.announceIfChanged route oldOrigin oldMetric).requestIfWorse route oldMetric
    else r

/-- Whether an announcement would be of use if it were feasible: its metric is well below that of
the installed route, or no route is installed. -/
def wouldHelp (r : Router) (dest : Prefix) (metric : Metric) : Bool :=
  (r.table.installed? dest).all fun e => metric.toNat + 256 ≤ e.2.metric.toNat

/-- Asks for fresher news after an unfeasible announcement that would be of use. -/
def requestFeasible (r : Router) (metric : Metric) (origin : NodeAddress) (dest : Prefix) :
    Router :=
  if (r.sources.find? origin dest).isSome && r.wouldHelp dest metric then
    r.requestSeqno origin dest
  else r

/-! ### What the steps leave alone -/

section Table

variable (r : Router) (dest : Prefix) (origin : NodeAddress) (route : Route) (oldMetric : Metric)

@[simp] theorem table_announce (urgent : Bool) : (r.announce dest urgent).table = r.table := rfl

@[simp] theorem table_requestSeqno : (r.requestSeqno origin dest).table = r.table := by
  unfold requestSeqno
  split <;> rfl

@[simp] theorem table_announceIfChanged :
    (r.announceIfChanged route origin oldMetric).table = r.table := by
  unfold announceIfChanged
  simp only []
  split <;> rfl

@[simp] theorem table_requestIfWorse : (r.requestIfWorse route oldMetric).table = r.table := by
  unfold requestIfWorse
  split
  · rfl
  split
  · exact r.table_requestSeqno route.dest route.origin
  split <;> rfl

@[simp] theorem table_announceChange (id : RouteId) :
    (r.announceChange id origin oldMetric).table = r.table := by
  unfold announceChange
  split
  · rfl
  split
  · rw [table_requestIfWorse, table_announceIfChanged]
  · rfl

@[simp] theorem table_requestFeasible (metric : Metric) :
    (r.requestFeasible metric origin dest).table = r.table := by
  unfold requestFeasible
  split
  · exact r.table_requestSeqno dest origin
  · rfl

end Table

end DistanceVector.Router
