import DistanceVector.Router.Withdrawal

/-!
# Receiving advertisements

What a router does about an advertisement: the checks that reject it, and what becomes of the
route that it is about.

Main definitions:

* `Router.screen` — the checks that need no record of the source;
* `Router.update` — what becomes of a route that is in the table;
* `Router.adopt` — what becomes of one that is not;
* `Router.receive` — **the whole of it**.
-/

set_option relaxedAutoImplicit false
set_option autoImplicit false

namespace DistanceVector.Router

/-! ### The checks -/

/-- Checks an advertisement against the martians, the neighbours and the filter, in this order.
One that passes came over the interface returned. -/
def screen (r : Router) (adv : Advertisement) : Except Rejection InterfaceId :=
  if r.filter.isMartian adv.dest then .error .martian
  else
    match r.neighbours.interface? adv.neigh with
    | none => .error .unknownNeighbour
    | some interface =>
      if (r.filter.penalty adv.origin adv.dest adv.neigh interface).reachable then .ok interface
      else .error .filtered

/-- The event to report about a rejection, if there is one. -/
def rejectionEvent? (r : Router) (adv : Advertisement) : Rejection → Option Event
  | .martian => some (.martian adv.dest adv.origin)
  | .unknownNeighbour => some (.unknownNeighbour adv.dest adv.neigh)
  | .filtered => some (.filtered adv.dest adv.neigh)
  | .tableFull => some (.noRoom r.table.capacity adv.dest adv.neigh)
  | .noSource | .unfeasible | .unknownRetraction => none

/-- Rejects an advertisement. -/
def reject (r : Router) (adv : Advertisement) (reason : Rejection) :
    Except Rejection RouteId × Router :=
  (.error reason, (r.rejectionEvent? adv reason).elim r r.report)

/-! ### Routes in the table and new ones -/

/-- Records an advertisement of a route of the table, and the metric that it comes to. -/
def record (r : Router) (now : Instant) (adv : Advertisement) (feasible : Bool) (metric : Metric)
    (id : RouteId) : Router :=
  (r.modifyRoute id (·.withAdvertisement now adv feasible)).setMetric id metric

/-- Records an advertisement of the route `old` of the table, and draws the conclusions.  An
unfeasible one is recorded too, but takes the route out of the forwarding table. -/
def update (r : Router) (now : Instant) (adv : Advertisement) (feasible : Bool) (metric : Metric)
    (id : RouteId) (old : Route) : Router :=
  let withdraw := !feasible && old.installed
  let r := if withdraw then (r.report (.unfeasible old.origin adv)).uninstall id else r
  let lost := withdraw && !r.isInstalled id
  let r := r.record now adv feasible metric id
  let r :=
    if feasible then r.reconsider now id old.origin old.metric
    else r.requestFeasible metric adv.origin adv.dest
  if lost then r.replaceLost now old.origin adv.dest old.metric else r

/-- Takes up a route that is not in the table, making room for it if necessary. -/
def adopt (r : Router) (now : Instant) (adv : Advertisement) (interface : InterfaceId)
    (metric : Metric) : Except Rejection RouteId × Router :=
  let r := if r.table.isFull then r.makeRoom now else r
  match r.table.insert? (.ofAdvertisement adv now interface metric) with
  | none => r.reject adv .tableFull
  | some (id, table) => (.ok id, { r with table }.consider now id)

/-! ### The whole -/

/-- What becomes of an advertisement that passed the checks and whose source is on record. -/
def accept (r : Router) (now : Instant) (adv : Advertisement) (interface : InterfaceId) :
    Except Rejection RouteId × Router :=
  let feasible := r.feasible now adv.origin adv.dest adv.seqno adv.refmetric
  let metric := r.pathMetric adv.origin adv.dest adv.neigh interface adv.refmetric
  match r.table.match? adv.dest adv.neigh adv.nexthop with
  | some (id, old) => (.ok id, r.update now adv feasible metric id old)
  | none =>
    if !feasible then
      (r.requestFeasible metric adv.origin adv.dest).reject adv .unfeasible
    else if !adv.refmetric.reachable then r.reject adv .unknownRetraction
    else r.adopt now adv interface metric

/-- **What a router does about an advertisement**: the route that now holds it, or why there is
none. -/
def receive (r : Router) (now : Instant) (adv : Advertisement) :
    Except Rejection RouteId × Router :=
  match r.screen adv with
  | .error reason => r.reject adv reason
  | .ok interface =>
    match r.sources.observe adv.origin adv.dest adv.seqno now with
    | none => r.reject adv .noSource
    | some sources => { r with sources }.accept now adv interface

/-! ### What the whole comes to -/

/-- An advertisement is rejected at once, or its source is put on record and it is accepted. -/
theorem receive_cases (r : Router) (now : Instant) (adv : Advertisement) :
    (∃ reason, r.receive now adv = r.reject adv reason) ∨
    ∃ interface sources, r.screen adv = .ok interface ∧
      r.sources.observe adv.origin adv.dest adv.seqno now = some sources ∧
      r.receive now adv = { r with sources }.accept now adv interface := by
  cases hs : r.screen adv with
  | error reason => exact .inl ⟨reason, by simp only [receive, hs]⟩
  | ok interface =>
      cases ho : r.sources.observe adv.origin adv.dest adv.seqno now with
      | none => exact .inl ⟨.noSource, by simp only [receive, hs, ho]⟩
      | some sources => exact .inr ⟨interface, sources, rfl, rfl, by simp only [receive, hs, ho]⟩

/-- What passes the checks came from a known neighbour, over the interface that leads to it. -/
theorem interface?_of_screen {r : Router} {adv : Advertisement} {interface : InterfaceId}
    (h : r.screen adv = .ok interface) : r.neighbours.interface? adv.neigh = some interface := by
  unfold screen at h
  split at h
  · cases h
  · cases hi : r.neighbours.interface? adv.neigh with
    | none =>
        simp only [hi] at h
        cases h
    | some known =>
        simp only [hi] at h
        split at h
        · cases h
          rfl
        · cases h

theorem accept_of_match {r : Router} {adv : Advertisement} {id : RouteId} {old : Route}
    (hm : r.table.match? adv.dest adv.neigh adv.nexthop = some (id, old)) (now : Instant)
    (interface : InterfaceId) :
    r.accept now adv interface = (.ok id, r.update now adv
      (r.feasible now adv.origin adv.dest adv.seqno adv.refmetric)
      (r.pathMetric adv.origin adv.dest adv.neigh interface adv.refmetric) id old) := by
  simp only [accept, hm]

/-- An advertisement that is about no route of the table is rejected, or taken up. -/
theorem accept_of_vacant {r : Router} {adv : Advertisement}
    (hm : r.table.match? adv.dest adv.neigh adv.nexthop = none) (now : Instant)
    (interface : InterfaceId) :
    let metric := r.pathMetric adv.origin adv.dest adv.neigh interface adv.refmetric
    r.accept now adv interface =
        (r.requestFeasible metric adv.origin adv.dest).reject adv .unfeasible ∨
      r.accept now adv interface = r.reject adv .unknownRetraction ∨
      r.accept now adv interface = r.adopt now adv interface metric := by
  simp only [accept, hm]
  split
  · exact .inl rfl
  split
  · exact .inr (.inl rfl)
  · exact .inr (.inr rfl)

/-! ### What becomes of a route that is in the table -/

section Update

variable {r : Router} {id : RouteId} {old : Route}

/-- A feasible advertisement is recorded, and the conclusions are drawn. -/
theorem update_of_feasible (r : Router) (now : Instant) (adv : Advertisement) (metric : Metric)
    (id : RouteId) (old : Route) :
    r.update now adv true metric id old =
      (r.record now adv true metric id).reconsider now id old.origin old.metric := by
  simp [update]

/-- An unfeasible one of a route that is not installed is recorded, too. -/
theorem update_of_not_installed (hi : old.installed = false) (now : Instant) (adv : Advertisement)
    (metric : Metric) :
    r.update now adv false metric id old =
      (r.record now adv false metric id).requestFeasible metric adv.origin adv.dest := by
  simp [update, hi]

/-- An installed route is withdrawn first.  If that succeeds, a new one is sought last. -/
theorem update_of_withdrawn {adv : Advertisement} (hi : old.installed = true)
    (hw : ((r.report (.unfeasible old.origin adv)).uninstall id).isInstalled id = false)
    (now : Instant) (metric : Metric) :
    r.update now adv false metric id old =
      ((((r.report (.unfeasible old.origin adv)).uninstall id).record now adv false metric
        id).requestFeasible metric adv.origin adv.dest).replaceLost now old.origin adv.dest
          old.metric := by
  simp [update, hi, hw]

/-- If it does not succeed, nothing is sought. -/
theorem update_of_stuck {adv : Advertisement} (hi : old.installed = true)
    (hw : ((r.report (.unfeasible old.origin adv)).uninstall id).isInstalled id = true)
    (now : Instant) (metric : Metric) :
    r.update now adv false metric id old =
      (((r.report (.unfeasible old.origin adv)).uninstall id).record now adv false metric
        id).requestFeasible metric adv.origin adv.dest := by
  simp [update, hi, hw]

/-- To record an advertisement leaves the route installed or not, as it was. -/
theorem exists_get?_record (hr : r.table.get? id = some old) (now : Instant)
    (adv : Advertisement) (feasible : Bool) (metric : Metric) :
    ∃ ρ, (r.record now adv feasible metric id).table.get? id = some ρ ∧
      ρ.installed = old.installed ∧ ρ.dest = old.dest ∧ ρ.origin = adv.origin ∧
        ρ.seqno = adv.seqno ∧ ρ.refmetric = adv.refmetric := by
  have hget : (r.modifyRoute id (·.withAdvertisement now adv feasible)).table.get? id =
      some (old.withAdvertisement now adv feasible) := by
    rw [modifyRoute, RouteTable.get?_modify, if_pos rfl, hr, Option.map_some]
  have htable := (r.modifyRoute id (·.withAdvertisement now adv feasible)).table_setMetric id metric
  rcases htable with htable | htable
  · refine ⟨old.withAdvertisement now adv feasible, ?_, rfl, rfl, rfl, rfl, rfl⟩
    exact htable ▸ hget
  · refine ⟨{ old.withAdvertisement now adv feasible with metric }, ?_, rfl, rfl, rfl, rfl, rfl⟩
    rw [record, htable, RouteTable.get?_modify, if_pos rfl, hget, Option.map_some]

end Update

end DistanceVector.Router
