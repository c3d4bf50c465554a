import DistanceVector.Proofs.Recording
import DistanceVector.Proofs.Upkeep

/-!
# Neighbours that moved

There are two ways to find the metric of a route.  An advertisement is priced for the interface that
leads to its neighbour; to recompute the metric, the interface is taken that is on record with the
route.  The two agree as long as the neighbour stays where it is, for a new route has the interface
that leads to its neighbour.

But what is on record with a route of the table is never changed.  If the neighbour moves to another
interface, the advertisements that come over that one are priced for it, while the route keeps the
old one, and the next time that its metric is recomputed, it is that for the old interface.

Main definitions:

* `Router.Displaced` — the advertisement is of a route with another interface than that which leads
  to its neighbour;
* `Router.PricedOver` — a route has the metric that is due over an interface.

Main results:

* `Router.shown_remetric_of_timely` — what becomes of a route whose metric is recomputed in time;
* `Router.pricedOver_update`, `Router.pricedOver_adopt` — an advertisement is priced for the
  interface that leads to its neighbour;
* `Router.followed_unless_displaced` — **a route follows its neighbour to another interface unless it
  was in the table before, and what happens then**;
* `Router.metric_forgets_move` — its metric may change when it is recomputed.
-/

set_option relaxedAutoImplicit false
set_option autoImplicit false

namespace DistanceVector.Router

variable {now : Instant} {r r' s : Router} {id : RouteId} {route old : Route}
  {adv : Advertisement} {interface : InterfaceId} {metric : Metric}

/-- The advertisement is of a route of the table that has another interface on record than that
which leads to its neighbour. -/
def Displaced (r : Router) (adv : Advertisement) (id : RouteId) : Prop :=
  ∃ old, r.table.get? id = some old ∧ old.place = adv.place ∧
    r.neighbours.interface? adv.neigh ≠ some old.interface

/-- The route of that name has the metric that is due over the interface that leads to its
neighbour; and if it is not retracted, it did not time out. -/
structure PricedOver (r : Router) (now : Instant) (interface : InterfaceId) (id : RouteId)
    (route : Route) : Prop where
  link : r.neighbours.interface? route.neigh = some interface
  get : r.table.get? id = some route
  priced : route.metric =
    r.pathMetric route.origin route.dest route.neigh interface route.refmetric
  timely : (r.timedOut now route && route.refmetric.reachable) = false

/-! ### Recomputing a metric -/

/-- If a route is retracted or did not time out, nothing changes when its metric is recomputed but
the metric and whether it is installed; and the metric changes at most to that which it must have. -/
theorem shown_remetric_of_timely (hr : r.table.get? id = some route)
    (htimely : (r.timedOut now route && route.refmetric.reachable) = false) :
    ∃ metric, (metric = route.metric ∨ metric = r.dueMetric route) ∧
      (r.remetric now id).shown Route.bare id = some { route.bare with metric } := by
  have hsame : r.retractIfTimedOut now id route = r := by simp [retractIfTimedOut, htimely]
  have hdue : r.currentMetric now route = r.dueMetric route := by
    have hdue := currentMetric_eq_dueMetric hr now (ρ := route) (by rw [hsame, hr])
    rwa [hsame] at hdue
  rw [remetric_of_get? hr, hsame, hdue, (alike_reconsider _ now id _ _).routes]
  rcases r.table_setMetric id (r.dueMetric route) with htable | htable
  · refine ⟨route.metric, .inl rfl, ?_⟩
    rw [shown, htable, hr]
    rfl
  · refine ⟨r.dueMetric route, .inr rfl, ?_⟩
    rw [shown, htable, RouteTable.get?_modify, if_pos rfl, hr]
    rfl

/-- A route that was refreshed just now did not time out. -/
theorem timedOut_of_refreshed (r : Router) (h : route.time = now) :
    r.timedOut now route = false := by
  rw [timedOut, h, Bool.eq_false_iff, ne_eq, Instant.expired_iff]
  omega

/-! ### Advertisements -/

/-- What an announcement comes to depends on the links and on the filter alone. -/
theorem SameBackground.pathMetric_eq (h : SameBackground r r') (origin : NodeAddress)
    (dest : Prefix) (neigh : NeighbourId) (interface : InterfaceId) (refmetric : Metric) :
    r'.pathMetric origin dest neigh interface refmetric =
      r.pathMetric origin dest neigh interface refmetric := by
  rw [pathMetric, pathMetric, h.neighbours, h.filter]

/-- If no fault strikes a feasible advertisement, the kernel does not refuse to change the metric. -/
theorem Unhindered.not_metricRefused (h : Unhindered r (r.update now adv true metric id old))
    (hr : r.table.get? id = some old) : ¬ MetricRefused r old true metric := by
  intro hrefused
  have hafter := (r.update_readied now adv true metric id old).2.1.asked
  rw [readied_of_feasible] at hafter
  obtain ⟨error, ha⟩ := Option.ne_none_iff_exists'.1 hrefused.refused
  have ha : r.kernel.answer (r.metricOp old metric) = some error := ha
  have hwritten := get?_written hr now adv true
  have hasked : Asked (r.ask (r.metricOp old metric)) (r.record now adv true metric id) := by
    refine asked_of_kernel_eq ?_
    rw [record, setMetric_of_refused hwritten hrefused.installed ha]
    rfl
  cases ha.symm.trans (h.answer (hasked.trans hafter))

/-- An advertisement of a route of the table is priced for the interface that leads to its
neighbour, but the route keeps the interface that is on record. -/
theorem pricedOver_update (h : Unhindered r (r.update now adv true metric id old))
    (hr : r.table.get? id = some old) (hplace : old.place = adv.place)
    (hlink : r.neighbours.interface? adv.neigh = some interface)
    (hm : metric = r.pathMetric adv.origin adv.dest adv.neigh interface adv.refmetric) :
    ∃ route, PricedOver (r.update now adv true metric id old) now interface id route ∧
      route.interface = old.interface := by
  obtain ⟨route, hroute, ⟨horigin, -, hrefmetric⟩, hrenewed, -⟩ :=
    renewed_update hr now adv true metric
  have hpriced : route.metric = metric := hrenewed.priced (h.not_metricRefused hr)
  have hfixed := (r.alike_update now adv true metric id old).routes id
  rw [shown_of_get? hroute, shown_of_get? hr] at hfixed
  simp only [Route.fixed, Option.some.injEq, Prod.mk.injEq] at hfixed
  obtain ⟨hdest, hneigh, -, hinterface⟩ := hfixed
  simp only [Route.place, Advertisement.place, Prod.mk.injEq] at hplace
  obtain ⟨⟨hbefore, -⟩, hafter, -⟩ := r.update_readied now adv true metric id old
  have hb : SameBackground r (r.update now adv true metric id old) :=
    (hbefore.sameBackground.trans (sameBackground_record _ now adv true metric id)).trans
      hafter.sameBackground
  refine ⟨route, ⟨?_, hroute, ?_, ?_⟩, hinterface⟩
  · rw [hb.neighbours, hneigh, hplace.2.1, hlink]
  · rw [hpriced, hb.pathMetric_eq, hm, horigin, hrefmetric, hdest, hneigh, hplace.1, hplace.2.1]
  · cases hreachable : route.refmetric.reachable with
    | false => rw [Bool.and_false]
    | true =>
        have hfinite : adv.refmetric ≠ Metric.infinity :=
          hrefmetric ▸ Metric.reachable_iff_ne_infinity.1 hreachable
        have htime := hrenewed.time
        rw [if_pos ⟨rfl, hfinite⟩] at htime
        rw [timedOut_of_refreshed _ htime, Bool.false_and]

/-- A new route has the interface on record that leads to its neighbour. -/
theorem pricedOver_adopt (hok : (r.adopt now adv interface metric).1 = .ok id)
    (hlink : r.neighbours.interface? adv.neigh = some interface)
    (hm : metric = r.pathMetric adv.origin adv.dest adv.neigh interface adv.refmetric) :
    ∃ route, PricedOver (r.adopt now adv interface metric).2 now interface id route ∧
      route.interface = interface := by
  obtain ⟨route, hroute, hbare, -⟩ := takenUp_adopt hok
  have hb := r.sameBackground_adopt now adv interface metric
  have hpriced : route.metric = metric := (congrArg Route.metric hbare :)
  have hneigh : route.neigh = adv.neigh := (congrArg Route.neigh hbare :)
  refine ⟨route, ⟨?_, hroute, ?_, ?_⟩, (congrArg Route.interface hbare :)⟩
  · rw [hb.neighbours, hneigh, hlink]
  · have horigin : route.origin = adv.origin := (congrArg Route.origin hbare :)
    have hdest : route.dest = adv.dest := (congrArg Route.dest hbare :)
    have hrefmetric : route.refmetric = adv.refmetric := (congrArg Route.refmetric hbare :)
    rw [hpriced, hb.pathMetric_eq, hm, horigin, hdest, hneigh, hrefmetric]
  · have htime : route.time = now := (congrArg Route.time hbare :)
    rw [timedOut_of_refreshed _ htime, Bool.false_and]

/-- An advertisement that is recorded without a fault is priced for the interface that leads to its
neighbour.  The route has that interface on record unless it is displaced. -/
theorem pricedOver_receive (h : Unhindered r (r.receive now adv).2)
    (hf : r.feasible now adv.origin adv.dest adv.seqno adv.refmetric = true)
    (hok : (r.receive now adv).1 = .ok id) :
    ∃ interface route, PricedOver (r.receive now adv).2 now interface id route ∧
      (route.interface = interface ↔ ¬ Displaced r adv id) := by
  obtain ⟨interface, sources, hlink, ⟨old, hm, heq⟩ | ⟨hm, heq⟩⟩ := receive_ok_cases hok
  · obtain ⟨hget, hplace⟩ := place_of_match? hm
    rw [hf] at heq
    rw [heq] at h ⊢
    obtain ⟨route, hroute, hinterface⟩ := pricedOver_update
      (r := { r with sources := sources }) h hget hplace hlink rfl
    refine ⟨interface, route, hroute, ?_⟩
    have hdisplaced : Displaced r adv id ↔ interface ≠ old.interface := by
      constructor
      · rintro ⟨old', hold, -, hmoved⟩
        obtain rfl := Option.some.inj (hget.symm.trans hold)
        exact fun hsame => hmoved (hsame ▸ hlink)
      · intro hmoved
        exact ⟨old, hget, hplace, fun hsame => hmoved (Option.some.inj (hlink.symm.trans hsame))⟩
    rw [hdisplaced, hinterface, ne_eq, not_not, eq_comm]
  · rw [heq] at hok ⊢
    obtain ⟨route, hroute, hinterface⟩ := pricedOver_adopt hok hlink rfl
    refine ⟨interface, route, hroute, iff_of_true hinterface ?_⟩
    rintro ⟨old, hold, hplace, -⟩
    exact place_ne_of_match?_eq_none hm id old hold hplace

/-- **A route follows its neighbour to another interface unless it was in the table before.**  Let no
fault strike a feasible advertisement that is not rejected.  Then the metric of its route is that
which is due over the interface that leads to the neighbour.  The route has that interface on record
exactly if it is not displaced, and if so, its metric does not change when it is recomputed right
afterwards.  What was announced does not change in either case.  If no fault strikes then, either,
the metric that is recomputed is that which is due over the interface on record. -/
theorem followed_unless_displaced (r : Router) (now : Instant) (adv : Advertisement)
    (id : RouteId) (hf : r.feasible now adv.origin adv.dest adv.seqno adv.refmetric = true)
    (hok : (r.receive now adv).1 = .ok id) (h : Unhindered r (r.receive now adv).2) :
    ∃ interface route again,
      (r.receive now adv).2.table.get? id = some route ∧
      (r.receive now adv).2.neighbours.interface? route.neigh = some interface ∧
      route.metric = (r.receive now adv).2.pathMetric route.origin route.dest route.neigh
        interface route.refmetric ∧
      (route.interface = interface ↔ ¬ Displaced r adv id) ∧
      ((r.receive now adv).2.remetric now id).table.get? id = some again ∧
      again.refmetric = route.refmetric ∧
      (¬ Displaced r adv id → again.metric = route.metric) ∧
      (Unhindered (r.receive now adv).2 ((r.receive now adv).2.remetric now id) →
        again.metric = (r.receive now adv).2.pathMetric route.origin route.dest route.neigh
          route.interface route.refmetric) := by
  obtain ⟨interface, route, hpriced, hfollows⟩ := pricedOver_receive h hf hok
  generalize (r.receive now adv).2 = s at *
  obtain ⟨metric, hmetric, hshown⟩ := shown_remetric_of_timely hpriced.get hpriced.timely
  obtain ⟨again, hagain, hbare⟩ := exists_get?_of_shown hshown
  have hrecomputed : again.metric = metric := (congrArg Route.metric hbare :)
  refine ⟨interface, route, again, hpriced.get, hpriced.link, hpriced.priced, hfollows, hagain,
    (congrArg Route.refmetric hbare :), fun hnot => ?_, fun hunhindered => ?_⟩
  · have hdue : s.dueMetric route = route.metric := by
      rw [dueMetric, hfollows.2 hnot, hpriced.priced]
    rcases hmetric with hsame | hdue'
    · rw [hrecomputed, hsame]
    · rw [hrecomputed, hdue', hdue]
  · have hdue := hunhindered.pricedAt_remetric again hagain
    rw [(s.remetric_allMoves now id).sameBackground.dueMetric] at hdue
    rw [hdue]
    exact (congrArg s.dueMetric hbare :)

/-- The advertisement of a route for `P` through `N1`. -/
def refresher : Advertisement := ⟨"O1", "P", 10, 104, "N1", "H1"⟩

/-- A router with the route, whose neighbour moved from interface 1 to interface 2 since.  The filter
penalizes what comes over interface 1. -/
def transplanted : Router :=
  { ((twoNeighbours []).perform 1000 (.receive refresher)).withLink "N1" ⟨2, 96⟩ with
    filter := { rules := [⟨none, none, none, some 1, 100⟩] } }

theorem reachable_transplanted : Reachable transplanted := by
  have hstart : Reachable (twoNeighbours []) := .surround (.start {}) rfl rfl
  exact .surround (hstart.operate 1000 (.receive refresher)) rfl rfl

theorem faultless_transplanted : transplanted.kernel.Faultless :=
  (unhindered_perform faultless_twoNeighbours 1000 (.receive refresher)).2

/-- The route is refreshed over interface 2 without the penalty, and keeps interface 1; when its
metric is recomputed, the penalty is added. -/
theorem metric_of_transplanted_route :
    Displaced transplanted refresher 0 ∧
      ((transplanted.receive 1001 refresher).2.table.get? 0).map Route.interface = some 1 ∧
      ((transplanted.receive 1001 refresher).2.table.get? 0).map Route.metric = some 200 ∧
      (((transplanted.receive 1001 refresher).2.remetric 1001 0).table.get? 0).map Route.metric =
        some 300 := by
  obtain ⟨hrefreshed, hfaultless⟩ :=
    unhindered_perform faultless_transplanted 1001 (.receive refresher)
  have hrecomputed := (unhindered_perform hfaultless 1001 (.remetric 0)).1
  obtain ⟨interface, route, again, hget, hlink, -, hfollows, hagain, -, -, hdue⟩ :=
    followed_unless_displaced transplanted 1001 refresher 0 (by decide +kernel) (by decide +kernel)
      hrefreshed
  have hroute : (transplanted.receive 1001 refresher).2.table.get? 0 = some
      ⟨"P", "O1", "N1", "H1", 1, 10, 104, 200, 1001, 1000, true⟩ := by decide +kernel
  obtain rfl := Option.some.inj (hroute.symm.trans hget)
  have hmoved : (transplanted.receive 1001 refresher).2.neighbours.interface? "N1" = some 2 := by
    decide +kernel
  obtain rfl := Option.some.inj (hmoved.symm.trans hlink)
  refine ⟨not_not.1 fun hnot => absurd (hfollows.2 hnot) (by decide), ?_, ?_, ?_⟩
  · rw [hroute, Option.map_some]
  · rw [hroute, Option.map_some]
  · rw [hagain, Option.map_some, hdue hrecomputed]
    decide +kernel

/-- In a router that comes about, a route may not follow its neighbour to another interface, and its
metric may change when it is recomputed right after it was refreshed. -/
theorem metric_forgets_move :
    (¬ ∀ (r : Router) (now : Instant) (adv : Advertisement) (id : RouteId), Reachable r →
      r.feasible now adv.origin adv.dest adv.seqno adv.refmetric = true →
      (r.receive now adv).1 = .ok id → Unhindered r (r.receive now adv).2 →
        (r.receive now adv).2.LinkedAt id) ∧
    ¬ ∀ (r : Router) (now : Instant) (adv : Advertisement) (id : RouteId), Reachable r →
      r.feasible now adv.origin adv.dest adv.seqno adv.refmetric = true →
      (r.receive now adv).1 = .ok id → Unhindered r (r.receive now adv).2 →
        ((r.receive now adv).2.remetric now id).shown Route.metric id =
          (r.receive now adv).2.shown Route.metric id := by
  have hunhindered := (unhindered_perform faultless_transplanted 1001 (.receive refresher)).1
  constructor
  · intro hclaim
    have hlinked := hclaim transplanted 1001 refresher 0 reachable_transplanted (by decide +kernel)
      (by decide +kernel) hunhindered
      ⟨"P", "O1", "N1", "H1", 1, 10, 104, 200, 1001, 1000, true⟩ (by decide +kernel)
    revert hlinked
    decide +kernel
  · intro hclaim
    have hsame := hclaim transplanted 1001 refresher 0 reachable_transplanted (by decide +kernel)
      (by decide +kernel) hunhindered
    revert hsame
    decide +kernel

end DistanceVector.Router
