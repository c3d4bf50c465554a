import DistanceVector.Proofs.Faultless

/-!
# The upkeep of the metrics

The metric of a route is written down, although it follows from what the neighbour announced, the
cost of the link and the penalty of the filter.  Two calls write it down, each in its own way: an
advertisement is recorded with the metric that it comes to, and the metric is recomputed when costs
change and when time passes.  Routes are recomputed one after the other, and what is found out about
one may install another on the way.

If every change of the costs is followed by the call that is meant for it, all metrics are right all
the time.

Main definitions:

* `Router.dueMetric`, `Router.PricedAt` — the metric that a route must have, and that it has it;
* `Router.Upkept` — every route has the metric that it must have, and the interface that leads to
  its neighbour;
* `Router.Reprices` — what is done to one route leaves that route with the metric that it must have,
  and rewrites no other;
* `Router.Maintained` — the states of a router whose routes are looked after.

Main results:

* `Router.Unhindered.pricedAt_remetric`, `Router.Unhindered.upkept_update` — the two calls that
  write a metric down;
* `Router.Reprices.foldl` — **one after the other, every route on the list gets the metric that it
  must have, and no other loses it**;
* `Router.Unhindered.upkept_remetricAll`, `Router.Unhindered.upkept_expire` — what makes all metrics
  right after the costs changed;
* `Router.Maintained.metric_eq` — **every metric is the sum that it must be, cut at infinity**.
-/

set_option relaxedAutoImplicit false
set_option autoImplicit false

namespace DistanceVector.Router

variable {now : Instant} {dest : Prefix} {r r' s : Router} {id : RouteId} {route old : Route}
  {adv : Advertisement} {neigh : NeighbourId} {interface : InterfaceId} {metric : Metric}
  {ids : List RouteId}

/-! ### The metric that a route must have -/

/-- The metric that a route must have: the announced metric, the cost of the link and the penalty of
the filter. -/
def dueMetric (r : Router) (route : Route) : Metric :=
  r.pathMetric route.origin route.dest route.neigh route.interface route.refmetric

/-- The route of that name, if there is one, has the metric that it must have. -/
def PricedAt (r : Router) (id : RouteId) : Prop :=
  ∀ route, r.table.get? id = some route → route.metric = r.dueMetric route

/-- The route of that name, if there is one, has the interface that leads to its neighbour. -/
def LinkedAt (r : Router) (id : RouteId) : Prop :=
  ∀ route, r.table.get? id = some route →
    r.neighbours.interface? route.neigh = some route.interface

/-- Every route has the metric that it must have and the interface that leads to its neighbour. -/
structure Upkept (r : Router) : Prop where
  priced : ∀ id, r.PricedAt id
  linked : ∀ id, r.LinkedAt id

/-- A retracted route must be infinitely far, whatever the link to its neighbour costs. -/
theorem dueMetric_of_retracted (r : Router) (h : route.refmetric = Metric.infinity) :
    r.dueMetric route = Metric.infinity := by
  rw [dueMetric, pathMetric, h, Metric.infinity_plus, Metric.infinity_plus]

theorem dueMetric_congr (hc : s.neighbours.cost route.neigh = r.neighbours.cost route.neigh)
    (hf : s.filter = r.filter) : s.dueMetric route = r.dueMetric route := by
  rw [dueMetric, dueMetric, pathMetric, pathMetric, hc, hf]

theorem SameBackground.dueMetric (h : SameBackground r r') (route : Route) :
    r'.dueMetric route = r.dueMetric route :=
  dueMetric_congr (by rw [h.neighbours]) h.filter

/-! ### Where no route is rewritten -/

theorem PricedAt.of_shown (h : r.PricedAt id) (hb : SameBackground r r')
    (hs : ∀ a, r'.shown Route.bare id = some a → r.shown Route.bare id = some a) :
    r'.PricedAt id := by
  intro route hr
  obtain ⟨ρ, hρ, hbare⟩ := exists_get?_of_shown (hs _ (shown_of_get? hr _))
  calc route.metric
      = ρ.metric := (congrArg Route.metric hbare :).symm
    _ = r.dueMetric ρ := h ρ hρ
    _ = r.dueMetric route := (congrArg r.dueMetric hbare :)
    _ = r'.dueMetric route := (hb.dueMetric route).symm

theorem LinkedAt.of_shown (h : r.LinkedAt id) (hn : r'.neighbours = r.neighbours)
    (hs : ∀ a, r'.shown Route.fixed id = some a → r.shown Route.fixed id = some a) :
    r'.LinkedAt id := by
  intro route hr
  obtain ⟨ρ, hρ, hfixed⟩ := exists_get?_of_shown (hs _ (shown_of_get? hr _))
  have hneigh : ρ.neigh = route.neigh := congrArg (·.2.1) hfixed
  have hinterface : ρ.interface = route.interface := congrArg (·.2.2.2) hfixed
  rw [hn, ← hneigh, h ρ hρ, hinterface]

/-- To remove routes and to choose which are installed changes no metric. -/
theorem Upkept.of_thinned (h : r.Upkept) (hb : SameBackground r r')
    (ht : Thinned Route.bare r r') : r'.Upkept :=
  ⟨fun id => (h.priced id).of_shown hb (ht.routes id),
    fun id => (h.linked id).of_shown hb.neighbours (ht.fixed.routes id)⟩

theorem Upkept.of_told (h : r.Upkept) (ht : Told dest r r') : r'.Upkept := by
  obtain ⟨_, _, _, rfl⟩ := ht
  exact ⟨h.priced, h.linked⟩

/-! ### One route -/

theorem Unhindered.pricedAt_setMetric (h : Unhindered r (r.setMetric id metric))
    (hm : ∀ route, r.table.get? id = some route → metric = r.dueMetric route) :
    (r.setMetric id metric).PricedAt id := by
  intro ρ hρ
  cases hr : r.table.get? id with
  | none =>
      rw [setMetric_of_absent hr, hr] at hρ
      cases hρ
  | some route =>
      rw [h.table_setMetric hr, RouteTable.get?_modify, if_pos rfl, hr, Option.map_some] at hρ
      obtain rfl := Option.some.inj hρ
      have hb := (r.setMetric_allMoves 0 id metric).sameBackground
      exact (hm route hr).trans (hb.dueMetric route).symm

/-- The metric that is recomputed is the one that the route must have, also if the route is
retracted for it. -/
theorem currentMetric_eq_dueMetric {ρ : Route} (hr : r.table.get? id = some route) (now : Instant)
    (hρ : (r.retractIfTimedOut now id route).table.get? id = some ρ) :
    r.currentMetric now route = (r.retractIfTimedOut now id route).dueMetric ρ := by
  cases hlapsed : r.timedOut now route && route.refmetric.reachable with
  | true =>
      rw [retractIfTimedOut, hlapsed, if_pos rfl, modifyRoute, RouteTable.get?_modify, if_pos rfl,
        hr, Option.map_some] at hρ
      obtain rfl := Option.some.inj hρ
      rw [Bool.and_eq_true] at hlapsed
      rw [currentMetric, if_pos hlapsed.1, dueMetric_of_retracted _ rfl]
  | false =>
      have hsame : r.retractIfTimedOut now id route = r := by simp [retractIfTimedOut, hlapsed]
      rw [hsame, hr] at hρ
      obtain rfl := Option.some.inj hρ
      rw [hsame, currentMetric]
      split
      · -- a route that timed out and is not retracted now was retracted before
        next ht =>
        rw [ht, Bool.true_and] at hlapsed
        rw [dueMetric_of_retracted r (Metric.not_reachable_iff.1 hlapsed)]
      · rfl

/-- A route whose metric is recomputed gets the metric that it must have. -/
theorem Unhindered.pricedAt_remetric (h : Unhindered r (r.remetric now id)) :
    (r.remetric now id).PricedAt id := by
  cases hr : r.table.get? id with
  | none =>
      intro ρ hρ
      rw [remetric_of_absent hr, hr] at hρ
      cases hρ
  | some route =>
      rw [remetric_of_get? hr] at h ⊢
      have hretract : Moves now route.dest r (r.retractIfTimedOut now id route) :=
        retractIfTimedOut_moves hr
      have hset := (setMetric_allMoves (r.retractIfTimedOut now id route) now id
        (r.currentMetric now route)).asked
      have hconclude := reconsider_allMoves ((r.retractIfTimedOut now id route).setMetric id
        (r.currentMetric now route)) now id route.origin route.metric
      obtain ⟨-, hrest⟩ := h.split hretract.asked (hset.trans hconclude.asked)
      obtain ⟨hunhindered, -⟩ := hrest.split hset hconclude.asked
      have hpriced := hunhindered.pricedAt_setMetric fun ρ hρ =>
        currentMetric_eq_dueMetric hr now hρ
      exact hpriced.of_shown hconclude.sameBackground
        ((alike_reconsider _ now id _ _).thinned.routes id)

/-- To recompute the metric of a route rewrites no other. -/
theorem shown_remetric_of_ne {other : RouteId} (r : Router) (now : Instant) (hne : other ≠ id) :
    (r.remetric now id).shown Route.bare other = r.shown Route.bare other := by
  cases hr : r.table.get? id with
  | none =>
      rw [remetric_of_absent hr]
  | some route =>
      obtain ⟨s, new, hw, -, hremetric⟩ := rewritten_remetric hr now
      rw [hremetric, (alike_reconsider s now id _ _).routes, shown, shown, hw.others other hne]

/-! ### One route after the other -/

/-- What is done to one route leaves that route with the metric that it must have, and rewrites no
other. -/
structure Reprices (now : Instant) (f : Router → RouteId → Router) : Prop where
  moves : ∀ r id, AllMoves now r (f r id)
  visited : ∀ {r id}, Unhindered r (f r id) → (f r id).PricedAt id
  others : ∀ {r id other}, other ≠ id → ∀ a, (f r id).shown Route.bare other = some a →
    r.shown Route.bare other = some a

theorem reprices_remetric (now : Instant) : Reprices now fun r id => r.remetric now id where
  moves r id := r.remetric_allMoves now id
  visited h := h.pricedAt_remetric
  others hne _ ha := (shown_remetric_of_ne _ now hne).symm.trans ha

/-- The periodic sweep removes a route, or recomputes its metric. -/
theorem reprices_expireRoute (now : Instant) : Reprices now fun r id => r.expireRoute now id where
  moves r id := r.expireRoute_allMoves now id
  visited {r id} h := by
    rcases r.expireRoute_cases now id with heq | heq
    · intro ρ hρ
      have hgone := r.shown_flush now id id
      rw [if_pos rfl, ← heq, shown_of_get? hρ] at hgone
      cases hgone
    · obtain ⟨htable, hkernel⟩ := refreshIfNeeded_silent (r.remetric now id) now id
      rw [heq] at h ⊢
      have hpriced := (h.of_kernel_eq hkernel.symm).pricedAt_remetric
      exact hpriced.of_shown (refreshIfNeeded_allMoves _ now id).sameBackground
        ((alike_of_table_eq htable).thinned.routes id)
  others {r id other} hne a ha := by
    rcases r.expireRoute_cases now id with heq | heq
    · exact (r.thinned_flush now id).routes other a (heq ▸ ha)
    · have hsame : Alike Route.bare (r.remetric now id) (r.expireRoute now id) := by
        rw [heq]
        exact alike_of_table_eq (refreshIfNeeded_silent _ now id).1
      rw [← shown_remetric_of_ne r now hne, ← hsame.routes, ha]

/-- **One after the other, every route on the list gets the metric that it must have, and no other
loses it.** -/
theorem Reprices.foldl {f : Router → RouteId → Router} (hf : Reprices now f)
    (h : Unhindered r (ids.foldl f r)) (hpriced : ∀ id, id ∉ ids → r.PricedAt id)
    (id : RouteId) : (ids.foldl f r).PricedAt id := by
  induction ids generalizing r with
  | nil => exact hpriced id List.not_mem_nil
  | cons visited ids ih =>
      obtain ⟨hfirst, hrest⟩ :=
        h.split (hf.moves r visited).asked (foldl_moves hf.moves ids _).asked
      refine ih hrest fun other hother => ?_
      by_cases hne : other = visited
      · subst hne
        exact hf.visited hfirst
      · exact (hpriced other (by simp [hne, hother])).of_shown
          (hf.moves r visited).sameBackground (hf.others hne)

/-! ### Advertisements -/

/-- A route of which an advertisement is recorded gets the metric that it must have from then on. -/
theorem Unhindered.upkept_record {feasible : Bool}
    (h : Unhindered r (r.record now adv feasible metric id)) (hk : r.Upkept)
    (hr : r.table.get? id = some route) (hd : route.dest = adv.dest)
    (hn : route.neigh = adv.neigh)
    (hm : metric = r.pathMetric adv.origin adv.dest adv.neigh route.interface adv.refmetric) :
    (r.record now adv feasible metric id).Upkept := by
  have hb := sameBackground_record r now adv feasible metric id
  refine ⟨fun other => ?_, fun other => (hk.linked other).of_shown hb.neighbours
    ((r.alike_record now adv feasible metric id).thinned.routes other)⟩
  by_cases hne : other = id
  · subst hne
    have hset : Unhindered (r.modifyRoute other (·.withAdvertisement now adv feasible))
        (r.record now adv feasible metric other) := h
    refine hset.pricedAt_setMetric fun ρ hρ => ?_
    rw [modifyRoute, RouteTable.get?_modify, if_pos rfl, hr, Option.map_some] at hρ
    obtain rfl := Option.some.inj hρ
    rw [hm, ← hd, ← hn]
    rfl
  · obtain ⟨new, hw⟩ := rewritten_record hr now adv feasible metric
    refine (hk.priced other).of_shown hb fun a ha => ?_
    rwa [shown, hw.others other hne] at ha

/-- To withdraw the route first and to look for another one later changes no metric. -/
theorem Unhindered.upkept_update {feasible : Bool}
    (h : Unhindered r (r.update now adv feasible metric id old)) (hk : r.Upkept)
    (hr : r.table.get? id = some old) (hd : old.dest = adv.dest) (hn : old.neigh = adv.neigh)
    (hm : metric = r.pathMetric adv.origin adv.dest adv.neigh old.interface adv.refmetric) :
    (r.update now adv feasible metric id old).Upkept := by
  obtain ⟨s, ⟨hbefore, hwithdrawn⟩, hafter, hconcluded⟩ :=
    r.update_parts now adv feasible metric id old
  have hset : AllMoves now (s.modifyRoute id (·.withAdvertisement now adv feasible))
      (s.record now adv feasible metric id) := setMetric_allMoves _ now id metric
  have hrecord : Asked s (s.record now adv feasible metric id) := hset.asked
  obtain ⟨-, hrest⟩ := h.split hbefore.asked (hrecord.trans hafter.asked)
  obtain ⟨hunhindered, -⟩ := hrest.split hrecord hafter.asked
  -- the route that is rewritten is the one of before, but for being installed
  obtain ⟨ρ, hρ, hbare⟩ :=
    exists_get?_of_shown ((hwithdrawn.routes id).trans (shown_of_get? hr Route.bare))
  have hdest : ρ.dest = old.dest := (congrArg Route.dest hbare :)
  have hneigh : ρ.neigh = old.neigh := (congrArg Route.neigh hbare :)
  have hinterface : ρ.interface = old.interface := (congrArg Route.interface hbare :)
  have hmetric : metric =
      s.pathMetric adv.origin adv.dest adv.neigh ρ.interface adv.refmetric := by
    rw [hm, hinterface, pathMetric, pathMetric, hbefore.sameBackground.neighbours,
      hbefore.sameBackground.filter]
  have hs := hk.of_thinned hbefore.sameBackground hwithdrawn.thinned
  have hrecorded := hunhindered.upkept_record hs hρ (hdest.trans hd) (hneigh.trans hn) hmetric
  exact hrecorded.of_thinned hafter.sameBackground hconcluded.thinned

/-- A new route enters the table with the metric that it must have. -/
theorem Upkept.insert? {table : RouteTable} (hk : r.Upkept)
    (ht : r.table.insert? route = some (id, table)) (hm : route.metric = r.dueMetric route)
    (hi : r.neighbours.interface? route.neigh = some route.interface) :
    Upkept { r with table := table } := by
  have hroutes : ∀ other ρ, table.get? other = some ρ →
      ρ = route ∨ r.table.get? other = some ρ := by
    intro other ρ hρ
    rw [(RouteTable.get?_of_insert? ht other).2] at hρ
    split at hρ
    · exact .inl (Option.some.inj hρ).symm
    · exact .inr hρ
  constructor
  · intro other ρ hρ
    rcases hroutes other ρ hρ with rfl | hold
    · exact hm
    · exact hk.priced other ρ hold
  · intro other ρ hρ
    rcases hroutes other ρ hρ with rfl | hold
    · exact hi
    · exact hk.linked other ρ hold

theorem Upkept.adopt (hk : r.Upkept) (hi : r.neighbours.interface? adv.neigh = some interface)
    (hm : metric = r.pathMetric adv.origin adv.dest adv.neigh interface adv.refmetric)
    (now : Instant) : (r.adopt now adv interface metric).2.Upkept := by
  have hbackground : SameBackground r (r.withRoom now) := (r.withRoom_allMoves now).sameBackground
  have hroom : (r.withRoom now).Upkept := hk.of_thinned hbackground (r.thinned_withRoom now)
  rcases r.adopt_cases now adv interface metric with heq | ⟨id, table, ht, heq⟩
  · rw [heq]
    exact hroom.of_told (told_reject _ adv _ "")
  · have hdue : metric =
        (r.withRoom now).dueMetric (.ofAdvertisement adv now interface metric) := by
      rw [hbackground.dueMetric, hm]
      rfl
    have hlinked : (r.withRoom now).neighbours.interface? adv.neigh = some interface := by
      rw [hbackground.neighbours, hi]
    have hinserted := hroom.insert? ht hdue hlinked
    rw [heq]
    exact hinserted.of_thinned (consider_allMoves _ now id).sameBackground
      (alike_consider _ now id).thinned

/-- To receive an advertisement leaves every route with the metric that it must have. -/
theorem Unhindered.upkept_receive (h : Unhindered r (r.receive now adv).2) (hk : r.Upkept) :
    (r.receive now adv).2.Upkept := by
  rcases r.receive_cases now adv with ⟨reason, heq⟩ | ⟨interface, sources, hscreen, -, heq⟩
  · rw [heq]
    exact hk.of_told (told_reject r adv reason "")
  · rw [heq] at h ⊢
    have hi := interface?_of_screen hscreen
    have hobserved : Upkept { r with sources := sources } := ⟨hk.priced, hk.linked⟩
    cases hm : r.table.match? adv.dest adv.neigh adv.nexthop with
    | some e =>
        obtain ⟨hget, hdest, hneigh, -⟩ := RouteTable.get?_of_match? hm
        -- the advertisement came over the interface of the route
        have hsame : e.2.interface = interface := by
          have hlink := hk.linked e.1 e.2 hget
          rw [hneigh, hi] at hlink
          exact (Option.some.inj hlink).symm
        rw [accept_of_match (r := { r with sources := sources }) hm] at h ⊢
        exact Unhindered.upkept_update (r := { r with sources := sources }) h hobserved hget hdest
          hneigh (by rw [hsame])
    | none =>
        rcases accept_of_vacant (r := { r with sources := sources }) hm now interface with
          hunfeasible | hretraction | hadopt
        · rw [hunfeasible]
          exact hobserved.of_told ((told_requestFeasible _ _ adv.origin adv.dest).trans
            (told_reject _ adv _ adv.dest))
        · rw [hretraction]
          exact hobserved.of_told (told_reject _ adv _ "")
        · rw [hadopt]
          exact hobserved.adopt hi rfl now

/-! ### Changes of the costs -/

/-- Between the two states nothing happened to the routes and to the filter, and of the links at
most those to some neighbours changed. -/
structure Relinked (p : NeighbourId → Prop) (r s : Router) : Prop where
  table : s.table = r.table
  filter : s.filter = r.filter
  links : ∀ neigh, ¬ p neigh → s.neighbours.get? neigh = r.neighbours.get? neigh

/-- No neighbour is at another interface than before. -/
def SameInterfaces (r s : Router) : Prop :=
  ∀ neigh, s.neighbours.interface? neigh = r.neighbours.interface? neigh

variable {p : NeighbourId → Prop}

/-- A route is not concerned by changes of other links. -/
theorem Relinked.kept (hs : Relinked p r s) (hk : r.Upkept) (id : RouteId)
    (hp : ∀ route, r.table.get? id = some route → ¬ p route.neigh) :
    s.PricedAt id ∧ s.LinkedAt id := by
  constructor
  · intro route hr
    rw [hs.table] at hr
    have hcost : s.neighbours.cost route.neigh = r.neighbours.cost route.neigh := by
      rw [NeighbourTable.cost, NeighbourTable.cost, hs.links _ (hp route hr)]
    exact (hk.priced id route hr).trans (dueMetric_congr hcost hs.filter).symm
  · intro route hr
    rw [hs.table] at hr
    rw [NeighbourTable.interface?, hs.links _ (hp route hr)]
    exact hk.linked id route hr

theorem SameInterfaces.linkedAt (hi : SameInterfaces r s) (ht : s.table = r.table)
    (hl : r.LinkedAt id) : s.LinkedAt id := by
  intro route hr
  rw [ht] at hr
  rw [hi, hl route hr]

/-- **To recompute the metrics of all routes whose costs changed makes all metrics right**, also if
routes are installed on the way. -/
theorem Unhindered.upkept_remetricAll (h : Unhindered s (s.remetricAll now ids))
    (hs : Relinked p r s) (hi : SameInterfaces r s) (hk : r.Upkept)
    (hids : ∀ id route, r.table.get? id = some route → p route.neigh → id ∈ ids) :
    (s.remetricAll now ids).Upkept := by
  have hmoves : AllMoves now s (s.remetricAll now ids) :=
    foldl_moves (fun r id => r.remetric_allMoves now id) ids s
  refine ⟨(reprices_remetric now).foldl h fun id hid => ?_, fun id => ?_⟩
  · exact (hs.kept hk id fun route hr hp => hid (hids id route hr hp)).1
  · exact (hi.linkedAt hs.table (hk.linked id)).of_shown hmoves.sameBackground.neighbours
      ((s.thinned_remetricAll now ids).routes id)

/-- The periodic sweep makes all metrics right, whatever they were. -/
theorem Unhindered.pricedAt_expire (h : Unhindered r (r.expire now)) (id : RouteId) :
    (r.expire now).PricedAt id := by
  refine (reprices_expireRoute now).foldl h.sweep (fun id hid route hr => ?_) id
  exact absurd (RouteTable.mem_ids_iff.2 ⟨route, hr⟩) hid

theorem Unhindered.upkept_expire (h : Unhindered r (r.expire now)) (hl : ∀ id, r.LinkedAt id) :
    (r.expire now).Upkept :=
  ⟨h.pricedAt_expire, fun id => (hl id).of_shown (r.expire_allMoves now).sameBackground.neighbours
    ((r.thinned_expire now).routes id)⟩

theorem shown_flushAll (r : Router) (now : Instant) (ids : List RouteId) (id : RouteId) :
    (r.flushAll now ids).shown Route.bare id =
      if id ∈ ids then none else r.shown Route.bare id := by
  induction ids generalizing r with
  | nil => rfl
  | cons flushed ids ih =>
      rw [flushAll, List.foldl_cons, ← flushAll, ih, shown_flush]
      by_cases hid : id = flushed
      · simp [hid]
      · simp [hid]

/-- To flush the routes through a neighbour leaves none whose metric depends on the link to it. -/
theorem Relinked.upkept_flushNeighbour (hs : Relinked (· = neigh) r s) (hk : r.Upkept)
    (now : Instant) : (s.flushNeighbour now neigh).Upkept := by
  have hb := (s.flushNeighbour_allMoves now neigh).sameBackground
  have hthin := s.thinned_flushNeighbour now neigh
  have hkept : ∀ id, (s.flushNeighbour now neigh).PricedAt id ∧
      (s.flushNeighbour now neigh).LinkedAt id := by
    intro id
    by_cases hid : id ∈ s.table.idsThrough neigh
    · have hgone : ∀ route, (s.flushNeighbour now neigh).table.get? id ≠ some route := by
        intro route hr
        have hnone := s.shown_flushAll now (s.table.idsThrough neigh) id
        rw [if_pos hid] at hnone
        cases hnone.symm.trans (shown_of_get? hr Route.bare)
      exact ⟨fun route hr => absurd hr (hgone route), fun route hr => absurd hr (hgone route)⟩
    · obtain ⟨hpriced, hlinked⟩ := hs.kept hk id fun route hr hn =>
        hid (RouteTable.mem_idsWhere_iff.2 ⟨route, hs.table ▸ hr, by simpa using hn⟩)
      exact ⟨hpriced.of_shown hb (hthin.routes id),
        hlinked.of_shown hb.neighbours (hthin.fixed.routes id)⟩
  exact ⟨fun id => (hkept id).1, fun id => (hkept id).2⟩

/-! ### Runs -/

theorem Unhindered.upkept_perform {op : Operation} (h : Unhindered r (r.perform now op))
    (hop : ∀ id metric, op ≠ .setMetric id metric) (hk : r.Upkept) :
    (r.perform now op).Upkept := by
  have hquiet : Relinked (fun _ => False) r r := ⟨rfl, rfl, fun _ _ => rfl⟩
  have hremetric : ∀ ids, Unhindered r (r.remetricAll now ids) → (r.remetricAll now ids).Upkept :=
    fun ids h => h.upkept_remetricAll hquiet (fun _ => rfl) hk fun _ _ _ hp => hp.elim
  cases op with
  | receive adv => exact h.upkept_receive hk
  | flush id =>
      exact hk.of_thinned (r.flush_allMoves now id).sameBackground (r.thinned_flush now id)
  | flushNeighbour neigh =>
      exact hk.of_thinned (r.flushNeighbour_allMoves now neigh).sameBackground
        (r.thinned_flushNeighbour now neigh)
  | remetric id => exact hremetric [id] h
  | remetricNeighbour neigh => exact hremetric _ h
  | remetricInterface interface => exact hremetric _ h
  | expire => exact h.upkept_expire hk.linked
  | makeRoom =>
      exact hk.of_thinned (r.makeRoom_allMoves now).sameBackground (r.thinned_makeRoom now)
  | consider id =>
      exact hk.of_thinned (r.consider_allMoves now id).sameBackground
        (r.alike_consider now id).thinned
  | replaceLost origin dest oldMetric =>
      exact hk.of_thinned (r.replaceLost_moves now origin dest oldMetric).sameBackground
        (r.alike_replaceLost now origin dest oldMetric).thinned
  | reconsider id oldOrigin oldMetric =>
      exact hk.of_thinned (r.reconsider_allMoves now id oldOrigin oldMetric).sameBackground
        (r.alike_reconsider now id oldOrigin oldMetric).thinned
  | uninstall id =>
      exact hk.of_thinned (r.sameBackground_uninstall id) (r.alike_uninstall id).thinned
  | setMetric id metric => exact absurd rfl (hop id metric)
  | retryLeftovers =>
      exact hk.of_thinned (r.retryLeftovers_allMoves now).sameBackground
        (alike_of_table_eq r.table_retryLeftovers).thinned

/-- **The states of a router whose routes are looked after**: every change of a cost is followed by
the call that is meant for it, and no neighbour moves to another interface while there are routes
through it.  Everything that the metrics do not depend on may change at any time. -/
inductive Maintained : Router → Prop
  /-- At first there are no routes. -/
  | start {r : Router} (h : ∀ id, r.table.get? id = none) : Maintained r
  /-- Any operation, but for setting a metric by hand. -/
  | operate {r : Router} (h : Maintained r) (now : Instant) (op : Operation)
      (hop : ∀ id metric, op ≠ .setMetric id metric) (hu : Unhindered r (r.perform now op)) :
      Maintained (r.perform now op)
  /-- Links may change if there are no routes through them. -/
  | surround {r s : Router} (h : Maintained r)
      (hs : Relinked (fun neigh => ∀ id route, r.table.get? id = some route →
        route.neigh ≠ neigh) r s) : Maintained s
  /-- The cost of a link changes. -/
  | recost {r s : Router} {neigh : NeighbourId} (h : Maintained r)
      (hs : Relinked (· = neigh) r s) (hi : SameInterfaces r s) (now : Instant)
      (hu : Unhindered s (s.remetricNeighbour now neigh)) :
      Maintained (s.remetricNeighbour now neigh)
  /-- The costs of links over one interface change. -/
  | recostInterface {r s : Router} {interface : InterfaceId} (h : Maintained r)
      (hs : Relinked (fun neigh => r.neighbours.interface? neigh = some interface) r s)
      (hi : SameInterfaces r s) (now : Instant)
      (hu : Unhindered s (s.remetricInterface now interface)) :
      Maintained (s.remetricInterface now interface)
  /-- A neighbour goes away. -/
  | unlink {r s : Router} {neigh : NeighbourId} (h : Maintained r)
      (hs : Relinked (· = neigh) r s) (now : Instant) : Maintained (s.flushNeighbour now neigh)
  /-- The filter changes. -/
  | refilter {r s : Router} (h : Maintained r) (ht : s.table = r.table)
      (hn : s.neighbours = r.neighbours) (now : Instant) (hu : Unhindered s (s.expire now)) :
      Maintained (s.expire now)

theorem Maintained.upkept (h : Maintained r) : r.Upkept := by
  induction h with
  | start h =>
      exact ⟨fun id _ hr => (nomatch (h id).symm.trans hr),
        fun id _ hr => (nomatch (h id).symm.trans hr)⟩
  | operate _ now op hop hu ih => exact hu.upkept_perform hop ih
  | surround _ hs ih =>
      have hkept := fun id => hs.kept ih id fun route hr hp => hp id route hr rfl
      exact ⟨fun id => (hkept id).1, fun id => (hkept id).2⟩
  | recost _ hs hi now hu ih =>
      refine hu.upkept_remetricAll hs hi ih fun id route hr hp => ?_
      exact RouteTable.mem_idsWhere_iff.2 ⟨route, hs.table ▸ hr, by simpa using hp⟩
  | recostInterface _ hs hi now hu ih =>
      refine hu.upkept_remetricAll hs hi ih fun id route hr hp => ?_
      -- the routes through the neighbours of an interface are those over it
      have hover := Option.some.inj ((ih.linked id route hr).symm.trans hp)
      exact RouteTable.mem_idsWhere_iff.2 ⟨route, hs.table ▸ hr, by simpa using hover⟩
  | unlink _ hs now ih => exact hs.upkept_flushNeighbour ih now
  | @refilter r s _ ht hn now hu ih =>
      have hi : SameInterfaces r s := fun neigh => by rw [hn]
      exact hu.upkept_expire fun id => hi.linkedAt ht (ih.linked id)

/-- **Every metric is the sum that it must be.**  In a router that started out without routes and
whose routes are looked after, the metric of every route is the announced metric, the cost of the
link to its neighbour and the penalty of the filter, cut at infinity. -/
theorem Maintained.metric_eq (h : Maintained r) (hr : r.table.get? id = some route) :
    route.metric.toNat = min (route.refmetric.toNat + (r.neighbours.cost route.neigh).toNat +
      (r.filter.penalty route.origin route.dest route.neigh route.interface).toNat) 65535 := by
  rw [h.upkept.priced id route hr, dueMetric, pathMetric, Metric.toNat_plus, Metric.toNat_plus]
  omega

/-- The router with another link to a neighbour. -/
def withLink (r : Router) (neigh : NeighbourId) (link : Neighbour) : Router :=
  { r with neighbours := r.neighbours.insert neigh link }

theorem kernel_withLink (r : Router) (neigh : NeighbourId) (link : Neighbour) :
    (r.withLink neigh link).kernel = r.kernel := rfl

theorem relinked_withLink (r : Router) (neigh : NeighbourId) (link : Neighbour) :
    Relinked (· = neigh) r (r.withLink neigh link) := by
  refine ⟨rfl, rfl, fun other hne => ?_⟩
  rw [withLink, OrderedMap.get?_insert, if_neg hne]

theorem sameInterfaces_withLink {link : Neighbour}
    (h : r.neighbours.interface? neigh = some link.interface) :
    SameInterfaces r (r.withLink neigh link) := by
  intro other
  rw [withLink, NeighbourTable.interface?, OrderedMap.get?_insert]
  split
  · next heq => rw [heq, h, Option.map_some]
  · rfl

theorem maintained_rivals : Maintained rivals := by
  have hstart : Maintained (twoNeighbours []) := .start fun _ => rfl
  have hfirst := unhindered_perform faultless_twoNeighbours 1000
    (.receive ⟨"O1", "P", 10, 104, "N1", "H1"⟩)
  have hsecond := unhindered_perform hfirst.2 1000 (.receive ⟨"O2", "P", 10, 204, "N2", "H2"⟩)
  exact (hstart.operate 1000 _ (by simp) hfirst.1).operate 1000 _ (by simp) hsecond.1

/-- `rivals` after the link to the neighbour of the installed route got worse. -/
def outpriced : Router := (rivals.withLink "N1" ⟨1, 1000⟩).remetricNeighbour 1001 "N1"

/-- When the link gets worse, the other route is installed, and the route that was has a new
metric. -/
theorem metric_of_outpriced_route :
    outpriced.isInstalled 1 = true ∧
      (outpriced.table.get? 0).map Route.metric = some 1104 ∧
      (1104 : Metric).toNat = min ((104 : Metric).toNat + (outpriced.neighbours.cost "N1").toNat +
        (outpriced.filter.penalty "O1" "P" "N1" 1).toNat) 65535 := by
  have hroute : outpriced.table.get? 0 = some
      ⟨"P", "O1", "N1", "H1", 1, 10, 104, 1104, 1000, 1000, false⟩ := by decide +kernel
  have hinstalled : outpriced.isInstalled 1 = true := by decide +kernel
  have hinterface : rivals.neighbours.interface? "N1" = some 1 := by decide +kernel
  have hfaultless : (rivals.withLink "N1" ⟨1, 1000⟩).kernel.Faultless := by
    rw [kernel_withLink]
    exact faultless_rivals
  have hunhindered : Unhindered (rivals.withLink "N1" ⟨1, 1000⟩) outpriced :=
    (unhindered_perform hfaultless 1001 (.remetricNeighbour "N1")).1
  have hmaintained : Maintained outpriced :=
    maintained_rivals.recost (relinked_withLink rivals "N1" ⟨1, 1000⟩)
      (sameInterfaces_withLink hinterface) 1001 hunhindered
  refine ⟨hinstalled, ?_, hmaintained.metric_eq hroute⟩
  rw [hroute, Option.map_some]

end DistanceVector.Router
