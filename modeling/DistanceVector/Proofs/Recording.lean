import DistanceVector.Proofs.Repetition

/-!
# What is on record after an advertisement

An advertisement that is not rejected leaves exactly one route in its place, and what that route says
is what was advertised.  Only a feasible advertisement that is no retraction refreshes a route.  The
metric is the sum that it must be, unless the route was installed and the kernel refused to change
its metric; then it stays.  What follows an advertisement may install and withdraw routes, but it
rewrites none.

No other route is touched, unless room had to be made; but a new route takes the next name even if
it is that of another route, and then that one is gone.

Main definitions:

* `Advertisement.place` — where the route leads that is advertised, and through whom;
* `Router.MetricRefused` — the kernel refused to change the metric of a route that was installed;
* `Router.Renewed`, `Router.TakenUp` — what an advertisement leaves of a route that is in the table,
  and what it makes of one that is not.

Main results:

* `Router.get?_record` — what becomes of the route that an advertisement is about;
* `Router.renewed_update`, `Router.takenUp_adopt` — the two ways to take an advertisement down, and
  `Router.receive_ok_cases` — one of them is taken if it is not rejected;
* `Router.recorded_receive` — **an advertisement is recorded faithfully, and no other route is
  touched**;
* `Router.new_route_overwrites` — but one that has the name of the new route.
-/

set_option relaxedAutoImplicit false
set_option autoImplicit false

namespace DistanceVector

/-- Where the route leads that is advertised, and through whom. -/
def Advertisement.place (adv : Advertisement) : Prefix × NeighbourId × NextHop :=
  (adv.dest, adv.neigh, adv.nexthop)

theorem Route.through_iff_place {ρ : Route} {adv : Advertisement} :
    ρ.through adv.dest adv.neigh adv.nexthop = true ↔ ρ.place = adv.place := by
  simp only [Route.through, Bool.and_eq_true, beq_iff_eq, Route.place, Advertisement.place,
    Prod.mk.injEq]
  tauto

namespace Router

variable {now : Instant} {dest : Prefix} {r r' s : Router} {id : RouteId} {route old ρ σ : Route}
  {adv : Advertisement} {interface : InterfaceId} {feasible : Bool} {metric : Metric}

/-- The kernel when the metric of the installed route `old` is to change.  If the advertisement is
unfeasible, it was asked to flush the entry of the route before. -/
def kernelToRemetric (r : Router) (old : Route) (feasible : Bool) : Kernel :=
  if feasible then r.kernel else r.kernel.after (.flush (r.entryOf old))

/-- The route is installed when its metric is to change: if the advertisement is unfeasible, the
kernel refused to flush its entry.  And it refuses to change the metric. -/
structure MetricRefused (r : Router) (old : Route) (feasible : Bool) (metric : Metric) : Prop where
  installed : old.installed = true
  kept : feasible = false → ∃ error, error ≠ .notFound ∧
    r.kernel.answer (.flush (r.entryOf old)) = some error
  refused : (r.kernelToRemetric old feasible).answer (r.metricOp old metric) ≠ none

/-- What an advertisement leaves of the route `old` of the table. -/
structure Renewed (r : Router) (now : Instant) (adv : Advertisement) (feasible : Bool)
    (metric : Metric) (old route : Route) : Prop where
  /-- If the kernel refuses to change the metric of the installed route, it stays. -/
  stuck : MetricRefused r old feasible metric → route.metric = old.metric
  priced : ¬ MetricRefused r old feasible metric → route.metric = metric
  /-- Only a feasible advertisement that is no retraction refreshes the route. -/
  time : route.time = if feasible = true ∧ adv.refmetric ≠ .infinity then now else old.time
  /-- The route came into reach if it was retracted before. -/
  origtime : route.origtime =
    if feasible = true ∧ adv.refmetric ≠ .infinity ∧ old.refmetric = .infinity then now
    else old.origtime

/-- What an advertisement makes of a route that is not in the table. -/
structure TakenUp (r : Router) (now : Instant) (metric : Metric) (id : RouteId) (route : Route) :
    Prop where
  name : id = r.table.nextId
  priced : route.metric = metric
  time : route.time = now
  origtime : route.origtime = now

/-- The route of that name is the only one in the place of the advertisement, and says what was
advertised. -/
structure Says (r : Router) (adv : Advertisement) (id : RouteId) (route : Route) : Prop where
  get : r.table.get? id = some route
  only : ∀ other ρ, r.table.get? other = some ρ → (ρ.place = adv.place ↔ other = id)
  origin : route.origin = adv.origin
  seqno : route.seqno = adv.seqno
  refmetric : route.refmetric = adv.refmetric

/-- All routes of other names are the same in both states, but for whether they are installed. -/
def SameOthers (r r' : Router) (id : RouteId) : Prop :=
  ∀ other, other ≠ id → r'.shown Route.bare other = r.shown Route.bare other

/-! ### The metric -/

/-- The metric of an announcement is the sum of its parts, cut at infinity. -/
theorem toNat_pathMetric (r : Router) (origin : NodeAddress) (dest : Prefix) (neigh : NeighbourId)
    (interface : InterfaceId) (refmetric : Metric) :
    (r.pathMetric origin dest neigh interface refmetric).toNat =
      min (refmetric.toNat + (r.neighbours.cost neigh).toNat +
        (r.filter.penalty origin dest neigh interface).toNat) 65535 := by
  rw [pathMetric, Metric.toNat_plus, Metric.toNat_plus]
  omega

/-! ### Routes that are in the table -/

/-- What becomes of the route that an advertisement is about. -/
theorem get?_record (hr : r.table.get? id = some old) (now : Instant) (adv : Advertisement)
    (feasible : Bool) (metric : Metric) :
    ∃ route, (r.record now adv feasible metric id).table.get? id = some route ∧
      route = { old.withAdvertisement now adv feasible with metric := route.metric } ∧
      (old.installed = true ∧ r.kernel.answer (r.metricOp old metric) ≠ none →
        route.metric = old.metric) ∧
      (¬ (old.installed = true ∧ r.kernel.answer (r.metricOp old metric) ≠ none) →
        route.metric = metric) := by
  have hwritten := get?_written hr now adv feasible
  generalize hs : r.modifyRoute id (·.withAdvertisement now adv feasible) = s at hwritten
  have hop : s.metricOp (old.withAdvertisement now adv feasible) metric = r.metricOp old metric :=
    hs ▸ rfl
  have hkernel : s.kernel = r.kernel := hs ▸ rfl
  have hrecord : r.record now adv feasible metric id = s.setMetric id metric := hs ▸ rfl
  have hchanged : (s.modifyRoute id ({ · with metric })).table.get? id =
      some { old.withAdvertisement now adv feasible with metric } := by
    rw [modifyRoute, RouteTable.get?_modify, if_pos rfl, hwritten, Option.map_some]
  rw [hrecord]
  cases hi : old.installed with
  | false =>
      rw [setMetric_of_not_installed hwritten hi]
      exact ⟨_, hchanged, rfl, fun h => absurd h.1 Bool.false_ne_true, fun _ => rfl⟩
  | true =>
      cases ha : r.kernel.answer (r.metricOp old metric) with
      | none =>
          rw [setMetric_of_accepted hwritten hi (by rw [hop, hkernel, ha])]
          exact ⟨_, hchanged, rfl, fun h => absurd rfl h.2, fun _ => rfl⟩
      | some error =>
          rw [setMetric_of_refused hwritten hi (by rw [hop, hkernel, ha])]
          exact ⟨_, hwritten, rfl, fun _ => rfl, fun h => absurd ⟨rfl, Option.some_ne_none error⟩ h⟩

/-- Before an advertisement is taken down, its route is as it was but for whether it is installed.
It is if the kernel did not let it be withdrawn. -/
theorem get?_readied (hr : r.table.get? id = some old) (adv : Advertisement) (feasible : Bool) :
    ∃ σ, (r.readied adv feasible id old).table.get? id = some σ ∧ σ.bare = old.bare ∧
      (r.readied adv feasible id old).params = r.params ∧
      (σ.installed = true ↔ old.installed = true ∧ (feasible = false → ∃ error,
        error ≠ .notFound ∧ r.kernel.answer (.flush (r.entryOf old)) = some error)) ∧
      (σ.installed = true →
        (r.readied adv feasible id old).kernel = r.kernelToRemetric old feasible) := by
  cases hi : old.installed with
  | false =>
      rw [readied_of_not_installed hi]
      refine ⟨old, hr, rfl, rfl, ?_, fun h => ?_⟩
      · simp [hi]
      · rw [hi] at h
        cases h
  | true =>
      cases feasible with
      | true => exact ⟨old, hr, rfl, rfl, by simp [hi], fun _ => rfl⟩
      | false =>
          rw [readied_of_installed hi]
          rcases uninstall_cases (r := r.report (.unfeasible old.origin adv)) hr hi with
            ⟨ha, heq⟩ | ⟨error, ha, hne, heq⟩
          · have ha : r.kernel.answer (.flush (r.entryOf old)) = none ∨
                r.kernel.answer (.flush (r.entryOf old)) = some .notFound := ha
            have hget := get?_uninstall_of_accepted
              (r := r.report (.unfeasible old.origin adv)) hr hi ha
            refine ⟨{ old with installed := false }, hget, rfl, by rw [heq]; rfl, ?_, nofun⟩
            refine iff_of_false Bool.false_ne_true fun h => ?_
            obtain ⟨error, hne, he⟩ := h.2 rfl
            rcases ha with ha | ha
            · cases he.symm.trans ha
            · exact hne (Option.some.inj (he.symm.trans ha))
          · refine ⟨old, ?_, rfl, by rw [heq]; rfl, ?_, fun _ => by rw [heq]; rfl⟩
            · rw [heq]
              exact hr
            · simp only [hi, true_and, true_iff]
              exact fun _ => ⟨error, hne, ha⟩

/-- When an advertisement is about to be taken down, its route is installed and the kernel is going
to refuse the new metric exactly if it is refused in the sense of `MetricRefused`. -/
theorem metricRefused_iff_readied (hr : r.table.get? id = some old) (adv : Advertisement)
    (feasible : Bool) (metric : Metric) :
    ∃ σ, (r.readied adv feasible id old).table.get? id = some σ ∧
      σ = { old with installed := σ.installed } ∧
      (σ.installed = true ∧ (r.readied adv feasible id old).kernel.answer
          ((r.readied adv feasible id old).metricOp σ metric) ≠ none ↔
        MetricRefused r old feasible metric) := by
  obtain ⟨σ, hσ, hbare, hparams, hinstalled, hkernel⟩ := get?_readied hr adv feasible
  generalize r.readied adv feasible id old = s at *
  have hσold : σ = { old with installed := σ.installed } :=
    congrArg (fun bare : Route => { bare with installed := σ.installed }) hbare
  have hop : s.metricOp σ metric = r.metricOp old metric := by
    rw [hσold]
    simp only [metricOp, entryOf, entryWith, hparams]
  refine ⟨σ, hσ, hσold, ?_⟩
  rw [hop]
  constructor
  · rintro ⟨hi, ha⟩
    obtain ⟨hold, hkept⟩ := hinstalled.1 hi
    exact ⟨hold, hkept, hkernel hi ▸ ha⟩
  · rintro ⟨hold, hkept, ha⟩
    have hi := hinstalled.2 ⟨hold, hkept⟩
    exact ⟨hi, hkernel hi ▸ ha⟩

/-- To record an advertisement of one route leaves the others alone. -/
theorem get?_record_of_ne {other : RouteId} (hne : other ≠ id) :
    (r.record now adv feasible metric id).table.get? other = r.table.get? other := by
  have hwritten : (r.modifyRoute id (·.withAdvertisement now adv feasible)).table.get? other =
      r.table.get? other := by rw [modifyRoute, RouteTable.get?_modify, if_neg hne]
  rcases (r.modifyRoute id (·.withAdvertisement now adv feasible)).table_setMetric id metric with
    htable | htable
  · rw [record, htable, hwritten]
  · rw [record, htable, RouteTable.get?_modify, if_neg hne, hwritten]

theorem SameOthers.of_alike (h : SameOthers r s id) (ha : Alike Route.bare s r') :
    SameOthers r r' id := fun other hne => (ha.routes other).trans (h other hne)

/-- The kernel is asked the same whether or not the source of the advertisement is on record. -/
theorem Renewed.of_observed {sources : SourceTable}
    (h : Renewed { r with sources := sources } now adv feasible metric old route) :
    Renewed r now adv feasible metric old route :=
  ⟨fun hrefused => h.stuck ⟨hrefused.installed, hrefused.kept, hrefused.refused⟩,
    fun hnot => h.priced fun hrefused =>
      hnot ⟨hrefused.installed, hrefused.kept, hrefused.refused⟩, h.time, h.origtime⟩

/-- An advertisement of a route of the table is recorded in that route, and the others stay. -/
theorem renewed_update (hr : r.table.get? id = some old) (now : Instant) (adv : Advertisement)
    (feasible : Bool) (metric : Metric) :
    ∃ route, (r.update now adv feasible metric id old).table.get? id = some route ∧
      (route.origin = adv.origin ∧ route.seqno = adv.seqno ∧ route.refmetric = adv.refmetric) ∧
      Renewed r now adv feasible metric old route ∧
      SameOthers r (r.update now adv feasible metric id old) id := by
  obtain ⟨⟨-, hbefore⟩, -, hafter⟩ := r.update_readied now adv feasible metric id old
  obtain ⟨σ, hσ, hσold, hrefused⟩ := metricRefused_iff_readied hr adv feasible metric
  obtain ⟨τ, hτ, hrecorded, hstuck, hpriced⟩ := get?_record hσ now adv feasible metric
  rw [hrefused] at hstuck hpriced
  obtain ⟨route, hroute, hsame⟩ :=
    exists_get?_of_shown ((hafter.routes id).trans (shown_of_get? hτ Route.bare))
  have hfields : route.bare =
      { old.withAdvertisement now adv feasible with metric := τ.metric, installed := false } := by
    rw [hsame, hrecorded, hσold]
    rfl
  have hmetric : route.metric = τ.metric := (congrArg Route.metric hsame :)
  refine ⟨route, hroute, ⟨(congrArg Route.origin hfields :), (congrArg Route.seqno hfields :),
    (congrArg Route.refmetric hfields :)⟩, ⟨fun h => ?_, fun h => ?_, ?_, ?_⟩, ?_⟩
  · rw [hmetric, hstuck h, hσold]
  · rw [hmetric, hpriced h]
  · refine (congrArg Route.time hfields :).trans ?_
    simp only [Route.withAdvertisement, Bool.and_eq_true, Metric.reachable_iff_ne_infinity]
  · refine (congrArg Route.origtime hfields :).trans ?_
    simp only [Route.withAdvertisement, Bool.and_eq_true, Metric.reachable_iff_ne_infinity,
      Bool.not_eq_true', Metric.not_reachable_iff, and_assoc]
  · intro other hne
    rw [hafter.routes, ← hbefore.routes, shown, shown, get?_record_of_ne hne]

/-! ### Routes that are not -/

/-- A new route is as it was advertised.  The others stay unless room had to be made for it. -/
theorem takenUp_adopt (hok : (r.adopt now adv interface metric).1 = .ok id) :
    ∃ route, (r.adopt now adv interface metric).2.table.get? id = some route ∧
      route.bare = .ofAdvertisement adv now interface metric ∧ id = r.table.nextId ∧
      SameOthers (r.withRoom now) (r.adopt now adv interface metric).2 id := by
  obtain ⟨table, ht, hadopt⟩ := insert?_of_adopt hok
  rw [hadopt]
  have halike := alike_consider { r.withRoom now with table := table } now id
  obtain ⟨hid, hget⟩ := RouteTable.get?_of_insert? ht id
  rw [if_pos rfl] at hget
  obtain ⟨route, hroute, hsame⟩ :=
    exists_get?_of_shown ((halike.routes id).trans (shown_of_get? hget Route.bare))
  refine ⟨route, hroute, hsame, hid.trans (r.thinned_withRoom now).nextId, ?_⟩
  refine SameOthers.of_alike (fun other hne => ?_) halike
  rw [shown, shown, (RouteTable.get?_of_insert? ht other).2, if_neg hne]

/-! ### One route in its place -/

theorem place_of_match? (hm : r.table.match? adv.dest adv.neigh adv.nexthop = some (id, old)) :
    r.table.get? id = some old ∧ old.place = adv.place := by
  obtain ⟨hget, htest⟩ := RouteTable.get?_of_find? hm
  exact ⟨hget, Route.through_iff_place.1 htest⟩

theorem place_ne_of_match?_eq_none
    (hm : r.table.match? adv.dest adv.neigh adv.nexthop = none) (other : RouteId) (ρ : Route)
    (hρ : r.table.get? other = some ρ) : ρ.place ≠ adv.place := by
  intro hplace
  have hthrough := RouteTable.find?_eq_none_iff.1 hm other ρ hρ
  rw [Route.through_iff_place.2 hplace] at hthrough
  cases hthrough

/-- To advertise a route again puts no other in its place. -/
theorem place_update_iff
    (hplaces : ∀ i j ρ σ, r.table.get? i = some ρ → r.table.get? j = some σ →
      ρ.place = σ.place → i = j)
    (hm : r.table.match? adv.dest adv.neigh adv.nexthop = some (id, old)) (other : RouteId)
    (ρ : Route) (hρ : (r.update now adv feasible metric id old).table.get? other = some ρ) :
    ρ.place = adv.place ↔ other = id := by
  obtain ⟨hget, hold⟩ := place_of_match? hm
  have halike := r.alike_update now adv feasible metric id old
  obtain ⟨ρ', hρ', hfixed⟩ := exists_get?_of_shown ((halike.routes other).symm.trans
    (shown_of_get? hρ Route.fixed))
  have hplace : ρ'.place = ρ.place := congrArg (fun f => (f.1, f.2.1, f.2.2.1)) hfixed
  rw [← hplace, ← hold]
  constructor
  · exact hplaces other id ρ' old hρ' hget
  · rintro rfl
    rw [Option.some.inj (hρ'.symm.trans hget)]

/-- A new route is alone in its place. -/
theorem place_adopt_iff (hm : r.table.match? adv.dest adv.neigh adv.nexthop = none)
    (hr : r'.table.get? id = some route)
    (hroute : route.bare = .ofAdvertisement adv now interface metric)
    (hothers : SameOthers (r.withRoom now) r' id) (other : RouteId) (ρ : Route)
    (hρ : r'.table.get? other = some ρ) : ρ.place = adv.place ↔ other = id := by
  constructor
  · intro hplace
    by_contra hne
    have hshown := (hothers other hne).symm.trans (shown_of_get? hρ Route.bare)
    obtain ⟨ρ', hρ', hbare⟩ := exists_get?_of_shown
      ((r.thinned_withRoom now).routes other _ hshown)
    have hplace' : ρ'.place = ρ.place := (congrArg Route.place hbare :)
    exact place_ne_of_match?_eq_none hm other ρ' hρ' (hplace'.trans hplace)
  · rintro rfl
    rw [← Option.some.inj (hr.symm.trans hρ)]
    exact (congrArg Route.place hroute :)

/-! ### The whole -/

/-- An advertisement that is not rejected is taken down in the route that is in its place, or it
makes a new one; its source is put on record before, which makes it neither feasible nor not. -/
theorem receive_ok_cases (hok : (r.receive now adv).1 = .ok id) :
    ∃ interface sources, r.neighbours.interface? adv.neigh = some interface ∧
      ((∃ old, r.table.match? adv.dest adv.neigh adv.nexthop = some (id, old) ∧
          (r.receive now adv).2 = update { r with sources := sources } now adv
            (r.feasible now adv.origin adv.dest adv.seqno adv.refmetric)
            (r.pathMetric adv.origin adv.dest adv.neigh interface adv.refmetric) id old) ∨
        (r.table.match? adv.dest adv.neigh adv.nexthop = none ∧
          r.receive now adv = adopt { r with sources := sources } now adv interface
            (r.pathMetric adv.origin adv.dest adv.neigh interface adv.refmetric))) := by
  rcases r.receive_cases now adv with ⟨reason, heq⟩ | ⟨interface, sources, hscreen, ho, heq⟩
  · rw [heq] at hok
    cases hok
  rw [heq] at hok ⊢
  have hfeasible : feasible { r with sources := sources } now adv.origin adv.dest adv.seqno
      adv.refmetric = r.feasible now adv.origin adv.dest adv.seqno adv.refmetric :=
    SourceTable.feasible_of_observe ho _ _
  refine ⟨interface, sources, interface?_of_screen hscreen, ?_⟩
  cases hm : r.table.match? adv.dest adv.neigh adv.nexthop with
  | some e =>
      rw [accept_of_match (r := { r with sources := sources }) hm, hfeasible] at hok ⊢
      cases hok
      exact .inl ⟨e.2, rfl, rfl⟩
  | none =>
      exact .inr ⟨rfl, (accept_of_new (r := { r with sources := sources }) hm hok).2⟩

/-- **An advertisement is recorded faithfully, and no other route is touched.**  If it is not
rejected, the route of the name returned is the only one in its place, over the interface that leads
to the neighbour comes the metric that is due, and the route says what was advertised.  A route that
was in the table is renewed: it has the metric that is due, unless it was installed when that was to
change and the kernel refused; and only a feasible advertisement that is no retraction refreshes it.
A new one takes the next name.  All routes of other names stay as they were, but for whether they
are installed, unless the route is new and the table was full. -/
theorem recorded_receive (r : Router) (now : Instant) (adv : Advertisement) (id : RouteId)
    (hplaces : ∀ i j ρ σ, r.table.get? i = some ρ → r.table.get? j = some σ →
      ρ.place = σ.place → i = j)
    (hok : (r.receive now adv).1 = .ok id) :
    ∃ interface metric route, r.neighbours.interface? adv.neigh = some interface ∧
      metric.toNat = min (adv.refmetric.toNat + (r.neighbours.cost adv.neigh).toNat +
        (r.filter.penalty adv.origin adv.dest adv.neigh interface).toNat) 65535 ∧
      Says (r.receive now adv).2 adv id route ∧
      ((∃ old, r.table.get? id = some old ∧ old.place = adv.place ∧
          Renewed r now adv (r.feasible now adv.origin adv.dest adv.seqno adv.refmetric) metric old
            route ∧
          SameOthers r (r.receive now adv).2 id) ∨
        ((∀ other ρ, r.table.get? other = some ρ → ρ.place ≠ adv.place) ∧
          TakenUp r now metric id route ∧
          (r.table.isFull = false → SameOthers r (r.receive now adv).2 id))) := by
  obtain ⟨interface, sources, hlink, ⟨old, hm, heq⟩ | ⟨hm, heq⟩⟩ := receive_ok_cases hok
  · obtain ⟨hget, hold⟩ := place_of_match? hm
    obtain ⟨route, hroute, ⟨horigin, hseqno, hrefmetric⟩, hrenewed, hothers⟩ := renewed_update
      (r := { r with sources := sources }) hget now adv
      (r.feasible now adv.origin adv.dest adv.seqno adv.refmetric)
      (r.pathMetric adv.origin adv.dest adv.neigh interface adv.refmetric)
    rw [heq]
    have hsays : Says (update { r with sources := sources } now adv
        (r.feasible now adv.origin adv.dest adv.seqno adv.refmetric)
        (r.pathMetric adv.origin adv.dest adv.neigh interface adv.refmetric) id old) adv id route :=
      ⟨hroute, fun other ρ hρ => place_update_iff (r := { r with sources := sources }) hplaces hm
        other ρ hρ, horigin, hseqno, hrefmetric⟩
    exact ⟨interface, _, route, hlink, toNat_pathMetric .., hsays,
      .inl ⟨old, hget, hold, hrenewed.of_observed, hothers⟩⟩
  · rw [heq] at hok ⊢
    obtain ⟨route, hroute, hbare, hname, hothers⟩ := takenUp_adopt hok
    have hsays : Says (adopt { r with sources := sources } now adv interface
        (r.pathMetric adv.origin adv.dest adv.neigh interface adv.refmetric)).2 adv id route :=
      ⟨hroute, fun other ρ hρ => place_adopt_iff (r := { r with sources := sources }) hm hroute
        hbare hothers other ρ hρ, (congrArg Route.origin hbare :), (congrArg Route.seqno hbare :),
        (congrArg Route.refmetric hbare :)⟩
    have htaken : TakenUp r now
        (r.pathMetric adv.origin adv.dest adv.neigh interface adv.refmetric) id route :=
      ⟨hname, (congrArg Route.metric hbare :), (congrArg Route.time hbare :),
        (congrArg Route.origtime hbare :)⟩
    refine ⟨interface, _, route, hlink, toNat_pathMetric .., hsays,
      .inr ⟨place_ne_of_match?_eq_none hm, htaken, fun hroom => ?_⟩⟩
    have hsame : withRoom { r with sources := sources } now = { r with sources := sources } := by
      simp [withRoom, hroom]
    rwa [hsame] at hothers

/-- A router with an installed route that its neighbour may not pass on any longer, because the source
announced something better.  The kernel is going to refuse twice. -/
def clinging : Router :=
  let installed := (twoNeighbours [none, some (.os 5), some (.os 12)]).perform 1000
    (.receive ⟨"O1", "P", 10, 104, "N1", "H1"⟩)
  { installed with sources := installed.sources.set ⟨"O1", "P", 10, 50, 1000⟩ }

/-- The neighbour passes the route on all the same, at a higher metric.  The kernel refuses to flush
the route and to change its metric, so the route says what was advertised but has its old metric,
and it is not refreshed. -/
theorem recorded_clinging :
    ∃ route, Says (clinging.receive 1001 ⟨"O1", "P", 10, 304, "N1", "H1"⟩).2
        ⟨"O1", "P", 10, 304, "N1", "H1"⟩ 0 route ∧
      route.metric = 200 ∧ route.time = 1000 ∧ route.origtime = 1000 := by
  have honly : ∀ e ∈ clinging.table.toList, e.1 = 0 := by decide +kernel
  have hzero : ∀ i ρ, clinging.table.get? i = some ρ → i = 0 := fun i ρ hρ =>
    honly (i, ρ) (RouteTable.mem_toList_iff.2 hρ)
  have hget : clinging.table.get? 0 = some
      ⟨"P", "O1", "N1", "H1", 1, 10, 104, 200, 1000, 1000, true⟩ := by decide +kernel
  have hunfeasible : clinging.feasible 1001 "O1" "P" 10 304 = false := by decide +kernel
  obtain ⟨interface, metric, route, hlink, hmetric, hsays, hcases⟩ := recorded_receive
    clinging 1001 ⟨"O1", "P", 10, 304, "N1", "H1"⟩ 0
    (fun i j ρ σ hi hj _ => (hzero i ρ hi).trans (hzero j σ hj).symm) (by decide +kernel)
  have hparts : clinging.neighbours.interface? "N1" = some 1 ∧
      min ((304 : Metric).toNat + (clinging.neighbours.cost "N1").toNat +
        (clinging.filter.penalty "O1" "P" "N1" 1).toNat) 65535 = (400 : Metric).toNat := by
    decide +kernel
  obtain rfl := Option.some.inj (hparts.1.symm.trans hlink)
  obtain rfl : metric = 400 := UInt16.toNat_inj.1 (hmetric.trans hparts.2)
  refine ⟨route, hsays, ?_⟩
  rcases hcases with ⟨old, hold, -, hrenewed, -⟩ | ⟨hnone, -⟩
  · obtain rfl := Option.some.inj (hget.symm.trans hold)
    rw [hunfeasible] at hrenewed
    refine ⟨hrenewed.stuck ⟨rfl, fun _ => ⟨.os 5, nofun, by decide +kernel⟩, by decide +kernel⟩,
      hrenewed.time, hrenewed.origtime⟩
  · exact absurd rfl (hnone 0 _ hget)

/-- A new route takes the place of another that has the next name. -/
theorem new_route_overwrites :
    ¬ ∀ (r : Router) (now : Instant) (adv : Advertisement) (id other : RouteId) (ρ : Route),
      (∀ i j ρ σ, r.table.get? i = some ρ → r.table.get? j = some σ → ρ.place = σ.place → i = j) →
      (∀ dest, r.table.Exclusive dest) → (r.receive now adv).1 = .ok id →
      r.table.isFull = false → r.table.get? other = some ρ → ρ.place ≠ adv.place →
        ∃ ρ', (r.receive now adv).2.table.get? other = some ρ' ∧ ρ'.bare = ρ.bare := by
  intro hclaim
  have honly : ∀ e ∈ misnamed.table.toList, e.1 = 0 := by decide +kernel
  have hzero : ∀ i ρ, misnamed.table.get? i = some ρ → i = 0 := fun i ρ hρ =>
    honly (i, ρ) (RouteTable.mem_toList_iff.2 hρ)
  have hafter : (misnamed.receive 1001 ⟨"O1", "P", 10, 104, "N1", "H1"⟩).2.table.get? 0 = some
      ⟨"P", "O1", "N1", "H1", 1, 10, 104, 200, 1001, 1001, true⟩ := by decide +kernel
  obtain ⟨ρ', hρ', hbare⟩ := hclaim misnamed 1001 ⟨"O1", "P", 10, 104, "N1", "H1"⟩ 0 0
    ⟨"Q", "O1", "N1", "H1", 1, 10, 104, 200, 1000, 1000, false⟩
    (fun i j ρ σ hi hj _ => (hzero i ρ hi).trans (hzero j σ hj).symm)
    (fun dest i j ρ σ hi hj => (hzero i ρ hi.get).trans (hzero j σ hj.get).symm)
    (by decide +kernel) (by decide +kernel) (by decide +kernel) (by decide)
  obtain rfl := Option.some.inj (hafter.symm.trans hρ')
  exact absurd (congrArg Route.dest hbare) (by decide)

end Router

end DistanceVector
