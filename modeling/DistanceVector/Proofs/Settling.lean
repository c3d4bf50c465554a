import DistanceVector.Proofs.Eviction
import DistanceVector.Proofs.Strays

/-!
# Advertisements that are settled

An advertisement that is not rejected is settled as soon as it was received: a route of the table
says what it says, and is installed, or may not be, or is not enough of a gain over the one that is.
To receive a settled advertisement is to draw the same conclusions again, and these are none; but if
the route is installed, the kernel is asked to put its entry in the place of itself.

The first time, a route may be installed or refused, overtaken or withdrawn.  What was overtaken
does not come back because no two routes are enough of a gain over one another, and what was
withdrawn does not because it is not feasible.

Main definitions:

* `Router.Judged` — what is found out about an advertisement before the table is looked at;
* `Router.Recorded` — a route of the table says what the advertisement says;
* `Router.Settled` — there is no conclusion left to draw from it;
* `Router.Held` — if a route is installed, its own entry is in the forwarding table.

Main results:

* `Router.Settled.receive` — **to receive a settled advertisement changes nothing**;
* `Router.Judged.settled_consider`, `Router.Judged.settled_seekBetter` — a feasible advertisement is
  settled once its route was considered, or a better one was sought;
* `Router.Judged.settled_update`, `Router.Judged.settled_adopt` — **an advertisement is settled once
  its route is updated or taken up**.
-/

set_option relaxedAutoImplicit false
set_option autoImplicit false

namespace DistanceVector

namespace Route

variable {route ρ σ : Route} {now : Instant} {adv : Advertisement} {feasible : Bool}

/-- To record an advertisement twice is to record it once. -/
theorem withAdvertisement_twice (route : Route) (now : Instant) (adv : Advertisement)
    (feasible : Bool) : (route.withAdvertisement now adv feasible).withAdvertisement now adv
      feasible = route.withAdvertisement now adv feasible := by
  cases feasible <;> cases hr : adv.refmetric.reachable <;> simp [withAdvertisement, hr]

/-- A new route has its advertisement recorded. -/
theorem withAdvertisement_ofAdvertisement (adv : Advertisement) (now : Instant)
    (interface : InterfaceId) (metric : Metric) (feasible : Bool) :
    (ofAdvertisement adv now interface metric).withAdvertisement now adv feasible =
      ofAdvertisement adv now interface metric := by
  simp [withAdvertisement, ofAdvertisement]

/-- Whether an advertisement is recorded does not depend on whether the route is installed. -/
theorem withAdvertisement_eq_of_bare_eq (h : σ.withAdvertisement now adv feasible = σ)
    (hb : ρ.bare = σ.bare) : ρ.withAdvertisement now adv feasible = ρ := by
  have hρ : ρ = { σ with installed := ρ.installed } :=
    congrArg (fun bare : Route => { bare with installed := ρ.installed }) hb
  rw [hρ]
  exact congrArg (fun recorded : Route => { recorded with installed := ρ.installed }) h

theorem through_eq_of_fixed_eq (h : ρ.fixed = σ.fixed) (dest : Prefix) (neigh : NeighbourId)
    (nexthop : NextHop) : ρ.through dest neigh nexthop = σ.through dest neigh nexthop := by
  simp only [fixed, Prod.mk.injEq] at h
  rw [through, through, h.1, h.2.1, h.2.2.1]

end Route

namespace Router

variable {now : Instant} {dest : Prefix} {r r' s : Router} {id : RouteId} {old ρ σ : Route}
  {adv : Advertisement} {interface : InterfaceId} {feasible : Bool} {metric : Metric}

/-! ### What is found out about an advertisement -/

/-- The advertisement passes the checks, over the interface, and its source is on record; it is
feasible or not, and comes to the metric. -/
structure Judged (r : Router) (now : Instant) (adv : Advertisement) (interface : InterfaceId)
    (feasible : Bool) (metric : Metric) : Prop where
  screen : r.screen adv = .ok interface
  observe : r.sources.observe adv.origin adv.dest adv.seqno now = some r.sources
  feasible_eq : r.feasible now adv.origin adv.dest adv.seqno adv.refmetric = feasible
  metric_eq : r.pathMetric adv.origin adv.dest adv.neigh interface adv.refmetric = metric

theorem Judged.of_sameBackground (h : Judged r now adv interface feasible metric)
    (hb : SameBackground r r') : Judged r' now adv interface feasible metric := by
  refine ⟨?_, by rw [hb.sources, h.observe], ?_, ?_⟩
  · rw [← h.screen, Router.screen, Router.screen, hb.filter, hb.neighbours]
  · rw [← h.feasible_eq, Router.feasible, Router.feasible, hb.sources, hb.params]
  · rw [← h.metric_eq, pathMetric, pathMetric, hb.neighbours, hb.filter]

theorem Judged.receive_of_match (h : Judged r now adv interface feasible metric)
    (hm : r.table.match? adv.dest adv.neigh adv.nexthop = some (id, old)) :
    r.receive now adv = (.ok id, r.update now adv feasible metric id old) := by
  rw [← h.feasible_eq, ← h.metric_eq, ← accept_of_match hm now interface]
  simp only [receive, h.screen, h.observe]

/-- The route of the table that the advertisement is about says what the advertisement says. -/
structure Recorded (r : Router) (now : Instant) (adv : Advertisement) (feasible : Bool)
    (metric : Metric) (id : RouteId) (ρ : Route) : Prop where
  place : r.table.match? adv.dest adv.neigh adv.nexthop = some (id, ρ)
  taken : ρ.withAdvertisement now adv feasible = ρ
  metric_eq : ρ.metric = metric

section Recorded

variable (h : Recorded r now adv feasible metric id σ)
include h

theorem Recorded.get : r.table.get? id = some σ := (RouteTable.get?_of_match? h.place).1

theorem Recorded.dest_eq : σ.dest = adv.dest := (RouteTable.get?_of_match? h.place).2.1

theorem Recorded.routeFeasible (hj : Judged r now adv interface feasible metric) :
    r.routeFeasible now σ = feasible := by
  rw [← hj.feasible_eq, ← h.dest_eq, ← h.taken]
  rfl

end Recorded

/-- The route that an advertisement is about is the same as long as all routes stay in place. -/
theorem match?_of_alike (ha : Alike Route.fixed r r') {neigh : NeighbourId} {nexthop : NextHop}
    (hm : r.table.match? dest neigh nexthop = some (id, σ)) (hr : r'.table.get? id = some ρ) :
    r'.table.match? dest neigh nexthop = some (id, ρ) := by
  obtain ⟨hget, htest⟩ := RouteTable.get?_of_find? hm
  have holdest := (RouteTable.isOldest_of_find? hm).2
  refine RouteTable.IsOldest.find?_eq ⟨⟨ρ, hr, ?_⟩, fun other τ hτ hp => ?_⟩ hr
  · have hfixed := ha.routes id
    rw [shown_of_get? hr, shown_of_get? hget] at hfixed
    exact (Route.through_eq_of_fixed_eq (Option.some.inj hfixed) ..).trans htest
  · obtain ⟨τ', hτ', hfixed⟩ := exists_get?_of_shown (ha.routes other ▸ shown_of_get? hτ _)
    refine holdest other τ' hτ' ?_
    exact (Route.through_eq_of_fixed_eq hfixed ..).trans hp

theorem Recorded.of_alike (h : Recorded r now adv feasible metric id σ)
    (ha : Alike Route.bare r r') (hr : r'.table.get? id = some ρ) :
    Recorded r' now adv feasible metric id ρ := by
  have hbare := ha.routes id
  rw [shown_of_get? hr, shown_of_get? h.get] at hbare
  have hbare := Option.some.inj hbare
  exact ⟨match?_of_alike ha.fixed h.place hr, Route.withAdvertisement_eq_of_bare_eq h.taken hbare,
    (congrArg Route.metric hbare :).trans h.metric_eq⟩

/-- If the route is installed, its own entry is in the forwarding table. -/
def Held (r : Router) (ρ : Route) : Prop :=
  ρ.installed = true → r.kernel.entries.get? ρ.dest = some (r.entryOf ρ)

theorem held_of_not_installed (h : ρ.installed = false) : Held r ρ := fun hi =>
  absurd hi (h ▸ Bool.false_ne_true)

theorem Held.of_told (h : Held r ρ) (ht : Told dest r r') : Held r' ρ := by
  obtain ⟨_, _, _, rfl⟩ := ht
  exact h

/-! ### Advertisements that are settled -/

/-- There is no conclusion left to draw from the advertisement: the route of a feasible one is
installed, or may not be, or is not enough of a gain over the one that is; and that of an unfeasible
one is not installed. -/
structure Settled (r : Router) (now : Instant) (adv : Advertisement) (interface : InterfaceId)
    (feasible : Bool) (metric : Metric) (id : RouteId) (ρ : Route) : Prop where
  judged : Judged r now adv interface feasible metric
  recorded : Recorded r now adv feasible metric id ρ
  faultless : r.kernel.Faultless
  promoted : feasible = true → ρ.installed = true ∨ ρ.dest ∈ r.exports ∨ r.Outclassed ρ
  withdrawn : feasible = false → ρ.installed = false

theorem Settled.of_told (h : Settled r now adv interface feasible metric id ρ)
    (ht : Told dest r r') : Settled r' now adv interface feasible metric id ρ := by
  obtain ⟨_, _, _, rfl⟩ := ht
  exact ⟨⟨h.judged.screen, h.judged.observe, h.judged.feasible_eq, h.judged.metric_eq⟩,
    ⟨h.recorded.place, h.recorded.taken, h.recorded.metric_eq⟩, h.faultless, h.promoted,
    h.withdrawn⟩

theorem consider_of_outclassed (hr : r.table.get? id = some ρ)
    (h : ρ.dest ∈ r.exports ∨ r.Outclassed ρ) (now : Instant) : r.consider now id = r := by
  cases hc : r.candidate? now id with
  | none => exact consider_of_no_candidate hc
  | some route =>
      obtain ⟨hget, -, -, hx⟩ := get?_of_candidate? hc
      obtain rfl := Option.some.inj (hr.symm.trans hget)
      rcases h with hexported | ⟨e, ho, hrefused⟩
      · exact absurd hexported hx
      · exact consider_of_no_gain hc ho hrefused

/-- To record an advertisement that is recorded is to ask the kernel at most to put the entry of the
route in the place of itself. -/
theorem Recorded.record_eq (h : Recorded r now adv feasible metric id ρ)
    (hf : r.kernel.Faultless) : r.record now adv feasible metric id =
      if ρ.installed then r.ask (.modify (r.entryOf ρ) (r.entryOf ρ)) else r := by
  have hsame : r.modifyRoute id (·.withAdvertisement now adv feasible) = r := by
    rw [modifyRoute, RouteTable.modify_eq_self h.get h.taken]
  have hmetric : ∀ s : Router, s.table = r.table → s.modifyRoute id ({ · with metric }) = s := by
    intro s ht
    rw [modifyRoute, ht, RouteTable.modify_eq_self h.get (by rw [← h.metric_eq]), ← ht]
  rw [record, hsame]
  cases hi : ρ.installed with
  | false =>
      rw [setMetric_of_not_installed h.get hi, hmetric r rfl]
      rfl
  | true =>
      have haccepted : r.kernel.answer (r.metricOp ρ metric) = none := hf.answer _
      rw [setMetric_of_accepted h.get hi haccepted, hmetric (r.ask (r.metricOp ρ metric)) rfl,
        ← h.metric_eq]
      rfl

/-- **To receive a settled advertisement changes nothing**, but if the route is installed, the
kernel is asked to put its entry in the place of itself. -/
theorem Settled.receive (h : Settled r now adv interface feasible metric id ρ) :
    (r.receive now adv).1 = .ok id ∧
      Told adv.dest (if ρ.installed then r.ask (.modify (r.entryOf ρ) (r.entryOf ρ)) else r)
        (r.receive now adv).2 := by
  rw [h.judged.receive_of_match h.recorded.place]
  refine ⟨rfl, ?_⟩
  have hrecord := h.recorded.record_eq h.faultless
  cases feasible with
  | false =>
      have hi := h.withdrawn rfl
      rw [update_of_not_installed hi, hrecord]
      exact told_requestFeasible _ metric adv.origin adv.dest
  | true =>
      rw [update_of_feasible, hrecord]
      cases hi : ρ.installed with
      | false =>
          rw [if_neg Bool.false_ne_true, reconsider_of_not_installed h.recorded.get hi,
            consider_of_outclassed h.recorded.get]
          · exact Told.refl adv.dest r
          · simpa [hi] using h.promoted rfl
      | true =>
          -- the metric did not rise, so no better route is sought
          generalize hs : (if true then r.ask (.modify (r.entryOf ρ) (r.entryOf ρ)) else r) = s
          have hget : s.table.get? id = some ρ := hs ▸ h.recorded.get
          rw [reconsider_of_still_installed hget hi (if_neg (UInt16.lt_irrefl _)).symm
            ((isInstalled_of_get? hget).trans hi)]
          exact told_announceChange (h.recorded.dest_eq ▸ isFor_dest hget) _ _

/-! ### Routes that are considered -/

/-- A feasible advertisement is settled once its route, which is not installed, was considered. -/
theorem Judged.settled_consider (hj : Judged r now adv interface true metric)
    (hrec : Recorded r now adv true metric id σ) (hf : r.kernel.Faultless)
    (hi : σ.installed = false) :
    ∃ ρ, Settled (r.consider now id) now adv interface true metric id ρ ∧
      (Tidy adv.dest r → Held (r.consider now id) ρ) := by
  rcases consider_outcomes hf now id with ⟨hc, heq⟩ | ⟨route, hc, ⟨hout, heq⟩ | ⟨howns, hentry⟩⟩
  · -- a feasible route that is no candidate is one to a destination that this node announces
    rw [heq]
    refine ⟨σ, ⟨hj, hrec, hf, fun _ => .inr (.inl ?_), nofun⟩, fun _ => held_of_not_installed hi⟩
    by_contra hx
    cases hc.symm.trans (candidate?_of_get? hrec.get hi (hrec.routeFeasible hj) hx)
  · obtain rfl := Option.some.inj (hrec.get.symm.trans (get?_of_candidate? hc).1)
    rw [heq]
    exact ⟨σ, ⟨hj, hrec, hf, fun _ => .inr (.inr hout), nofun⟩,
      fun _ => held_of_not_installed hi⟩
  · obtain rfl := Option.some.inj (hrec.get.symm.trans (get?_of_candidate? hc).1)
    have hmoves := r.consider_allMoves now id
    refine ⟨_, ⟨hj.of_sameBackground hmoves.sameBackground,
      hrec.of_alike (r.alike_consider now id) howns.get, (hmoves.asked.faultless hf).2,
      fun _ => .inl rfl, nofun⟩, fun htidy _ => ?_⟩
    rw [entryOf_congr hmoves.sameBackground.params]
    exact hentry (hrec.dest_eq ▸ htidy)

/-- The search for a better route finds nothing, or a route that is a gain of the margin at
least. -/
theorem seekBetter_outcomes (hf : r.kernel.Faultless) (ho : r.table.Owns dest id σ)
    (now : Instant) : r.seekBetter now σ = r ∨
      ∃ other b, other ≠ id ∧ (r.seekBetter now σ).table.Owns dest other b ∧
        b.metric.toNat + 96 ≤ σ.metric.toNat := by
  cases hbest : r.best? now σ.dest true none with
  | none => exact .inl (seekBetter_of_none hbest)
  | some e =>
      obtain ⟨other, b⟩ := e
      obtain ⟨hb, hd, -⟩ := eligible_of_best? hbest
      by_cases hmargin : b.metric.toNat + routeMargin ≤ σ.metric.toNat
      · rw [seekBetter_of_margin hbest hmargin]
        rcases consider_outcomes hf now other with ⟨-, heq⟩ | ⟨route, hc, ⟨-, heq⟩ | ⟨howns, -⟩⟩
        · exact .inl heq
        · exact .inl heq
        · obtain ⟨hget, hi, -⟩ := get?_of_candidate? hc
          obtain rfl := Option.some.inj (hb.symm.trans hget)
          rw [hd, ho.dest_eq] at howns
          exact .inr ⟨other, _, (ho.ne_of_not_installed hget hi).symm, howns, hmargin⟩
      · exact .inl (seekBetter_of_short hbest (Nat.lt_of_not_le hmargin))

/-- What is reconsidered of an installed route after the search for a better one is announced at
most. -/
theorem told_reconsider (hr : r.table.get? id = some σ) (hi : σ.installed = true)
    {oldOrigin : NodeAddress} {oldMetric : Metric}
    (hs : s = if oldMetric < σ.metric then r.seekBetter now σ else r) :
    Told σ.dest s (r.reconsider now id oldOrigin oldMetric) := by
  have hmoves : Moves now σ.dest r s := by
    rw [hs]
    split
    · exact seekBetter_moves r now σ
    · exact .refl
  cases hstill : s.isInstalled id with
  | true =>
      rw [reconsider_of_still_installed hr hi hs hstill]
      exact told_announceChange (hmoves.isFor (isFor_dest hr)) oldOrigin oldMetric
  | false =>
      rw [reconsider_of_overtaken hr hi hs hstill]
      exact Told.refl σ.dest s

/-- A feasible advertisement is settled once a better route was sought than its own, which is
installed.  If that was overtaken, it is no gain over the one that took its place. -/
theorem Judged.settled_seekBetter (hj : Judged r now adv interface true metric)
    (hrec : Recorded r now adv true metric id σ) (hf : r.kernel.Faultless)
    (hex : r.table.Exclusive adv.dest) (hheld : Held r σ) (hi : σ.installed = true) :
    ∃ ρ, Settled (r.seekBetter now σ) now adv interface true metric id ρ ∧
      Held (r.seekBetter now σ) ρ := by
  rcases seekBetter_outcomes hf ⟨hrec.get, hi, hrec.dest_eq⟩ now with
    hsame | ⟨other, b, hne, howns, hgain⟩
  · rw [hsame]
    exact ⟨σ, ⟨hj, hrec, hf, fun _ => .inl hi, nofun⟩, hheld⟩
  have hmoves : AllMoves now r (r.seekBetter now σ) := (seekBetter_moves r now σ).all
  have halike := r.alike_seekBetter now σ
  have hexclusive := hmoves.exclusive hex
  obtain ⟨ρ, hρ, -⟩ :=
    exists_get?_of_shown ((halike.routes id).trans (shown_of_get? hrec.get Route.bare))
  have hrec' := hrec.of_alike halike hρ
  have hlost : ρ.installed = false := by
    by_contra hstill
    exact hne (hexclusive _ _ _ _ howns ⟨hρ, by simpa using hstill, hrec'.dest_eq⟩)
  have hrefused : shouldSwitch b.metric ρ.metric (b.origin == ρ.origin) = false := by
    have hinfinity := σ.metric.toNat_le_infinity
    rw [Bool.eq_false_iff, ne_eq, shouldSwitch_iff, hrec'.metric_eq, ← hrec.metric_eq]
    omega
  have hout : Outclassed (r.seekBetter now σ) ρ :=
    ⟨(other, b), hrec'.dest_eq ▸ howns.installed?_eq hexclusive, hrefused⟩
  exact ⟨ρ, ⟨hj.of_sameBackground hmoves.sameBackground, hrec', (hmoves.asked.faultless hf).2,
    fun _ => .inr (.inr hout), nofun⟩, held_of_not_installed hlost⟩

/-- A feasible advertisement is settled once its route was reconsidered. -/
theorem Judged.settled_reconsider (hj : Judged r now adv interface true metric)
    (hrec : Recorded r now adv true metric id σ) (hf : r.kernel.Faultless)
    (hex : r.table.Exclusive adv.dest) (hheld : Held r σ) (oldOrigin : NodeAddress)
    (oldMetric : Metric) :
    ∃ ρ, Settled (r.reconsider now id oldOrigin oldMetric) now adv interface true metric id ρ ∧
      (Tidy adv.dest r → Held (r.reconsider now id oldOrigin oldMetric) ρ) := by
  cases hi : σ.installed with
  | false =>
      rw [reconsider_of_not_installed hrec.get hi]
      exact hj.settled_consider hrec hf hi
  | true =>
      obtain ⟨s, hs⟩ : ∃ s, s = if oldMetric < σ.metric then r.seekBetter now σ else r := ⟨_, rfl⟩
      have htold : Told σ.dest s (r.reconsider now id oldOrigin oldMetric) :=
        told_reconsider hrec.get hi hs
      obtain ⟨ρ, hsettled, hholds⟩ :
          ∃ ρ, Settled s now adv interface true metric id ρ ∧ Held s ρ := by
        rw [hs]
        split
        · exact hj.settled_seekBetter hrec hf hex hheld hi
        · exact ⟨σ, ⟨hj, hrec, hf, fun _ => .inl hi, nofun⟩, hheld⟩
      exact ⟨ρ, hsettled.of_told htold, fun _ => hholds.of_told htold⟩

/-! ### Routes that are advertised again -/

theorem get?_written (hr : r.table.get? id = some old) (now : Instant) (adv : Advertisement)
    (feasible : Bool) : (r.modifyRoute id (·.withAdvertisement now adv feasible)).table.get? id =
      some (old.withAdvertisement now adv feasible) := by
  rw [modifyRoute, RouteTable.get?_modify, if_pos rfl, hr, Option.map_some]

/-- Once an advertisement is recorded, the route says what it says; and if it is installed, it has
its own entry. -/
theorem recorded_record (hm : r.table.match? adv.dest adv.neigh adv.nexthop = some (id, old))
    (hf : r.kernel.Faultless) (now : Instant) (feasible : Bool) (metric : Metric) :
    Recorded (r.record now adv feasible metric id) now adv feasible metric id
        { old.withAdvertisement now adv feasible with metric } ∧
      Held (r.record now adv feasible metric id)
        { old.withAdvertisement now adv feasible with metric } := by
  have hwritten := get?_written (RouteTable.get?_of_match? hm).1 now adv feasible
  have hset := setMetric_allMoves (r.modifyRoute id (·.withAdvertisement now adv feasible)) now id
    metric
  have hget : (r.record now adv feasible metric id).table.get? id =
      some { old.withAdvertisement now adv feasible with metric } := by
    rw [record, (hset.asked.faultless hf).1.table_setMetric hwritten, RouteTable.get?_modify,
      if_pos rfl, hwritten, Option.map_some]
  refine ⟨⟨match?_of_alike (r.alike_record now adv feasible metric id) hm hget, ?_, rfl⟩,
    fun hi => ?_⟩
  · exact congrArg (fun recorded : Route => { recorded with metric })
      (old.withAdvertisement_twice now adv feasible)
  · have haccepted : (r.modifyRoute id (·.withAdvertisement now adv feasible)).kernel.answer
        (metricOp (r.modifyRoute id (·.withAdvertisement now adv feasible))
          (old.withAdvertisement now adv feasible) metric) = none := hf.answer _
    rw [entryOf_congr (sameBackground_record r now adv feasible metric id).params, record,
      setMetric_of_accepted hwritten hi haccepted]
    exact Kernel.get?_entries_after_of_accepted haccepted

theorem faultless_record (hf : r.kernel.Faultless) :
    (r.record now adv feasible metric id).kernel.Faultless :=
  ((setMetric_allMoves (r.modifyRoute id (·.withAdvertisement now adv feasible)) now id
    metric).asked.faultless hf).2

/-- To record an advertisement makes nothing stray. -/
theorem Tidy.record (h : Tidy dest r) (hr : r.table.get? id = some old) (hd : old.dest = dest) :
    Tidy dest (r.record now adv feasible metric id) := by
  obtain ⟨new, hw⟩ := rewritten_record hr now adv feasible metric
  have hexclusive := hw.exclusive h.exclusive
  cases hi : old.installed with
  | true =>
      obtain ⟨ρ, howns⟩ := hw.owns_of_owns ⟨hr, hi, hd⟩
      exact tidy_of_owns hexclusive (faultless_record h.faultless) howns
  | false =>
      refine ⟨hexclusive, faultless_record h.faultless, ?_⟩
      rw [Router.record, setMetric_of_not_installed (get?_written hr now adv feasible) hi] at hw ⊢
      refine fun hnone hleft => h.absent (fun other ρ ho => ?_) hleft
      obtain ⟨ρ', ho'⟩ := hw.owns_of_owns ho
      exact hnone other ρ' ho'

/-- An unfeasible advertisement of a route that is not installed is settled once it is recorded. -/
theorem Judged.settled_record (hj : Judged r now adv interface false metric)
    (hm : r.table.match? adv.dest adv.neigh adv.nexthop = some (id, old)) (hf : r.kernel.Faultless)
    (hi : old.installed = false) :
    Settled (r.record now adv false metric id) now adv interface false metric id
      { old.withAdvertisement now adv false with metric } :=
  ⟨hj.of_sameBackground (sameBackground_record r now adv false metric id),
    (recorded_record hm hf now false metric).1, faultless_record hf, nofun, fun _ => hi⟩

/-- An unfeasible advertisement stays settled when a route is sought for the one that was lost. -/
theorem Settled.replaceLost (h : Settled r now adv interface false metric id ρ)
    (origin : NodeAddress) (lost : Prefix) (oldMetric : Metric) :
    Settled (r.replaceLost now origin lost oldMetric) now adv interface false metric id ρ := by
  have hmoves := (replaceLost_moves r now origin lost oldMetric).all
  have hkept := get?_replaceLost_of_unfeasible h.recorded.get (h.withdrawn rfl)
    (h.recorded.routeFeasible h.judged) origin lost oldMetric
  exact ⟨h.judged.of_sameBackground hmoves.sameBackground,
    h.recorded.of_alike (r.alike_replaceLost now origin lost oldMetric) hkept,
    (hmoves.asked.faultless h.faultless).2, nofun, h.withdrawn⟩

/-- **An advertisement of a route of the table is settled once the route is updated.** -/
theorem Judged.settled_update (hj : Judged r now adv interface feasible metric)
    (hm : r.table.match? adv.dest adv.neigh adv.nexthop = some (id, old)) (hf : r.kernel.Faultless)
    (hex : r.table.Exclusive adv.dest) :
    ∃ ρ, Settled (r.update now adv feasible metric id old) now adv interface feasible metric id ρ ∧
      (Tidy adv.dest r → Held (r.update now adv feasible metric id old) ρ) := by
  obtain ⟨hr, hd, -⟩ := RouteTable.get?_of_match? hm
  cases feasible with
  | true =>
      rw [update_of_feasible]
      obtain ⟨new, hw⟩ := rewritten_record hr now adv true metric
      have hjudged := hj.of_sameBackground (sameBackground_record r now adv true metric id)
      obtain ⟨hrec, hheld⟩ := recorded_record hm hf now true metric
      obtain ⟨ρ, hsettled, hholds⟩ := hjudged.settled_reconsider hrec (faultless_record hf)
        (hw.exclusive hex) hheld old.origin old.metric
      exact ⟨ρ, hsettled, fun htidy => hholds (htidy.record hr hd)⟩
  | false =>
      cases hi : old.installed with
      | false =>
          rw [update_of_not_installed hi]
          have hsettled := (hj.settled_record hm hf hi).of_told
            (told_requestFeasible _ metric adv.origin adv.dest)
          exact ⟨_, hsettled, fun _ => held_of_not_installed hi⟩
      | true =>
          have hanswer := r.kernel.conflict?_flush (r.entryOf old)
          rw [← hf.answer] at hanswer
          have hwithdrawn := get?_uninstall_of_accepted (r := r.report (.unfeasible old.origin adv))
            hr hi hanswer
          rw [update_of_withdrawn hi (isInstalled_of_get? hwithdrawn)]
          have hreported : Alike Route.bare r (r.report (.unfeasible old.origin adv)) :=
            alike_of_table_eq rfl
          have hmoves : AllMoves now r ((r.report (.unfeasible old.origin adv)).uninstall id) :=
            (told_report "" r _).moves.all.trans (uninstall_allMoves _ now id)
          have halike := hreported.trans (alike_uninstall _ id)
          have hmatch := match?_of_alike halike.fixed hm hwithdrawn
          have hsettled := (hj.of_sameBackground hmoves.sameBackground).settled_record hmatch
            (hmoves.asked.faultless hf).2 rfl
          have hasked := hsettled.of_told (told_requestFeasible _ metric adv.origin adv.dest)
          exact ⟨_, hasked.replaceLost old.origin adv.dest old.metric,
            fun _ => held_of_not_installed rfl⟩

/-! ### New routes -/

theorem Tidy.withRoom (h : Tidy dest r) (now : Instant) : Tidy dest (r.withRoom now) := by
  unfold Router.withRoom
  split
  · exact h.makeRoom now
  · exact h

/-- A new route makes nothing stray, unless it takes the name of the installed one. -/
theorem Tidy.insert {table : RouteTable} (h : Tidy dest r)
    (ht : r.table.insert? σ = some (id, table)) (hi : σ.installed = false)
    (hnew : ∀ ρ, ¬ r.table.Owns dest id ρ) : Tidy dest { r with table := table } := by
  refine ⟨fun i j ρ ρ' ho ho' => ?_, h.faultless, fun hnone hleft => ?_⟩
  · exact h.exclusive i j ρ ρ' (RouteTable.owns_of_insert? ht hi ho)
      (RouteTable.owns_of_insert? ht hi ho')
  · refine h.absent (fun other ρ ho => hnone other ρ ⟨?_, ho.installed, ho.dest_eq⟩) hleft
    have hother : other ≠ id := fun heq => hnew ρ (heq ▸ ho)
    exact ((RouteTable.get?_of_insert? ht other).2.trans (if_neg hother)).trans ho.get

/-- A new route that is taken up is stored in the table once there is room, and then considered. -/
theorem insert?_of_adopt (hok : (r.adopt now adv interface metric).1 = .ok id) :
    ∃ table, (r.withRoom now).table.insert? (.ofAdvertisement adv now interface metric) =
        some (id, table) ∧
      (r.adopt now adv interface metric).2 =
        { r.withRoom now with table := table }.consider now id := by
  rcases r.adopt_cases now adv interface metric with heq | ⟨id', table, ht, heq⟩
  · rw [heq] at hok
    cases hok
  · rw [heq] at hok ⊢
    cases hok
    exact ⟨table, ht, rfl⟩

/-- A new route is alone in its place: to make room did not put another there. -/
theorem match?_of_insert? {table : RouteTable}
    (hm : r.table.match? adv.dest adv.neigh adv.nexthop = none)
    (ht : (r.withRoom now).table.insert? (.ofAdvertisement adv now interface metric) =
      some (id, table)) :
    table.match? adv.dest adv.neigh adv.nexthop =
      some (id, .ofAdvertisement adv now interface metric) := by
  have hget := (RouteTable.get?_of_insert? ht id).2
  rw [if_pos rfl] at hget
  refine RouteTable.IsOldest.find?_eq ⟨⟨_, hget, ?_⟩, fun other τ hτ hp => ?_⟩ hget
  · simp [Route.through, Route.ofAdvertisement]
  · rw [(RouteTable.get?_of_insert? ht other).2] at hτ
    split at hτ
    · next heq => exact UInt64.le_of_eq heq.symm
    · obtain ⟨τ', hτ', hfixed⟩ :=
        exists_get?_of_shown ((r.thinned_withRoom now).fixed.routes other _ (shown_of_get? hτ _))
      have hthrough := RouteTable.find?_eq_none_iff.1 hm other τ' hτ'
      rw [Route.through_eq_of_fixed_eq hfixed] at hthrough
      cases hp.symm.trans hthrough

/-- **The advertisement of a new route is settled once the route is taken up.** -/
theorem Judged.settled_adopt (hj : Judged r now adv interface true metric)
    (hm : r.table.match? adv.dest adv.neigh adv.nexthop = none) (hf : r.kernel.Faultless)
    (hok : (r.adopt now adv interface metric).1 = .ok id) :
    ∃ ρ, Settled (r.adopt now adv interface metric).2 now adv interface true metric id ρ ∧
      (Tidy adv.dest r → (∀ ρ, ¬ (r.withRoom now).table.Owns adv.dest r.table.nextId ρ) →
        Held (r.adopt now adv interface metric).2 ρ) := by
  obtain ⟨table, ht, hadopt⟩ := insert?_of_adopt hok
  rw [hadopt]
  have hmoves := r.withRoom_allMoves now
  have hrec : Recorded { r.withRoom now with table := table } now adv true metric id
      (.ofAdvertisement adv now interface metric) :=
    ⟨match?_of_insert? hm ht, Route.withAdvertisement_ofAdvertisement adv now interface metric true,
      rfl⟩
  have hb : SameBackground (r.withRoom now) { r.withRoom now with table := table } :=
    ⟨rfl, rfl, rfl, rfl, rfl, rfl⟩
  have hjudged := (hj.of_sameBackground hmoves.sameBackground).of_sameBackground hb
  have hfaultless := (hmoves.asked.faultless hf).2
  obtain ⟨ρ, hsettled, hholds⟩ := hjudged.settled_consider hrec hfaultless rfl
  refine ⟨ρ, hsettled, fun htidy hnew => hholds ((htidy.withRoom now).insert ht rfl ?_)⟩
  rwa [(RouteTable.get?_of_insert? ht id).1, (r.thinned_withRoom now).nextId]

end Router

end DistanceVector
