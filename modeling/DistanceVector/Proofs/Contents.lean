import DistanceVector.Proofs.Announcements

/-!
# What the table holds

The choice of the installed routes and the routes themselves are two things.  To look for a better
route, to withdraw one and to put one in its place changes only which routes are installed; routes
are rewritten when they are advertised or their costs change, and leave when they are flushed.

Main definitions:

* `Route.bare`, `Route.fixed`, `Route.place` — a route apart from whether it is installed, what
  stays the same of it as long as it lives, and where it leads and through whom;
* `Router.shown` — what a view shows of a route;
* `Router.Alike`, `Router.Thinned` — a view shows the same routes in both states, or some of them;
* `Router.readied` — the router that is about to take an advertisement down.

Main results:

* `Router.alike_consider`, `Router.alike_replaceLost`, `Router.alike_reconsider` — **the search for
  a route rewrites none**;
* `Router.shown_flush`, `Router.thinned_makeRoom` — to flush a route removes that one alone, and to
  make room only removes;
* `Router.alike_remetric`, `Router.thinned_expire` — a change of cost and the periodic sweep leave
  every route in its place;
* `Router.update_parts` — what is done to a route that is advertised again.
-/

set_option relaxedAutoImplicit false
set_option autoImplicit false

namespace DistanceVector

/-- The route apart from whether it is installed. -/
def Route.bare (route : Route) : Route := { route with installed := false }

/-- What stays the same of a route as long as it lives. -/
def Route.fixed (route : Route) : Prefix × NeighbourId × NextHop × InterfaceId :=
  (route.dest, route.neigh, route.nexthop, route.interface)

/-- Where a route leads, and through whom: its destination, its neighbour and its next hop. -/
def Route.place (route : Route) : Prefix × NeighbourId × NextHop :=
  (route.dest, route.neigh, route.nexthop)

namespace Router

variable {α β : Type} {view : Route → α} {now : Instant} {dest dest' : Prefix}
  {r r' r₁ r₂ r₃ : Router} {id : RouteId} {route : Route}

/-! ### Views of the routes -/

/-- What a view shows of the route of a name. -/
def shown (r : Router) (view : Route → α) (id : RouteId) : Option α := (r.table.get? id).map view

theorem shown_of_get? (hr : r.table.get? id = some route) (view : Route → α) :
    r.shown view id = some (view route) := by
  rw [shown, hr, Option.map_some]

theorem exists_get?_of_shown {a : α} (h : r.shown view id = some a) :
    ∃ route, r.table.get? id = some route ∧ view route = a :=
  Option.map_eq_some_iff.1 h

/-- The view shows the same routes in both states, by the same names. -/
structure Alike (view : Route → α) (r r' : Router) : Prop where
  routes : ∀ id, r'.shown view id = r.shown view id
  nextId : r'.table.nextId = r.table.nextId

/-- Whatever the view shows in the second state, it shows in the first, by the same name. -/
structure Thinned (view : Route → α) (r r' : Router) : Prop where
  routes : ∀ id a, r'.shown view id = some a → r.shown view id = some a
  nextId : r'.table.nextId = r.table.nextId

theorem Alike.trans (h : Alike view r₁ r₂) (h' : Alike view r₂ r₃) : Alike view r₁ r₃ :=
  ⟨fun id => (h'.routes id).trans (h.routes id), h'.nextId.trans h.nextId⟩

theorem Thinned.trans (h : Thinned view r₁ r₂) (h' : Thinned view r₂ r₃) : Thinned view r₁ r₃ :=
  ⟨fun id a hs => h.routes id a (h'.routes id a hs), h'.nextId.trans h.nextId⟩

theorem alike_of_table_eq (h : r'.table = r.table) : Alike view r r' :=
  ⟨fun id => by rw [shown, shown, h], by rw [h]⟩

theorem Alike.thinned (h : Alike view r r') : Thinned view r r' :=
  ⟨fun id _ hs => h.routes id ▸ hs, h.nextId⟩

/-- To change a route so that the view does not notice changes nothing that it shows. -/
theorem alike_of_modify {f : Route → Route} (h : r'.table = r.table.modify id f)
    (hf : ∀ route, view (f route) = view route) : Alike view r r' := by
  refine ⟨fun other => ?_, by rw [h]; rfl⟩
  rw [shown, shown, h, RouteTable.get?_modify]
  split
  · rw [Option.map_map]
    exact congrArg (fun g => (r.table.get? other).map g) (funext hf)
  · rfl

/-- A view that shows less shows no more changes. -/
theorem Alike.coarser (h : Alike view r r') (g : α → β) : Alike (g ∘ view) r r' := by
  have hshown : ∀ (s : Router) (id : RouteId), s.shown (g ∘ view) id = (s.shown view id).map g := by
    intro s id
    rw [shown, shown, Option.map_map]
  exact ⟨fun id => by rw [hshown, hshown, h.routes id], h.nextId⟩

theorem Thinned.coarser (h : Thinned view r r') (g : α → β) : Thinned (g ∘ view) r r' := by
  refine ⟨fun id a hs => ?_, h.nextId⟩
  obtain ⟨route, hr, rfl⟩ := exists_get?_of_shown hs
  obtain ⟨before, hbefore, hsame⟩ := exists_get?_of_shown (h.routes id _ (shown_of_get? hr _))
  rw [shown_of_get? hbefore, Function.comp_apply, hsame, Function.comp_apply]

theorem Alike.fixed (h : Alike Route.bare r r') : Alike Route.fixed r r' := h.coarser Route.fixed

theorem Thinned.fixed (h : Thinned Route.bare r r') : Thinned Route.fixed r r' :=
  h.coarser Route.fixed

theorem Thinned.place (h : Thinned Route.fixed r r') : Thinned Route.place r r' :=
  h.coarser fun f => (f.1, f.2.1, f.2.2.1)

/-! ### Looking for a route -/

theorem alike_setInstalled (r : Router) (id : RouteId) (installed : Bool) :
    Alike Route.bare r (r.setInstalled id installed) :=
  alike_of_modify rfl fun _ => rfl

theorem alike_uninstall (r : Router) (id : RouteId) : Alike Route.bare r (r.uninstall id) := by
  rcases r.table_uninstall id with htable | htable
  · exact alike_of_table_eq htable
  · exact alike_of_modify htable fun _ => rfl

/-- To consider a route rewrites none. -/
theorem alike_consider (r : Router) (now : Instant) (id : RouteId) :
    Alike Route.bare r (r.consider now id) := by
  rcases consider_cases r now id with heq | ⟨route, -, -, heq⟩ | ⟨route, oldId, old, -, -, heq⟩
  · exact alike_of_table_eq (by rw [heq])
  · rw [heq]
    rcases r.table_promoteAlone id route with htable | htable
    · exact alike_of_table_eq htable
    · exact alike_of_modify htable fun _ => rfl
  · rw [heq]
    rcases r.table_promoteOver id route oldId old with htable | htable
    · exact alike_of_table_eq htable
    · have hwithdrawn := r.alike_setInstalled oldId false
      exact hwithdrawn.trans (alike_of_modify htable fun _ => rfl)

theorem alike_replaceLost (r : Router) (now : Instant) (origin : NodeAddress) (dest : Prefix)
    (oldMetric : Metric) : Alike Route.bare r (r.replaceLost now origin dest oldMetric) := by
  unfold replaceLost
  split
  · exact r.alike_consider now _
  · refine alike_of_table_eq ?_
    simp only []
    split
    · rw [table_requestSeqno, table_announce]
    · rw [table_announce]

theorem alike_seekBetter (r : Router) (now : Instant) (route : Route) :
    Alike Route.bare r (r.seekBetter now route) := by
  rcases r.seekBetter_cases now route with heq | ⟨id, -, heq⟩
  · exact alike_of_table_eq (by rw [heq])
  · exact heq ▸ r.alike_consider now id

/-- To draw the conclusions from the change of a route rewrites none. -/
theorem alike_reconsider (r : Router) (now : Instant) (id : RouteId) (oldOrigin : NodeAddress)
    (oldMetric : Metric) : Alike Route.bare r (r.reconsider now id oldOrigin oldMetric) := by
  unfold reconsider
  split
  · exact alike_of_table_eq rfl
  · next route _ =>
    split
    · have hseek : Alike Route.bare r
          (if oldMetric < route.metric then r.seekBetter now route else r) := by
        split
        · exact r.alike_seekBetter now route
        · exact alike_of_table_eq rfl
      generalize (if oldMetric < route.metric then r.seekBetter now route else r) = s at hseek
      simp only []
      split
      · exact hseek.trans (alike_of_table_eq (table_announceChange _ _ _ _))
      · exact hseek
    · exact r.alike_consider now id

/-! ### Removing routes -/

/-- To flush a route removes that one and rewrites none. -/
theorem shown_flush (r : Router) (now : Instant) (id other : RouteId) :
    (r.flush now id).shown Route.bare other =
      if other = id then none else r.shown Route.bare other := by
  have herase : ∀ s : Router, (s.eraseRoute id).shown Route.bare other =
      if other = id then none else s.shown Route.bare other := by
    intro s
    rw [shown, shown, eraseRoute, RouteTable.get?_erase]
    split <;> rfl
  unfold flush
  split
  · next hr =>
    split
    · next hid => rw [hid, shown, ← route?_eq_get?, hr, Option.map_none]
    · rfl
  · split
    · have hreleased : Alike Route.bare r (r.release id) :=
        (r.alike_uninstall id).trans (alike_of_table_eq (r.table_release id))
      rw [(alike_replaceLost _ now _ _ _).routes, herase, hreleased.routes]
    · exact herase r

theorem nextId_flush (r : Router) (now : Instant) (id : RouteId) :
    (r.flush now id).table.nextId = r.table.nextId := by
  unfold flush
  split
  · rfl
  · split
    · rw [(alike_replaceLost _ now _ _ _).nextId]
      exact (congrArg RouteTable.nextId (r.table_release id)).trans (r.alike_uninstall id).nextId
    · rfl

theorem thinned_flush (r : Router) (now : Instant) (id : RouteId) :
    Thinned Route.bare r (r.flush now id) := by
  refine ⟨fun other a hs => ?_, r.nextId_flush now id⟩
  rw [shown_flush] at hs
  split at hs
  · cases hs
  · exact hs

/-- What is done with one route after the other takes away only what the parts of it do. -/
theorem foldl_thinned {f : Router → β → Router}
    (hf : ∀ r b, Thinned view r (f r b)) (l : List β) (r : Router) :
    Thinned view r (l.foldl f r) := by
  induction l generalizing r with
  | nil => exact (alike_of_table_eq rfl).thinned
  | cons b l ih => exact (hf r b).trans (ih (f r b))

theorem thinned_flushNeighbour (r : Router) (now : Instant) (neigh : NeighbourId) :
    Thinned Route.bare r (r.flushNeighbour now neigh) :=
  foldl_thinned (fun r id => r.thinned_flush now id) _ r

theorem thinned_flushIfUseless (r : Router) (now : Instant) (id : RouteId) :
    Thinned Route.bare r (r.flushIfUseless now id) := by
  unfold flushIfUseless
  split
  · exact r.thinned_flush now id
  · exact (alike_of_table_eq rfl).thinned

theorem thinned_evict (r : Router) (now : Instant) : Thinned Route.bare r (r.evict now) := by
  unfold evict
  split
  · exact (alike_of_table_eq rfl).thinned
  · next id _ =>
    have hreport : Alike Route.bare r (r.report (.evicting id)) := alike_of_table_eq rfl
    exact hreport.thinned.trans (thinned_flush _ now id)

/-- To make room removes routes and rewrites none. -/
theorem thinned_makeRoom (r : Router) (now : Instant) : Thinned Route.bare r (r.makeRoom now) := by
  have huseless : Thinned Route.bare r (r.flushUseless now) :=
    foldl_thinned (fun r id => r.thinned_flushIfUseless now id) _ r
  unfold makeRoom
  simp only []
  split
  · exact huseless.trans (thinned_evict _ now)
  · exact huseless

/-! ### Rewriting routes -/

theorem alike_setMetric (r : Router) (id : RouteId) (metric : Metric) :
    Alike Route.fixed r (r.setMetric id metric) := by
  rcases r.table_setMetric id metric with htable | htable
  · exact alike_of_table_eq htable
  · exact alike_of_modify htable fun _ => rfl

theorem alike_retractIfTimedOut (r : Router) (now : Instant) (id : RouteId) (route : Route) :
    Alike Route.fixed r (r.retractIfTimedOut now id route) := by
  unfold retractIfTimedOut
  split
  · exact alike_of_modify rfl fun _ => rfl
  · exact alike_of_table_eq rfl

/-- A change of cost leaves every route in its place. -/
theorem alike_remetric (r : Router) (now : Instant) (id : RouteId) :
    Alike Route.fixed r (r.remetric now id) := by
  unfold remetric
  split
  · exact alike_of_table_eq rfl
  · next route _ =>
    have hset := (r.alike_retractIfTimedOut now id route).trans
      (alike_setMetric _ id (r.currentMetric now route))
    exact hset.trans (alike_reconsider _ now id _ _).fixed

theorem thinned_remetricAll (r : Router) (now : Instant) (ids : List RouteId) :
    Thinned Route.fixed r (r.remetricAll now ids) :=
  foldl_thinned (fun r id => (r.alike_remetric now id).thinned) ids r

/-- To take an advertisement down leaves every route in its place. -/
theorem alike_record (r : Router) (now : Instant) (adv : Advertisement) (feasible : Bool)
    (metric : Metric) (id : RouteId) :
    Alike Route.fixed r (r.record now adv feasible metric id) := by
  have hrecorded : Alike Route.fixed r (r.modifyRoute id (·.withAdvertisement now adv feasible)) :=
    alike_of_modify rfl fun _ => rfl
  exact hrecorded.trans (alike_setMetric _ id metric)

/-- The router that is about to take an advertisement of the route `old` down: if it is unfeasible,
the route was taken out of the forwarding table first, as far as the kernel let it. -/
def readied (r : Router) (adv : Advertisement) (feasible : Bool) (id : RouteId) (old : Route) :
    Router :=
  if !feasible && old.installed then (r.report (.unfeasible old.origin adv)).uninstall id else r

theorem readied_of_feasible (r : Router) (adv : Advertisement) (id : RouteId) (old : Route) :
    r.readied adv true id old = r := rfl

theorem readied_of_not_installed {old : Route} (hi : old.installed = false) (r : Router)
    (adv : Advertisement) (feasible : Bool) (id : RouteId) :
    r.readied adv feasible id old = r := by
  simp [readied, hi]

theorem readied_of_installed {old : Route} (hi : old.installed = true) (r : Router)
    (adv : Advertisement) (id : RouteId) :
    r.readied adv false id old = (r.report (.unfeasible old.origin adv)).uninstall id := by
  simp [readied, hi]

/-- To take a route out of the forwarding table rewrites none, and once its advertisement is taken
down, none is rewritten any more. -/
theorem update_readied (r : Router) (now : Instant) (adv : Advertisement) (feasible : Bool)
    (metric : Metric) (id : RouteId) (old : Route) :
    (AllMoves now r (r.readied adv feasible id old) ∧
        Alike Route.bare r (r.readied adv feasible id old)) ∧
      AllMoves now ((r.readied adv feasible id old).record now adv feasible metric id)
        (r.update now adv feasible metric id old) ∧
      Alike Route.bare ((r.readied adv feasible id old).record now adv feasible metric id)
        (r.update now adv feasible metric id old) := by
  have hstart : AllMoves now r r ∧ Alike Route.bare r r := ⟨.refl, alike_of_table_eq rfl⟩
  have hasked : ∀ s : Router, AllMoves now s (s.requestFeasible metric adv.origin adv.dest) ∧
      Alike Route.bare s (s.requestFeasible metric adv.origin adv.dest) := fun s =>
    ⟨(told_requestFeasible s metric adv.origin adv.dest).moves.all,
      alike_of_table_eq (table_requestFeasible _ _ _ _)⟩
  cases feasible with
  | true =>
      rw [update_of_feasible, readied_of_feasible]
      exact ⟨hstart, reconsider_allMoves _ now id _ _, alike_reconsider _ now id _ _⟩
  | false =>
      cases hi : old.installed with
      | false =>
          rw [update_of_not_installed hi, readied_of_not_installed hi]
          exact ⟨hstart, hasked _⟩
      | true =>
          have hreported : AllMoves now r (r.report (.unfeasible old.origin adv)) ∧
              Alike Route.bare r (r.report (.unfeasible old.origin adv)) :=
            ⟨(told_report "" r _).moves.all, alike_of_table_eq rfl⟩
          rw [readied_of_installed hi]
          refine ⟨⟨hreported.1.trans (uninstall_allMoves _ now id),
            hreported.2.trans (alike_uninstall _ id)⟩, ?_⟩
          cases hw : ((r.report (.unfeasible old.origin adv)).uninstall id).isInstalled id with
          | false =>
              rw [update_of_withdrawn hi hw]
              exact ⟨(hasked _).1.trans (replaceLost_moves _ now _ _ _).all,
                (hasked _).2.trans (alike_replaceLost _ now _ _ _)⟩
          | true =>
              rw [update_of_stuck hi hw]
              exact hasked _

/-- What is done to a route that is advertised again: it is taken out of the forwarding table if it
must be, the advertisement is taken down, and from then on no route is rewritten. -/
theorem update_parts (r : Router) (now : Instant) (adv : Advertisement) (feasible : Bool)
    (metric : Metric) (id : RouteId) (old : Route) :
    ∃ s, (AllMoves now r s ∧ Alike Route.bare r s) ∧
      AllMoves now (s.record now adv feasible metric id)
        (r.update now adv feasible metric id old) ∧
      Alike Route.bare (s.record now adv feasible metric id)
        (r.update now adv feasible metric id old) :=
  ⟨_, r.update_readied now adv feasible metric id old⟩

/-- The route that an advertisement is about stays in its place, and so do the others. -/
theorem alike_update (r : Router) (now : Instant) (adv : Advertisement) (feasible : Bool)
    (metric : Metric) (id : RouteId) (old : Route) :
    Alike Route.fixed r (r.update now adv feasible metric id old) := by
  obtain ⟨s, ⟨-, hbefore⟩, -, hafter⟩ := r.update_parts now adv feasible metric id old
  exact (hbefore.fixed.trans (s.alike_record now adv feasible metric id)).trans hafter.fixed

/-- A refresh that is asked for changes neither the table nor the kernel. -/
theorem refreshIfNeeded_silent (r : Router) (now : Instant) (id : RouteId) :
    (r.refreshIfNeeded now id).table = r.table ∧ (r.refreshIfNeeded now id).kernel = r.kernel := by
  unfold refreshIfNeeded
  split
  · exact ⟨rfl, rfl⟩
  split <;> exact ⟨rfl, rfl⟩

/-- To visit a route in the periodic sweep is to remove it, or to recompute its metric and to ask
for a refresh. -/
theorem expireRoute_cases (r : Router) (now : Instant) (id : RouteId) :
    r.expireRoute now id = r.flush now id ∨
      r.expireRoute now id = (r.remetric now id).refreshIfNeeded now id := by
  unfold expireRoute
  split
  · next hr => exact .inl (flush_of_absent hr now).symm
  · split
    · exact .inl rfl
    · exact .inr rfl

/-- To visit a route in the periodic sweep leaves every route that stays in its place. -/
theorem thinned_expireRoute (r : Router) (now : Instant) (id : RouteId) :
    Thinned Route.fixed r (r.expireRoute now id) := by
  rcases r.expireRoute_cases now id with heq | heq
  · exact heq ▸ (r.thinned_flush now id).fixed
  · have hsame : Alike Route.fixed (r.remetric now id) (r.expireRoute now id) := by
      rw [heq]
      exact alike_of_table_eq (refreshIfNeeded_silent _ now id).1
    exact ((r.alike_remetric now id).trans hsame).thinned

theorem thinned_withRoom (r : Router) (now : Instant) :
    Thinned Route.bare r (r.withRoom now) := by
  unfold withRoom
  split
  · exact r.thinned_makeRoom now
  · exact (alike_of_table_eq rfl).thinned

theorem table_retryLeftover (r : Router) (dest : Prefix) :
    (r.retryLeftover dest).table = r.table := by
  unfold retryLeftover
  split
  · rfl
  · simp only []
    split <;> rfl

theorem table_retryLeftovers (r : Router) : r.retryLeftovers.table = r.table := by
  unfold retryLeftovers
  generalize r.leftovers.keys = dests
  induction dests generalizing r with
  | nil => rfl
  | cons dest dests ih => rw [List.foldl_cons, ih, table_retryLeftover]

/-- The periodic sweep only takes routes away. -/
theorem thinned_expire (r : Router) (now : Instant) : Thinned Route.fixed r (r.expire now) := by
  have htable : (r.report .expiring).retryLeftovers.table = r.table := table_retryLeftovers _
  exact (alike_of_table_eq htable).thinned.trans
    (foldl_thinned (fun r id => r.thinned_expireRoute now id) _ _)

end Router

end DistanceVector
