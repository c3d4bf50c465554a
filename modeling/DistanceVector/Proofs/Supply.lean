import DistanceVector.Proofs.Faultless

/-!
# No black holes

After the periodic sweep, a destination for which there is a usable route has an installed route,
and a reachable one if the usable route is good enough.  The sweep looks after the routes one by
one, and what is decided at one route may be undone at the next; what lasts is that every route
visited so far is heeded.

Main definitions:

* `Router.Supplied` — a route is installed for the destination, and reachable if one of the given
  metric is good enough;
* `Router.Heeded` — if a route may be used, its destination is supplied.

Main results:

* `Router.Supplied.consider`, `Router.Supplied.seekBetter` — to consider a route cuts no supply;
* `Router.candidate?_of_better` — the best route is a candidate if it is better than the installed
  one;
* `Router.Unhindered.heeded_visited`, `Router.Unhindered.heeded_others` — **the sweep heeds the
  route that it visits and goes on heeding the others**;
* `Router.Unhindered.supplied_expire` — after the sweep, every usable route is heeded.
-/

set_option relaxedAutoImplicit false
set_option autoImplicit false

namespace DistanceVector.Router

variable {now : Instant} {dest dest' : Prefix} {r r' s : Router} {id other oldId : RouteId}
  {route old new ρ : Route} {m : Metric}

/-! ### Supply -/

/-- A route is installed for the destination.  If a route of metric `m` is good enough to take the
place of an unreachable one with a margin, then the installed route is reachable. -/
def Supplied (r : Router) (dest : Prefix) (m : Metric) : Prop :=
  ∃ id ρ, r.table.Owns dest id ρ ∧
    (m.toNat + routeMargin ≤ Metric.infinity.toNat → ρ.reachable = true)

/-- If the route is one for the destination and may be used, the destination is supplied. -/
def Heeded (now : Instant) (dest : Prefix) (r : Router) (id : RouteId) : Prop :=
  ∀ route, r.table.get? id = some route → route.dest = dest →
    r.eligible now true none route = true → Supplied r dest route.metric

/-- A metric with a margin below infinity is that of something reachable. -/
theorem reachable_of_margin (h : m.toNat + routeMargin ≤ Metric.infinity.toNat) :
    m.reachable = true := by
  rw [Metric.reachable_iff]
  simp only [routeMargin, Metric.toNat_infinity] at h
  omega

theorem reachable_of_le {n : Metric} (h : n ≤ m) (hm : m.reachable = true) :
    n.reachable = true := by
  rw [Metric.reachable_iff] at hm ⊢
  exact Nat.lt_of_le_of_lt (UInt16.le_iff_toNat_le.1 h) hm

theorem supplied_of_owns (ho : r.table.Owns dest id route) (hm : route.metric ≤ m) :
    Supplied r dest m :=
  ⟨id, route, ho, fun hmargin => reachable_of_le hm (reachable_of_margin hmargin)⟩

theorem Supplied.of_table_eq (h : Supplied r dest m) (ht : r'.table = r.table) :
    Supplied r' dest m := by
  obtain ⟨id, ρ, ho, hreachable⟩ := h
  exact ⟨id, ρ, ht ▸ ho, hreachable⟩

/-- Moves for another destination cut no supply. -/
theorem Supplied.elsewhere (h : Supplied r dest m) (hmoves : Moves now dest' r r')
    (hne : dest ≠ dest') : Supplied r' dest m := by
  obtain ⟨id, ρ, ho, hreachable⟩ := h
  exact ⟨id, ρ, (hmoves.owns_elsewhere_iff hne).2 ho, hreachable⟩

/-- To consider a route cuts no supply: what takes the place of an installed route is
reachable. -/
theorem Supplied.consider (h : Supplied r dest m) (now : Instant) (id : RouteId) :
    Supplied (r.consider now id) dest m := by
  obtain ⟨d, hd⟩ := r.exists_isFor id
  by_cases hdest : dest = d
  · subst hdest
    cases hc : r.candidate? now id with
    | none => exact h.of_table_eq (by simp [Router.consider, hc])
    | some route =>
        obtain ⟨hr, hi, -, -⟩ := get?_of_candidate? hc
        have hroute := hd route hr
        cases ho : r.table.installed? route.dest with
        | none =>
            obtain ⟨owner, ρ, howns, -⟩ := h
            rw [hroute] at ho
            exact absurd ho howns.installed?_ne_none
        | some e =>
            obtain ⟨oldId, old⟩ := e
            by_cases hgain :
                shouldSwitch old.metric route.metric (old.origin == route.origin) = true
            · have hconsider : r.consider now id = r.promoteOver id route oldId old := by
                simp [Router.consider, hc, ho, hgain]
              rw [hconsider]
              rcases r.table_promoteOver id route oldId old with htable | htable
              · exact h.of_table_eq htable
              · have hreachable : route.metric.reachable = true := by
                  rw [shouldSwitch, Bool.and_eq_true] at hgain
                  exact hgain.1
                have hne := (RouteTable.owns_of_installed? ho).ne_of_not_installed hr hi
                refine ⟨id, { route with installed := true }, ?_, fun _ => hreachable⟩
                rw [htable, ← hroute]
                exact RouteTable.owns_of_exchanged hr hne
            · exact h.of_table_eq (by simp [Router.consider, hc, ho, hgain])
  · exact h.elsewhere (consider_moves hd) hdest

theorem Supplied.seekBetter (h : Supplied r dest m) (now : Instant) (route : Route) :
    Supplied (r.seekBetter now route) dest m := by
  rcases r.seekBetter_cases now route with heq | ⟨id, -, heq⟩
  · rwa [heq]
  · rw [heq]
    exact h.consider now id

/-! ### What may be used -/

/-- Whether a route may be used does not depend on whether it is installed. -/
theorem eligible_of_bare_eq (hb : SameBackground r r') (h : new.bare = old.bare) (now : Instant)
    (feasibleOnly : Bool) (exclude : Option NeighbourId) :
    r'.eligible now feasibleOnly exclude new = r.eligible now feasibleOnly exclude old := by
  have hsame : ∀ ρ : Route, r.eligible now feasibleOnly exclude ρ =
      r.eligible now feasibleOnly exclude ρ.bare := fun _ => rfl
  rw [eligible, hb.routeFeasible, timedOut, hb.params]
  exact (hsame new).trans ((congrArg _ h).trans (hsame old).symm)

/-! ### Routes that come into question -/

/-- To consider a candidate supplies its destination. -/
theorem Unhindered.supplied_consider (h : Unhindered r (r.consider now id))
    (hc : r.candidate? now id = some route) :
    Supplied (r.consider now id) route.dest route.metric := by
  cases ho : r.table.installed? route.dest with
  | none =>
      exact supplied_of_owns (h.owns_consider_of_vacant hc ho) (UInt16.le_refl _)
  | some e =>
      obtain ⟨oldId, old⟩ := e
      cases hgain : shouldSwitch old.metric route.metric (old.origin == route.origin) with
      | true => exact supplied_of_owns (h.owns_consider_of_better hc ho hgain) (UInt16.le_refl _)
      | false =>
          rw [consider_of_no_gain hc ho hgain]
          refine ⟨oldId, old, RouteTable.owns_of_installed? ho, fun hmargin => ?_⟩
          -- a reachable candidate would have taken the place of an unreachable route
          by_contra hunreachable
          rw [Bool.not_eq_true, Route.reachable] at hunreachable
          refine Bool.eq_false_iff.1 hgain ?_
          simp [shouldSwitch, reachable_of_margin hmargin, hunreachable]

/-- The best of the routes that may be used is a candidate if it is better than the installed
one. -/
theorem candidate?_of_better (hex : r.table.Exclusive dest) (ho : r.table.Owns dest oldId old)
    (hx : dest ∉ r.exports) (hbest : r.best? now dest true none = some (id, route))
    (hlt : route.metric.toNat < old.metric.toNat) :
    id ≠ oldId ∧ route.dest = dest ∧ r.candidate? now id = some route := by
  obtain ⟨hr, hd, he⟩ := eligible_of_best? hbest
  have hne : id ≠ oldId := by
    rintro rfl
    obtain rfl := Option.some.inj (ho.get.symm.trans hr)
    exact absurd hlt (Nat.lt_irrefl _)
  have hi : route.installed = false := by
    by_contra hi
    exact hne (hex _ _ _ _ ⟨hr, by simpa using hi, hd⟩ ho)
  exact ⟨hne, hd, candidate?_of_get? hr hi (eligible_iff.1 he).2 (hd.symm ▸ hx)⟩

/-- After a loss, the best route that may be used is installed. -/
theorem Unhindered.owns_replaceLost {origin : NodeAddress} {oldMetric : Metric}
    (h : Unhindered r (r.replaceLost now origin dest oldMetric))
    (hn : ∀ id ρ, ¬ r.table.Owns dest id ρ) (hx : dest ∉ r.exports)
    (hbest : r.best? now dest true none = some (id, route)) :
    (r.replaceLost now origin dest oldMetric).table.Owns dest id
      { route with installed := true } := by
  obtain ⟨hc, hvacant, -⟩ := replaceLost_of_best? hn hx hbest origin oldMetric
  obtain ⟨-, rfl, -⟩ := eligible_of_best? hbest
  rw [replaceLost_of_some hbest] at h ⊢
  exact h.owns_consider_of_vacant hc hvacant

/-- The best route takes the place of an unreachable one if some route is good enough. -/
theorem Unhindered.supplied_seekBetter (h : Unhindered r (r.seekBetter now old))
    (hex : r.table.Exclusive dest) (ho : r.table.Owns dest oldId old)
    (hlost : old.reachable = false) (hx : dest ∉ r.exports)
    (hr : r.table.get? id = some route) (hd : route.dest = dest)
    (he : r.eligible now true none route = true)
    (hmargin : route.metric.toNat + routeMargin ≤ Metric.infinity.toNat) :
    Supplied (r.seekBetter now old) dest route.metric := by
  have hinfinite : old.metric = Metric.infinity := Metric.not_reachable_iff.1 hlost
  cases hbest : r.best? now old.dest true none with
  | none =>
      rw [best?_eq_none_iff.1 hbest id route hr (hd.trans ho.dest_eq.symm)] at he
      cases he
  | some e =>
      obtain ⟨best, b⟩ := e
      have hle := metric_le_of_best? hbest hr (hd.trans ho.dest_eq.symm) he
      have hbmargin : b.metric.toNat + routeMargin ≤ old.metric.toNat := by
        rw [hinfinite]
        exact Nat.le_trans (Nat.add_le_add_right (UInt16.le_iff_toNat_le.1 hle) _) hmargin
      obtain ⟨-, hbdest, hc⟩ := candidate?_of_better hex ho hx (ho.dest_eq ▸ hbest)
        (Nat.lt_of_lt_of_le (Nat.lt_add_of_pos_right (by decide)) hbmargin)
      rw [seekBetter_of_margin hbest hbmargin] at h ⊢
      have hsupplied := h.supplied_consider hc
      rw [hbdest] at hsupplied
      obtain ⟨owner, ρ, howns, hρ⟩ := hsupplied
      refine ⟨owner, ρ, howns, fun _ => hρ ?_⟩
      rwa [hinfinite] at hbmargin

/-! ### Routes that changed -/

/-- For an installed route, it is the search for a better one that decides what becomes of the
table; the packets do not matter. -/
theorem reconsider_of_installed (hr : r.table.get? id = some route)
    (hi : route.installed = true) (now : Instant) (oldOrigin : NodeAddress) {oldMetric : Metric}
    (hs : s = if oldMetric < route.metric then r.seekBetter now route else r) :
    (r.reconsider now id oldOrigin oldMetric).table = s.table ∧
      (r.reconsider now id oldOrigin oldMetric).kernel = s.kernel := by
  cases hstill : s.isInstalled id with
  | true =>
      rw [reconsider_of_still_installed hr hi hs hstill]
      exact ⟨table_announceChange _ _ _ _, kernel_announceChange _ _ _ _⟩
  | false =>
      rw [reconsider_of_overtaken hr hi hs hstill]
      exact ⟨rfl, rfl⟩

/-- To draw the conclusions from the change of a route cuts no supply. -/
theorem Supplied.reconsider (h : Supplied r dest m) (now : Instant) (id : RouteId)
    (oldOrigin : NodeAddress) (oldMetric : Metric) :
    Supplied (r.reconsider now id oldOrigin oldMetric) dest m := by
  cases hr : r.table.get? id with
  | none => exact h.of_table_eq (by simp [Router.reconsider, route?, hr])
  | some route =>
      cases hi : route.installed with
      | false =>
          rw [reconsider_of_not_installed hr hi]
          exact h.consider now id
      | true =>
          have hsought : Supplied (if oldMetric < route.metric then r.seekBetter now route else r)
              dest m := by
            split
            · exact h.seekBetter now route
            · exact h
          exact hsought.of_table_eq (reconsider_of_installed hr hi now oldOrigin rfl).1

theorem Heeded.of_same (h : Heeded now dest r id) (ht : r'.table = r.table)
    (hb : SameBackground r r') : Heeded now dest r' id := by
  intro route hr hd he
  rw [eligible_of_bare_eq hb rfl] at he
  exact (h route (ht ▸ hr) hd he).of_table_eq ht

/-- The route that changed is heeded. -/
theorem Unhindered.heeded_reconsidered {oldOrigin : NodeAddress} {oldMetric : Metric}
    (h : Unhindered r (r.reconsider now id oldOrigin oldMetric))
    (hr : r.table.get? id = some route) (hx : route.dest ∉ r.exports) :
    Heeded now route.dest (r.reconsider now id oldOrigin oldMetric) id := by
  intro ρ hρ hd he
  have hmoves : Moves now route.dest r (r.reconsider now id oldOrigin oldMetric) :=
    reconsider_moves (isFor_dest hr) oldOrigin oldMetric
  -- to reconsider a route changes nothing of it but whether it is installed
  have hbare : ρ.bare = route.bare := by
    have hshown := (r.alike_reconsider now id oldOrigin oldMetric).routes id
    rw [shown_of_get? hρ, shown_of_get? hr] at hshown
    exact Option.some.inj hshown
  have hmetric : ρ.metric = route.metric := (congrArg Route.metric hbare :)
  rw [eligible_of_bare_eq hmoves.sameBackground hbare] at he
  rw [hmetric]
  cases hi : route.installed with
  | false =>
      rw [reconsider_of_not_installed hr hi] at h ⊢
      exact h.supplied_consider (candidate?_of_get? hr hi (eligible_iff.1 he).2 hx)
  | true =>
      have hsupplied : Supplied r route.dest route.metric :=
        supplied_of_owns ⟨hr, hi, rfl⟩ (UInt16.le_refl _)
      exact hsupplied.reconsider now id oldOrigin oldMetric

/-- While the installed route was rewritten, the other routes for its destination go on being
heeded: if it was the one that supplied them and is so no more, a better one is sought. -/
theorem Unhindered.supplied_reconsider (hw : Rewritten r s id old new)
    (h : Unhindered s (s.reconsider now id old.origin old.metric))
    (hex : r.table.Exclusive dest) (hold : old.dest = dest) (hx : dest ∉ s.exports)
    (hr : s.table.get? other = some route) (hd : route.dest = dest)
    (he : s.eligible now true none route = true) (hsupplied : Supplied r dest route.metric) :
    Supplied (s.reconsider now id old.origin old.metric) dest route.metric := by
  obtain ⟨owner, ρ, ho, hreachable⟩ := hsupplied
  cases hi : old.installed with
  | false =>
      -- the owner is another route, which was left as it is
      have hne := ho.ne_of_not_installed hw.before hi
      have hkept : Supplied s dest route.metric :=
        ⟨owner, ρ, ⟨(hw.others owner hne).trans ho.get, ho.installed, ho.dest_eq⟩, hreachable⟩
      exact hkept.reconsider now id _ _
  | true =>
      have hold : r.table.Owns dest id old := ⟨hw.before, hi, hold⟩
      obtain rfl := hex _ _ _ _ hold ho
      obtain rfl := Option.some.inj (hold.get.symm.trans ho.get)
      have hnew : s.table.Owns dest id new :=
        ⟨hw.after, hw.installed.trans hi, hw.dest.trans hold.dest_eq⟩
      by_cases hmargin : route.metric.toNat + routeMargin ≤ Metric.infinity.toNat
      · cases hlost : new.reachable with
        | true =>
            have hkept : Supplied s dest route.metric := ⟨id, new, hnew, fun _ => hlost⟩
            exact hkept.reconsider now id _ _
        | false =>
            -- it was reachable before, so it got worse and a better one is sought
            have hworse : old.metric < new.metric := by
              rw [Metric.not_reachable_iff.1 hlost]
              exact UInt16.lt_iff_toNat_lt.2 (Metric.reachable_iff.1 (hreachable hmargin))
            obtain ⟨htable, hkernel⟩ := reconsider_of_installed hnew.get hnew.installed now
              old.origin (if_pos hworse).symm
            have hsought := (h.of_kernel_eq hkernel.symm).supplied_seekBetter
              (hw.exclusive hex) hnew hlost hx hr hd he hmargin
            exact hsought.of_table_eq htable
      · have hkept : Supplied s dest route.metric := ⟨id, new, hnew, fun h => absurd h hmargin⟩
        exact hkept.reconsider now id _ _

/-! ### A single visit -/

/-- After an installed route for the destination was removed, every route is heeded: the best of
those that are left takes its place. -/
theorem Unhindered.supplied_flush (h : Unhindered r (r.flush now oldId))
    (hex : r.table.Exclusive dest) (ho : r.table.Owns dest oldId old) (hx : dest ∉ r.exports)
    (hr : (r.flush now oldId).table.get? id = some route) (hd : route.dest = dest)
    (he : r.eligible now true none route = true) :
    Supplied (r.flush now oldId) dest route.metric := by
  have hreleased : Moves now dest r ((r.release oldId).eraseRoute oldId) := release_moves ho
  have hvacant := not_owns_of_released hex ho
  rw [flush_of_owns ho] at h hr ⊢
  generalize (r.release oldId).eraseRoute oldId = s at h hr hreleased hvacant ⊢
  have hreplaced := (h.split hreleased.asked
    (replaceLost_moves s now old.origin dest old.metric).asked).2
  -- the route was there before the loss was made good, and may have been installed by that
  obtain ⟨ρ, hρ, hbare⟩ := exists_get?_of_shown
    ((s.alike_replaceLost now old.origin dest old.metric).routes id ▸ shown_of_get? hr _)
  have hmetric : ρ.metric = route.metric := (congrArg Route.metric hbare :)
  have hdest : ρ.dest = dest := (congrArg Route.dest hbare :).trans hd
  rw [← eligible_of_bare_eq hreleased.sameBackground hbare] at he
  cases hbest : s.best? now dest true none with
  | none =>
      rw [best?_eq_none_iff.1 hbest id ρ hρ hdest] at he
      cases he
  | some e =>
      obtain ⟨best, b⟩ := e
      have howns := hreplaced.owns_replaceLost hvacant
        (by rwa [hreleased.sameBackground.exports]) hbest
      have hle : b.metric ≤ route.metric := hmetric ▸ metric_le_of_best? hbest hρ hdest he
      exact supplied_of_owns howns hle

/-- To remove a route leaves the other routes for its destination heeded. -/
theorem Unhindered.heeded_flush (h : Unhindered r (r.flush now id))
    (hex : r.table.Exclusive dest) (hr : r.table.get? id = some old) (hdest : old.dest = dest)
    (hx : dest ∉ r.exports) (hheeded : Heeded now dest r other) :
    Heeded now dest (r.flush now id) other := by
  intro route hroute hd he
  have hmoves : Moves now old.dest r (r.flush now id) := flush_moves (isFor_dest hr)
  rw [eligible_of_bare_eq hmoves.sameBackground rfl] at he
  cases hi : old.installed with
  | true => exact h.supplied_flush hex ⟨hr, hi, hdest⟩ hx hroute hd he
  | false =>
      rw [flush_of_not_installed hr hi] at hroute ⊢
      have hbefore : r.table.get? other = some route := by
        rw [eraseRoute, RouteTable.get?_erase] at hroute
        split at hroute
        · cases hroute
        · exact hroute
      -- the owner is not the route that was removed
      obtain ⟨owner, ρ, ho, hreachable⟩ := hheeded route hbefore hd he
      exact ⟨owner, ρ, RouteTable.owns_erase.2 ⟨ho.ne_of_not_installed hr hi, ho⟩, hreachable⟩

/-- To rewrite a route leaves the other routes for its destination heeded. -/
theorem Unhindered.heeded_rewritten (h : Unhindered s (s.reconsider now id old.origin old.metric))
    (hw : Rewritten r s id old new) (hb : SameBackground r s) (hex : r.table.Exclusive dest)
    (hdest : old.dest = dest) (hx : dest ∉ r.exports) (hne : other ≠ id)
    (hheeded : Heeded now dest r other) :
    Heeded now dest (s.reconsider now id old.origin old.metric) other := by
  intro route hroute hd he
  obtain ⟨ρ, hρ, hbare⟩ := exists_get?_of_shown
    ((s.alike_reconsider now id old.origin old.metric).routes other ▸ shown_of_get? hroute _)
  have hmetric : ρ.metric = route.metric := (congrArg Route.metric hbare :)
  have hρdest : ρ.dest = dest := (congrArg Route.dest hbare :).trans hd
  have hconcluded : SameBackground s (s.reconsider now id old.origin old.metric) :=
    (s.reconsider_allMoves now id old.origin old.metric).sameBackground
  rw [eligible_of_bare_eq hconcluded hbare.symm] at he
  have hbefore : Supplied r dest ρ.metric := by
    refine hheeded ρ ((hw.others other hne).symm.trans hρ) hρdest ?_
    rwa [eligible_of_bare_eq hb rfl] at he
  rw [← hmetric]
  exact h.supplied_reconsider hw hex hdest (by rwa [hb.exports]) hρ hρdest he hbefore

/-- To visit a route is to remove it, or to rewrite it, to draw the conclusions and to ask for a
refresh. -/
theorem rewritten_expireRoute (hr : r.table.get? id = some route) (now : Instant) :
    r.expireRoute now id = r.flush now id ∨
    ∃ s new, Rewritten r s id route new ∧ Moves now route.dest r s ∧ r.expireRoute now id =
      (s.reconsider now id route.origin route.metric).refreshIfNeeded now id := by
  obtain ⟨s, new, hw, hmoves, hremetric⟩ := rewritten_remetric hr now
  exact (r.expireRoute_cases now id).imp_right fun heq => ⟨s, new, hw, hmoves, hremetric ▸ heq⟩

theorem Heeded.refreshIfNeeded (h : Heeded now dest r other) (id : RouteId) :
    Heeded now dest (r.refreshIfNeeded now id) other :=
  h.of_same (r.refreshIfNeeded_silent now id).1 (r.refreshIfNeeded_allMoves now id).sameBackground

/-- What remains of an unhindered visit once the route was rewritten is unhindered, too. -/
theorem Unhindered.of_visit {oldOrigin : NodeAddress} {oldMetric : Metric}
    (h : Unhindered r ((s.reconsider now id oldOrigin oldMetric).refreshIfNeeded now id))
    (hs : Asked r s) : Unhindered s (s.reconsider now id oldOrigin oldMetric) := by
  have hconclude : Asked s (s.reconsider now id oldOrigin oldMetric) :=
    (s.reconsider_allMoves now id oldOrigin oldMetric).asked
  have hsilent := (refreshIfNeeded_silent (s.reconsider now id oldOrigin oldMetric) now id).2
  exact ((h.of_kernel_eq hsilent.symm).split hs hconclude).2

/-- **The sweep heeds the route that it visits.** -/
theorem Unhindered.heeded_visited (h : Unhindered r (r.expireRoute now id))
    (hx : dest ∉ r.exports) : Heeded now dest (r.expireRoute now id) id := by
  intro ρ hρ hd he
  obtain ⟨route, hr, hplace⟩ := exists_get?_of_shown
    ((r.thinned_expireRoute now id).routes id _ (shown_of_get? hρ _))
  have hdest : route.dest = dest := (congrArg Prod.fst hplace :).trans hd
  rcases rewritten_expireRoute hr now with hflush | ⟨s, new, hw, hmoves, hvisit⟩
  · have hgone := r.shown_flush now id id
    rw [← hflush, if_pos rfl, shown_of_get? hρ] at hgone
    cases hgone
  · rw [hvisit] at h
    have hnew : new.dest = dest := hw.dest.trans hdest
    have hheeded := (h.of_visit hmoves.asked).heeded_reconsidered hw.after
      (by rwa [hnew, hmoves.sameBackground.exports])
    rw [hnew] at hheeded
    rw [hvisit] at hρ he ⊢
    exact hheeded.refreshIfNeeded id ρ hρ hd he

/-- **The sweep goes on heeding the others.** -/
theorem Unhindered.heeded_others (h : Unhindered r (r.expireRoute now id))
    (hex : r.table.Exclusive dest) (hx : dest ∉ r.exports) (hne : other ≠ id)
    (hheeded : Heeded now dest r other) : Heeded now dest (r.expireRoute now id) other := by
  cases hr : r.table.get? id with
  | none =>
      have hsame : r.expireRoute now id = r := by simp [expireRoute, route?, hr]
      rwa [hsame]
  | some old =>
      have hmoves : Moves now old.dest r (r.expireRoute now id) := expireRoute_moves (isFor_dest hr)
      by_cases hdest : old.dest = dest
      · rcases rewritten_expireRoute hr now with hflush | ⟨s, new, hw, hrewrite, hvisit⟩
        · rw [hflush] at h hmoves ⊢
          exact h.heeded_flush hex hr hdest hx hheeded
        · rw [hvisit] at h ⊢
          exact ((h.of_visit hrewrite.asked).heeded_rewritten hw hrewrite.sameBackground hex hdest
            hx hne hheeded).refreshIfNeeded id
      · -- the visit is to a route for another destination
        intro ρ hρ hd he
        have hbefore := hmoves.get?_elsewhere (Ne.symm hdest) hρ hd
        rw [eligible_of_bare_eq hmoves.sameBackground rfl] at he
        exact (hheeded ρ hbefore hd he).elsewhere hmoves (Ne.symm hdest)

/-! ### The whole sweep -/

/-- Once the routes of the given names were visited one after the other, they are heeded, and so
are those that were heeded before. -/
theorem Unhindered.heeded_sweep {ids : List RouteId}
    (h : Unhindered r (ids.foldl (fun r id => r.expireRoute now id) r))
    (hex : r.table.Exclusive dest) (hx : dest ∉ r.exports)
    (hheeded : ∀ id, id ∉ ids → Heeded now dest r id) (id : RouteId) :
    Heeded now dest (ids.foldl (fun r id => r.expireRoute now id) r) id := by
  induction ids generalizing r with
  | nil => exact hheeded id List.not_mem_nil
  | cons visited ids ih =>
      have hvisit := r.expireRoute_allMoves now visited
      obtain ⟨hfirst, hrest⟩ := h.split hvisit.asked
        (foldl_moves (fun r id => r.expireRoute_allMoves now id) ids _).asked
      refine ih hrest (hvisit.exclusive hex) (by rwa [hvisit.sameBackground.exports]) ?_
      intro other hother
      by_cases hne : other = visited
      · exact hne ▸ hfirst.heeded_visited hx
      · exact hfirst.heeded_others hex hx hne (hheeded other (by simp [hne, hother]))

/-- **After the periodic sweep no usable route goes unheeded.**  If at most one route for the
destination was installed before, this node does not announce the destination itself, and no fault
strikes, then a route that is left, feasible and not timed out means that a route is installed for
the destination; and one that is reachable, if the usable route is at least the margin below
infinity. -/
theorem Unhindered.supplied_expire (h : Unhindered r (r.expire now))
    (hex : r.table.Exclusive dest) (hx : dest ∉ r.exports)
    (hr : (r.expire now).table.get? id = some route) (hd : route.dest = dest)
    (hf : (r.expire now).routeFeasible now route = true)
    (ht : (r.expire now).timedOut now route = false) :
    ∃ owner ρ, (r.expire now).table.installed? dest = some (owner, ρ) ∧
      (route.metric.toNat + 96 ≤ 65535 → ρ.metric.toNat < 65535) := by
  have hretry := r.retryFirst_allMoves now
  -- at first nothing is promised but of the names that no route has
  have hheeded := h.sweep.heeded_sweep (hretry.exclusive hex)
    (by rwa [hretry.sameBackground.exports]) (fun other hother ρ hρ =>
      absurd (RouteTable.mem_ids_iff.2 ⟨ρ, hρ⟩) hother) id
  have heligible : (r.expire now).eligible now true none route = true := eligible_iff.2 ⟨ht, hf⟩
  obtain ⟨owner, ρ, ho, hreachable⟩ := hheeded route hr hd heligible
  refine ⟨owner, ρ, ho.installed?_eq ((r.expire_allMoves now).exclusive hex), fun hmargin => ?_⟩
  exact Metric.reachable_iff.1 (hreachable hmargin)

/-- `rivals` after the route that is not installed was advertised again, while nothing was heard of
the installed one. -/
def lapsed : Router := rivals.perform 1100 (.receive ⟨"O2", "P", 10, 204, "N2", "H2"⟩)

/-- When the installed route times out, the other one takes its place. -/
theorem supplied_after_timeout :
    lapsed.isInstalled 0 = true ∧
      ((lapsed.expire 1170).table.get? 0).map Route.reachable = some false ∧
      ∃ owner ρ, (lapsed.expire 1170).table.installed? "P" = some (owner, ρ) ∧
        ρ.metric.toNat < 65535 := by
  have hfaultless : lapsed.kernel.Faultless :=
    (unhindered_perform faultless_rivals 1100 (.receive ⟨"O2", "P", 10, 204, "N2", "H2"⟩)).2
  have hreachable : Reachable lapsed := .operate reachable_rivals 1100 _
  have hstates : lapsed.isInstalled 0 = true ∧
      ((lapsed.expire 1170).table.get? 0).map Route.reachable = some false := by decide +kernel
  have hroute : (lapsed.expire 1170).table.get? 1 = some
      ⟨"P", "O2", "N2", "H2", 2, 10, 204, 300, 1100, 1000, true⟩ := by decide +kernel
  have husable : "P" ∉ lapsed.exports ∧
      (lapsed.expire 1170).routeFeasible 1170
        ⟨"P", "O2", "N2", "H2", 2, 10, 204, 300, 1100, 1000, true⟩ = true ∧
      (lapsed.expire 1170).timedOut 1170
        ⟨"P", "O2", "N2", "H2", 2, 10, 204, 300, 1100, 1000, true⟩ = false := by decide +kernel
  obtain ⟨hexported, hfeasible, hfresh⟩ := husable
  have hunhindered : Unhindered lapsed (lapsed.expire 1170) :=
    (unhindered_perform hfaultless 1170 .expire).1
  obtain ⟨owner, ρ, hinstalled, hgood⟩ := hunhindered.supplied_expire
    (hreachable.soleOwner "P").exclusive hexported hroute rfl hfeasible hfresh
  exact ⟨hstates.1, hstates.2, owner, ρ, hinstalled, hgood (by decide)⟩

end DistanceVector.Router
