import DistanceVector.Proofs.Choice
import DistanceVector.Proofs.Supply
import DistanceVector.Proofs.Upkeep

/-!
# Loss of a neighbour

When a neighbour is lost, its routes are removed one after the other.  What is installed in the
place of the first may be a route through the same neighbour and be removed in turn; but in the end
the best of the routes that are left is installed, as if it had been chosen once.

Main definitions:

* `Router.Best` — a route is the best of those that may be used, and the oldest of several;
* `Router.BestInstalled` — the best route for the destination is installed.

Main results:

* `Router.best?_eq_some_iff` — **the best route is the one that is best**;
* `Router.owns_flush_iff` — to remove a route that is not installed leaves what is;
* `Router.Unhindered.bestInstalled_flush`, `Router.BestInstalled.flush_other` — the removal of the
  installed route installs the best one, and that of another keeps it;
* `Router.Unhindered.best_after_loss` — **after the loss of a neighbour the best route that is left
  takes the place of one through it**.
-/

set_option relaxedAutoImplicit false
set_option autoImplicit false

namespace DistanceVector

namespace RouteTable

variable {t t' : RouteTable} {dest : Prefix}

/-- Which route is found to be installed depends only on which are. -/
theorem installed?_congr (hex : t.Exclusive dest)
    (h : ∀ id route, t'.Owns dest id route ↔ t.Owns dest id route) :
    t'.installed? dest = t.installed? dest := by
  have hex' : t'.Exclusive dest := fun id id' route route' ho ho' =>
    hex id id' route route' ((h id route).1 ho) ((h id' route').1 ho')
  cases hi : t.installed? dest with
  | some e => exact ((h e.1 e.2).2 (owns_of_installed? hi)).installed?_eq hex'
  | none =>
      rw [installed?_eq_none_iff] at hi ⊢
      exact fun id route ho => hi id route ((h id route).1 ho)

end RouteTable

namespace Router

variable {now : Instant} {dest : Prefix} {r r' s : Router} {id other : RouteId}
  {route route' ρ : Route} {ids : List RouteId} {neigh : NeighbourId}

/-! ### The best route -/

/-- The route of that name leads to the destination and may be used, no such route has a smaller
metric, and none of the same metric is older. -/
structure Best (r : Router) (now : Instant) (dest : Prefix) (id : RouteId) (route : Route) :
    Prop where
  get : r.table.get? id = some route
  dest_eq : route.dest = dest
  eligible : r.eligible now true none route = true
  least : ∀ other ρ, r.table.get? other = some ρ → ρ.dest = dest →
    r.eligible now true none ρ = true → route.metric ≤ ρ.metric
  oldest : ∀ other ρ, r.table.get? other = some ρ → ρ.dest = dest →
    r.eligible now true none ρ = true → ρ.metric = route.metric → id ≤ other

theorem best_of_best? (h : r.best? now dest true none = some (id, route)) :
    Best r now dest id route := by
  obtain ⟨hr, hd, he⟩ := eligible_of_best? h
  refine ⟨hr, hd, he, fun other ρ hρ hdest heligible => metric_le_of_best? h hρ hdest heligible,
    fun other ρ hρ hdest heligible hsame => ?_⟩
  by_cases hid : other = id
  · exact UInt64.le_of_eq hid.symm
  · rcases precedes_of_best? h (inQuestion_iff.2 ⟨hρ, hdest, heligible⟩) hid with hlt | ⟨-, hlt⟩
    · exact absurd hsame.symm (UInt16.ne_of_lt hlt)
    · exact UInt64.le_of_lt hlt

/-- **The best route is the one that is best.** -/
theorem best?_eq_some_iff :
    r.best? now dest true none = some (id, route) ↔ Best r now dest id route := by
  refine ⟨best_of_best?, fun h => ?_⟩
  cases hbest : r.best? now dest true none with
  | none =>
      have he := best?_eq_none_iff.1 hbest id route h.get h.dest_eq
      rw [h.eligible] at he
      cases he
  | some e =>
      obtain ⟨other, ρ⟩ := e
      have hρ := best_of_best? hbest
      have hmetric : route.metric = ρ.metric := UInt16.le_antisymm
        (h.least other ρ hρ.get hρ.dest_eq hρ.eligible)
        (hρ.least id route h.get h.dest_eq h.eligible)
      obtain rfl : id = other := UInt64.le_antisymm
        (h.oldest other ρ hρ.get hρ.dest_eq hρ.eligible hmetric.symm)
        (hρ.oldest id route h.get h.dest_eq h.eligible hmetric)
      cases h.get.symm.trans hρ.get
      rfl

/-- As long as it stays, the best route is the best of those that are left. -/
theorem Best.of_thinned (h : Best r now dest id route) (hthin : Thinned Route.bare r r')
    (hb : SameBackground r r') (hget : r'.table.get? id = some route')
    (hbare : route'.bare = route.bare) : Best r' now dest id route' := by
  have hbefore : ∀ other ρ, r'.table.get? other = some ρ → ρ.dest = dest →
      r'.eligible now true none ρ = true → ∃ σ, r.table.get? other = some σ ∧ σ.dest = dest ∧
        r.eligible now true none σ = true ∧ σ.metric = ρ.metric := by
    intro other ρ hρ hd he
    obtain ⟨σ, hσ, hsame⟩ := exists_get?_of_shown (hthin.routes other _ (shown_of_get? hρ _))
    rw [eligible_of_bare_eq hb hsame.symm] at he
    exact ⟨σ, hσ, (congrArg Route.dest hsame :).trans hd, he, (congrArg Route.metric hsame :)⟩
  have hmetric : route'.metric = route.metric := (congrArg Route.metric hbare :)
  refine ⟨hget, (congrArg Route.dest hbare :).trans h.dest_eq, ?_, ?_, ?_⟩
  · rw [eligible_of_bare_eq hb hbare]
    exact h.eligible
  · intro other ρ hρ hd he
    obtain ⟨σ, hσ, hdest, heligible, hsame⟩ := hbefore other ρ hρ hd he
    rw [hmetric, ← hsame]
    exact h.least other σ hσ hdest heligible
  · intro other ρ hρ hd he hleast
    obtain ⟨σ, hσ, hdest, heligible, hsame⟩ := hbefore other ρ hρ hd he
    exact h.oldest other σ hσ hdest heligible (hsame.trans (hleast.trans hmetric))

/-- Where no route may be used, none may be when some of them are gone. -/
theorem best?_eq_none_of_thinned (h : r.best? now dest true none = none)
    (hthin : Thinned Route.bare r r') (hb : SameBackground r r') :
    r'.best? now dest true none = none := by
  rw [best?_eq_none_iff] at h ⊢
  intro other ρ hρ hd
  obtain ⟨σ, hσ, hsame⟩ := exists_get?_of_shown (hthin.routes other _ (shown_of_get? hρ _))
  rw [eligible_of_bare_eq hb hsame.symm]
  exact h other σ hσ ((congrArg Route.dest hsame :).trans hd)

/-! ### The removal of a single route -/

/-- To remove a route that is not installed for a destination leaves what is. -/
theorem owns_flush_iff (hno : ∀ ρ, ¬ r.table.Owns dest id ρ) (now : Instant) :
    (r.flush now id).table.Owns dest other ρ ↔ r.table.Owns dest other ρ := by
  cases hr : r.table.get? id with
  | none => rw [flush_of_absent hr]
  | some route =>
      by_cases hdest : dest = route.dest
      · have hi : route.installed = false := by
          by_contra hi
          exact hno route ⟨hr, by simpa using hi, hdest.symm⟩
        rw [flush_of_not_installed hr hi, eraseRoute, RouteTable.owns_erase]
        exact ⟨And.right, fun ho => ⟨ho.ne_of_not_installed hr hi, ho⟩⟩
      · have hmoves : Moves now route.dest r (r.flush now id) := flush_moves (isFor_dest hr)
        exact hmoves.owns_elsewhere_iff hdest

theorem installed?_flush_other (hex : r.table.Exclusive dest)
    (hno : ∀ ρ, ¬ r.table.Owns dest id ρ) (now : Instant) :
    (r.flush now id).table.installed? dest = r.table.installed? dest :=
  RouteTable.installed?_congr hex fun _ _ => owns_flush_iff hno now

/-- The best of the routes that may be used is installed for the destination, and none if there is
no such route. -/
def BestInstalled (now : Instant) (dest : Prefix) (r : Router) : Prop :=
  r.table.installed? dest = r.best? now dest true none

/-- To remove another route leaves the best one installed. -/
theorem BestInstalled.flush_other (h : BestInstalled now dest r) (hex : r.table.Exclusive dest)
    (hno : ∀ ρ, ¬ r.table.Owns dest id ρ) : BestInstalled now dest (r.flush now id) := by
  have hb := (r.flush_allMoves now id).sameBackground
  rw [BestInstalled, installed?_flush_other hex hno, h]
  cases hbest : r.best? now dest true none with
  | none => exact (best?_eq_none_of_thinned hbest (r.thinned_flush now id) hb).symm
  | some e =>
      have ho := (owns_flush_iff hno now).2 (RouteTable.owns_of_installed? (h.trans hbest))
      exact (best?_eq_some_iff.2 ((best_of_best? hbest).of_thinned (r.thinned_flush now id) hb
        ho.get rfl)).symm

/-- To remove the installed route installs the best of those that are left, and announces it. -/
theorem Unhindered.bestInstalled_flush (h : Unhindered r (r.flush now id))
    (hex : r.table.Exclusive dest) (ho : r.table.Owns dest id route) (hx : dest ∉ r.exports) :
    BestInstalled now dest (r.flush now id) ∧ Announced r (r.flush now id) dest true := by
  have hreleased : Moves now dest r ((r.release id).eraseRoute id) := release_moves ho
  have hvacant := not_owns_of_released hex ho
  have hexclusive := (r.flush_allMoves now id).exclusive hex
  rw [flush_of_owns ho] at h hexclusive ⊢
  generalize (r.release id).eraseRoute id = s at h hreleased hvacant hexclusive ⊢
  have hexports : dest ∉ s.exports := by rwa [hreleased.sameBackground.exports]
  have hreplaced := (h.split hreleased.asked
    (replaceLost_moves s now route.origin dest route.metric).asked).2
  have halike := s.alike_replaceLost now route.origin dest route.metric
  have hb := (replaceLost_moves s now route.origin dest route.metric).sameBackground
  refine ⟨?_, (announced_replaceLost hvacant hexports _ _ _).of_later hreleased.all.outbox⟩
  rw [BestInstalled]
  cases hbest : s.best? now dest true none with
  | none =>
      have htable : (s.replaceLost now route.origin dest route.metric).table = s.table := by
        simp only [replaceLost, hbest]
        split
        · rw [table_requestSeqno, table_announce]
        · rfl
      rw [best?_eq_none_of_thinned hbest halike.thinned hb, htable,
        RouteTable.installed?_eq_none_iff]
      exact hvacant
  | some e =>
      have howns := hreplaced.owns_replaceLost hvacant hexports hbest
      rw [howns.installed?_eq hexclusive]
      exact (best?_eq_some_iff.2 ((best_of_best? hbest).of_thinned halike.thinned hb howns.get
        rfl)).symm

/-! ### The removal of one route after the other -/

/-- If none of the routes that are removed is installed for a destination, what is installed for it
stays. -/
theorem installed?_flushAll_others (hex : r.table.Exclusive dest)
    (hno : ∀ id ∈ ids, ∀ ρ, ¬ r.table.Owns dest id ρ) (now : Instant) :
    (r.flushAll now ids).table.installed? dest = r.table.installed? dest := by
  induction ids generalizing r with
  | nil => rfl
  | cons flushed ids ih =>
      have hfirst := hno flushed List.mem_cons_self
      rw [flushAll, List.foldl_cons, ← flushAll, ih ((r.flush_allMoves now flushed).exclusive hex),
        installed?_flush_other hex hfirst]
      intro id hid ρ ho
      exact hno id (List.mem_cons_of_mem _ hid) ρ ((owns_flush_iff hfirst now).1 ho)

theorem flushAll_allMoves (r : Router) (now : Instant) (ids : List RouteId) :
    AllMoves now r (r.flushAll now ids) :=
  foldl_moves (fun r id => r.flush_allMoves now id) ids r

/-- Once the best route for a destination is installed, it is so after further removals. -/
theorem Unhindered.bestInstalled_flushAll (h : Unhindered r (r.flushAll now ids))
    (hex : r.table.Exclusive dest) (hx : dest ∉ r.exports) (hbest : BestInstalled now dest r) :
    BestInstalled now dest (r.flushAll now ids) := by
  induction ids generalizing r with
  | nil => exact hbest
  | cons flushed ids ih =>
      have hmoves := r.flush_allMoves now flushed
      obtain ⟨hfirst, hrest⟩ := h.split hmoves.asked ((r.flush now flushed).flushAll_allMoves now
        ids).asked
      refine ih hrest (hmoves.exclusive hex) (by rwa [hmoves.sameBackground.exports]) ?_
      by_cases ho : ∃ ρ, r.table.Owns dest flushed ρ
      · obtain ⟨ρ, ho⟩ := ho
        exact (hfirst.bestInstalled_flush hex ho hx).1
      · exact hbest.flush_other hex (not_exists.1 ho)

/-- If the installed route is among those that are removed, the best one is installed in the end,
and that is announced at once. -/
theorem Unhindered.bestInstalled_of_mem (h : Unhindered r (r.flushAll now ids))
    (hex : r.table.Exclusive dest) (hx : dest ∉ r.exports) (ho : r.table.Owns dest id route)
    (hid : id ∈ ids) :
    BestInstalled now dest (r.flushAll now ids) ∧
      Announced r (r.flushAll now ids) dest true := by
  induction ids generalizing r with
  | nil => cases hid
  | cons flushed ids ih =>
      have hmoves := r.flush_allMoves now flushed
      have hrestMoves := (r.flush now flushed).flushAll_allMoves now ids
      obtain ⟨hfirst, hrest⟩ := h.split hmoves.asked hrestMoves.asked
      have hexclusive : (r.flush now flushed).table.Exclusive dest := hmoves.exclusive hex
      have hexports : dest ∉ (r.flush now flushed).exports := by
        rwa [hmoves.sameBackground.exports]
      by_cases hflushed : id = flushed
      · subst hflushed
        obtain ⟨hbest, hannounced⟩ := hfirst.bestInstalled_flush hex ho hx
        exact ⟨hrest.bestInstalled_flushAll hexclusive hexports hbest,
          hannounced.of_earlier hrestMoves.outbox⟩
      · have hno : ∀ ρ, ¬ r.table.Owns dest flushed ρ := fun ρ hρ =>
          hflushed (hex _ _ _ _ ho hρ)
        obtain ⟨hbest, hannounced⟩ := ih hrest hexclusive hexports
          ((owns_flush_iff hno now).2 ho) ((List.mem_cons.1 hid).resolve_left hflushed)
        exact ⟨hbest, hannounced.of_later hmoves.outbox⟩

/-! ### The loss of a neighbour -/

/-- The loss of a neighbour takes exactly the routes through it out of the table. -/
theorem shown_flushNeighbour (r : Router) (now : Instant) (neigh : NeighbourId) (id : RouteId) :
    (r.flushNeighbour now neigh).shown Route.bare id =
      (r.shown Route.bare id).filter fun route => route.neigh != neigh := by
  have hmem : id ∈ r.table.idsThrough neigh ↔
      ∃ route, r.table.get? id = some route ∧ (route.neigh == neigh) = true :=
    RouteTable.mem_idsWhere_iff
  rw [flushNeighbour, shown_flushAll]
  cases hr : r.table.get? id with
  | none => simp [shown, hr]
  | some route =>
      rw [shown_of_get? hr, Option.filter_some]
      by_cases hn : route.neigh = neigh
      · rw [if_pos (hmem.2 ⟨route, hr, by simpa using hn⟩), if_neg (by simp [Route.bare, hn])]
      · rw [if_neg, if_pos (by simp [Route.bare, hn])]
        intro hid
        obtain ⟨ρ, hρ, htest⟩ := hmem.1 hid
        cases hr.symm.trans hρ
        exact hn (by simpa using htest)

/-- **After the loss of a neighbour the best route that is left takes the place of one through it.**
If at most one route is installed for each destination and no fault strikes, then exactly the routes
through the neighbour leave the table, and nothing happens to the others but that some may be
installed.  For a destination that this node does not announce itself and whose installed route led
through the neighbour, the installed route is the best of those in the table at the end, or none if
there is no such route, and that was announced at once.  Where the installed route, if any, did not
lead through the neighbour, it stays. -/
theorem Unhindered.best_after_loss (h : Unhindered r (r.flushNeighbour now neigh))
    (hex : ∀ dest, r.table.Exclusive dest) :
    (∀ id route, (r.flushNeighbour now neigh).table.get? id = some route →
      route.neigh ≠ neigh) ∧
    (∀ id, (r.flushNeighbour now neigh).shown Route.bare id =
      (r.shown Route.bare id).filter fun route => route.neigh != neigh) ∧
    (∀ dest id route, r.table.Owns dest id route → route.neigh = neigh → dest ∉ r.exports →
      (r.flushNeighbour now neigh).table.installed? dest =
        (r.flushNeighbour now neigh).best? now dest true none ∧
      Announced r (r.flushNeighbour now neigh) dest true) ∧
    (∀ dest, (∀ id route, r.table.Owns dest id route → route.neigh ≠ neigh) →
      (r.flushNeighbour now neigh).table.installed? dest = r.table.installed? dest) := by
  refine ⟨fun id route hr => ?_, r.shown_flushNeighbour now neigh, ?_, ?_⟩
  · have hshown := r.shown_flushNeighbour now neigh id
    rw [shown_of_get? hr] at hshown
    simpa [Route.bare] using (Option.filter_eq_some_iff.1 hshown.symm).2
  · intro dest id route ho hn hx
    exact h.bestInstalled_of_mem (hex dest) hx ho
      (RouteTable.mem_idsWhere_iff.2 ⟨route, ho.get, by simpa using hn⟩)
  · intro dest hno
    refine installed?_flushAll_others (hex dest) (fun id hid ρ ho => ?_) now
    obtain ⟨route, hr, hn⟩ := RouteTable.mem_idsWhere_iff.1 hid
    cases hr.symm.trans ho.get
    exact hno id ρ ho (by simpa using hn)

/-- `rivals` with a second route through the neighbour of the installed one, which is better than
the route through the other neighbour. -/
def twice : Router := rivals.perform 1000 (.receive ⟨"O1", "P", 10, 124, "N1", "H3"⟩)

/-- When the neighbour is lost, its second route is installed and removed in turn, so that the route
through the other neighbour is left. -/
theorem twice_replaced :
    (twice.flush 1001 0).isInstalled 2 = true ∧
      (twice.flushNeighbour 1001 "N1").table.installed? "P" =
        some (1, ⟨"P", "O2", "N2", "H2", 2, 10, 204, 300, 1000, 1000, true⟩) := by
  have hreachable : Reachable twice := .operate reachable_rivals 1000 _
  have hfaultless : twice.kernel.Faultless :=
    (unhindered_perform faultless_rivals 1000 (.receive ⟨"O1", "P", 10, 124, "N1", "H3"⟩)).2
  have hunhindered : Unhindered twice (twice.flushNeighbour 1001 "N1") :=
    (unhindered_perform hfaultless 1001 (.flushNeighbour "N1")).1
  have howns : twice.table.Owns "P" 0
      ⟨"P", "O1", "N1", "H1", 1, 10, 104, 200, 1000, 1000, true⟩ := ⟨by decide +kernel, rfl, rfl⟩
  obtain ⟨-, -, hbest, -⟩ := hunhindered.best_after_loss
    fun dest => (hreachable.soleOwner dest).exclusive
  refine ⟨by decide +kernel, ?_⟩
  rw [(hbest "P" 0 _ howns rfl (by decide +kernel)).1]
  decide +kernel

end Router

end DistanceVector
