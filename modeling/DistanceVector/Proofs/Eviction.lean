import DistanceVector.Proofs.Naming
import DistanceVector.Proofs.Supply

/-!
# Making room

A full table takes up a new route only if another leaves it.  First every route that is of no use is
removed; but to remove an installed one installs another, which may then be of use, so that what is
removed depends on what was removed before.  Only if all routes are of use, the one that is least
missed is removed.

Main definitions:

* `RouteTable.IsOldest` — a route is the oldest of those that pass a test;
* `Router.Bolstered` — routes left the table and others were installed, and nothing else happened;
* `Router.Needed` — a route that is not removed to make room;
* `Router.Cleared` — what left a full table to make room.

Main results:

* `Router.bolstered_flush` — to remove a route takes no other out of the forwarding table;
* `Router.useless_of_visited`, `Router.exists_gone_of_useless` — what the pass over all routes
  leaves, and that it removes something if there is something to remove;
* `Router.cleared_makeRoom`, `Router.makeRoom_of_needed` — **to make room removes what it must and
  nothing else**;
* `Router.receive_of_full` — **what becomes of a new route if the table is full**.
-/

set_option relaxedAutoImplicit false
set_option autoImplicit false

namespace DistanceVector

namespace RouteTable

variable {t t' : RouteTable} {id other : RouteId} {route ρ : Route} {p : Route → Bool}

/-- A table that lost a name and got none is smaller. -/
theorem size_lt_of_ids_subset (h : t'.ids ⊆ t.ids) (hid : id ∈ t.ids) (hgone : id ∉ t'.ids) :
    t'.size < t.size := by
  have hnodup : (id :: t'.ids).Nodup :=
    List.nodup_cons.2 ⟨hgone, t'.routes.pairwise_keys.imp OrderedMap.ne_of_lt⟩
  have hlength := (List.subperm_of_subset hnodup (List.cons_subset.2 ⟨hid, h⟩)).length_le
  simp only [ids, OrderedMap.keys, List.length_cons, List.length_map] at hlength
  exact hlength

/-- The route of that name passes the test, and no older one does. -/
def IsOldest (t : RouteTable) (p : Route → Bool) (id : RouteId) : Prop :=
  (∃ route, t.get? id = some route ∧ p route = true) ∧
    ∀ other ρ, t.get? other = some ρ → p ρ = true → id ≤ other

/-- What a search finds is the oldest of those that pass the test. -/
theorem isOldest_of_find? (h : t.find? p = some (id, route)) : t.IsOldest p id := by
  refine ⟨⟨route, get?_of_find? h⟩, fun other ρ hρ hp => ?_⟩
  obtain ⟨-, older, newer, hlist, holder⟩ := List.find?_eq_some_iff_append.1 h
  have hmem := mem_toList_iff.2 hρ
  have hascending := t.routes.ascending
  rw [toList] at hlist hmem
  rw [hlist] at hmem
  rcases List.mem_append.1 hmem with hmem | hmem
  · have hfails := holder _ hmem
    rw [hp] at hfails
    cases hfails
  · rcases List.mem_cons.1 hmem with heq | hmem
    · exact UInt64.le_of_eq (congrArg Prod.fst heq).symm
    · rw [AscendingKeys, hlist] at hascending
      have hlt := (List.pairwise_cons.1 (List.pairwise_append.1 hascending).2.1).1 _ hmem
      exact UInt64.le_of_lt (RouteId.compare_eq_lt.1 hlt)

/-- The oldest of the routes that pass the test is the one that is found. -/
theorem IsOldest.find?_eq (h : t.IsOldest p id) (hr : t.get? id = some route) :
    t.find? p = some (id, route) := by
  obtain ⟨⟨ρ, hρ, hp⟩, holdest⟩ := h
  cases hfound : t.find? p with
  | none => cases hp.symm.trans (find?_eq_none_iff.1 hfound id ρ hρ)
  | some e =>
      obtain ⟨hget, htest⟩ := get?_of_find? hfound
      have hle := (isOldest_of_find? hfound).2 id ρ hρ hp
      obtain rfl : e.1 = id := UInt64.le_antisymm hle (holdest e.1 e.2 hget htest)
      rw [Option.some.inj (hr.symm.trans hget)]

end RouteTable

namespace Router

variable {now : Instant} {dest : Prefix} {r r' r₁ r₂ r₃ s t : Router} {id other visited : RouteId}
  {route route' ρ : Route} {adv : Advertisement} {ids : List RouteId}

/-! ### What is left of the routes -/

/-- Between the two states, routes left the table and others may have been installed; nothing else
happened to those that stayed. -/
structure Bolstered (r r' : Router) : Prop where
  params : r'.params = r.params
  before : ∀ id route', r'.table.get? id = some route' → ∃ route, r.table.get? id = some route ∧
    route'.bare = route.bare ∧ (route.installed = true → route'.installed = true)

theorem Bolstered.refl (r : Router) : Bolstered r r := ⟨rfl, fun _ route h => ⟨route, h, rfl, id⟩⟩

theorem Bolstered.trans (h : Bolstered r₁ r₂) (h' : Bolstered r₂ r₃) : Bolstered r₁ r₃ := by
  refine ⟨h'.params.trans h.params, fun id route₃ hr₃ => ?_⟩
  obtain ⟨route₂, hr₂, hbare, hinstalled⟩ := h'.before id route₃ hr₃
  obtain ⟨route₁, hr₁, hbare', hinstalled'⟩ := h.before id route₂ hr₂
  exact ⟨route₁, hr₁, hbare.trans hbare', fun hi => hinstalled (hinstalled' hi)⟩

theorem Bolstered.ids_subset (h : Bolstered r r') : r'.table.ids ⊆ r.table.ids := by
  intro id hid
  obtain ⟨route', hr'⟩ := RouteTable.mem_ids_iff.1 hid
  obtain ⟨route, hr, -⟩ := h.before id route' hr'
  exact RouteTable.mem_ids_iff.2 ⟨route, hr⟩

/-- A route that is of no use was of none before: it may have been installed, but not withdrawn. -/
theorem Bolstered.useless (h : Bolstered r r') (hr : r.table.get? id = some route)
    (hr' : r'.table.get? id = some route') (hu : r'.useless now route' = true) :
    r.useless now route = true := by
  obtain ⟨before, hbefore, hbare, hinstalled⟩ := h.before id route' hr'
  obtain rfl := Option.some.inj (hbefore.symm.trans hr)
  have htime : route'.time = before.time := (congrArg Route.time hbare :)
  have hmetric : route'.metric = before.metric := (congrArg Route.metric hbare :)
  rw [Router.useless, h.params, htime, Route.reachable, hmetric] at hu
  rw [Router.useless, Route.reachable]
  cases hi : before.installed with
  | false => rw [(Bool.and_eq_true_iff.1 hu).1, Bool.not_false, Bool.true_or, Bool.true_and]
  | true => rwa [hinstalled hi] at hu

/-- To remove a route takes no other out of the forwarding table. -/
theorem bolstered_flush (hex : ∀ dest, r.table.Exclusive dest) (now : Instant) (id : RouteId) :
    Bolstered r (r.flush now id) := by
  refine ⟨(r.flush_allMoves now id).sameBackground.params, fun other route' hr' => ?_⟩
  have hshown := r.shown_flush now id other
  rw [shown_of_get? hr'] at hshown
  split at hshown
  · cases hshown
  next hne =>
  obtain ⟨route, hr, hbare⟩ := exists_get?_of_shown hshown.symm
  refine ⟨route, hr, hbare.symm, fun hi => ?_⟩
  cases hold : r.table.get? id with
  | none =>
      rw [flush_of_absent hold] at hr'
      rwa [← Option.some.inj (hr.symm.trans hr')]
  | some old =>
      cases hinstalled : old.installed with
      | false =>
          rw [flush_of_not_installed hold hinstalled, eraseRoute, RouteTable.get?_erase,
            if_neg hne] at hr'
          rwa [← Option.some.inj (hr.symm.trans hr')]
      | true =>
          -- the other installed route is one for another destination
          have hdest : route.dest ≠ old.dest := fun heq =>
            hne (hex old.dest _ _ _ _ ⟨hr, hi, heq⟩ ⟨hold, hinstalled, rfl⟩)
          have hmoves : Moves now old.dest r (r.flush now id) := flush_moves (isFor_dest hold)
          have hkept := hmoves.get?_kept_elsewhere hdest hr rfl
          rwa [← Option.some.inj (hkept.symm.trans hr')]

/-! ### The pass over all routes -/

theorem flushIfUseless_of_useful (h : ∀ route, r.table.get? id = some route →
    r.useless now route = false) : r.flushIfUseless now id = r := by
  rw [flushIfUseless, if_neg]
  rw [Option.any_eq_true]
  rintro ⟨route, hr, hu⟩
  rw [h route hr] at hu
  cases hu

theorem bolstered_flushIfUseless (hex : ∀ dest, r.table.Exclusive dest) (now : Instant)
    (id : RouteId) : Bolstered r (r.flushIfUseless now id) := by
  unfold flushIfUseless
  split
  · exact bolstered_flush hex now id
  · exact .refl r

/-- The routes of the given names are removed, one after the other, if they are of no use. -/
def flushUselessOf (r : Router) (now : Instant) (ids : List RouteId) : Router :=
  ids.foldl (fun r id => r.flushIfUseless now id) r

theorem flushUselessOf_cons (r : Router) (now : Instant) (id : RouteId) (ids : List RouteId) :
    r.flushUselessOf now (id :: ids) = (r.flushIfUseless now id).flushUselessOf now ids := rfl

theorem exclusive_flushIfUseless (hex : ∀ dest, r.table.Exclusive dest) (now : Instant)
    (id : RouteId) (dest : Prefix) : (r.flushIfUseless now id).table.Exclusive dest :=
  AllMoves.exclusive (r.flushIfUseless_allMoves now id) (hex dest)

theorem bolstered_flushUselessOf (hex : ∀ dest, r.table.Exclusive dest) (now : Instant)
    (ids : List RouteId) : Bolstered r (r.flushUselessOf now ids) := by
  induction ids generalizing r with
  | nil => exact .refl r
  | cons visited ids ih =>
      exact (bolstered_flushIfUseless hex now visited).trans
        (ih (exclusive_flushIfUseless hex now visited))

/-- To visit a route removes no other, and the route itself only if it is of no use. -/
theorem exists_get?_flushIfUseless (hr : r.table.get? id = some route)
    (hu : r.useless now route = false) (visited : RouteId) :
    ∃ route', (r.flushIfUseless now visited).table.get? id = some route' := by
  unfold flushIfUseless
  split
  · next hvisited =>
    have hne : id ≠ visited := by
      rintro rfl
      rw [route?_eq_get?, hr, Option.any_some, hu] at hvisited
      cases hvisited
    have hshown := r.shown_flush now visited id
    rw [if_neg hne, shown_of_get? hr] at hshown
    obtain ⟨route', hr', -⟩ := exists_get?_of_shown hshown
    exact ⟨route', hr'⟩
  · exact ⟨route, hr⟩

/-- The pass removes only routes that are of no use. -/
theorem exists_get?_of_useful (hex : ∀ dest, r.table.Exclusive dest)
    (hr : r.table.get? id = some route) (hu : r.useless now route = false) (ids : List RouteId) :
    ∃ route', (r.flushUselessOf now ids).table.get? id = some route' := by
  induction ids generalizing r route with
  | nil => exact ⟨route, hr⟩
  | cons visited ids ih =>
      obtain ⟨ρ, hρ⟩ := exists_get?_flushIfUseless hr hu visited
      refine ih (exclusive_flushIfUseless hex now visited) hρ ?_
      refine Bool.eq_false_iff.2 fun huseless => ?_
      rw [(bolstered_flushIfUseless hex now visited).useless hr hρ huseless] at hu
      cases hu

theorem get?_flush_self (r : Router) (now : Instant) (id : RouteId) :
    (r.flush now id).table.get? id = none := by
  have hshown := r.shown_flush now id id
  rwa [if_pos rfl, shown, Option.map_eq_none_iff] at hshown

/-- A route that is still there after its visit is of use. -/
theorem useful_of_visit (hr : (r.flushIfUseless now id).table.get? id = some route) :
    (r.flushIfUseless now id).useless now route = false := by
  by_cases hvisited : (r.route? id).any (r.useless now) = true
  · rw [flushIfUseless, if_pos hvisited, get?_flush_self] at hr
    cases hr
  · rw [flushIfUseless, if_neg hvisited] at hr ⊢
    rw [route?_eq_get?, hr, Option.any_some] at hvisited
    exact Bool.eq_false_iff.2 hvisited

/-- After the pass, every route that was visited is of use. -/
theorem useful_of_visited (hex : ∀ dest, r.table.Exclusive dest) (hid : id ∈ ids)
    (hr : (r.flushUselessOf now ids).table.get? id = some route) :
    (r.flushUselessOf now ids).useless now route = false := by
  induction ids generalizing r with
  | nil => cases hid
  | cons visited ids ih =>
      rw [flushUselessOf_cons] at hr ⊢
      have hex' := exclusive_flushIfUseless hex now visited
      rcases List.mem_cons.1 hid with rfl | hid
      · -- the rest of the pass may only have installed it
        have hrest := bolstered_flushUselessOf hex' now ids
        obtain ⟨ρ, hρ, -⟩ := hrest.before id route hr
        have huseful := useful_of_visit hρ
        refine Bool.eq_false_iff.2 fun huseless => ?_
        rw [hrest.useless hρ hr huseless] at huseful
        cases huseful
      · exact ih hex' hid hr

/-- If there is nothing to remove, nothing happens. -/
theorem flushUselessOf_of_useful (h : ∀ id route, r.table.get? id = some route →
    r.useless now route = false) (ids : List RouteId) : r.flushUselessOf now ids = r := by
  induction ids with
  | nil => rfl
  | cons visited ids ih => rw [flushUselessOf_cons, flushIfUseless_of_useful (h visited), ih]

/-- If there is something to remove, something is removed. -/
theorem exists_gone_of_useless (hex : ∀ dest, r.table.Exclusive dest) (hid : id ∈ ids)
    (hr : r.table.get? id = some route) (hu : r.useless now route = true) :
    ∃ other, other ∈ r.table.ids ∧ other ∉ (r.flushUselessOf now ids).table.ids := by
  induction ids with
  | nil => cases hid
  | cons visited ids ih =>
      rw [flushUselessOf_cons]
      cases hv : (r.route? visited).any (r.useless now) with
      | true =>
          obtain ⟨ρ, hρ, -⟩ := (Option.any_eq_true _ _).1 hv
          refine ⟨visited, RouteTable.mem_ids_iff.2 ⟨ρ, hρ⟩, fun hkept => ?_⟩
          have hrest := bolstered_flushUselessOf (exclusive_flushIfUseless hex now visited) now ids
          obtain ⟨σ, hσ⟩ := RouteTable.mem_ids_iff.1 (hrest.ids_subset hkept)
          rw [flushIfUseless, if_pos hv, get?_flush_self] at hσ
          cases hσ
      | false =>
          have hsame : r.flushIfUseless now visited = r := by
            rw [flushIfUseless, hv, if_neg Bool.false_ne_true]
          rw [hsame]
          refine ih ((List.mem_cons.1 hid).resolve_left ?_)
          rintro rfl
          rw [route?_eq_get?, hr, Option.any_some, hu] at hv
          cases hv

/-! ### The whole -/

/-- A route that is not removed to make room: it is installed and feasible, and it is not both old
and out of reach. -/
def Needed (r : Router) (now : Instant) (route : Route) : Prop :=
  route.installed = true ∧ r.routeFeasible now route = true ∧
    ¬ (route.time.expired r.params.dropDelay now = true ∧ route.reachable = false)

instance (r : Router) (now : Instant) (route : Route) : Decidable (r.Needed now route) :=
  inferInstanceAs (Decidable (_ ∧ _ ∧ ¬ (_ ∧ _)))

/-- The name was that of a route before, and is no more. -/
def Left (r t : Router) (id : RouteId) : Prop := id ∈ r.table.ids ∧ id ∉ t.table.ids

/-- The route of that name is the one that is least missed: the oldest that is not feasible, or if
all are, the oldest that is not installed. -/
def LeastMissed (r : Router) (now : Instant) (id : RouteId) : Prop :=
  r.table.IsOldest (fun route => !r.routeFeasible now route) id ∨
    (∀ other ρ, r.table.get? other = some ρ → r.routeFeasible now ρ = true) ∧
      r.table.IsOldest (fun route => !route.installed) id

/-- What left the table to make room. -/
structure Cleared (now : Instant) (r t : Router) : Prop where
  /-- Nothing happened to the routes that stayed, but that some may have been installed. -/
  bolstered : Bolstered r t
  /-- If there are routes of no use, some of them leave the table, no other does, and none that is
  of no use stays. -/
  useless : ∀ id route, r.table.get? id = some route → r.useless now route = true →
    (∃ other, Left r t other) ∧
    (∀ other ρ, r.table.get? other = some ρ → Left r t other → r.useless now ρ = true) ∧
    ∀ other ρ, t.table.get? other = some ρ → t.useless now ρ = false
  /-- If there are none, the one that is least missed leaves it, and no other. -/
  victim : (∀ id route, r.table.get? id = some route → r.useless now route = false) →
    ∃ victim, r.LeastMissed now victim ∧ ∀ id, Left r t id ↔ id = victim
  /-- An installed route that is feasible and reachable stays. -/
  safe : ∀ id route, r.table.get? id = some route → route.installed = true →
    r.routeFeasible now route = true → route.reachable = true → ¬ Left r t id
  /-- There is room then. -/
  room : t.table.isFull = false

theorem needed_iff : r.Needed now route ↔ r.useless now route = false ∧
    r.routeFeasible now route = true ∧ route.installed = true := by
  unfold Needed useless
  cases route.installed <;> cases route.reachable <;> simp [and_comm]

/-- There is a route that is least missed unless all are feasible and installed. -/
theorem victim?_cases (r : Router) (now : Instant) :
    (r.victim? now = none ∧ ∀ id route, r.table.get? id = some route →
      r.routeFeasible now route = true ∧ route.installed = true) ∨
    ∃ victim, r.victim? now = some victim ∧ r.LeastMissed now victim := by
  cases hunfeasible : r.table.find? fun route => !r.routeFeasible now route with
  | some e =>
      refine .inr ⟨e.1, ?_, .inl (RouteTable.isOldest_of_find? hunfeasible)⟩
      rw [victim?, hunfeasible, Option.some_or, Option.map_some]
  | none =>
      have hfeasible : ∀ id route, r.table.get? id = some route →
          r.routeFeasible now route = true := fun id route hr => by
        simpa using RouteTable.find?_eq_none_iff.1 hunfeasible id route hr
      cases hidle : r.table.find? fun route => !route.installed with
      | some e =>
          refine .inr ⟨e.1, ?_, .inr ⟨hfeasible, RouteTable.isOldest_of_find? hidle⟩⟩
          rw [victim?, hunfeasible, hidle, Option.none_or, Option.map_some]
      | none =>
          refine .inl ⟨?_, fun id route hr => ⟨hfeasible id route hr, ?_⟩⟩
          · rw [victim?, hunfeasible, hidle, Option.none_or, Option.map_none]
          · simpa using RouteTable.find?_eq_none_iff.1 hidle id route hr

/-- The route that is least missed is not both feasible and installed. -/
theorem LeastMissed.not_both (h : r.LeastMissed now id) (hr : r.table.get? id = some route)
    (hf : r.routeFeasible now route = true) (hi : route.installed = true) : False := by
  rcases h with ⟨⟨ρ, hρ, htest⟩, -⟩ | ⟨-, ⟨ρ, hρ, htest⟩, -⟩
  · obtain rfl := Option.some.inj (hr.symm.trans hρ)
    simp [hf] at htest
  · obtain rfl := Option.some.inj (hr.symm.trans hρ)
    simp [hi] at htest

theorem LeastMissed.exists_get? (h : r.LeastMissed now id) :
    ∃ route, r.table.get? id = some route := by
  rcases h with ⟨⟨route, hr, -⟩, -⟩ | ⟨-, ⟨route, hr, -⟩, -⟩ <;> exact ⟨route, hr⟩

/-- If every route is needed, nothing happens. -/
theorem makeRoom_of_needed (h : ∀ id route, r.table.get? id = some route → r.Needed now route) :
    r.makeRoom now = r := by
  have hpass : r.flushUseless now = r :=
    flushUselessOf_of_useful (fun id route hr => (needed_iff.1 (h id route hr)).1) _
  rw [makeRoom, hpass]
  split
  · rcases r.victim?_cases now with ⟨hnone, -⟩ | ⟨victim, -, hmissed⟩
    · rw [evict, hnone]
    · obtain ⟨route, hr⟩ := hmissed.exists_get?
      obtain ⟨hi, hf, -⟩ := h victim route hr
      exact (hmissed.not_both hr hf hi).elim
  · rfl

/-- To remove a route removes that one alone. -/
theorem left_flush_iff (hr : r.table.get? id = some route) (now : Instant) (other : RouteId) :
    Left r (r.flush now id) other ↔ other = id := by
  have hshown := r.shown_flush now id other
  constructor
  · rintro ⟨hbefore, hafter⟩
    by_contra hne
    rw [if_neg hne] at hshown
    obtain ⟨ρ, hρ⟩ := RouteTable.mem_ids_iff.1 hbefore
    obtain ⟨σ, hσ, -⟩ := exists_get?_of_shown (hshown.trans (shown_of_get? hρ _))
    exact hafter (RouteTable.mem_ids_iff.2 ⟨σ, hσ⟩)
  · rintro rfl
    refine ⟨RouteTable.mem_ids_iff.2 ⟨route, hr⟩, fun hafter => ?_⟩
    obtain ⟨σ, hσ⟩ := RouteTable.mem_ids_iff.1 hafter
    rw [get?_flush_self] at hσ
    cases hσ

/-- A full table that lost a route has room. -/
theorem Left.room (h : Left r t id) (hb : Bolstered r t)
    (hc : t.table.capacity = r.table.capacity)
    (hfull : r.table.size = r.table.capacity.toNat) : t.table.isFull = false := by
  have hlt := RouteTable.size_lt_of_ids_subset hb.ids_subset h.1 h.2
  rw [RouteTable.isFull, hc, ← hfull]
  exact decide_eq_false (Nat.not_le.2 hlt)

/-- If there are routes of no use, the pass over all routes makes room. -/
theorem cleared_of_useless (hex : ∀ dest, r.table.Exclusive dest)
    (hfull : r.table.size = r.table.capacity.toNat) (hr : r.table.get? id = some route)
    (hu : r.useless now route = true) : Cleared now r (r.makeRoom now) := by
  have hb : Bolstered r (r.flushUseless now) := bolstered_flushUselessOf hex now _
  have hmem : ∀ {id route}, r.table.get? id = some route → id ∈ r.table.ids := fun hr =>
    RouteTable.mem_ids_iff.2 ⟨_, hr⟩
  have hremoved : ∀ other ρ, r.table.get? other = some ρ → Left r (r.flushUseless now) other →
      r.useless now ρ = true := by
    intro other ρ hρ hleft
    refine Bool.of_not_eq_false fun huseful => hleft.2 ?_
    exact RouteTable.mem_ids_iff.2 (exists_get?_of_useful hex hρ huseful _)
  obtain ⟨gone, hgone⟩ : ∃ gone, Left r (r.flushUseless now) gone :=
    exists_gone_of_useless hex (hmem hr) hr hu
  have hroom := hgone.room hb (r.flushUseless_allMoves now).capacity hfull
  have hmade : r.makeRoom now = r.flushUseless now := by
    rw [makeRoom, hroom, if_neg Bool.false_ne_true]
  rw [hmade]
  refine ⟨hb, fun _ _ _ _ => ⟨⟨gone, hgone⟩, hremoved, ?_⟩, fun huseful => ?_, ?_, hroom⟩
  · intro other ρ hρ
    exact useful_of_visited hex (hb.ids_subset (RouteTable.mem_ids_iff.2 ⟨ρ, hρ⟩)) hρ
  · cases (huseful id route hr).symm.trans hu
  · intro other ρ hρ hi _ hreachable hleft
    have huseless := hremoved other ρ hρ hleft
    rw [Router.useless, hi, hreachable, Bool.not_true, Bool.or_false, Bool.and_false] at huseless
    cases huseless

/-- If all routes are of use, but not all are needed, one is removed. -/
theorem cleared_of_useful (hex : ∀ dest, r.table.Exclusive dest)
    (hfull : r.table.size = r.table.capacity.toNat)
    (h : ∀ id route, r.table.get? id = some route → r.useless now route = false)
    (hr : r.table.get? id = some route) (hn : ¬ r.Needed now route) :
    Cleared now r (r.makeRoom now) := by
  have hpass : r.flushUseless now = r := flushUselessOf_of_useful h _
  have hmade : r.makeRoom now = r.evict now := by
    rw [makeRoom, hpass, if_pos]
    exact decide_eq_true (Nat.le_of_eq hfull.symm)
  rcases r.victim?_cases now with ⟨-, hall⟩ | ⟨victim, hvictim, hmissed⟩
  · exact absurd (needed_iff.2 ⟨h id route hr, hall id route hr⟩) hn
  have heq : r.makeRoom now = (r.report (.evicting victim)).flush now victim := by
    rw [hmade, evict, hvictim]
  have hb : Bolstered r ((r.report (.evicting victim)).flush now victim) := by
    have hflush := bolstered_flush (r := r.report (.evicting victim)) hex now victim
    exact ⟨hflush.params, hflush.before⟩
  obtain ⟨lost, hlost⟩ := hmissed.exists_get?
  have hleft : ∀ id, Left r ((r.report (.evicting victim)).flush now victim) id ↔ id = victim :=
    left_flush_iff (r := r.report (.evicting victim)) hlost now
  have hroom := ((hleft victim).2 rfl).room hb
    (flush_allMoves (r.report (.evicting victim)) now victim).capacity hfull
  rw [heq]
  refine ⟨hb, fun id ρ hρ huseless => ?_, fun _ => ⟨victim, hmissed, hleft⟩, ?_, hroom⟩
  · cases (h id ρ hρ).symm.trans huseless
  · intro id ρ hρ hi hfeasible _ hgone
    obtain rfl := (hleft id).1 hgone
    exact hmissed.not_both hρ hfeasible hi

theorem cleared_makeRoom (hex : ∀ dest, r.table.Exclusive dest)
    (hfull : r.table.size = r.table.capacity.toNat) (hr : r.table.get? id = some route)
    (hn : ¬ r.Needed now route) : Cleared now r (r.makeRoom now) := by
  by_cases huseless : ∃ id route, r.table.get? id = some route ∧ r.useless now route = true
  · obtain ⟨id, route, hr, hu⟩ := huseless
    exact cleared_of_useless hex hfull hr hu
  · refine cleared_of_useful hex hfull (fun id route hr => ?_) hr hn
    exact Bool.eq_false_iff.2 fun hu => huseless ⟨id, route, hr, hu⟩

/-! ### New routes -/

section Receive

variable {sources : SourceTable} {interface : InterfaceId} {metric : Metric}

/-- The advertisement came over the interface and passes all checks, which put its source on record;
it is feasible and no retraction, and the table has no route for it yet. -/
structure Admissible (r : Router) (now : Instant) (adv : Advertisement) (interface : InterfaceId)
    (sources : SourceTable) : Prop where
  screen : r.screen adv = .ok interface
  observe : r.sources.observe adv.origin adv.dest adv.seqno now = some sources
  feasible : r.feasible now adv.origin adv.dest adv.seqno adv.refmetric = true
  reachable : adv.refmetric.reachable = true
  new : r.table.match? adv.dest adv.neigh adv.nexthop = none

/-- An admissible advertisement is taken up. -/
theorem Admissible.receive_eq (h : Admissible r now adv interface sources) :
    r.receive now adv = adopt { r with sources := sources } now adv interface
      (r.pathMetric adv.origin adv.dest adv.neigh interface adv.refmetric) := by
  have hstill : Router.feasible { r with sources := sources } now adv.origin adv.dest adv.seqno
      adv.refmetric = true :=
    (SourceTable.feasible_of_observe h.observe _ _).trans h.feasible
  simp only [receive, h.screen, h.observe, accept, h.new, hstill, h.reachable, Bool.not_true,
    Bool.false_eq_true, if_false]
  rfl

/-- If every route of a full table is needed, a new one is rejected. -/
theorem adopt_of_needed (hfull : r.table.isFull = true)
    (h : ∀ id route, r.table.get? id = some route → r.Needed now route) :
    r.adopt now adv interface metric = r.reject adv .tableFull := by
  have hnone : r.table.insert? (.ofAdvertisement adv now interface metric) = none :=
    RouteTable.insert?_eq_none_iff.2 hfull
  simp only [adopt, hfull, if_true, makeRoom_of_needed h, hnone]

/-- If room could be made in a full table, a new route takes the next name. -/
theorem adopt_of_room (hfull : r.table.isFull = true)
    (hroom : (r.makeRoom now).table.isFull = false) (adv : Advertisement)
    (interface : InterfaceId) (metric : Metric) :
    (r.adopt now adv interface metric).1 = .ok r.table.nextId ∧
      ∀ id, (r.adopt now adv interface metric).2.shown Route.bare id =
        if id = r.table.nextId then some (.ofAdvertisement adv now interface metric)
        else (r.makeRoom now).shown Route.bare id := by
  have hfound : (r.makeRoom now).table.insert? (.ofAdvertisement adv now interface metric) ≠
      none := fun hnone => by
    rw [RouteTable.insert?_eq_none_iff.1 hnone] at hroom
    cases hroom
  obtain ⟨⟨id, table⟩, ht⟩ := Option.ne_none_iff_exists'.1 hfound
  have hadopt : r.adopt now adv interface metric =
      (.ok id, consider { r.makeRoom now with table := table } now id) := by
    simp only [adopt, hfull, if_true, ht]
  have hid : id = r.table.nextId :=
    (RouteTable.get?_of_insert? ht id).1.trans (r.thinned_makeRoom now).nextId
  rw [hadopt, ← hid]
  refine ⟨rfl, fun other => ?_⟩
  rw [(alike_consider _ now id).routes, shown, shown, (RouteTable.get?_of_insert? ht other).2]
  split <;> rfl

/-- **What becomes of a new route if the table is full.**  It is rejected exactly if every route in
the table is needed, judged with its own source on record, and then nothing is done.  Otherwise
room is made, and it takes the next name. -/
theorem receive_of_full (hex : ∀ dest, r.table.Exclusive dest)
    (hfull : r.table.size = r.table.capacity.toNat)
    (h : Admissible r now adv interface sources) :
    ((r.receive now adv).1 = .error .tableFull ↔ ∀ id route, r.table.get? id = some route →
      Needed { r with sources := sources } now route) ∧
    ((r.receive now adv).1 = .error .tableFull →
      (r.receive now adv).2.table = r.table ∧ (r.receive now adv).2.leftovers = r.leftovers ∧
        (r.receive now adv).2.kernel = r.kernel ∧ (r.receive now adv).2.outbox = r.outbox) ∧
    ((r.receive now adv).1 ≠ .error .tableFull →
      (r.receive now adv).1 = .ok r.table.nextId ∧
      Cleared now { r with sources := sources } (makeRoom { r with sources := sources } now) ∧
      ∀ id, (r.receive now adv).2.shown Route.bare id =
        if id = r.table.nextId then some (.ofAdvertisement adv now interface
          (r.pathMetric adv.origin adv.dest adv.neigh interface adv.refmetric))
        else (makeRoom { r with sources := sources } now).shown Route.bare id) := by
  rw [h.receive_eq]
  generalize r.pathMetric adv.origin adv.dest adv.neigh interface adv.refmetric = metric
  have hisFull : RouteTable.isFull r.table = true := decide_eq_true (Nat.le_of_eq hfull.symm)
  by_cases hneeded : ∀ id route, r.table.get? id = some route →
      Needed { r with sources := sources } now route
  · rw [adopt_of_needed (r := { r with sources := sources }) hisFull hneeded]
    exact ⟨iff_of_true rfl hneeded, fun _ => ⟨rfl, rfl, rfl, rfl⟩, fun h => absurd rfl h⟩
  · simp only [not_forall] at hneeded
    obtain ⟨id, route, hr, hn⟩ := hneeded
    have hcleared : Cleared now { r with sources := sources }
        (makeRoom { r with sources := sources } now) := cleared_makeRoom hex hfull hr hn
    obtain ⟨hok, hroutes⟩ := adopt_of_room (r := { r with sources := sources }) hisFull
      hcleared.room adv interface metric
    have hne : (adopt { r with sources := sources } now adv interface metric).1 ≠
        .error .tableFull := by
      rw [hok]
      exact nofun
    exact ⟨iff_of_false hne fun h => hn (h id route hr), fun h => absurd h hne,
      fun _ => ⟨hok, hcleared, hroutes⟩⟩

end Receive

/-- A router with room for two routes, both taken by routes for `P`.  The installed one was
retracted, but the kernel refused to put the other in its place. -/
def stuck : Router :=
  (({ twoNeighbours [none, none, some (.os 5)] with table := .ofCapacity 2 }.perform 1000
    (.receive ⟨"O1", "P", 10, 104, "N1", "H1"⟩)).perform 1000
      (.receive ⟨"O2", "P", 10, 204, "N2", "H2"⟩)).perform 1001
        (.receive ⟨"O1", "P", 10, 65535, "N1", "H1"⟩)

theorem exclusive_stuck (dest : Prefix) : stuck.table.Exclusive dest := by
  have hstart : Reachable { twoNeighbours [none, none, some (.os 5)] with
      table := .ofCapacity 2 } := .surround (.start { maxRoutes := 2 }) rfl rfl
  have hstuck : Reachable stuck := .operate (.operate (.operate hstart 1000 _) 1000 _) 1001 _
  exact (hstuck.soleOwner dest).exclusive

/-- `stuck` once the source of a route for `Q` is on record. -/
def observing : Router :=
  { stuck with sources := stuck.sources.set (SourceTable.firstSight "O1" "Q" 10 1100) }

/-- Both routes are of no use when room is needed.  But to remove the one installs the other, which
then is of use and stays. -/
theorem room_in_stuck :
    (∀ e ∈ stuck.table.toList, observing.useless 1100 e.2 = true) ∧
      (stuck.receive 1100 ⟨"O1", "Q", 10, 104, "N1", "H1"⟩).1 = .ok 2 ∧
      (∃ other, Left observing (observing.makeRoom 1100) other) ∧
      (stuck.receive 1100 ⟨"O1", "Q", 10, 104, "N1", "H1"⟩).2.table.ids = [1, 2] := by
  have huseless : ∀ e ∈ stuck.table.toList, observing.useless 1100 e.2 = true := by
    decide +kernel
  have hadmissible : Admissible stuck 1100 ⟨"O1", "Q", 10, 104, "N1", "H1"⟩ 1
      observing.sources :=
    ⟨by decide +kernel, by decide +kernel, by decide +kernel, by decide, by decide +kernel⟩
  have hroute : stuck.table.get? 0 = some
      ⟨"P", "O1", "N1", "H1", 1, 10, 65535, 65535, 1000, 1000, true⟩ := by decide +kernel
  obtain ⟨hrejected, -, hroom⟩ := receive_of_full exclusive_stuck (by decide +kernel) hadmissible
  have hne := mt hrejected.1 fun hneeded =>
    (hneeded 0 _ hroute).2.2 ⟨by decide +kernel, by decide⟩
  obtain ⟨hok, hcleared, -⟩ := hroom hne
  have hfirst := huseless (0, _) (RouteTable.mem_toList_iff.2 hroute)
  have hleft := (hcleared.useless 0 _ hroute hfirst).1
  exact ⟨huseless, hok, hleft, by decide +kernel⟩

/-- A router with room for one route, which is taken, and without a record of its source. -/
def unrecorded : Router :=
  let r := { twoNeighbours [] with table := .ofCapacity 1 }.perform 1000
    (.receive ⟨"O1", "P", 10, 104, "N1", "H1"⟩)
  { r with sources := r.sources.forget "O1" "P" }

/-- A router with two routes, of which the installed one has the name that is the next to be given
out. -/
def misnumbered : Router :=
  { twoNeighbours [] with
    table := {
      routes := .ofList [(0, ⟨"P", "O1", "N1", "H1", 1, 10, 104, 200, 1000, 1000, true⟩),
        (1, ⟨"Q", "O2", "N2", "H2", 2, 10, 204, 300, 1000, 1000, false⟩)]
      nextId := 0
      capacity := 2 } }

/-- A route may be evicted because a new advertisement puts its source on record.  And a new route
takes the place of another if the next name is in use. -/
theorem needed_route_leaves :
    (¬ ∀ (r : Router) (now : Instant) (adv : Advertisement) (interface : InterfaceId)
      (sources : SourceTable), (∀ dest, r.table.Exclusive dest) →
      r.table.size = r.table.capacity.toNat → Admissible r now adv interface sources →
      ((r.receive now adv).1 = .error .tableFull ↔
        ∀ id route, r.table.get? id = some route → r.Needed now route)) ∧
    ¬ ∀ (r : Router) (now : Instant) (adv : Advertisement) (interface : InterfaceId)
      (sources : SourceTable), (∀ dest, r.table.Exclusive dest) →
      r.table.size = r.table.capacity.toNat → Admissible r now adv interface sources →
      ∀ id route, r.table.get? id = some route → Needed { r with sources := sources } now route →
        (r.receive now adv).2.shown Route.bare id = some route.bare := by
  constructor
  · intro hclaim
    have hstart : Reachable { twoNeighbours [] with table := .ofCapacity 1 } :=
      .surround (.start { maxRoutes := 1 }) rfl rfl
    have hreachable : Reachable unrecorded := .surround (.operate hstart 1000 _) rfl rfl
    have hiff := hclaim unrecorded 1001 ⟨"O1", "P", 20, 204, "N2", "H2"⟩ 2
      (unrecorded.sources.set (SourceTable.firstSight "O1" "P" 20 1001))
      (fun dest => (hreachable.soleOwner dest).exclusive) (by decide +kernel)
      ⟨by decide +kernel, by decide +kernel, by decide +kernel, by decide, by decide +kernel⟩
    have hneeded : ∀ e ∈ unrecorded.table.toList, unrecorded.Needed 1001 e.2 := by decide +kernel
    have hok : (unrecorded.receive 1001 ⟨"O1", "P", 20, 204, "N2", "H2"⟩).1 = .ok 1 := by
      decide +kernel
    cases hok.symm.trans (hiff.2 fun id route hr =>
      hneeded (id, route) (RouteTable.mem_toList_iff.2 hr))
  · intro hclaim
    have hinstalled : ∀ e ∈ misnumbered.table.toList, e.2.installed = true → e.1 = 0 := by
      decide +kernel
    have hexclusive : ∀ dest, misnumbered.table.Exclusive dest := by
      intro dest id id' route route' ho ho'
      have hid := hinstalled (id, route) (RouteTable.mem_toList_iff.2 ho.get) ho.installed
      have hid' := hinstalled (id', route') (RouteTable.mem_toList_iff.2 ho'.get) ho'.installed
      exact hid.trans hid'.symm
    have hshown := hclaim misnumbered 1001 ⟨"O3", "R", 10, 104, "N1", "H1"⟩ 1
      (misnumbered.sources.set (SourceTable.firstSight "O3" "R" 10 1001)) hexclusive
      (by decide +kernel)
      ⟨by decide +kernel, by decide +kernel, by decide +kernel, by decide, by decide +kernel⟩
      0 ⟨"P", "O1", "N1", "H1", 1, 10, 104, 200, 1000, 1000, true⟩ (by decide +kernel)
      (by decide +kernel)
    revert hshown
    decide +kernel

end Router

end DistanceVector
