import DistanceVector.Proofs.Upkeep

/-!
# What the periodic sweep leaves

The sweep visits one route after the other, and what it does about one may install or withdraw
another that it has visited already or has still to visit.  It never rewrites another, though, and
whether a route is past its time or timed out depends on nothing that a visit changes.  So every
route comes out of the sweep as its own visit leaves it, whatever the kernel says on the way, but
for its metric: to change that of an installed route takes the kernel's consent.

Main definitions:

* `Router.aged` — a route after its visit, apart from its metric;
* `Router.Aged` — the same, in terms of the fields of the route;
* `Route.unpriced` — a route apart from its metric and from whether it is installed.

Main results:

* `Router.shown_expireRoute` — what one visit does to each route;
* `Router.shown_sweep` — **one after the other, every route is left as its own visit leaves it**;
* `Router.Unhindered.leftovers_expire` — where no fault strikes, the sweep leaves no leftover;
* `Router.expire_ages` — **what the sweep leaves of every table**.
-/

set_option relaxedAutoImplicit false
set_option autoImplicit false

namespace DistanceVector

/-- The route apart from its metric and from whether it is installed. -/
def Route.unpriced (route : Route) : Route := { route.bare with metric := Metric.infinity }

namespace Router

variable {now : Instant} {dest : Prefix} {r r' s : Router} {id other : RouteId}
  {route old new : Route} {ids : List RouteId}

/-! ### What a visit is to do -/

/-- A route after its visit, apart from its metric: it is retracted if it timed out, unless it was
retracted before. -/
def aged (r : Router) (now : Instant) (route : Route) : Route :=
  if r.timedOut now route && route.refmetric.reachable then
    { route with seqno := r.retractionSeqno route, refmetric := Metric.infinity }
  else route

/-- What a visit is to leave of a route: nothing of one past its time. -/
def agedIfKept (r : Router) (now : Instant) (route : Route) : Option Route :=
  if route.time.expired r.params.gcDelay now then none else some (r.aged now route).unpriced

/-- What becomes of the route `old` in a sweep that leaves it in the table as `new`. -/
structure Aged (r : Router) (now : Instant) (old new : Route) : Prop where
  dest : new.dest = old.dest
  origin : new.origin = old.origin
  neigh : new.neigh = old.neigh
  nexthop : new.nexthop = old.nexthop
  interface : new.interface = old.interface
  time : new.time = old.time
  origtime : new.origtime = old.origtime
  /-- A route that timed out is retracted. -/
  retracted : r.timedOut now old = true → new.refmetric = Metric.infinity
  /-- If it was not before, it stands for the number after that on record. -/
  renumbered : r.timedOut now old = true → old.refmetric.reachable = true →
    ∀ s, r.sources.find? old.origin old.dest = some s →
      new.seqno.toNat = (s.seqno.toNat + 1) % UInt16.size
  /-- If it was, or if nothing is on record, it keeps its number. -/
  numbered : r.timedOut now old = true →
    old.refmetric.reachable = false ∨ r.sources.find? old.origin old.dest = none →
      new.seqno = old.seqno
  /-- Any other route keeps what was announced. -/
  kept : r.timedOut now old = false → new.seqno = old.seqno ∧ new.refmetric = old.refmetric

theorem aged_of_retracts (h : (r.timedOut now route && route.refmetric.reachable) = true) :
    r.aged now route =
      { route with seqno := r.retractionSeqno route, refmetric := Metric.infinity } := if_pos h

theorem aged_of_stays (h : (r.timedOut now route && route.refmetric.reachable) = false) :
    r.aged now route = route := if_neg (by rw [h]; exact Bool.false_ne_true)

/-- A visit changes nothing of a route but what was announced last. -/
theorem same_of_unpriced (h : new.unpriced = (r.aged now old).unpriced) :
    { new.unpriced with seqno := old.seqno, refmetric := old.refmetric } = old.unpriced := by
  rw [h]
  unfold aged
  split <;> rfl

/-- **A route that is left as it is to be left aged as it must.** -/
theorem aged_of_unpriced (h : new.unpriced = (r.aged now old).unpriced) : r.Aged now old new := by
  have hsame := same_of_unpriced h
  have hseqno : new.seqno = (r.aged now old).seqno := (congrArg Route.seqno h :)
  have hrefmetric : new.refmetric = (r.aged now old).refmetric := (congrArg Route.refmetric h :)
  refine ⟨(congrArg Route.dest hsame :), (congrArg Route.origin hsame :),
    (congrArg Route.neigh hsame :), (congrArg Route.nexthop hsame :),
    (congrArg Route.interface hsame :), (congrArg Route.time hsame :),
    (congrArg Route.origtime hsame :), ?retracted, ?renumbered, ?numbered, ?kept⟩
  case retracted =>
    intro hout
    cases hbefore : old.refmetric.reachable with
    | true => rw [hrefmetric, aged_of_retracts (by rw [hout, hbefore, Bool.and_true])]
    | false =>
        rw [hrefmetric, aged_of_stays (by rw [hbefore, Bool.and_false]),
          Metric.not_reachable_iff.1 hbefore]
  case renumbered =>
    intro hout hbefore s hs
    rw [hseqno, aged_of_retracts (by rw [hout, hbefore, Bool.and_true]), retractionSeqno, hs,
      Option.elim_some, Seqno.next, Seqno.advance, UInt16.toNat_add]
    rfl
  case numbered =>
    intro hout hcause
    cases hbefore : old.refmetric.reachable with
    | false => rw [hseqno, aged_of_stays (by rw [hbefore, Bool.and_false])]
    | true =>
        have hnone := hcause.resolve_left (by simp [hbefore])
        rw [hseqno, aged_of_retracts (by rw [hout, hbefore, Bool.and_true]), retractionSeqno,
          hnone, Option.elim_none]
  case kept =>
    intro hin
    rw [aged_of_stays (by rw [hin, Bool.false_and])] at hseqno hrefmetric
    exact ⟨hseqno, hrefmetric⟩

/-! ### What a visit does -/

/-- What is shown apart from the metric follows from what is shown with it. -/
theorem shown_unpriced (r : Router) (id : RouteId) :
    r.shown Route.unpriced id = (r.shown Route.bare id).map Route.unpriced := by
  rw [shown, shown, Option.map_map]
  rfl

theorem agedIfKept_bare (r : Router) (now : Instant) (route : Route) :
    r.agedIfKept now route.bare = r.agedIfKept now route := by
  have hsame : (r.timedOut now route.bare && route.bare.refmetric.reachable) =
      (r.timedOut now route && route.refmetric.reachable) := rfl
  have haged : (r.aged now route.bare).unpriced = (r.aged now route).unpriced := by
    cases h : r.timedOut now route && route.refmetric.reachable with
    | true =>
        rw [aged_of_retracts h, aged_of_retracts (hsame.trans h)]
        rfl
    | false =>
        rw [aged_of_stays h, aged_of_stays (hsame.trans h)]
        rfl
  rw [agedIfKept, agedIfKept, haged]
  rfl

theorem SameBackground.agedIfKept (h : SameBackground r r') (now : Instant) :
    r'.agedIfKept now = r.agedIfKept now := by
  funext route
  have hout : r'.timedOut now route = r.timedOut now route := by rw [timedOut, timedOut, h.params]
  have hseqno : r'.retractionSeqno route = r.retractionSeqno route := by
    rw [retractionSeqno, retractionSeqno, h.sources]
  rw [Router.agedIfKept, Router.agedIfKept, aged, aged, h.params, hout, hseqno]

theorem alike_unpriced_setMetric (r : Router) (id : RouteId) (metric : Metric) :
    Alike Route.unpriced r (r.setMetric id metric) := by
  rcases r.table_setMetric id metric with htable | htable
  · exact alike_of_table_eq htable
  · exact alike_of_modify htable fun _ => rfl

theorem Alike.unpriced (h : Alike Route.bare r r') : Alike Route.unpriced r r' :=
  h.coarser Route.unpriced

theorem get?_retractIfTimedOut (hr : r.table.get? id = some route) (now : Instant) :
    (r.retractIfTimedOut now id route).table.get? id = some (r.aged now route) := by
  unfold retractIfTimedOut aged
  split
  · rw [modifyRoute, RouteTable.get?_modify, if_pos rfl, hr, Option.map_some]
  · exact hr

/-- To recompute the metric of a route leaves it aged. -/
theorem shown_remetric_self (hr : r.table.get? id = some route) (now : Instant) :
    (r.remetric now id).shown Route.unpriced id = some (r.aged now route).unpriced := by
  rw [remetric_of_get? hr, (alike_reconsider _ now id _ _).unpriced.routes,
    (alike_unpriced_setMetric _ id _).routes, shown_of_get? (get?_retractIfTimedOut hr now)]

/-- A visit leaves its route as it is to be left. -/
theorem shown_expireRoute_self (r : Router) (now : Instant) (id : RouteId) :
    (r.expireRoute now id).shown Route.unpriced id =
      (r.shown Route.bare id).bind (r.agedIfKept now) := by
  unfold expireRoute
  split
  · next hr =>
    have hnone : r.table.get? id = none := hr
    rw [shown, shown, hnone, Option.map_none, Option.map_none, Option.bind_none]
  · next route hr =>
    rw [shown_of_get? hr, Option.bind_some, agedIfKept_bare, agedIfKept]
    split
    · rw [shown_unpriced, shown_flush, if_pos rfl, Option.map_none]
    · rw [shown, (refreshIfNeeded_silent _ now id).1]
      exact shown_remetric_self hr now

/-- A visit rewrites no other route. -/
theorem shown_expireRoute_of_ne (r : Router) (now : Instant) (hne : other ≠ id) :
    (r.expireRoute now id).shown Route.bare other = r.shown Route.bare other := by
  rcases r.expireRoute_cases now id with heq | heq
  · rw [heq, shown_flush, if_neg hne]
  · rw [heq, shown, (refreshIfNeeded_silent _ now id).1]
    exact shown_remetric_of_ne r now hne

/-! ### One visit after the other -/

/-- **One after the other, every route that is visited is left as its own visit leaves it, and the
others are not rewritten.** -/
theorem shown_sweep (hids : ids.Nodup) (r : Router) (now : Instant) (id : RouteId) :
    (ids.foldl (fun r id => r.expireRoute now id) r).shown Route.unpriced id =
      if id ∈ ids then (r.shown Route.bare id).bind (r.agedIfKept now)
      else r.shown Route.unpriced id := by
  induction ids generalizing r with
  | nil => rfl
  | cons visited ids ih =>
      obtain ⟨hfresh, hids⟩ := List.nodup_cons.1 hids
      rw [List.foldl_cons, ih hids]
      by_cases hid : id = visited
      · subst hid
        rw [if_neg hfresh, if_pos List.mem_cons_self, shown_expireRoute_self]
      · have hother := r.shown_expireRoute_of_ne now hid
        have hbackground := (r.expireRoute_allMoves now visited).sameBackground
        rw [shown_unpriced (r.expireRoute now visited), hother, hbackground.agedIfKept,
          ← shown_unpriced]
        simp only [List.mem_cons, hid, false_or]

/-- Every route comes out of the periodic sweep as its own visit leaves it. -/
theorem shown_expire (r : Router) (now : Instant) (id : RouteId) :
    (r.expire now).shown Route.unpriced id =
      (r.shown Route.bare id).bind (r.agedIfKept now) := by
  have htable : (r.report .expiring).retryLeftovers.table = r.table := table_retryLeftovers _
  have hbackground := (r.retryFirst_allMoves now).sameBackground
  have hnodup : r.table.ids.Nodup := r.table.routes.pairwise_keys.imp OrderedMap.ne_of_lt
  rw [expire, htable, shown_sweep hnodup, hbackground.agedIfKept,
    (alike_of_table_eq htable).routes, (alike_of_table_eq htable).routes]
  split
  · rfl
  · next hid =>
    -- what the list of names leaves out is not in the table
    have hnone : r.table.get? id = none := by
      rw [Option.eq_none_iff_forall_ne_some]
      exact fun route hr => hid (RouteTable.mem_ids_iff.2 ⟨route, hr⟩)
    rw [shown, shown, hnone, Option.map_none, Option.map_none, Option.bind_none]

/-- A route that remains after the sweep was not past its time, and is aged. -/
theorem exists_of_get?_expire (hnew : (r.expire now).table.get? id = some new) :
    ∃ old, r.table.get? id = some old ∧ old.time.expired r.params.gcDelay now = false ∧
      r.Aged now old new := by
  have hshown := r.shown_expire now id
  rw [shown_of_get? hnew] at hshown
  obtain ⟨_, hbare, hkept⟩ := Option.bind_eq_some_iff.1 hshown.symm
  obtain ⟨old, hold, rfl⟩ := exists_get?_of_shown hbare
  rw [agedIfKept_bare, agedIfKept] at hkept
  split at hkept
  · cases hkept
  · next htime =>
    exact ⟨old, hold, Bool.not_eq_true _ ▸ htime, aged_of_unpriced (Option.some.inj hkept).symm⟩

/-- A route that is not past its time remains after the sweep. -/
theorem mem_ids_expire (hold : r.table.get? id = some old)
    (htime : old.time.expired r.params.gcDelay now = false) :
    id ∈ (r.expire now).table.ids := by
  have hshown := r.shown_expire now id
  rw [shown_of_get? hold, Option.bind_some, agedIfKept_bare, agedIfKept, htime,
    if_neg Bool.false_ne_true] at hshown
  obtain ⟨new, hnew, -⟩ := exists_get?_of_shown hshown
  exact RouteTable.mem_ids_iff.2 ⟨new, hnew⟩

/-! ### Metrics -/

/-- Where no fault strikes, a route that remains has the metric that it must have. -/
theorem Unhindered.metric_expire (h : Unhindered r (r.expire now))
    (hnew : (r.expire now).table.get? id = some new) : new.metric = r.dueMetric new :=
  (h.pricedAt_expire id new hnew).trans ((r.expire_allMoves now).sameBackground.dueMetric new)

/-! ### Leftovers -/

/-- Where no fault strikes, the kernel lets go of every entry that it has. -/
theorem Unhindered.answer_flush {entry : KernelEntry} (h : Unhindered r r')
    (ha : Asked (r.ask (.flush entry)) r') :
    r.kernel.answer (.flush entry) = none ∨ r.kernel.answer (.flush entry) = some .notFound := by
  rw [h.answer ha]
  exact r.kernel.conflict?_flush entry

/-- Where no fault strikes, no move leaves an entry over. -/
theorem Move.leftovers_eq_none (h : Move now dest r r') (hu : Unhindered r r') {dest' : Prefix}
    (hl : r.leftovers.get? dest' = none) : r'.leftovers.get? dest' = none := by
  cases h with
  | told h =>
      obtain ⟨_, _, _, rfl⟩ := h
      exact hl
  | abandoned ho he hne =>
      rcases hu.answer_flush (asked_of_kernel_eq rfl) with hnone | habsent
      · cases he.symm.trans hnone
      · exact absurd (Option.some.inj (he.symm.trans habsent)) hne
  | installed hc hd hn he | forgotten hf he =>
      rw [OrderedMap.get?_erase]
      split
      · rfl
      · exact hl
  | _ => exact hl

theorem AllMoves.leftovers_eq_none (h : AllMoves now r r') (hu : Unhindered r r')
    (hl : r.leftovers.get? dest = none) : r'.leftovers.get? dest = none := by
  induction h with
  | refl => exact hl
  | tail hmoves hmove ih =>
      obtain ⟨dest', hmove⟩ := hmove
      obtain ⟨hfirst, hlast⟩ := hu.split (AllMoves.asked hmoves) hmove.asked
      exact hmove.leftovers_eq_none hlast (ih hfirst)

/-- Where no fault strikes, a leftover that is tried again is removed. -/
theorem Unhindered.leftovers_retryLeftover (h : Unhindered r (r.retryLeftover dest)) :
    (r.retryLeftover dest).leftovers.get? dest = none := by
  cases hl : r.leftovers.get? dest with
  | none => rw [retryLeftover_of_absent hl, hl]
  | some entry =>
      have hask : Asked (r.ask (.flush entry)) (r.retryLeftover dest) := by
        simp only [retryLeftover, hl]
        split <;> exact asked_of_kernel_eq rfl
      rw [retryLeftover_of_accepted hl (h.answer_flush hask)]
      exact OrderedMap.get?_erase_self _ dest

theorem Unhindered.leftovers_retried {dests : List Prefix}
    (h : Unhindered r (dests.foldl retryLeftover r))
    (hd : dest ∈ dests ∨ r.leftovers.get? dest = none) :
    (dests.foldl retryLeftover r).leftovers.get? dest = none := by
  induction dests generalizing r with
  | nil => exact hd.resolve_left List.not_mem_nil
  | cons tried dests ih =>
      have htry : AllMoves 0 r (r.retryLeftover tried) := (r.retryLeftover_moves 0 tried).all
      have hrest : AllMoves 0 (r.retryLeftover tried)
          (dests.foldl retryLeftover (r.retryLeftover tried)) :=
        foldl_moves (fun r dest => (r.retryLeftover_moves 0 dest).all) dests _
      obtain ⟨hfirst, hlast⟩ := h.split htry.asked hrest.asked
      refine ih hlast ?_
      rcases hd with hmem | hnone
      · rcases List.mem_cons.1 hmem with rfl | hmem
        · exact .inr hfirst.leftovers_retryLeftover
        · exact .inl hmem
      · exact .inr (htry.leftovers_eq_none hfirst hnone)

/-- Where no fault strikes, nothing is left over after every leftover was tried again. -/
theorem Unhindered.leftovers_retryLeftovers (h : Unhindered r r.retryLeftovers) (dest : Prefix) :
    r.retryLeftovers.leftovers.get? dest = none := by
  refine h.leftovers_retried ?_
  cases hl : r.leftovers.get? dest with
  | none => exact .inr rfl
  | some entry => exact .inl (OrderedMap.mem_keys_iff.2 ⟨entry, hl⟩)

/-- Where no fault strikes, nothing is left over after the periodic sweep. -/
theorem Unhindered.leftovers_expire (h : Unhindered r (r.expire now)) :
    (r.expire now).leftovers = .empty := by
  have hretry := r.retryFirst_allMoves now
  have hsweep : AllMoves now (r.report .expiring).retryLeftovers (r.expire now) :=
    foldl_moves (fun r id => r.expireRoute_allMoves now id) _ _
  obtain ⟨hfirst, hlast⟩ := h.split hretry.asked hsweep.asked
  have hretried : Unhindered (r.report .expiring) (r.report .expiring).retryLeftovers := hfirst
  exact OrderedMap.ext_get? fun dest =>
    hsweep.leftovers_eq_none hlast (hretried.leftovers_retryLeftovers dest)

/-! ### The sweep as a whole -/

/-- **What the periodic sweep leaves of every table.**  Whatever the kernel says, the routes that
remain are those that are not past their time, and every one is left aged.  Where no fault strikes,
those that timed out are out of reach, the others have the metric that they must have, and no entry
is left over. -/
theorem expire_ages (r : Router) (now : Instant) :
    (∀ id, id ∈ (r.expire now).table.ids ↔ ∃ route, r.table.get? id = some route ∧
      route.time.expired r.params.gcDelay now = false) ∧
    (∀ id old new, r.table.get? id = some old → (r.expire now).table.get? id = some new →
      r.Aged now old new) ∧
    (Unhindered r (r.expire now) →
      (∀ id route, (r.expire now).table.get? id = some route →
        if r.timedOut now route then route.metric = Metric.infinity
        else route.metric.toNat = min (route.refmetric.toNat +
          (r.neighbours.cost route.neigh).toNat + (r.filter.penalty route.origin route.dest
            route.neigh route.interface).toNat) 65535) ∧
      (r.expire now).leftovers = .empty) := by
  have hages : ∀ id old new, r.table.get? id = some old →
      (r.expire now).table.get? id = some new → r.Aged now old new := by
    intro id old new hold hnew
    obtain ⟨before, hbefore, -, haged⟩ := exists_of_get?_expire hnew
    exact Option.some.inj (hbefore.symm.trans hold) ▸ haged
  refine ⟨fun id => ⟨fun hid => ?_, ?_⟩, hages, fun hu => ⟨fun id new hnew => ?_,
    hu.leftovers_expire⟩⟩
  · obtain ⟨new, hnew⟩ := RouteTable.mem_ids_iff.1 hid
    obtain ⟨old, hold, htime, -⟩ := exists_of_get?_expire hnew
    exact ⟨old, hold, htime⟩
  · rintro ⟨old, hold, htime⟩
    exact mem_ids_expire hold htime
  · obtain ⟨old, hold, -, haged⟩ := exists_of_get?_expire hnew
    rw [hu.metric_expire hnew]
    split
    · next hout =>
      rw [timedOut, haged.time] at hout
      exact r.dueMetric_of_retracted (haged.retracted hout)
    · rw [dueMetric, pathMetric, Metric.toNat_plus, Metric.toNat_plus]
      omega

/-- A router with routes for three destinations, heard of at different times, and the entry of a
fourth left over. -/
def ageing : Router :=
  (((((twoNeighbours [none, some (.os 5)]).perform 1000
    (.receive ⟨"O1", "Q", 10, 104, "N1", "H1"⟩)).perform 1000
    (.receive ⟨"O1", "P", 10, 104, "N1", "H1"⟩)).perform 1001 (.flush 1)).perform 1015
    (.receive ⟨"O1", "R", 20, 104, "N1", "H1"⟩)).perform 1100
    (.receive ⟨"O2", "S", 10, 204, "N2", "H2"⟩)

theorem faultless_ageing : ageing.kernel.Faultless := by
  have hfaults : ageing.kernel.faults = OrderedMap.empty.insert "P" [] := by decide +kernel
  intro dest
  rw [Kernel.faultsFor, hfaults, OrderedMap.get?_insert]
  split <;> rfl

/-- The sweep removes the oldest route, retracts the next and leaves the last as it is; nothing is
left over. -/
theorem expire_ageing :
    Unhindered ageing (ageing.expire 1181) ∧ ageing.leftovers.get? "P" ≠ none ∧
      0 ∉ (ageing.expire 1181).table.ids ∧
      (∃ route, (ageing.expire 1181).table.get? 2 = some route ∧ route.seqno.toNat = 21 ∧
        route.metric = Metric.infinity) ∧
      (∃ route, (ageing.expire 1181).table.get? 3 = some route ∧ route.seqno = 10 ∧
        route.refmetric = 204) ∧
      (ageing.expire 1181).leftovers = .empty := by
  have hu : Unhindered ageing (ageing.expire 1181) :=
    (unhindered_perform faultless_ageing 1181 .expire).1
  have hstate : ageing.table.get? 0 = some
        ⟨"Q", "O1", "N1", "H1", 1, 10, 104, 200, 1000, 1000, true⟩ ∧
      ageing.table.get? 2 = some ⟨"R", "O1", "N1", "H1", 1, 20, 104, 200, 1015, 1015, true⟩ ∧
      ageing.table.get? 3 = some ⟨"S", "O2", "N2", "H2", 2, 10, 204, 300, 1100, 1100, true⟩ ∧
      ageing.sources.find? "O1" "R" = some ⟨"O1", "R", 20, 65535, 1015⟩ ∧
      ageing.leftovers.get? "P" ≠ none := by decide +kernel
  obtain ⟨hold₀, hold₂, hold₃, hrecord, hleftover⟩ := hstate
  obtain ⟨hids, hages, hunhindered⟩ := expire_ages ageing 1181
  obtain ⟨hmetrics, hleftovers⟩ := hunhindered hu
  refine ⟨hu, hleftover, ?_, ?_, ?_, hleftovers⟩
  · intro hkept
    obtain ⟨route, hr, htime⟩ := (hids 0).1 hkept
    obtain rfl := Option.some.inj (hold₀.symm.trans hr)
    exact absurd htime (by decide)
  · obtain ⟨new, hnew⟩ := RouteTable.mem_ids_iff.1 ((hids 2).2 ⟨_, hold₂, by decide⟩)
    have haged := hages 2 _ new hold₂ hnew
    have hmetric := hmetrics 2 new hnew
    rw [timedOut, haged.time, if_pos (by decide)] at hmetric
    exact ⟨new, hnew, haged.renumbered (by decide) (by decide) _ hrecord, hmetric⟩
  · obtain ⟨new, hnew⟩ := RouteTable.mem_ids_iff.1 ((hids 3).2 ⟨_, hold₃, by decide⟩)
    exact ⟨new, hnew, (hages 3 _ new hold₃ hnew).kept (by decide)⟩

end Router

end DistanceVector
