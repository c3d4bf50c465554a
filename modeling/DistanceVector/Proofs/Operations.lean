import DistanceVector.Proofs.Moves
import DistanceVector.Router.Operation

/-!
# Operations as chains of moves

Every operation of a router is a chain of elementary moves.  An operation on one route makes moves
that concern the destination of that route only; a sweep makes moves that concern one destination
after the other.  Only an advertisement does more: it may put its source on record, rewrite its
route or store a new one, and it stores one at most.

Main definitions:

* `Router.stores` — whether an operation stores a new route;
* `Router.withRoom` — the router that a new route finds;
* `Router.Taken` — the router that took an advertisement down and drew no conclusions yet;
* `Router.Step` — a move, or a part of taking an advertisement down.

Main results:

* `Router.consider_moves`, `Router.replaceLost_moves`, `Router.reconsider_moves`,
  `Router.flush_moves`, `Router.remetric_moves` — the operations on one route;
* `Router.expire_allMoves`, `Router.makeRoom_allMoves` — the sweeps;
* `Router.receive_moves`, `Router.perform_moves` — **an advertisement is taken down first, and
  everything after that is moves**;
* `Router.perform_induction` — what every step preserves, every operation preserves.
-/

set_option relaxedAutoImplicit false
set_option autoImplicit false

namespace DistanceVector.Router

variable {now : Instant} {dest : Prefix} {r : Router} {id : RouteId} {route : Route}

/-! ### Announcing and asking -/

theorem told_announce (r : Router) (dest : Prefix) (urgent : Bool) :
    Told dest r (r.announce dest urgent) :=
  told_queue (p := (Packet.routeUpdate dest urgent).toAll) trivial

/-- Where a request for a number is queued, its source is on record. -/
theorem told_requestSeqno (r : Router) (origin : NodeAddress) (dest : Prefix) :
    Told dest r (r.requestSeqno origin dest) := by
  unfold requestSeqno
  split
  · exact told_report dest r _
  · next s hs =>
    exact told_queue (p := (Packet.seqnoRequest dest origin s.wantedSeqno).toAll) ⟨s, hs, rfl⟩

theorem told_announceIfChanged (r : Router) (route : Route) (oldOrigin : NodeAddress)
    (oldMetric : Metric) :
    Told route.dest r (r.announceIfChanged route oldOrigin oldMetric) := by
  unfold announceIfChanged
  simp only []
  split
  · exact told_announce r route.dest _
  · exact Told.refl _ r

theorem told_requestIfWorse (r : Router) (route : Route) (oldMetric : Metric) :
    Told route.dest r (r.requestIfWorse route oldMetric) := by
  unfold requestIfWorse
  split
  · exact Told.refl _ r
  split
  · exact told_requestSeqno r route.origin route.dest
  split
  · exact told_queue (p := (Packet.routeRequest route.dest).toAll) trivial
  · exact Told.refl _ r

theorem told_announceChange (hd : r.IsFor id dest)
    (oldOrigin : NodeAddress) (oldMetric : Metric) :
    Told dest r (r.announceChange id oldOrigin oldMetric) := by
  unfold announceChange
  split
  · exact Told.refl _ r
  · next route hr =>
    obtain rfl := hd route hr
    split
    · exact (told_announceIfChanged r route oldOrigin oldMetric).trans
        (told_requestIfWorse _ route oldMetric)
    · exact Told.refl _ r

theorem told_requestFeasible (r : Router) (metric : Metric) (origin : NodeAddress)
    (dest : Prefix) : Told dest r (r.requestFeasible metric origin dest) := by
  unfold requestFeasible
  split
  · exact told_requestSeqno r origin dest
  · exact Told.refl _ r

/-! ### Promotion -/

theorem install_moves (hc : r.candidate? now id = some route) (hd : route.dest = dest)
    (hn : r.table.installed? dest = none) : Moves now dest r (r.install id) := by
  obtain ⟨hr, hi, -, -⟩ := get?_of_candidate? hc
  subst hd
  cases he : r.kernel.answer (r.installOp (r.entryOf route)) with
  | none =>
      rw [install_of_accepted hr hi he]
      exact .single (.installed hc rfl hn (.inl he))
  | some error =>
      by_cases hp : error = .alreadyExists
      · subst hp
        rw [install_of_present hr hi he]
        exact .tail (.single (.installed hc rfl hn (.inr he))) (.told (told_report _ _ _))
      · rw [install_of_refused hr hi he hp]
        exact .tail (.single (.refused (.install hc rfl hn) he)) (.told (told_report _ _ _))

theorem replaceInstalled_moves {oldId : RouteId} {old : Route}
    (hc : r.candidate? now id = some route) (hd : route.dest = dest)
    (ho : r.table.Owns dest oldId old) : Moves now dest r (r.replaceInstalled oldId id) := by
  obtain ⟨hr, hi, -, -⟩ := get?_of_candidate? hc
  cases he : r.kernel.answer (.modify (r.entryOf old) (r.entryOf route)) with
  | none =>
      rw [replaceInstalled_of_accepted ho.get ho.installed hr he]
      exact .single (.replaced hc hd ho he)
  | some error =>
      rw [replaceInstalled_of_refused ho.get ho.installed hr he]
      exact .tail (.single (.refused (.replace hc hd ho) he)) (.told (told_report _ _ _))

theorem promoteAlone_moves (hc : r.candidate? now id = some route) (hd : route.dest = dest)
    (hn : r.table.installed? dest = none) : Moves now dest r (r.promoteAlone id route) := by
  have hinstall : Moves now dest (r.report (.switching id route))
      ((r.report (.switching id route)).install id) := install_moves hc hd hn
  subst hd
  exact ((told_report _ r _).moves.trans hinstall).trans (told_announce _ _ _).moves

theorem promoteOver_moves {oldId : RouteId} {old : Route} (hc : r.candidate? now id = some route)
    (hd : route.dest = dest) (ho : r.table.Owns dest oldId old) :
    Moves now dest r (r.promoteOver id route oldId old) := by
  have hreplace : Moves now dest r ((r.report (.switching id route)).replaceInstalled oldId id) :=
    (told_report dest r _).moves.trans (replaceInstalled_moves hc hd ho)
  have hfor : ((r.report (.switching id route)).replaceInstalled oldId id).IsFor id dest := by
    refine hreplace.isFor ?_
    exact hd ▸ isFor_dest (get?_of_candidate? hc).1
  subst hd
  unfold promoteOver
  simp only []
  split
  · exact hreplace.trans (told_announceChange hfor _ _).moves
  · exact hreplace.trans (told_announce _ route.dest true).moves

theorem consider_moves (hd : r.IsFor id dest) : Moves now dest r (r.consider now id) := by
  unfold consider
  split
  · exact .refl
  · next route hc =>
    obtain rfl := hd route (get?_of_candidate? hc).1
    split
    · next hn => exact promoteAlone_moves hc rfl hn
    · next oldId old ho =>
      obtain ⟨hget, hi, hdest⟩ := RouteTable.get?_of_installed? ho
      split
      · exact promoteOver_moves hc rfl ⟨hget, hi, hdest⟩
      · exact .refl

theorem isFor_of_best? {feasibleOnly : Bool} {exclude : Option NeighbourId}
    (h : r.best? now dest feasibleOnly exclude = some (id, route)) : r.IsFor id dest := by
  obtain ⟨hr, hd, -⟩ := eligible_of_best? h
  exact hd ▸ isFor_dest hr

theorem replaceLost_moves (r : Router) (now : Instant) (origin : NodeAddress) (dest : Prefix)
    (oldMetric : Metric) : Moves now dest r (r.replaceLost now origin dest oldMetric) := by
  unfold replaceLost
  split
  · next id route hbest => exact consider_moves (isFor_of_best? hbest)
  · simp only []
    split
    · exact ((told_announce r dest true).trans (told_requestSeqno _ origin dest)).moves
    · exact (told_announce r dest true).moves

theorem seekBetter_moves (r : Router) (now : Instant) (route : Route) :
    Moves now route.dest r (r.seekBetter now route) := by
  unfold seekBetter
  split
  · exact .refl
  · next id better hbest =>
    split
    · exact consider_moves (isFor_of_best? hbest)
    · exact .refl

theorem reconsider_moves (hd : r.IsFor id dest) (oldOrigin : NodeAddress) (oldMetric : Metric) :
    Moves now dest r (r.reconsider now id oldOrigin oldMetric) := by
  unfold reconsider
  split
  · exact .refl
  · next route hr =>
    obtain rfl := hd route hr
    split
    · have hseek : Moves now route.dest r
          (if oldMetric < route.metric then r.seekBetter now route else r) := by
        split
        · exact seekBetter_moves r now route
        · exact .refl
      generalize (if oldMetric < route.metric then r.seekBetter now route else r) = s at hseek
      simp only []
      split
      · exact hseek.trans (told_announceChange (hseek.isFor hd) _ _).moves
      · exact hseek
    · exact consider_moves hd

/-! ### Withdrawal -/

theorem uninstall_moves (hd : r.IsFor id dest) : Moves now dest r (r.uninstall id) := by
  cases hr : r.route? id with
  | none => rw [uninstall_of_absent hr]; exact .refl
  | some route =>
      cases hi : route.installed with
      | false => rw [uninstall_of_not_installed hr hi]; exact .refl
      | true =>
          have ho : r.table.Owns dest id route := ⟨hr, hi, hd route hr⟩
          rcases uninstall_cases hr hi with ⟨he, heq⟩ | ⟨error, he, -, heq⟩
          · rw [heq]
            exact .single (.withdrawn ho he)
          · rw [heq]
            exact .tail (.single (.refused (.withdraw ho) he)) (.told (told_report _ _ _))

/-- An installed route leaves the table: either the kernel lets go of its entry, or the entry
becomes a leftover in the same move. -/
theorem release_moves (ho : r.table.Owns dest id route) :
    Moves now dest r ((r.release id).eraseRoute id) := by
  obtain ⟨hr, hi, rfl⟩ := ho
  have ho : r.table.Owns route.dest id route := ⟨hr, hi, rfl⟩
  -- in the second case one move must do both: in between, a leftover would have an owner
  rcases uninstall_cases hr hi with ⟨he, heq⟩ | ⟨error, he, hne, heq⟩
  · have hafter := get?_uninstall_of_accepted hr hi he
    have hrelease : r.release id = r.uninstall id := by simp [release, route?, hafter]
    rw [hrelease]
    refine .tail ?_ (.erased hafter rfl rfl)
    rw [heq]
    exact .single (.withdrawn ho he)
  · have hafter : (r.uninstall id).route? id = some route := by rw [heq]; exact hr
    have hrelease : r.release id = { r.uninstall id with
        leftovers := (r.uninstall id).leftovers.insert route.dest
          ((r.uninstall id).entryOf route) } := by simp [release, hafter, hi]
    rw [hrelease, heq]
    exact .tail (.single (.abandoned ho he hne)) (.told (told_report _ _ _))

theorem flush_moves (hd : r.IsFor id dest) : Moves now dest r (r.flush now id) := by
  unfold flush
  split
  · exact .refl
  · next route hr =>
    obtain rfl := hd route hr
    split
    · next hi => exact (release_moves ⟨hr, hi, rfl⟩).trans (replaceLost_moves _ now _ _ _)
    · next hi => exact .single (.erased hr rfl (by simpa using hi))

/-! ### Changing costs and passing time -/

theorem setMetric_moves (hd : r.IsFor id dest) (metric : Metric) :
    Moves now dest r (r.setMetric id metric) := by
  cases hr : r.route? id with
  | none => rw [setMetric_of_absent hr]; exact .refl
  | some route =>
      -- the kernel has a say only about the metric of an installed route
      cases hi : route.installed with
      | false =>
          rw [setMetric_of_not_installed hr hi]
          exact .single (.remetric metric hr (hd route hr) hi)
      | true =>
          have ho : r.table.Owns dest id route := ⟨hr, hi, hd route hr⟩
          cases he : r.kernel.answer (r.metricOp route metric) with
          | none =>
              rw [setMetric_of_accepted hr hi he]
              exact .single (.remetricInstalled ho he)
          | some error =>
              rw [setMetric_of_refused hr hi he]
              exact .tail (.single (.refused (.remetric metric ho) he)) (.told (told_report _ _ _))

theorem retractIfTimedOut_moves (hr : r.table.get? id = some route) :
    Moves now route.dest r (r.retractIfTimedOut now id route) := by
  unfold retractIfTimedOut
  split
  · exact .single (.retracted _ hr rfl)
  · exact .refl

theorem remetric_moves (hd : r.IsFor id dest) : Moves now dest r (r.remetric now id) := by
  unfold remetric
  split
  · exact .refl
  · next route hr =>
    obtain rfl := hd route hr
    have hretract : Moves now route.dest r (r.retractIfTimedOut now id route) :=
      retractIfTimedOut_moves hr
    have hset : Moves now route.dest r
        ((r.retractIfTimedOut now id route).setMetric id (r.currentMetric now route)) :=
      hretract.trans (setMetric_moves (hretract.isFor hd) _)
    exact hset.trans (reconsider_moves (hset.isFor hd) _ _)

theorem refreshIfNeeded_moves (hd : r.IsFor id dest) :
    Moves now dest r (r.refreshIfNeeded now id) := by
  unfold refreshIfNeeded
  split
  · exact .refl
  · next route hr =>
    obtain rfl := hd route hr
    split
    · exact Told.moves
        (told_queue (p := (Packet.routeRequest route.dest).toNeighbour route.neigh) trivial)
    · exact .refl

theorem expireRoute_moves (hd : r.IsFor id dest) : Moves now dest r (r.expireRoute now id) := by
  unfold expireRoute
  split
  · exact .refl
  · split
    · exact flush_moves hd
    · exact (remetric_moves hd).trans (refreshIfNeeded_moves ((remetric_moves hd).isFor hd))

theorem retryLeftover_moves (r : Router) (now : Instant) (dest : Prefix) :
    Moves now dest r (r.retryLeftover dest) := by
  cases hl : r.leftovers.get? dest with
  | none => rw [retryLeftover_of_absent hl]; exact .refl
  | some entry =>
      cases he : r.kernel.answer (.flush entry) with
      | none =>
          rw [retryLeftover_of_accepted hl (.inl he)]
          exact .single (.forgotten hl (.inl he))
      | some error =>
          by_cases hp : error = .notFound
          · subst hp
            rw [retryLeftover_of_accepted hl (.inr he)]
            exact .single (.forgotten hl (.inr he))
          · rw [retryLeftover_of_refused hl he hp]
            exact .tail (.single (.refused (.retry hl) he)) (.told (told_report _ _ _))

/-! ### Taking an advertisement down -/

/-- Whatever is installed after a route was withdrawn was so before. -/
theorem get?_of_get?_uninstall {other : RouteId}
    (h : (r.uninstall id).table.get? other = some route) (hi : route.installed = true) :
    r.table.get? other = some route := by
  rcases r.table_uninstall id with htable | htable
  · rwa [htable] at h
  · rw [htable, RouteTable.get?_modify] at h
    split at h
    · -- this is the route that was withdrawn
      obtain ⟨σ, -, rfl⟩ := Option.map_eq_some_iff.1 h
      cases hi
    · exact h

/-! ### Sweeps -/

/-- What is done with one route after the other is a chain of moves if each part of it is. -/
theorem foldl_moves {α : Type} {f : Router → α → Router}
    (hf : ∀ r a, AllMoves now r (f r a)) (l : List α) (r : Router) :
    AllMoves now r (l.foldl f r) := by
  induction l generalizing r with
  | nil => exact .refl
  | cons a l ih => exact (hf r a).trans (ih (f r a))

/-- A name is that of a route for some destination. -/
theorem exists_isFor (r : Router) (id : RouteId) : ∃ dest, r.IsFor id dest := by
  cases hr : r.table.get? id with
  | none => exact ⟨"", fun _ h => by rw [hr] at h; cases h⟩
  | some route => exact ⟨route.dest, isFor_dest hr⟩

theorem flush_allMoves (r : Router) (now : Instant) (id : RouteId) :
    AllMoves now r (r.flush now id) := by
  obtain ⟨dest, hd⟩ := r.exists_isFor id
  exact (flush_moves hd).all

theorem remetric_allMoves (r : Router) (now : Instant) (id : RouteId) :
    AllMoves now r (r.remetric now id) := by
  obtain ⟨dest, hd⟩ := r.exists_isFor id
  exact (remetric_moves hd).all

theorem consider_allMoves (r : Router) (now : Instant) (id : RouteId) :
    AllMoves now r (r.consider now id) := by
  obtain ⟨dest, hd⟩ := r.exists_isFor id
  exact (consider_moves hd).all

theorem reconsider_allMoves (r : Router) (now : Instant) (id : RouteId) (oldOrigin : NodeAddress)
    (oldMetric : Metric) : AllMoves now r (r.reconsider now id oldOrigin oldMetric) := by
  obtain ⟨dest, hd⟩ := r.exists_isFor id
  exact (reconsider_moves hd oldOrigin oldMetric).all

theorem uninstall_allMoves (r : Router) (now : Instant) (id : RouteId) :
    AllMoves now r (r.uninstall id) := by
  obtain ⟨dest, hd⟩ := r.exists_isFor id
  exact (uninstall_moves hd).all

theorem setMetric_allMoves (r : Router) (now : Instant) (id : RouteId) (metric : Metric) :
    AllMoves now r (r.setMetric id metric) := by
  obtain ⟨dest, hd⟩ := r.exists_isFor id
  exact (setMetric_moves hd metric).all

theorem refreshIfNeeded_allMoves (r : Router) (now : Instant) (id : RouteId) :
    AllMoves now r (r.refreshIfNeeded now id) := by
  obtain ⟨dest, hd⟩ := r.exists_isFor id
  exact (refreshIfNeeded_moves hd).all

theorem flushNeighbour_allMoves (r : Router) (now : Instant) (neigh : NeighbourId) :
    AllMoves now r (r.flushNeighbour now neigh) :=
  foldl_moves (fun r id => r.flush_allMoves now id) _ r

theorem remetricNeighbour_allMoves (r : Router) (now : Instant) (neigh : NeighbourId) :
    AllMoves now r (r.remetricNeighbour now neigh) :=
  foldl_moves (fun r id => r.remetric_allMoves now id) _ r

theorem remetricInterface_allMoves (r : Router) (now : Instant) (interface : InterfaceId) :
    AllMoves now r (r.remetricInterface now interface) :=
  foldl_moves (fun r id => r.remetric_allMoves now id) _ r

theorem retryLeftovers_allMoves (r : Router) (now : Instant) : AllMoves now r r.retryLeftovers :=
  foldl_moves (fun r dest => (r.retryLeftover_moves now dest).all) _ r

theorem expireRoute_allMoves (r : Router) (now : Instant) (id : RouteId) :
    AllMoves now r (r.expireRoute now id) := by
  -- a name that is no route's any more is one for any destination
  obtain ⟨dest, hd⟩ := r.exists_isFor id
  exact (expireRoute_moves hd).all

/-- The periodic sweep begins with the leftovers. -/
theorem retryFirst_allMoves (r : Router) (now : Instant) :
    AllMoves now r (r.report .expiring).retryLeftovers :=
  (told_report "" r .expiring).moves.all.trans (retryLeftovers_allMoves _ now)

theorem expire_allMoves (r : Router) (now : Instant) : AllMoves now r (r.expire now) :=
  (r.retryFirst_allMoves now).trans (foldl_moves (fun r id => r.expireRoute_allMoves now id) _ _)

theorem flushIfUseless_allMoves (r : Router) (now : Instant) (id : RouteId) :
    AllMoves now r (r.flushIfUseless now id) := by
  unfold flushIfUseless
  split
  · exact r.flush_allMoves now id
  · exact .refl

theorem flushUseless_allMoves (r : Router) (now : Instant) :
    AllMoves now r (r.flushUseless now) :=
  foldl_moves (fun r id => r.flushIfUseless_allMoves now id) _ r

theorem evict_allMoves (r : Router) (now : Instant) : AllMoves now r (r.evict now) := by
  unfold evict
  split
  · exact .refl
  · next id _ => exact (told_report "" _ _).moves.all.trans (flush_allMoves _ now id)

theorem makeRoom_allMoves (r : Router) (now : Instant) : AllMoves now r (r.makeRoom now) := by
  have huseless := r.flushUseless_allMoves now
  unfold makeRoom
  simp only []
  split
  · exact huseless.trans (evict_allMoves _ now)
  · exact huseless

/-! ### New routes -/

/-- Whether an operation stores a new route: it is the advertisement of a route that is not in the
table, and that is not rejected. -/
def stores (r : Router) (now : Instant) : Operation → Bool
  | .receive adv =>
    (r.table.match? adv.dest adv.neigh adv.nexthop).isNone && (r.receive now adv).1.isOk
  | _ => false

theorem stores_of_ok {adv : Advertisement}
    (hm : r.table.match? adv.dest adv.neigh adv.nexthop = none)
    (hok : (r.receive now adv).1 = .ok id) : r.stores now (.receive adv) = true := by
  rw [stores, hm, hok]
  rfl

theorem not_stores_of_match {adv : Advertisement} {e : RouteId × Route}
    (hm : r.table.match? adv.dest adv.neigh adv.nexthop = some e) :
    r.stores now (.receive adv) = false := by
  rw [stores, hm]
  rfl

theorem not_stores_of_error {adv : Advertisement} {reason : Rejection}
    (he : (r.receive now adv).1 = .error reason) : r.stores now (.receive adv) = false := by
  rw [stores, he]
  exact Bool.and_false _

/-- The router that a new route finds: if the table was full, there is room now. -/
def withRoom (r : Router) (now : Instant) : Router :=
  if r.table.isFull then r.makeRoom now else r

theorem withRoom_allMoves (r : Router) (now : Instant) : AllMoves now r (r.withRoom now) := by
  unfold withRoom
  split
  · exact r.makeRoom_allMoves now
  · exact .refl

/-- A new route is rejected if there is no room even so, or stored and considered. -/
theorem adopt_cases (r : Router) (now : Instant) (adv : Advertisement) (interface : InterfaceId)
    (metric : Metric) :
    r.adopt now adv interface metric = (r.withRoom now).reject adv .tableFull ∨
      ∃ id table, (r.withRoom now).table.insert? (.ofAdvertisement adv now interface metric) =
          some (id, table) ∧
        r.adopt now adv interface metric =
          (.ok id, consider { r.withRoom now with table } now id) := by
  unfold adopt withRoom
  simp only []
  split
  · exact .inl rfl
  · next id table ht => exact .inr ⟨id, table, ht, rfl⟩

/-! ### Advertisements -/

theorem exists_get?_uninstall (hr : r.table.get? id = some route) :
    ∃ installed, (r.uninstall id).table.get? id = some { route with installed } := by
  cases hi : route.installed with
  | false => exact ⟨false, by rw [uninstall_of_not_installed hr hi, hr, ← hi]⟩
  | true =>
      rcases uninstall_cases hr hi with ⟨he, -⟩ | ⟨error, -, -, heq⟩
      · exact ⟨false, get?_uninstall_of_accepted hr hi he⟩
      · exact ⟨true, by rw [heq, ← hi]; exact hr⟩

/-- What an advertisement changes before any conclusions are drawn from it: nothing if it is
rejected at once; else its source is put on record.  If it is about a route of the table, that route
is withdrawn if it must be, and rewritten; if it leads to a new one, that is stored, with room made
for it before. -/
inductive Taken (now : Instant) (adv : Advertisement) (r : Router) : Router → Prop
  | ignored (hnone : r.stores now (.receive adv) = false) : Taken now adv r r
  | observed {sources : SourceTable} (hnone : r.stores now (.receive adv) = false)
      (hs : r.sources.observe adv.origin adv.dest adv.seqno now = some sources) :
      Taken now adv r { r with sources := sources }
  | recorded {sources : SourceTable} {id : RouteId} {route : Route} {r' : Router}
      (feasible : Bool) (hnone : r.stores now (.receive adv) = false)
      (hs : r.sources.observe adv.origin adv.dest adv.seqno now = some sources)
      (hm : Moves now adv.dest { r with sources := sources } r')
      (hi : ∀ other ρ, r'.table.get? other = some ρ → ρ.installed = true →
        r.table.get? other = some ρ)
      (hr : r'.table.get? id = some route) (hd : route.dest = adv.dest) :
      Taken now adv r { r' with
        table := r'.table.modify id (·.withAdvertisement now adv feasible) }
  | stored {sources : SourceTable} {id : RouteId} {route : Route} {table : RouteTable} {r' : Router}
      (hnew : r.stores now (.receive adv) = true)
      (hs : r.sources.observe adv.origin adv.dest adv.seqno now = some sources)
      (hm : AllMoves now { r with sources := sources } r') (hi : route.installed = false)
      (ht : r'.table.insert? route = some (id, table)) :
      Taken now adv r { r' with table := table }

variable {adv : Advertisement}

theorem told_reject (r : Router) (adv : Advertisement) (reason : Rejection) (dest : Prefix) :
    Told dest r (r.reject adv reason).2 := by
  unfold reject
  cases r.rejectionEvent? adv reason with
  | none => exact Told.refl dest r
  | some e => exact told_report dest r e

theorem table_reject (r : Router) (adv : Advertisement) (reason : Rejection) :
    (r.reject adv reason).2.table = r.table := by
  obtain ⟨_, _, _, htold⟩ := told_reject r adv reason ""
  rw [htold]

theorem isFor_withAdvertisement (hd : r.IsFor id dest) (now : Instant) (adv : Advertisement)
    (feasible : Bool) :
    (r.modifyRoute id (·.withAdvertisement now adv feasible)).IsFor id dest := by
  intro ρ hρ
  rw [modifyRoute, RouteTable.get?_modify, if_pos rfl, Option.map_eq_some_iff] at hρ
  obtain ⟨σ, hσ, rfl⟩ := hρ
  exact hd σ hσ

/-- Once the advertisement is in the table, to record it is moves. -/
theorem record_moves (hd : r.IsFor id dest) (now : Instant) (adv : Advertisement)
    (feasible : Bool) (metric : Metric) :
    Moves now dest { r with table := r.table.modify id (·.withAdvertisement now adv feasible) }
      (r.record now adv feasible metric id) :=
  setMetric_moves (isFor_withAdvertisement hd now adv feasible) metric

theorem isFor_record (hd : r.IsFor id dest) (now : Instant) (adv : Advertisement)
    (feasible : Bool) (metric : Metric) : (r.record now adv feasible metric id).IsFor id dest :=
  (record_moves hd now adv feasible metric).isFor (isFor_withAdvertisement hd now adv feasible)

/-- The route that an advertisement is about is first withdrawn if it must be, then rewritten;
everything after that is moves. -/
theorem update_moves (now : Instant) {old : Route} (hr : r.table.get? id = some old)
    (hd : old.dest = adv.dest) (feasible : Bool) (metric : Metric) :
    ∃ r' route, Moves now adv.dest r r' ∧
      (∀ other ρ, r'.table.get? other = some ρ → ρ.installed = true →
        r.table.get? other = some ρ) ∧
      r'.table.get? id = some route ∧ route.dest = adv.dest ∧
      Moves now adv.dest
        { r' with table := r'.table.modify id (·.withAdvertisement now adv feasible) }
        (r.update now adv feasible metric id old) := by
  have hfor : r.IsFor id adv.dest := hd ▸ isFor_dest hr
  cases feasible with
  | true =>
      refine ⟨r, old, .refl, fun _ _ ho _ => ho, hr, hd, ?_⟩
      rw [update_of_feasible]
      exact (record_moves hfor now adv true metric).trans
        (reconsider_moves (isFor_record hfor now adv true metric) _ _)
  | false =>
    cases hi : old.installed with
    | false =>
        refine ⟨r, old, .refl, fun _ _ ho _ => ho, hr, hd, ?_⟩
        rw [update_of_not_installed hi]
        exact (record_moves hfor now adv false metric).trans
          (told_requestFeasible _ metric adv.origin adv.dest).moves
    | true =>
        have hreport : (r.report (.unfeasible old.origin adv)).table.get? id = some old := hr
        have hreportFor : (r.report (.unfeasible old.origin adv)).IsFor id adv.dest := hfor
        have hwithdrawn : Moves now adv.dest r
            ((r.report (.unfeasible old.origin adv)).uninstall id) :=
          (told_report _ r _).moves.trans (uninstall_moves hreportFor)
        have hinstalled : ∀ other ρ,
            ((r.report (.unfeasible old.origin adv)).uninstall id).table.get? other = some ρ →
              ρ.installed = true → r.table.get? other = some ρ := by
          intro other ρ ho hρ
          exact get?_of_get?_uninstall (r := r.report (.unfeasible old.origin adv)) ho hρ
        obtain ⟨installed, hroute⟩ := exists_get?_uninstall hreport
        refine ⟨_, _, hwithdrawn, hinstalled, hroute, hd, ?_⟩
        have hconcluded := (record_moves (hwithdrawn.isFor hfor) now adv false metric).trans
          (told_requestFeasible _ metric adv.origin adv.dest).moves
        cases hw : ((r.report (.unfeasible old.origin adv)).uninstall id).isInstalled id with
        | false =>
            rw [update_of_withdrawn hi hw]
            exact hconcluded.trans (replaceLost_moves _ now old.origin adv.dest old.metric)
        | true =>
            rw [update_of_stuck hi hw]
            exact hconcluded

/-- **An advertisement is taken down first, and everything after that is moves.** -/
theorem receive_moves (r : Router) (now : Instant) (adv : Advertisement) :
    ∃ r', Taken now adv r r' ∧ AllMoves now r' (r.receive now adv).2 := by
  rcases r.receive_cases now adv with ⟨reason, heq⟩ | ⟨interface, sources, -, hs, heq⟩
  · have hnone : r.stores now (.receive adv) = false := not_stores_of_error (congrArg Prod.fst heq)
    exact ⟨r, .ignored hnone, heq ▸ (told_reject r adv reason "").moves.all⟩
  rw [heq]
  cases hm : r.table.match? adv.dest adv.neigh adv.nexthop with
  | some e =>
      obtain ⟨hr, hd, -⟩ := RouteTable.get?_of_match? hm
      obtain ⟨r', route, hmoves, hi, hr', hd', hafter⟩ := update_moves
        (r := { r with sources := sources }) now hr hd
        (feasible { r with sources } now adv.origin adv.dest adv.seqno adv.refmetric)
        (pathMetric { r with sources } adv.origin adv.dest adv.neigh interface adv.refmetric)
      rw [accept_of_match (r := { r with sources := sources }) hm]
      exact ⟨_, .recorded _ (not_stores_of_match hm) hs hmoves hi hr' hd', hafter.all⟩
  | none =>
      have hrejected : ∀ {s : Router} {reason},
          accept { r with sources := sources } now adv interface = s.reject adv reason →
            r.stores now (.receive adv) = false :=
        fun hreject => not_stores_of_error (congrArg Prod.fst (heq.trans hreject))
      rcases accept_of_vacant (r := { r with sources := sources }) hm now interface with
        hunfeasible | hretraction | hadopt
      · rw [hunfeasible]
        exact ⟨_, .observed (hrejected hunfeasible) hs,
          ((told_requestFeasible _ _ adv.origin adv.dest).trans
            (told_reject _ adv _ adv.dest)).moves.all⟩
      · rw [hretraction]
        exact ⟨_, .observed (hrejected hretraction) hs, (told_reject _ adv _ "").moves.all⟩
      have hroom := withRoom_allMoves { r with sources := sources } now
      rcases adopt_cases { r with sources := sources } now adv interface
        (pathMetric { r with sources } adv.origin adv.dest adv.neigh interface adv.refmetric) with
        hfull | ⟨id, table, ht, hstored⟩
      · rw [hadopt, hfull]
        exact ⟨_, .observed (hrejected (hadopt.trans hfull)) hs,
          hroom.trans (told_reject _ adv _ "").moves.all⟩
      · have hok : (r.receive now adv).1 = .ok id := by rw [heq, hadopt, hstored]
        rw [hadopt, hstored]
        exact ⟨_, .stored (stores_of_ok hm hok) hs hroom rfl ht, consider_allMoves _ now id⟩

/-! ### What the parts of an advertisement leave alone -/

theorem sameBackground_uninstall (r : Router) (id : RouteId) :
    SameBackground r (r.uninstall id) := (r.uninstall_allMoves 0 id).sameBackground

theorem sameBackground_record (r : Router) (now : Instant) (adv : Advertisement) (feasible : Bool)
    (metric : Metric) (id : RouteId) : SameBackground r (r.record now adv feasible metric id) := by
  obtain ⟨dest, hd⟩ := r.exists_isFor id
  have hheard : SameBackground r (r.modifyRoute id (·.withAdvertisement now adv feasible)) :=
    ⟨rfl, rfl, rfl, rfl, rfl, rfl⟩
  exact hheard.trans (record_moves hd now adv feasible metric).sameBackground

theorem sameBackground_adopt (r : Router) (now : Instant) (adv : Advertisement)
    (interface : InterfaceId) (metric : Metric) :
    SameBackground r (r.adopt now adv interface metric).2 := by
  have hroom : SameBackground r (r.withRoom now) := (r.withRoom_allMoves now).sameBackground
  rcases r.adopt_cases now adv interface metric with heq | ⟨id, table, -, heq⟩
  · rw [heq]
    have hrejected : Moves now "" _ _ := (told_reject (r.withRoom now) adv .tableFull "").moves
    exact hroom.trans hrejected.sameBackground
  · rw [heq]
    have hstored : SameBackground r { r.withRoom now with table := table } :=
      hroom.trans ⟨rfl, rfl, rfl, rfl, rfl, rfl⟩
    exact hstored.trans (consider_allMoves _ now id).sameBackground

/-! ### Any operation -/

/-- **Every operation is a chain of moves**, or takes an advertisement down and makes moves from
then on. -/
theorem perform_moves (r : Router) (now : Instant) (op : Operation) :
    r.stores now op = false ∧ AllMoves now r (r.perform now op) ∨
      ∃ adv r', op = .receive adv ∧ Taken now adv r r' ∧ AllMoves now r' (r.perform now op) := by
  cases op with
  | receive adv =>
      obtain ⟨r', htaken, hmoves⟩ := r.receive_moves now adv
      exact .inr ⟨adv, r', rfl, htaken, hmoves⟩
  | flush id => exact .inl ⟨rfl, r.flush_allMoves now id⟩
  | flushNeighbour neigh => exact .inl ⟨rfl, r.flushNeighbour_allMoves now neigh⟩
  | remetric id => exact .inl ⟨rfl, r.remetric_allMoves now id⟩
  | remetricNeighbour neigh => exact .inl ⟨rfl, r.remetricNeighbour_allMoves now neigh⟩
  | remetricInterface interface => exact .inl ⟨rfl, r.remetricInterface_allMoves now interface⟩
  | expire => exact .inl ⟨rfl, r.expire_allMoves now⟩
  | makeRoom => exact .inl ⟨rfl, r.makeRoom_allMoves now⟩
  | consider id => exact .inl ⟨rfl, r.consider_allMoves now id⟩
  | replaceLost origin dest oldMetric =>
      exact .inl ⟨rfl, (r.replaceLost_moves now origin dest oldMetric).all⟩
  | reconsider id oldOrigin oldMetric =>
      exact .inl ⟨rfl, r.reconsider_allMoves now id oldOrigin oldMetric⟩
  | uninstall id => exact .inl ⟨rfl, r.uninstall_allMoves now id⟩
  | setMetric id metric => exact .inl ⟨rfl, r.setMetric_allMoves now id metric⟩
  | retryLeftovers => exact .inl ⟨rfl, r.retryLeftovers_allMoves now⟩

/-- A single step on the way through an operation. -/
def Step (now : Instant) (r r' : Router) : Prop :=
  (∃ dest, Move now dest r r') ∨ ∃ adv, Heard now adv r r'

theorem Moves.preserves {P : Router → Prop} {r' : Router} (h : Moves now dest r r')
    (hstep : ∀ {r r'}, Move now dest r r' → P r → P r') (hr : P r) : P r' := by
  induction h with
  | refl => exact hr
  | tail _ hmove ih => exact hstep hmove ih

theorem AllMoves.preserves {P : Router → Prop} {r' : Router} (h : AllMoves now r r')
    (hstep : ∀ {dest r r'}, Move now dest r r' → P r → P r') (hr : P r) : P r' := by
  induction h with
  | refl => exact hr
  | tail _ hmove ih =>
    obtain ⟨dest, hmove⟩ := hmove
    exact hstep hmove ih

/-- No route was stored between the two states: the next name is the same, and a name that was no
route's still is none's. -/
structure NoneStored (r r' : Router) : Prop where
  nextId : r'.table.nextId = r.table.nextId
  gone : ∀ id, r.table.get? id = none → r'.table.get? id = none

theorem AllMoves.noneStored {r' : Router} (h : AllMoves now r r') : NoneStored r r' := by
  induction h with
  | refl => exact ⟨rfl, fun _ hgone => hgone⟩
  | tail _ hmove ih =>
      obtain ⟨dest, hmove⟩ := hmove
      exact ⟨hmove.nextId.trans ih.nextId, fun id hgone => hmove.gone (ih.gone id hgone)⟩

/-- **What every step preserves, and the storing of a new route does, every operation preserves.**
A new route is stored under the name that was the next one when the operation began. -/
theorem perform_induction {P : Router → Prop} {op : Operation}
    (hstep : ∀ {r r'}, Step now r r' → P r → P r')
    (hstored : ∀ {s : Router} {id : RouteId} {route : Route} {table : RouteTable},
      r.stores now op = true → NoneStored r s → route.installed = false →
        s.table.insert? route = some (id, table) → P s → P { s with table := table })
    (h : P r) : P (r.perform now op) := by
  have hmove : ∀ {dest r r'}, Move now dest r r' → P r → P r' :=
    fun hmove => hstep (.inl ⟨_, hmove⟩)
  rcases r.perform_moves now op with ⟨-, hmoves⟩ | ⟨adv, r', rfl, htaken, hmoves⟩
  · exact hmoves.preserves hmove h
  refine hmoves.preserves hmove ?_
  cases htaken with
  | ignored _ => exact h
  | observed _ hs => exact hstep (.inr ⟨adv, .observed hs⟩) h
  | recorded feasible _ hs hm _ hr hd =>
      -- the route may be withdrawn between the two parts of taking the advertisement down
      have hwithdrawn := hm.preserves hmove (hstep (.inr ⟨adv, .observed hs⟩) h)
      exact hstep (.inr ⟨adv, .recorded feasible hr hd⟩) hwithdrawn
  | stored hnew hs hm hi ht =>
      have hroom := hm.preserves hmove (hstep (.inr ⟨adv, .observed hs⟩) h)
      have hnone : NoneStored r _ := ⟨hm.noneStored.nextId, hm.noneStored.gone⟩
      exact hstored hnew hnone hi ht hroom

end DistanceVector.Router
