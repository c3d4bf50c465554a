import DistanceVector.Proofs.Agreement
import DistanceVector.Proofs.Naming

/-!
# Destinations do not disturb one another

All destinations share one route table, one source table and one kernel, and every lookup goes
through all of it.  Still, what a router does for the sake of one destination depends on what it
holds of that destination alone, and touches nothing else.  Both are shown at once, for two routers
that agree on the destination: every part of an operation is one that they take in parallel.

The one thing that destinations have in common is the supply of names for their routes.  A new route
takes the next name, and a table that did not give out its names itself may hold another route by
it.

Main definitions:

* `Router.Concerns` — an operation is for the sake of a destination;
* `Router.Spares` — it leaves the routes for other destinations as they are.

Main results:

* `Router.Agree.consider`, `Router.Agree.update` and the like — each part of an operation is taken
  in parallel;
* `Router.spares_perform` — an operation leaves all other routes alone but one by the next name;
* `Router.isolated_perform` — **destinations do not disturb one another**;
* `Router.new_route_disturbs_other` — unless the next name is in use.
-/

set_option relaxedAutoImplicit false
set_option autoImplicit false

namespace DistanceVector.Router

variable {now : Instant} {dest : Prefix} {r s r' s' : Router} {id oldId : RouteId}
  {route old : Route} {adv : Advertisement}

/-! ### New routes -/

/-- As long as there is room, a new route takes the next name and is considered. -/
theorem adopt_of_not_full (hr : r.table.isFull = false) (now : Instant) (adv : Advertisement)
    (interface : InterfaceId) (metric : Metric) :
    ∃ table, r.table.insert? (.ofAdvertisement adv now interface metric) =
        some (r.table.nextId, table) ∧
      r.adopt now adv interface metric =
        (.ok r.table.nextId, { r with table := table }.consider now r.table.nextId) := by
  cases ht : r.table.insert? (.ofAdvertisement adv now interface metric) with
  | none => cases hr.symm.trans (RouteTable.insert?_eq_none_iff.1 ht)
  | some e =>
      obtain ⟨id, table⟩ := e
      obtain rfl := (RouteTable.get?_of_insert? ht id).1
      exact ⟨table, rfl, by simp only [adopt, hr, Bool.false_eq_true, if_false, ht]⟩

namespace Agree

variable (h : Agree dest r s)
include h

/-! ### The forwarding table -/

theorem markInstalled (hid : BothFor dest r s id) :
    Parallel dest r s (r.markInstalled id dest) (s.markInstalled id dest) :=
  (h.modifyRoute (f := ({ · with installed := true })) hid fun _ => rfl).andThen
    fun h => h.eraseLeftover

theorem install (hid : BothFor dest r s id) :
    Parallel dest r s (r.install id) (s.install id) := by
  unfold Router.install
  rw [h.route?_eq hid]
  cases hr : r.route? id with
  | none => exact .refl h
  | some route =>
      obtain rfl := hid.left route hr
      have hd : (r.installOp (r.entryOf route)).dest = route.dest :=
        r.dest_installOp (r.entryOf route)
      simp only [h.entryOf_eq, h.installOp_eq (r.entryOf route) rfl, h.answer_eq hd]
      have hasked := h.ask hd (r.within_installOp (r.entryOf route))
      split
      · exact .refl h
      split
      · exact hasked.andThen fun h => h.markInstalled (hasked.bothFor hid)
      · have hreported := hasked.andThen fun h =>
          h.report (.alreadyInKernel (r.installOp (r.entryOf route)))
            (.alreadyInKernel (r.installOp (r.entryOf route)))
        exact hreported.andThen fun h => h.markInstalled (hreported.bothFor hid)
      · exact hasked.andThen fun h => h.report _ _

theorem uninstall (hid : BothFor dest r s id) :
    Parallel dest r s (r.uninstall id) (s.uninstall id) := by
  unfold Router.uninstall
  rw [h.route?_eq hid]
  cases hr : r.route? id with
  | none => exact .refl h
  | some route =>
      have hd : (KernelOp.flush (r.entryOf route)).dest = dest := hid.left route hr
      simp only [h.entryOf_eq, h.answer_eq hd]
      have hasked := h.ask hd fun _ => hd
      have hwithdrawn := hasked.andThen fun h =>
        h.modifyRoute (f := ({ · with installed := false })) (hasked.bothFor hid) fun _ => rfl
      split
      · exact .refl h
      split
      · exact hwithdrawn
      · exact hwithdrawn
      · exact hasked.andThen fun h => h.report _ _

theorem release (hid : BothFor dest r s id) :
    Parallel dest r s (r.release id) (s.release id) := by
  have hwithdrawn := h.uninstall hid
  refine hwithdrawn.andThen fun h => ?_
  have hid := hwithdrawn.bothFor hid
  unfold Router.release
  simp only []
  rw [h.route?_eq hid]
  cases hr : (r.uninstall id).route? id with
  | none => exact .refl h
  | some route =>
      obtain rfl := hid.left route hr
      simp only [h.entryOf_eq]
      split
      · exact h.insertLeftover rfl
      · exact .refl h

theorem replaceInstalled (hold : BothFor dest r s oldId) (hid : BothFor dest r s id) :
    Parallel dest r s (r.replaceInstalled oldId id) (s.replaceInstalled oldId id) := by
  unfold Router.replaceInstalled
  rw [h.route?_eq hold, h.route?_eq hid]
  cases ho : r.route? oldId with
  | none => exact .refl h
  | some old =>
    cases hr : r.route? id with
    | none => exact .refl h
    | some route =>
        have hd : (KernelOp.modify (r.entryOf old) (r.entryOf route)).dest = dest :=
          hid.left route hr
        simp only [h.entryOf_eq, h.answer_eq hd]
        have hasked := h.ask hd fun _ => ⟨hold.left old ho, hd⟩
        split
        · exact .refl h
        split
        · have hwithdrawn := hasked.andThen fun h =>
            h.modifyRoute (f := ({ · with installed := false })) (hasked.bothFor hold) fun _ => rfl
          exact hwithdrawn.andThen fun h => h.modifyRoute (f := ({ · with installed := true }))
            (hwithdrawn.bothFor hid) fun _ => rfl
        · exact hasked.andThen fun h => h.report _ _

theorem setMetric (hid : BothFor dest r s id) (metric : Metric) :
    Parallel dest r s (r.setMetric id metric) (s.setMetric id metric) := by
  unfold Router.setMetric
  rw [h.route?_eq hid]
  cases hr : r.route? id with
  | none => exact .refl h
  | some route =>
      have hd : (r.metricOp route metric).dest = dest := hid.left route hr
      simp only [h.metricOp_eq, h.answer_eq hd]
      have hasked := h.ask hd fun _ => ⟨hd, hd⟩
      split
      · split
        · exact hasked.andThen fun h =>
            h.modifyRoute (f := ({ · with metric })) (hasked.bothFor hid) fun _ => rfl
        · exact hasked.andThen fun h => h.report _ _
      · exact h.modifyRoute hid fun _ => rfl

/-! ### Announcing and asking -/

theorem announce (urgent : Bool) :
    Parallel dest r s (r.announce dest urgent) (s.announce dest urgent) := h.queue rfl

theorem requestSeqno (origin : NodeAddress) :
    Parallel dest r s (r.requestSeqno origin dest) (s.requestSeqno origin dest) := by
  unfold Router.requestSeqno
  rw [h.records]
  split
  · exact h.report _ _
  · exact h.queue rfl

theorem announceIfChanged (hd : route.dest = dest) (oldOrigin : NodeAddress)
    (oldMetric : Metric) :
    Parallel dest r s (r.announceIfChanged route oldOrigin oldMetric)
      (s.announceIfChanged route oldOrigin oldMetric) := by
  subst hd
  unfold Router.announceIfChanged changeIsUrgent awaits
  rw [h.requests]
  simp only []
  split
  · exact h.announce _
  · exact .refl h

theorem requestIfWorse (hd : route.dest = dest) (oldMetric : Metric) :
    Parallel dest r s (r.requestIfWorse route oldMetric) (s.requestIfWorse route oldMetric) := by
  subst hd
  unfold Router.requestIfWorse
  split
  · exact .refl h
  split
  · exact h.requestSeqno route.origin
  split
  · exact h.queue rfl
  · exact .refl h

theorem announceChange (hid : BothFor dest r s id) (oldOrigin : NodeAddress)
    (oldMetric : Metric) :
    Parallel dest r s (r.announceChange id oldOrigin oldMetric)
      (s.announceChange id oldOrigin oldMetric) := by
  unfold Router.announceChange
  rw [h.route?_eq hid]
  cases hr : r.route? id with
  | none => exact .refl h
  | some route =>
      have hd := hid.left route hr
      simp only []
      split
      · exact (h.announceIfChanged hd oldOrigin oldMetric).andThen fun h =>
          h.requestIfWorse hd oldMetric
      · exact .refl h

theorem requestFeasible (metric : Metric) (origin : NodeAddress) :
    Parallel dest r s (r.requestFeasible metric origin dest)
      (s.requestFeasible metric origin dest) := by
  unfold Router.requestFeasible wouldHelp
  rw [h.records, h.installed?_eq]
  split
  · exact h.requestSeqno origin
  · exact .refl h

/-! ### Promotion -/

theorem promoteAlone (hid : BothFor dest r s id) (hd : route.dest = dest) :
    Parallel dest r s (r.promoteAlone id route) (s.promoteAlone id route) := by
  subst hd
  have hreported := h.report (.switching id route) (.switching id route)
  have hinstalled := hreported.andThen fun h => h.install (hreported.bothFor hid)
  exact hinstalled.andThen fun h => h.announce true

theorem promoteOver (hid : BothFor dest r s id) (hold : BothFor dest r s oldId)
    (hd : route.dest = dest) :
    Parallel dest r s (r.promoteOver id route oldId old) (s.promoteOver id route oldId old) := by
  subst hd
  have hreported := h.report (.switching id route) (.switching id route)
  have hreplaced := hreported.andThen fun h =>
    h.replaceInstalled (hreported.bothFor hold) (hreported.bothFor hid)
  unfold Router.promoteOver
  simp only []
  rw [hreplaced.agree.isInstalled_eq (hreplaced.bothFor hid)]
  split
  · exact hreplaced.andThen fun h => h.announceChange (hreplaced.bothFor hid) _ _
  · exact hreplaced.andThen fun h => h.announce true

/-- Whether a route is installed, and in the place of which other, is the same in both. -/
theorem consider (hid : BothFor dest r s id) (now : Instant) :
    Parallel dest r s (r.consider now id) (s.consider now id) := by
  unfold Router.consider
  rw [h.candidate?_eq hid]
  cases hc : r.candidate? now id with
  | none => exact .refl h
  | some route =>
      obtain rfl := hid.left route (get?_of_candidate? hc).1
      simp only [h.installed?_eq]
      cases ho : r.table.installed? route.dest with
      | none => exact h.promoteAlone hid rfl
      | some e =>
          have hold := RouteTable.get?_of_installed? ho
          simp only []
          split
          · exact h.promoteOver hid (h.bothFor hold.1 hold.2.2) rfl
          · exact .refl h

theorem replaceLost (now : Instant) (origin : NodeAddress) (oldMetric : Metric) :
    Parallel dest r s (r.replaceLost now origin dest oldMetric)
      (s.replaceLost now origin dest oldMetric) := by
  unfold Router.replaceLost
  rw [h.best?_eq]
  cases hbest : r.best? now dest true none with
  | some e =>
      obtain ⟨hr, hd, -⟩ := eligible_of_best? hbest
      exact h.consider (h.bothFor hr hd) now
  | none =>
      have hannounced := h.announce true
      simp only []
      split
      · exact hannounced.andThen fun h => h.requestSeqno origin
      · exact hannounced

theorem seekBetter (hd : route.dest = dest) (now : Instant) :
    Parallel dest r s (r.seekBetter now route) (s.seekBetter now route) := by
  subst hd
  unfold Router.seekBetter
  rw [h.best?_eq]
  cases hbest : r.best? now route.dest true none with
  | none => exact .refl h
  | some e =>
      obtain ⟨hr, hd, -⟩ := eligible_of_best? hbest
      simp only []
      split
      · exact h.consider (h.bothFor hr hd) now
      · exact .refl h

theorem reconsider (hid : BothFor dest r s id) (now : Instant) (oldOrigin : NodeAddress)
    (oldMetric : Metric) :
    Parallel dest r s (r.reconsider now id oldOrigin oldMetric)
      (s.reconsider now id oldOrigin oldMetric) := by
  unfold Router.reconsider
  rw [h.route?_eq hid]
  cases hr : r.route? id with
  | none => exact .refl h
  | some route =>
      have hd := hid.left route hr
      have hannounced : ∀ {r' s' : Router}, Parallel dest r s r' s' → Parallel dest r s
          (if r'.isInstalled id then r'.announceChange id oldOrigin oldMetric else r')
          (if s'.isInstalled id then s'.announceChange id oldOrigin oldMetric else s') := by
        intro r' s' hsought
        rw [hsought.agree.isInstalled_eq (hsought.bothFor hid)]
        split
        · exact hsought.andThen fun h => h.announceChange (hsought.bothFor hid) _ _
        · exact hsought
      simp only []
      split
      · split
        · exact hannounced (h.seekBetter hd now)
        · exact hannounced (.refl h)
      · exact h.consider hid now

/-! ### Removing and rewriting routes -/

theorem flush (hid : BothFor dest r s id) (now : Instant) :
    Parallel dest r s (r.flush now id) (s.flush now id) := by
  unfold Router.flush
  rw [h.route?_eq hid]
  cases hr : r.route? id with
  | none => exact .refl h
  | some route =>
      obtain rfl := hid.left route hr
      simp only []
      split
      · have hreleased := h.release hid
        have herased := hreleased.andThen fun h => h.eraseRoute id
        exact herased.andThen fun h => h.replaceLost now _ _
      · exact h.eraseRoute id

theorem retractIfTimedOut (hid : BothFor dest r s id) (hd : route.dest = dest) (now : Instant) :
    Parallel dest r s (r.retractIfTimedOut now id route) (s.retractIfTimedOut now id route) := by
  subst hd
  unfold Router.retractIfTimedOut retractionSeqno
  rw [h.timedOut_eq, h.records]
  split
  · exact h.modifyRoute hid fun _ => rfl
  · exact .refl h

theorem remetric (hid : BothFor dest r s id) (now : Instant) :
    Parallel dest r s (r.remetric now id) (s.remetric now id) := by
  unfold Router.remetric
  rw [h.route?_eq hid]
  cases hr : r.route? id with
  | none => exact .refl h
  | some route =>
      have hretracted := h.retractIfTimedOut hid (hid.left route hr) now
      have hmetric : s.currentMetric now route = r.currentMetric now route := by
        rw [currentMetric, currentMetric, h.timedOut_eq, h.pathMetric_eq]
      simp only [hmetric]
      have hset := hretracted.andThen fun h =>
        h.setMetric (hretracted.bothFor hid) (r.currentMetric now route)
      exact hset.andThen fun h => h.reconsider (hset.bothFor hid) now _ _

theorem record (hid : BothFor dest r s id) (now : Instant) (adv : Advertisement) (feasible : Bool)
    (metric : Metric) :
    Parallel dest r s (r.record now adv feasible metric id)
      (s.record now adv feasible metric id) := by
  have hwritten := h.modifyRoute (f := (·.withAdvertisement now adv feasible)) hid fun _ => rfl
  exact hwritten.andThen fun h => h.setMetric (hwritten.bothFor hid) metric

/-! ### Receiving -/

theorem update (hid : BothFor dest r s id) (hadv : adv.dest = dest) (now : Instant)
    (feasible : Bool) (metric : Metric) :
    Parallel dest r s (r.update now adv feasible metric id old)
      (s.update now adv feasible metric id old) := by
  subst hadv
  cases feasible with
  | true =>
      rw [update_of_feasible, update_of_feasible]
      have hrecorded := h.record hid now adv true metric
      exact hrecorded.andThen fun h => h.reconsider (hrecorded.bothFor hid) now _ _
  | false =>
      -- what is done before a new route is sought
      have htaken : ∀ {r' s' : Router}, Parallel adv.dest r s r' s' → Parallel adv.dest r s
          ((r'.record now adv false metric id).requestFeasible metric adv.origin adv.dest)
          ((s'.record now adv false metric id).requestFeasible metric adv.origin adv.dest) := by
        intro r' s' hbefore
        have hrecorded := hbefore.andThen fun h =>
          h.record (hbefore.bothFor hid) now adv false metric
        exact hrecorded.andThen fun h => h.requestFeasible metric adv.origin
      cases hi : old.installed with
      | false =>
          rw [update_of_not_installed hi, update_of_not_installed hi]
          exact htaken (.refl h)
      | true =>
          have hreported := h.report (.unfeasible old.origin adv) (.unfeasible old.origin adv)
          have hwithdrawn := hreported.andThen fun h => h.uninstall (hreported.bothFor hid)
          have hboth := hwithdrawn.agree.isInstalled_eq (hwithdrawn.bothFor hid)
          cases hw : ((r.report (.unfeasible old.origin adv)).uninstall id).isInstalled id with
          | false =>
              rw [update_of_withdrawn hi hw, update_of_withdrawn hi (hboth.trans hw)]
              exact (htaken hwithdrawn).andThen fun h => h.replaceLost now _ _
          | true =>
              rw [update_of_stuck hi hw, update_of_stuck hi (hboth.trans hw)]
              exact htaken hwithdrawn

theorem reject (adv : Advertisement) (reason : Rejection) :
    Parallel dest r s (r.reject adv reason).2 (s.reject adv reason).2 := by
  have hevent : s.rejectionEvent? adv reason = r.rejectionEvent? adv reason := by
    cases reason with
    | tableFull => simp only [rejectionEvent?, h.capacity]
    | _ => rfl
  rw [Router.reject, Router.reject, hevent]
  cases r.rejectionEvent? adv reason with
  | none => exact .refl h
  | some e => exact h.report e e

theorem adopt (hadv : adv.dest = dest) (hr : r.table.isFull = false) (hs : s.table.isFull = false)
    (now : Instant) (interface : InterfaceId) (metric : Metric) :
    (s.adopt now adv interface metric).1 = (r.adopt now adv interface metric).1 ∧
      Parallel dest r s (r.adopt now adv interface metric).2
        (s.adopt now adv interface metric).2 := by
  obtain ⟨table, ht, heq⟩ := adopt_of_not_full hr now adv interface metric
  obtain ⟨table', ht', heq'⟩ := adopt_of_not_full hs now adv interface metric
  obtain ⟨hid, hinserted⟩ := h.insert ht ht' hadv
  rw [heq, heq', hid]
  have hget : table.get? r.table.nextId = some (.ofAdvertisement adv now interface metric) :=
    (RouteTable.get?_of_insert? ht _).2.trans (if_pos rfl)
  exact ⟨rfl, hinserted.andThen fun h => h.consider (h.bothFor hget hadv) now⟩

theorem accept (hadv : adv.dest = dest) (hr : r.table.isFull = false)
    (hs : s.table.isFull = false) (now : Instant) (interface : InterfaceId) :
    (s.accept now adv interface).1 = (r.accept now adv interface).1 ∧
      Parallel dest r s (r.accept now adv interface).2 (s.accept now adv interface).2 := by
  subst hadv
  unfold Router.accept
  rw [h.feasible_eq, h.pathMetric_eq, h.match?_eq]
  simp only []
  cases hm : r.table.match? adv.dest adv.neigh adv.nexthop with
  | some e =>
      obtain ⟨hget, hd, -⟩ := RouteTable.get?_of_match? hm
      exact ⟨rfl, h.update (h.bothFor hget hd) rfl now _ _⟩
  | none =>
      simp only []
      split
      · have hasked := h.requestFeasible
          (r.pathMetric adv.origin adv.dest adv.neigh interface adv.refmetric) adv.origin
        exact ⟨rfl, hasked.andThen fun h => h.reject adv .unfeasible⟩
      split
      · exact ⟨rfl, h.reject adv .unknownRetraction⟩
      · exact h.adopt rfl hr hs now interface _

/-- An advertisement is received in both with the same result. -/
theorem receive (hadv : adv.dest = dest) (hr : r.table.isFull = false)
    (hs : s.table.isFull = false) (now : Instant) :
    (s.receive now adv).1 = (r.receive now adv).1 ∧
      Parallel dest r s (r.receive now adv).2 (s.receive now adv).2 := by
  subst hadv
  have hscreen : s.screen adv = r.screen adv := by
    rw [screen, screen, h.filter, h.neighbours]
  unfold Router.receive
  rw [hscreen]
  cases r.screen adv with
  | error reason => exact ⟨rfl, h.reject adv reason⟩
  | ok interface =>
      simp only []
      rcases h.observe adv.origin adv.seqno now with
        ⟨hnone, hnone'⟩ | ⟨sources, sources', hsome, hsome', hobserved⟩
      · rw [hnone, hnone']
        exact ⟨rfl, h.reject adv .noSource⟩
      · -- what follows starts from the states with the source on record
        rw [hsome, hsome']
        obtain ⟨hresult, haccepted⟩ := hobserved.agree.accept rfl hr hs now interface
        exact ⟨hresult, hobserved.trans haccepted⟩

end Agree

/-! ### The whole -/

/-- An operation is for the sake of a destination. -/
def Concerns (r : Router) (dest : Prefix) : Operation → Prop
  | .receive adv => adv.dest = dest
  | .flush id | .remetric id | .consider id =>
      ∃ route, r.table.get? id = some route ∧ route.dest = dest
  | .replaceLost _ lost _ => lost = dest
  | _ => False

/-- The routes for other destinations stay as they are, unless one has the name that a new route
takes. -/
def Spares (r : Router) (now : Instant) (dest : Prefix) (op : Operation) : Prop :=
  ∀ id route, route.dest ≠ dest → r.table.get? id = some route →
    (r.perform now op).table.get? id = some route ∨
      id = r.table.nextId ∧ ∃ adv, op = .receive adv ∧
        r.table.match? adv.dest adv.neigh adv.nexthop = none ∧ (r.receive now adv).1 = .ok id

/-- What an advertisement does to the routes for other destinations. -/
theorem spares_receive (hr : r.table.isFull = false) (now : Instant) (adv : Advertisement) :
    r.Spares now adv.dest (.receive adv) := by
  intro id route hne hget
  rcases r.receive_cases now adv with ⟨reason, heq⟩ | ⟨interface, sources, -, -, heq⟩
  · exact .inl (by rw [Router.perform, heq, table_reject, hget])
  cases hm : r.table.match? adv.dest adv.neigh adv.nexthop with
  | some e =>
      obtain ⟨hold, hd, -⟩ := RouteTable.get?_of_match? hm
      rw [accept_of_match (r := { r with sources := sources }) hm] at heq
      obtain ⟨r', ρ, hbefore, -, hρ, hρd, hafter⟩ := update_moves
        (r := { r with sources := sources }) now hold hd
        (feasible { r with sources } now adv.origin adv.dest adv.seqno adv.refmetric)
        (pathMetric { r with sources } adv.origin adv.dest adv.neigh interface adv.refmetric)
      have hkept : r'.table.get? id = some route := hbefore.get?_kept_elsewhere hne hget rfl
      have hother : id ≠ e.1 := by
        rintro rfl
        exact hne (Option.some.inj (hkept.symm.trans hρ) ▸ hρd)
      refine .inl ?_
      rw [Router.perform, heq]
      refine hafter.get?_kept_elsewhere hne ?_ rfl
      rw [RouteTable.get?_modify, if_neg hother, hkept]
  | none =>
      rcases accept_of_vacant (r := { r with sources := sources }) hm now interface with
        hunfeasible | hretraction | hadopt
      · exact .inl (by
          rw [Router.perform, heq, hunfeasible, table_reject, table_requestFeasible, hget])
      · exact .inl (by rw [Router.perform, heq, hretraction, table_reject, hget])
      obtain ⟨table, ht, hadopted⟩ :=
        adopt_of_not_full (r := { r with sources := sources }) hr now adv interface _
      rw [hadopt, hadopted] at heq
      by_cases hid : id = r.table.nextId
      · exact .inr ⟨hid, adv, rfl, hm, by rw [heq, hid]⟩
      · have hstored : table.get? id = some route := by
          rw [(RouteTable.get?_of_insert? ht id).2, if_neg hid, hget]
        have hnew := (RouteTable.get?_of_insert? ht r.table.nextId).2
        rw [if_pos rfl] at hnew
        refine .inl ?_
        rw [Router.perform, heq]
        exact (consider_moves (isFor_dest hnew)).get?_kept_elsewhere hne hstored rfl

theorem spares_of_moves {op : Operation} (h : Moves now dest r (r.perform now op)) :
    r.Spares now dest op :=
  fun _ _ hne hget => .inl (h.get?_kept_elsewhere hne hget rfl)

/-- An operation for the sake of a destination spares the routes for all others. -/
theorem spares_perform (hr : r.table.isFull = false) (now : Instant) {op : Operation}
    (hop : r.Concerns dest op) : r.Spares now dest op := by
  cases op with
  | receive adv =>
      obtain rfl : adv.dest = dest := hop
      exact spares_receive hr now adv
  | flush id =>
      obtain ⟨route, hget, rfl⟩ := hop
      exact spares_of_moves (flush_moves (isFor_dest hget))
  | remetric id =>
      obtain ⟨route, hget, rfl⟩ := hop
      exact spares_of_moves (remetric_moves (isFor_dest hget))
  | consider id =>
      obtain ⟨route, hget, rfl⟩ := hop
      exact spares_of_moves (consider_moves (isFor_dest hget))
  | replaceLost origin lost oldMetric =>
      obtain rfl : lost = dest := hop
      exact spares_of_moves (replaceLost_moves r now origin lost oldMetric)
  | _ => exact hop.elim

theorem Agree.perform (h : Agree dest r s) (hr : r.table.isFull = false)
    (hs : s.table.isFull = false) (now : Instant) {op : Operation} (hop : r.Concerns dest op) :
    Parallel dest r s (r.perform now op) (s.perform now op) := by
  cases op with
  | receive adv => exact (h.receive hop hr hs now).2
  | flush id =>
      obtain ⟨route, hget, hd⟩ := hop
      exact h.flush (h.bothFor hget hd) now
  | remetric id =>
      obtain ⟨route, hget, hd⟩ := hop
      exact h.remetric (h.bothFor hget hd) now
  | consider id =>
      obtain ⟨route, hget, hd⟩ := hop
      exact h.consider (h.bothFor hget hd) now
  | replaceLost origin lost oldMetric =>
      obtain rfl : lost = dest := hop
      exact h.replaceLost now origin oldMetric
  | _ => exact hop.elim

/-- What concerns a destination concerns it in both. -/
theorem Agree.concerns (h : Agree dest r s) {op : Operation} (hop : r.Concerns dest op) :
    s.Concerns dest op := by
  cases op with
  | flush id | remetric id | consider id =>
      obtain ⟨route, hget, hd⟩ := hop
      exact ⟨route, (h.routes id route hd).2 hget, hd⟩
  | _ => exact hop

/-- **Destinations do not disturb one another.**  If two routers agree on a destination and have
room, an operation for its sake has the same outcome in both, asks the kernel for the same and
queues the same packets, all about the destination, and leaves the routers in agreement.  Nothing
happens to what either holds of any other destination, except that a new route takes the next name
even if it is that of another route. -/
theorem isolated_perform (h : Agree dest r s) (hr : r.table.isFull = false)
    (hs : s.table.isFull = false) (now : Instant) {op : Operation} (hop : r.Concerns dest op) :
    (∀ adv, op = .receive adv → (s.receive now adv).1 = (r.receive now adv).1) ∧
      Parallel dest r s (r.perform now op) (s.perform now op) ∧
      r.Spares now dest op ∧ s.Spares now dest op := by
  have hperformed := h.perform hr hs now hop
  refine ⟨?_, hperformed, spares_perform hr now hop, spares_perform hs now (h.concerns hop)⟩
  rintro adv rfl
  exact (h.receive hop hr hs now).1

/-- A router with a route for `P` and one for another destination. -/
def beside (other : Prefix) : Router :=
  ((twoNeighbours []).perform 1000 (.receive ⟨"O1", "P", 10, 304, "N1", "H1"⟩)).perform 1000
    (.receive ⟨"O1", other, 10, 104, "N1", "H1"⟩)

/-- Whatever the other destination is, the router is the same as far as `P` is concerned. -/
theorem agree_beside : Agree "P" (beside "Q") (beside "R") where
  params := by decide +kernel
  neighbours := by decide +kernel
  filter := by decide +kernel
  exports := by decide +kernel
  requests := by decide +kernel
  nextId := by decide +kernel
  capacity := by decide +kernel
  routes id route hd := by
    have hroutes : (beside "R").table.routesFor "P" = (beside "Q").table.routesFor "P" := by
      decide +kernel
    have hmem : (id, route) ∈ (beside "R").table.routesFor "P" ↔
        (id, route) ∈ (beside "Q").table.routesFor "P" := by rw [hroutes]
    simpa only [RouteTable.mem_routesFor_iff, hd, and_true] using hmem
  records origin := by
    have hsources : ∀ other ∈ ["Q", "R"], (beside other).sources =
        (SourceTable.set {} (SourceTable.firstSight "O1" "P" 10 1000)).set
          (SourceTable.firstSight "O1" other 10 1000) := by decide +kernel
    have hrecord : ∀ other ∈ ["Q", "R"], (beside other).sources.find? origin "P" =
        (SourceTable.set {} (SourceTable.firstSight "O1" "P" 10 1000)).find? origin "P" := by
      intro other hother
      have hne : "P" ≠ other := by
        rintro rfl
        exact absurd hother (by decide)
      rw [hsources other hother, SourceTable.find?_set, if_neg]
      exact fun hkey => hne (congrArg SourceKey.dest hkey)
    rw [hrecord "R" (by decide), hrecord "Q" (by decide)]
  denied := by decide +kernel
  leftover := by decide +kernel
  entry := by decide +kernel
  faults := by decide +kernel

/-- A better route for `P` takes the place of the one that there was, with the same calls and the
same packets whatever the other destination is; and the route for that one stays. -/
theorem isolated_beside :
    Parallel "P" (beside "Q") (beside "R")
        ((beside "Q").perform 1001 (.receive ⟨"O2", "P", 10, 4, "N2", "H2"⟩))
        ((beside "R").perform 1001 (.receive ⟨"O2", "P", 10, 4, "N2", "H2"⟩)) ∧
      ((beside "R").receive 1001 ⟨"O2", "P", 10, 4, "N2", "H2"⟩).1 = .ok 2 ∧
      ((beside "R").receive 1001 ⟨"O2", "P", 10, 4, "N2", "H2"⟩).2.table.get? 2 =
        some ⟨"P", "O2", "N2", "H2", 2, 10, 4, 100, 1001, 1001, true⟩ ∧
      ((beside "R").receive 1001 ⟨"O2", "P", 10, 4, "N2", "H2"⟩).2.table.get? 1 =
        some ⟨"R", "O1", "N1", "H1", 1, 10, 104, 200, 1000, 1000, true⟩ := by
  have hok : ((beside "Q").receive 1001 ⟨"O2", "P", 10, 4, "N2", "H2"⟩).1 = .ok 2 := by
    decide +kernel
  have hnew : ((beside "Q").perform 1001 (.receive ⟨"O2", "P", 10, 4, "N2", "H2"⟩)).table.get? 2 =
      some ⟨"P", "O2", "N2", "H2", 2, 10, 4, 100, 1001, 1001, true⟩ := by decide +kernel
  have hother : (beside "R").table.get? 1 =
      some ⟨"R", "O1", "N1", "H1", 1, 10, 104, 200, 1000, 1000, true⟩ := by decide +kernel
  have hconcerns : (beside "Q").Concerns "P" (.receive ⟨"O2", "P", 10, 4, "N2", "H2"⟩) := rfl
  obtain ⟨hresult, hparallel, -, hspares⟩ :=
    isolated_perform agree_beside (by decide +kernel) (by decide +kernel) 1001 hconcerns
  refine ⟨hparallel, (hresult _ rfl).trans hok, (hparallel.agree.routes 2 _ rfl).2 hnew, ?_⟩
  rcases hspares 1 _ (by decide) hother with hkept | ⟨hnext, -⟩
  · exact hkept
  · exact absurd hnext (by decide +kernel)

/-- A router with a route whose name is the one that a new route gets. -/
def misnamed : Router :=
  { twoNeighbours [] with
    table := {
      routes := .ofList [(0, ⟨"Q", "O1", "N1", "H1", 1, 10, 104, 200, 1000, 1000, false⟩)]
      nextId := 0
      capacity := 8 } }

/-- A new route takes the place of one for another destination if the next name is in use. -/
theorem new_route_disturbs_other :
    ¬ ∀ (dest : Prefix) (r s : Router), Agree dest r s → r.table.isFull = false →
      s.table.isFull = false → ∀ (now : Instant) (op : Operation), r.Concerns dest op →
      ∀ id route, route.dest ≠ dest → r.table.get? id = some route →
        (r.perform now op).table.get? id = some route := by
  intro hclaim
  have hkept := hclaim "P" misnamed misnamed (.refl "P" misnamed) (by decide +kernel)
    (by decide +kernel) 1001 (.receive ⟨"O1", "P", 10, 104, "N1", "H1"⟩) rfl 0
    ⟨"Q", "O1", "N1", "H1", 1, 10, 104, 200, 1000, 1000, false⟩ (by decide) (by decide +kernel)
  revert hkept
  decide +kernel

end DistanceVector.Router
