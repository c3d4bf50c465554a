import DistanceVector.Proofs.SingleOwner

/-!
# The gate against loops

A route is only ever installed if it is feasible and this node does not announce the destination
itself, and an unfeasible advertisement takes its route out of the forwarding table.

Main definitions:

* `Router.Guarded` — whatever was installed since some earlier state passed the gate.

Main results:

* `Router.Move.owns_cases` — where the installed routes after a move come from;
* `Router.Move.guarded`, `Router.Taken.guarded` — every step keeps the gate shut;
* `Router.isInstalled_update_unfeasible` — an unfeasible advertisement leaves its route installed
  exactly if the kernel refuses to let go of it;
* `Router.gate_perform` — **both, for every operation and every advertisement**.
-/

set_option relaxedAutoImplicit false
set_option autoImplicit false

namespace DistanceVector.Router

variable {now : Instant} {dest : Prefix} {r r' r₀ : Router} {id : RouteId} {route : Route}

/-! ### Feasible routes -/

/-- A retracted route is feasible. -/
theorem routeFeasible_of_retracted (r : Router) (now : Instant)
    (h : route.refmetric = Metric.infinity) : r.routeFeasible now route = true := by
  rw [routeFeasible, feasible, h, Source.feasible]
  cases r.sources.find? route.origin route.dest with
  | none => rfl
  | some s => exact s.admits_infinity r.params.staleDelay now route.seqno

/-! ### A single step -/

/-- A change that installs nothing and makes nothing unfeasible leaves the gate shut. -/
theorem exists_owns_of_modify_feasible {d : Prefix} {other : RouteId} {f : Route → Route}
    (ho : (r.table.modify other f).Owns d id route)
    (hi : ∀ ρ, (f ρ).installed = true → ρ.installed = true) (hd : ∀ ρ, (f ρ).dest = ρ.dest)
    (hf : ∀ ρ, r.routeFeasible now ρ = true → r.routeFeasible now (f ρ) = true) :
    ∃ σ, r.table.Owns d id σ ∧
      (r.routeFeasible now σ = true → r.routeFeasible now route = true) := by
  obtain ⟨σ, hσ, heq⟩ := RouteTable.exists_owns_of_modify ho hi hd
  refine ⟨σ, hσ, fun hfeasible => ?_⟩
  rw [heq]
  split
  · exact hf σ hfeasible
  · exact hfeasible

/-- A route that is installed after a move either passed the gate in that move, or was installed
before it and was made no less feasible. -/
theorem Move.owns_cases {d : Prefix} (h : Move now dest r r') (ho : r'.table.Owns d id route) :
    (r'.routeFeasible now route = true ∧ d ∉ r'.exports) ∨
      ∃ σ, r.table.Owns d id σ ∧
        (r.routeFeasible now σ = true → r'.routeFeasible now route = true) := by
  cases h with
  | told h =>
      obtain ⟨_, _, _, rfl⟩ := h
      exact .inr ⟨route, ho, fun hf => hf⟩
  | refused ha he => exact .inr ⟨route, ho, fun hf => hf⟩
  | @installed new candidate hc hd hn he =>
      obtain ⟨hget, -, hfeasible, hexports⟩ := get?_of_candidate? hc
      by_cases hid : id = new
      · subst hid
        obtain ⟨σ, hσ, rfl, -, hdest⟩ := RouteTable.owns_modify_self.1 ho
        obtain rfl := Option.some.inj (hget.symm.trans hσ)
        have hdest : candidate.dest = d := hdest
        subst hdest
        exact .inl ⟨hfeasible, hexports⟩
      · exact .inr ⟨route, (RouteTable.owns_modify_of_ne hid).1 ho, fun hf => hf⟩
  | @replaced new oldId candidate old hc hd hold he =>
      obtain ⟨hget, hi, hfeasible, hexports⟩ := get?_of_candidate? hc
      by_cases hid : id = new
      · subst hid
        obtain ⟨σ, hσ, rfl, -, hdest⟩ := RouteTable.owns_modify_self.1 ho
        rw [RouteTable.get?_modify, if_neg (hold.ne_of_not_installed hget hi).symm] at hσ
        obtain rfl := Option.some.inj (hget.symm.trans hσ)
        have hdest : candidate.dest = d := hdest
        subst hdest
        exact .inl ⟨hfeasible, hexports⟩
      · exact .inr (exists_owns_of_modify_feasible ((RouteTable.owns_modify_of_ne hid).1 ho)
          (fun _ hi => nomatch hi) (fun _ => rfl) fun _ hf => hf)
  | withdrawn hold he =>
      exact .inr (exists_owns_of_modify_feasible ho (fun _ hi => nomatch hi) (fun _ => rfl)
        fun _ hf => hf)
  | abandoned hold he => exact .inr ⟨route, (RouteTable.owns_erase.1 ho).2, fun hf => hf⟩
  | erased hr hd hi => exact .inr ⟨route, (RouteTable.owns_erase.1 ho).2, fun hf => hf⟩
  | retracted seqno hr hd =>
      exact .inr (exists_owns_of_modify_feasible ho (fun _ hi => hi) (fun _ => rfl)
        fun _ _ => routeFeasible_of_retracted r now rfl)
  | remetric metric hr hd hi =>
      exact .inr (exists_owns_of_modify_feasible ho (fun _ hi => hi) (fun _ => rfl)
        fun _ hf => hf)
  | remetricInstalled hold he =>
      exact .inr (exists_owns_of_modify_feasible ho (fun _ hi => hi) (fun _ => rfl)
        fun _ hf => hf)
  | forgotten hl he => exact .inr ⟨route, ho, fun hf => hf⟩

/-- Whatever is installed and was not in the state `r₀` is feasible, and its destination is not
one that this node announces itself. -/
def Guarded (now : Instant) (r₀ r : Router) : Prop :=
  ∀ id route, r.table.get? id = some route → route.installed = true → r₀.isInstalled id = false →
    r.routeFeasible now route = true ∧ route.dest ∉ r.exports

/-- **A move keeps the gate shut.** -/
theorem Move.guarded (h : Move now dest r r') (hg : Guarded now r₀ r) : Guarded now r₀ r' := by
  intro id route hget hi hbefore
  rcases h.owns_cases ⟨hget, hi, rfl⟩ with hpassed | ⟨σ, hσ, hfeasible⟩
  · exact hpassed
  · obtain ⟨hf, hexports⟩ := hg id σ hσ.get hσ.installed hbefore
    refine ⟨hfeasible hf, ?_⟩
    rw [h.sameBackground.exports, ← hσ.dest_eq]
    exact hexports

/-- Where nothing is installed that was not before, the gate is shut. -/
theorem guarded_of_fewer (h : ∀ id ρ, r'.table.get? id = some ρ → ρ.installed = true →
    ∃ σ, r.table.get? id = some σ ∧ σ.installed = true) : Guarded now r r' := by
  intro id route hget hi hbefore
  obtain ⟨σ, hσ, hσi⟩ := h id route hget hi
  rw [isInstalled_of_get? hσ, hσi] at hbefore
  cases hbefore

/-- While an advertisement is taken down, nothing is installed but what making room calls for. -/
theorem Taken.guarded {adv : Advertisement} (h : Taken now adv r r') : Guarded now r r' := by
  cases h with
  | ignored _ => exact guarded_of_fewer fun id ρ hget hi => ⟨ρ, hget, hi⟩
  | observed _ hs => exact guarded_of_fewer fun id ρ hget hi => ⟨ρ, hget, hi⟩
  | recorded feasible _ hs hm hinstalled hr hd =>
      refine guarded_of_fewer fun id ρ hget hi => ?_
      have howns : RouteTable.Owns _ ρ.dest id ρ := ⟨hget, hi, rfl⟩
      obtain ⟨σ, hσ, -⟩ := RouteTable.exists_owns_of_modify howns (fun _ hi => hi) fun _ => rfl
      exact ⟨σ, hinstalled id σ hσ.get hσ.installed, hσ.installed⟩
  | @stored sources new candidate table s _ hs hm hi ht =>
      have hstart : Guarded now r { r with sources := sources } :=
        guarded_of_fewer fun id ρ hget hi => ⟨ρ, hget, hi⟩
      have hroom : Guarded now r s := hm.preserves (fun hmove => hmove.guarded) hstart
      intro id ρ hget hρ hbefore
      have howns := RouteTable.owns_of_insert? ht hi ⟨hget, hρ, rfl⟩
      exact hroom id ρ howns.get hρ hbefore

/-- **Every operation keeps the gate shut.** -/
theorem guarded_perform (r : Router) (now : Instant) (op : Operation) :
    Guarded now r (r.perform now op) := by
  -- recording an advertisement may make an installed route unfeasible, but it installs none, so
  -- the moves after it start with the gate shut
  rcases r.perform_moves now op with ⟨-, hmoves⟩ | ⟨adv, r', -, htaken, hmoves⟩
  · exact hmoves.preserves (fun hmove => hmove.guarded)
      (guarded_of_fewer fun id ρ hget hi => ⟨ρ, hget, hi⟩)
  · exact hmoves.preserves (fun hmove => hmove.guarded) htaken.guarded

/-! ### Unfeasible advertisements -/

variable {adv : Advertisement} {old : Route}

/-- An unfeasible advertisement is one whose source is on record already. -/
theorem observe_of_unfeasible
    (hf : r.feasible now adv.origin adv.dest adv.seqno adv.refmetric = false) :
    r.sources.observe adv.origin adv.dest adv.seqno now = some r.sources := by
  have hrecord : (r.sources.find? adv.origin adv.dest).isSome = true := by
    rw [feasible, Source.feasible] at hf
    cases hs : r.sources.find? adv.origin adv.dest with
    | none =>
        rw [hs] at hf
        cases hf
    | some s => rfl
  rw [SourceTable.observe, if_pos hrecord]

/-- An unfeasible advertisement of a route of the table is recorded, unless the checks reject it. -/
theorem receive_of_unfeasible {interface : InterfaceId} (hs : r.screen adv = .ok interface)
    (hm : r.table.match? adv.dest adv.neigh adv.nexthop = some (id, old))
    (hf : r.feasible now adv.origin adv.dest adv.seqno adv.refmetric = false) :
    r.receive now adv = (.ok id, r.update now adv false
      (r.pathMetric adv.origin adv.dest adv.neigh interface adv.refmetric) id old) := by
  have haccept := accept_of_match hm now interface
  rw [hf] at haccept
  simp only [receive, hs, observe_of_unfeasible hf, haccept]

/-- The search for a new route does not bring back the one that an unfeasible advertisement took
out of the forwarding table. -/
theorem not_isInstalled_replaceLost {w : Router} (hb : SameBackground r w)
    (hw : w.table.get? id = some { old with installed := false }) (hd : old.dest = adv.dest)
    (hf : r.feasible now adv.origin adv.dest adv.seqno adv.refmetric = false) (metric : Metric) :
    (((w.record now adv false metric id).requestFeasible metric adv.origin adv.dest).replaceLost now
      old.origin adv.dest old.metric).isInstalled id = false := by
  obtain ⟨ρ, hρ, hρi, hρd, hρo, hρs, hρm⟩ := exists_get?_record hw now adv false metric
  have hget : ((w.record now adv false metric id).requestFeasible metric adv.origin
      adv.dest).table.get? id = some ρ := by
    rw [table_requestFeasible, hρ]
  have hbackground : SameBackground r ((w.record now adv false metric id).requestFeasible metric
      adv.origin adv.dest) := by
    have htold := told_requestFeasible (w.record now adv false metric id) metric adv.origin adv.dest
    exact (hb.trans (sameBackground_record w now adv false metric id)).trans
      (htold.moves : Moves now adv.dest _ _).sameBackground
  have hunfeasible : ((w.record now adv false metric id).requestFeasible metric adv.origin
      adv.dest).routeFeasible now ρ = false := by
    rw [hbackground.routeFeasible, routeFeasible, hρo, hρs, hρm, hρd]
    exact hd ▸ hf
  have hfinal := get?_replaceLost_of_unfeasible hget hρi hunfeasible old.origin adv.dest old.metric
  rw [isInstalled_of_get? hfinal, hρi]

/-- An unfeasible advertisement takes its route out of the forwarding table, unless the kernel
refuses to let go of it. -/
theorem isInstalled_update_unfeasible (hr : r.table.get? id = some old)
    (hd : old.dest = adv.dest)
    (hf : r.feasible now adv.origin adv.dest adv.seqno adv.refmetric = false) (metric : Metric) :
    (r.update now adv false metric id old).isInstalled id = true ↔
      old.installed = true ∧ ∃ error, error ≠ .notFound ∧
        r.kernel.answer (.flush (r.entryOf old)) = some error := by
  cases hi : old.installed with
  | false =>
      obtain ⟨ρ, hρ, hρi, -⟩ := exists_get?_record hr now adv false metric
      rw [update_of_not_installed hi, isInstalled_of_get? (by rw [table_requestFeasible, hρ]), hρi,
        hi]
      simp
  | true =>
      have hreport : (r.report (.unfeasible old.origin adv)).route? id = some old := hr
      rcases uninstall_cases hreport hi with ⟨ha, -⟩ | ⟨error, he, hne, heq⟩
      · -- the kernel lets go of the route
        have hget : (uninstall (r.report (.unfeasible old.origin adv)) id).table.get? id =
            some { old with installed := false } := get?_uninstall_of_accepted hreport hi ha
        have hreported : SameBackground r (r.report (.unfeasible old.origin adv)) :=
          ⟨rfl, rfl, rfl, rfl, rfl, rfl⟩
        have hbackground := hreported.trans (sameBackground_uninstall _ id)
        rw [update_of_withdrawn hi (isInstalled_of_get? hget),
          not_isInstalled_replaceLost hbackground hget hd hf metric]
        constructor
        · intro h
          cases h
        · rintro ⟨-, error, hne, he⟩
          rcases ha with ha | ha
          · cases he.symm.trans ha
          · exact absurd (Option.some.inj (he.symm.trans ha)) hne
      · -- the kernel refuses
        have hget : (uninstall (r.report (.unfeasible old.origin adv)) id).table.get? id =
            some old := by
          rw [heq]
          exact hr
        obtain ⟨ρ, hρ, hρi, -⟩ := exists_get?_record hget now adv false metric
        rw [update_of_stuck hi ((isInstalled_of_get? hget).trans hi),
          isInstalled_of_get? (by rw [table_requestFeasible, hρ]), hρi]
        exact ⟨fun _ => ⟨rfl, error, hne, he⟩, fun _ => hi⟩

/-- **Nothing passes the gate that should not.**  Whatever an operation installs is feasible
afterwards, and its destination is not one that this node announces itself.  An unfeasible
advertisement of a route of the table that passes the checks leaves the route installed exactly if
it was and the kernel refuses to let go of it; one that the checks reject leaves the table alone. -/
theorem gate_perform (r : Router) (now : Instant) :
    (∀ op id route, (r.perform now op).table.get? id = some route → route.installed = true →
      r.isInstalled id = false →
        (r.perform now op).routeFeasible now route = true ∧
          route.dest ∉ (r.perform now op).exports) ∧
    (∀ adv interface id old, r.screen adv = .ok interface →
      r.table.match? adv.dest adv.neigh adv.nexthop = some (id, old) →
      r.feasible now adv.origin adv.dest adv.seqno adv.refmetric = false →
        (r.receive now adv).1 = .ok id ∧
        ((r.receive now adv).2.isInstalled id = true ↔
          old.installed = true ∧ ∃ error, error ≠ .notFound ∧
            r.kernel.answer (.flush (r.entryOf old)) = some error)) ∧
    ∀ adv reason, r.screen adv = .error reason →
      (r.receive now adv).1 = .error reason ∧ (r.receive now adv).2.table = r.table := by
  refine ⟨fun op => guarded_perform r now op, ?_, ?_⟩
  · intro adv interface id old hs hm hf
    obtain ⟨hr, hd, -⟩ := RouteTable.get?_of_match? hm
    rw [receive_of_unfeasible hs hm hf]
    exact ⟨rfl, isInstalled_update_unfeasible hr hd hf _⟩
  · intro adv reason hs
    have hreceive : r.receive now adv = r.reject adv reason := by simp only [receive, hs]
    rw [hreceive]
    obtain ⟨_, _, _, htold⟩ := told_reject r adv reason adv.dest
    exact ⟨rfl, by rw [htold]⟩

/-- A router with a route for `P` from each neighbour, that of `N1` installed. -/
def twoRoutes : Router :=
  ((twoNeighbours [none, some (.os 5)]).perform 1000
    (.receive ⟨"O1", "P", 10, 104, "N1", "H1"⟩)).perform 1000
      (.receive ⟨"O2", "P", 10, 204, "N2", "H2"⟩)

/-- The same after the source `O1` announced something better than what `N1` passes on. -/
def outdated : Router :=
  { twoRoutes with sources := twoRoutes.sources.set ⟨"O1", "P", 10, 50, 1000⟩ }

/-- If the installed route is removed, the other one passes the gate.  If it is advertised again,
which is unfeasible, it stays because the kernel refuses to flush it.  What a stranger says changes
nothing. -/
theorem gate_perform_outdated :
    outdated.isInstalled 0 = true ∧ outdated.isInstalled 1 = false ∧
      (∃ route, (outdated.perform 1001 (.flush 0)).table.get? 1 = some route ∧
        route.installed = true ∧ (outdated.perform 1001 (.flush 0)).routeFeasible 1001 route = true ∧
          route.dest ∉ (outdated.perform 1001 (.flush 0)).exports) ∧
      (outdated.receive 1001 ⟨"O1", "P", 10, 104, "N1", "H1"⟩).2.isInstalled 0 = true ∧
      (outdated.receive 1001 ⟨"O1", "P", 10, 104, "N3", "H1"⟩).2.table = outdated.table := by
  obtain ⟨hgate, hunfeasible, hrejected⟩ := gate_perform outdated 1001
  have hget : ((outdated.perform 1001 (.flush 0)).table.get? 1).isSome = true := by decide +kernel
  obtain ⟨route, hroute⟩ := Option.isSome_iff_exists.1 hget
  have hinstalled : route.installed = true := by
    rw [← isInstalled_of_get? hroute]
    decide +kernel
  have hpassed := hgate (.flush 0) 1 route hroute hinstalled (by decide +kernel)
  have hmartian : outdated.filter.isMartian "P" = false := by decide +kernel
  have hpenalty : (outdated.filter.penalty "O1" "P" "N1" 1).reachable = true := by decide +kernel
  have hlink : outdated.neighbours.interface? "N1" = some 1 := by decide +kernel
  have hstranger : outdated.neighbours.interface? "N3" = none := by decide +kernel
  have hstays := (hunfeasible ⟨"O1", "P", 10, 104, "N1", "H1"⟩ 1 0
    ⟨"P", "O1", "N1", "H1", 1, 10, 104, 200, 1000, 1000, true⟩
    (by simp [screen, hmartian, hlink, hpenalty]) (by decide +kernel) (by decide +kernel)).2.2
  have hbefore : outdated.isInstalled 0 = true ∧ outdated.isInstalled 1 = false := by
    decide +kernel
  have hstill := hstays ⟨rfl, .os 5, nofun, by decide +kernel⟩
  have hsame := (hrejected ⟨"O1", "P", 10, 104, "N3", "H1"⟩ .unknownNeighbour
    (by simp [screen, hmartian, hstranger])).2
  exact ⟨hbefore.1, hbefore.2, ⟨route, hroute, hinstalled, hpassed⟩, hstill, hsame⟩

/-- The same after `P` was declared a destination that must never be routed. -/
def outlawed : Router := { outdated with filter := { martians := ["P"] } }

/-- An unfeasible advertisement that the checks reject is not looked at, and its route stays
installed without the kernel being asked. -/
theorem rejected_advertisement_withdraws_nothing :
    ¬ ∀ (r : Router) (now : Instant) (adv : Advertisement) (id : RouteId) (old : Route),
      Reachable r → r.table.match? adv.dest adv.neigh adv.nexthop = some (id, old) →
      r.feasible now adv.origin adv.dest adv.seqno adv.refmetric = false →
        (r.receive now adv).2.isInstalled id = false ∨
          ∃ error, error ≠ .notFound ∧ ⟨.flush (r.entryOf old), some error⟩ ∈
            (r.receive now adv).2.kernel.calls := by
  intro hclaim
  have hlinked : Reachable (twoNeighbours [none, some (.os 5)]) :=
    .surround (.start {}) rfl rfl
  have hroutes : Reachable twoRoutes := .operate (.operate hlinked 1000 _) 1000 _
  have hreachable : Reachable outlawed := .surround (.surround hroutes rfl rfl) rfl rfl
  have hmatch : outlawed.table.match? "P" "N1" "H1" = some (0,
      ⟨"P", "O1", "N1", "H1", 1, 10, 104, 200, 1000, 1000, true⟩) := by decide +kernel
  have hunfeasible : outlawed.feasible 1001 "O1" "P" 10 104 = false := by decide +kernel
  have hinstalled : (outlawed.receive 1001 ⟨"O1", "P", 10, 104, "N1", "H1"⟩).2.isInstalled 0 =
    true := by decide +kernel
  have hcalls : (outlawed.receive 1001 ⟨"O1", "P", 10, 104, "N1", "H1"⟩).2.kernel.calls =
    [⟨.add ⟨"P", "H1", 1, 1⟩, none⟩] := by decide +kernel
  rcases hclaim outlawed 1001 ⟨"O1", "P", 10, 104, "N1", "H1"⟩ 0 _ hreachable hmatch hunfeasible
    with hgone | ⟨error, hne, hmem⟩
  · rw [hinstalled] at hgone
    cases hgone
  · rw [hcalls] at hmem
    simp at hmem

end DistanceVector.Router
