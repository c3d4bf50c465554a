import DistanceVector.Proofs.SingleOwner

/-!
# Entries that take the place of others

Three steps may ask the kernel to put one entry in the place of another: to install a route while an
entry for its destination is left over, to put a route in the place of the installed one, and to
change the metric of an installed route.  If the kernel refuses, both tables of the router must stay
as they are, for the old entry is still there.

They do, with one exception.  An entry that was to be added and is there already is no failure; the
destination is programmed all the same.  To install a route takes this answer for success also where
the entry was not to be added, but to take the place of a leftover.  Then the route counts as
installed and nobody remembers the leftover, which is what the kernel goes on to use.

Main definitions:

* `Exchange` — the steps that may ask for it, and `Exchange.alone?` — the route that a step installs
  where no other is;
* `Router.SameTables` — nothing changed in the two tables that tell what is installed;
* `Router.Answered` — what comes of a step, by the kernel's answer.

Main results:

* `Router.install_cases`, `Router.replaceInstalled_cases`, `Router.setMetric_cases` — what each step
  asks for, and what comes of it;
* `Router.answered_exchange` — the same of all of them;
* `Router.sameTables_iff_of_refused` — **a refused exchange changes nothing but in one case, and what
  happens then**;
* `Router.refusal_taken_for_success` — that case comes about.
-/

set_option relaxedAutoImplicit false
set_option autoImplicit false

namespace DistanceVector

/-- The steps that may ask the kernel to put one entry in the place of another. -/
inductive Exchange where
  /-- A route is installed. -/
  | install (id : RouteId)
  /-- A route is installed in the place of another one, if there is one. -/
  | change (old : Option RouteId) (new : RouteId)
  /-- The metric of a route changes. -/
  | setMetric (id : RouteId) (metric : Metric)

/-- The route that the step installs without taking another one's place. -/
def Exchange.alone? : Exchange → Option RouteId
  | .install id => some id
  | .change none new => some new
  | .change (some _) _ | .setMetric _ _ => none

namespace Router

variable {r r' : Router} {id oldId : RouteId} {route : Route} {error : KernelError}
  {old new : KernelEntry}

/-- The router after the step. -/
def exchange (r : Router) : Exchange → Router
  | .install id => r.install id
  | .change old new => r.changeInstalled old new
  | .setMetric id metric => r.setMetric id metric

/-- The routes and the leftovers are the same in both states. -/
structure SameTables (r r' : Router) : Prop where
  table : r'.table = r.table
  leftovers : r'.leftovers = r.leftovers

/-! ### What the steps ask for -/

/-- To install a route asks for one operation.  Whether the kernel carries it out or says that the
entry is there already, the route counts as installed, and nothing is left over; otherwise nothing
changes. -/
theorem install_cases (hr : r.table.get? id = some route) (hi : route.installed = false) :
    (r.install id).kernel = r.kernel.after (r.installOp (r.entryOf route)) ∧
      ((r.kernel.answer (r.installOp (r.entryOf route)) = none ∨
          r.kernel.answer (r.installOp (r.entryOf route)) = some .alreadyExists) ∧
        (r.install id).table = r.table.modify id ({ · with installed := true }) ∧
        (r.install id).leftovers = r.leftovers.erase route.dest ∨
      ∃ error, r.kernel.answer (r.installOp (r.entryOf route)) = some error ∧
        error ≠ .alreadyExists ∧ SameTables r (r.install id)) := by
  cases ha : r.kernel.answer (r.installOp (r.entryOf route)) with
  | none =>
      rw [install_of_accepted hr hi ha]
      exact ⟨rfl, .inl ⟨.inl rfl, rfl, rfl⟩⟩
  | some error =>
      by_cases hp : error = .alreadyExists
      · subst hp
        rw [install_of_present hr hi ha]
        exact ⟨rfl, .inl ⟨.inr rfl, rfl, rfl⟩⟩
      · rw [install_of_refused hr hi ha hp]
        exact ⟨rfl, .inr ⟨error, rfl, hp, ⟨rfl, rfl⟩⟩⟩

/-- To put a route in the place of the installed one asks for one operation.  If the kernel carries
it out, the routes change places; otherwise nothing changes. -/
theorem replaceInstalled_cases {oldRoute : Route} (ho : r.table.get? oldId = some oldRoute)
    (hi : oldRoute.installed = true) (hr : r.table.get? id = some route) :
    (r.replaceInstalled oldId id).kernel =
        r.kernel.after (.modify (r.entryOf oldRoute) (r.entryOf route)) ∧
      (r.kernel.answer (.modify (r.entryOf oldRoute) (r.entryOf route)) = none ∧
        (r.replaceInstalled oldId id).table =
          (r.table.modify oldId ({ · with installed := false })).modify id
            ({ · with installed := true }) ∧
        (r.replaceInstalled oldId id).leftovers = r.leftovers ∨
      ∃ error, r.kernel.answer (.modify (r.entryOf oldRoute) (r.entryOf route)) = some error ∧
        SameTables r (r.replaceInstalled oldId id)) := by
  cases ha : r.kernel.answer (.modify (r.entryOf oldRoute) (r.entryOf route)) with
  | none =>
      rw [replaceInstalled_of_accepted ho hi hr ha]
      exact ⟨rfl, .inl ⟨rfl, rfl, rfl⟩⟩
  | some error =>
      rw [replaceInstalled_of_refused ho hi hr ha]
      exact ⟨rfl, .inr ⟨error, rfl, ⟨rfl, rfl⟩⟩⟩

/-- To change the metric of an installed route asks for one operation.  If the kernel carries it out,
the route has the new metric; otherwise nothing changes. -/
theorem setMetric_cases (hr : r.table.get? id = some route) (hi : route.installed = true)
    (metric : Metric) :
    (r.setMetric id metric).kernel = r.kernel.after (r.metricOp route metric) ∧
      (r.kernel.answer (r.metricOp route metric) = none ∧
        (r.setMetric id metric).table = r.table.modify id ({ · with metric }) ∧
        (r.setMetric id metric).leftovers = r.leftovers ∨
      ∃ error, r.kernel.answer (r.metricOp route metric) = some error ∧
        SameTables r (r.setMetric id metric)) := by
  cases ha : r.kernel.answer (r.metricOp route metric) with
  | none =>
      rw [setMetric_of_accepted hr hi ha]
      exact ⟨rfl, .inl ⟨rfl, rfl, rfl⟩⟩
  | some error =>
      rw [setMetric_of_refused hr hi ha]
      exact ⟨rfl, .inr ⟨error, rfl, ⟨rfl, rfl⟩⟩⟩

/-! ### A step and the kernel's answer -/

/-- The route is installed where no other is, and the kernel says that the entry is there already.
The route counts as installed, and nothing is left over. -/
structure FoundPresent (r r' : Router) (id : RouteId) (route : Route) : Prop where
  get : r.table.get? id = some route
  answer : r.kernel.answer (r.installOp (r.entryOf route)) = some .alreadyExists
  table : r'.table = r.table.modify id ({ · with installed := true })
  leftovers : r'.leftovers = r.leftovers.erase route.dest

/-- What comes of a step: it asks for nothing, or for one operation.  If the kernel refuses the
operation, nothing changes, unless the entry of a route that is installed where no other is was
found present. -/
inductive Answered (r r' : Router) (step : Exchange) : Prop
  /-- The kernel was not asked. -/
  | silent (kernel : r'.kernel = r.kernel)
  /-- The operation was carried out. -/
  | granted (op : KernelOp) (kernel : r'.kernel = r.kernel.after op)
      (answer : r.kernel.answer op = none)
  /-- The operation was refused, and that is no failure. -/
  | present (id : RouteId) (route : Route)
      (kernel : r'.kernel = r.kernel.after (r.installOp (r.entryOf route)))
      (alone : step.alone? = some id) (found : FoundPresent r r' id route)
  /-- The operation was refused. -/
  | refused (op : KernelOp) (error : KernelError) (kernel : r'.kernel = r.kernel.after op)
      (answer : r.kernel.answer op = some error)
      (failed : error = .alreadyExists → step.alone? = none) (same : SameTables r r')

theorem answered_install {step : Exchange} (hstep : step.alone? = some id) :
    Answered r (r.install id) step := by
  cases hr : r.table.get? id with
  | none => exact .silent (by simp [install, route?, hr])
  | some route =>
      cases hi : route.installed with
      | true => exact .silent (by simp [install, route?, hr, hi])
      | false =>
          obtain ⟨hkernel, ⟨ha | ha, htable, hleft⟩ | ⟨error, ha, hne, hsame⟩⟩ :=
            install_cases hr hi
          · exact .granted _ hkernel ha
          · exact .present id route hkernel hstep ⟨hr, ha, htable, hleft⟩
          · exact .refused _ error hkernel ha (fun h => absurd h hne) hsame

theorem answered_replaceInstalled {step : Exchange} (hstep : step.alone? = none) :
    Answered r (r.replaceInstalled oldId id) step := by
  cases ho : r.table.get? oldId with
  | none => exact .silent (by simp [replaceInstalled, route?, ho])
  | some oldRoute =>
      cases hr : r.table.get? id with
      | none => exact .silent (by simp [replaceInstalled, route?, ho, hr])
      | some route =>
          cases hi : oldRoute.installed with
          | false => exact .silent (by simp [replaceInstalled, route?, ho, hr, hi])
          | true =>
              obtain ⟨hkernel, ⟨ha, -⟩ | ⟨error, ha, hsame⟩⟩ := replaceInstalled_cases ho hi hr
              · exact .granted _ hkernel ha
              · exact .refused _ error hkernel ha (fun _ => hstep) hsame

theorem answered_setMetric {step : Exchange} (hstep : step.alone? = none) (metric : Metric) :
    Answered r (r.setMetric id metric) step := by
  cases hr : r.table.get? id with
  | none => exact .silent (by simp [setMetric, route?, hr])
  | some route =>
      cases hi : route.installed with
      | false =>
          rw [setMetric_of_not_installed hr hi]
          exact .silent rfl
      | true =>
          obtain ⟨hkernel, ⟨ha, -⟩ | ⟨error, ha, hsame⟩⟩ := setMetric_cases hr hi metric
          · exact .granted _ hkernel ha
          · exact .refused _ error hkernel ha (fun _ => hstep) hsame

theorem answered_exchange (r : Router) (step : Exchange) : Answered r (r.exchange step) step := by
  cases step with
  | install id => exact answered_install rfl
  | change old new =>
      cases old with
      | none => exact answered_install rfl
      | some old => exact answered_replaceInstalled rfl
  | setMetric id metric => exact answered_setMetric rfl metric

/-! ### A refused exchange -/

/-- The only call that was added is the last one. -/
theorem answer_of_calls {op op' : KernelOp} {answer : Option KernelError}
    (hkernel : r'.kernel = r.kernel.after op)
    (hcalls : r'.kernel.calls = r.kernel.calls ++ [⟨op', answer⟩]) :
    op = op' ∧ r.kernel.answer op = answer := by
  rw [hkernel] at hcalls
  have hlast := List.append_cancel_left hcalls
  simp only [List.cons.injEq, KernelCall.mk.injEq, and_true] at hlast
  exact hlast

/-- If a leftover was to be replaced and the entry was found present, the leftover is forgotten. -/
theorem FoundPresent.leftover (h : FoundPresent r r' id route)
    (hop : r.installOp (r.entryOf route) = .modify old new) :
    new.dest = route.dest ∧ r.leftovers.get? new.dest = some old ∧
      r'.leftovers.get? new.dest = none := by
  rw [installOp] at hop
  split at hop
  · next leftover hl =>
    cases hop
    refine ⟨rfl, hl, ?_⟩
    rw [h.leftovers]
    exact OrderedMap.get?_erase_self _ _
  · cases hop

/-- **A refused exchange changes nothing but in one case.**  If the kernel refuses to put one entry
in the place of another, the forwarding table stays as it is.  The routes and the leftovers stay as
they are, too, unless a route was installed where no other is and the refusal says that the entry
is there already.  Then the route counts as installed, and the leftover that it was to replace is
forgotten. -/
theorem sameTables_iff_of_refused (r : Router) (step : Exchange) (old new : KernelEntry)
    (error : KernelError)
    (h : (r.exchange step).kernel.calls = r.kernel.calls ++ [⟨.modify old new, some error⟩]) :
    (r.exchange step).kernel.entries = r.kernel.entries ∧
      (SameTables r (r.exchange step) ↔
        ¬ (error = .alreadyExists ∧ ∃ id, step.alone? = some id)) ∧
      ∀ id, error = .alreadyExists → step.alone? = some id →
        r.leftovers.get? new.dest = some old ∧
        (r.exchange step).table = r.table.modify id ({ · with installed := true }) ∧
        (r.exchange step).leftovers = r.leftovers.erase new.dest := by
  cases answered_exchange r step with
  | silent hkernel =>
      rw [hkernel, List.self_eq_append_right] at h
      cases h
  | granted op hkernel ha =>
      obtain ⟨-, hanswer⟩ := answer_of_calls hkernel h
      rw [ha] at hanswer
      cases hanswer
  | present id route hkernel halone hfound =>
      obtain ⟨hop, hanswer⟩ := answer_of_calls hkernel h
      have herror : error = .alreadyExists := Option.some.inj (hanswer.symm.trans hfound.answer)
      obtain ⟨hdest, hleft, hgone⟩ := hfound.leftover hop
      refine ⟨?_, ⟨fun hsame => ?_, fun hnot => absurd ⟨herror, id, halone⟩ hnot⟩, ?_⟩
      · rw [hkernel, Kernel.entries_after_of_refused hanswer]
      · rw [hsame.leftovers, hleft] at hgone
        cases hgone
      · intro other _ hother
        obtain rfl := Option.some.inj (halone.symm.trans hother)
        exact ⟨hleft, hfound.table, hdest ▸ hfound.leftovers⟩
  | refused op error' hkernel ha hfailed hsame =>
      obtain ⟨-, hanswer⟩ := answer_of_calls hkernel h
      have herror : error' = error := Option.some.inj (ha.symm.trans hanswer)
      subst herror
      refine ⟨?_, ⟨fun _ => ?_, fun _ => hsame⟩, ?_⟩
      · rw [hkernel, Kernel.entries_after_of_refused ha]
      · rintro ⟨hpresent, id, halone⟩
        rw [hfailed hpresent] at halone
        cases halone
      · intro id hpresent halone
        rw [hfailed hpresent] at halone
        cases halone

/-- A router that announces `P` itself and has an entry left over for it.  The kernel is going to
answer the next operation on `P` with the given error. -/
def leftBehind (error : KernelError) : Router :=
  let withdrawn := ((twoNeighbours [none, some (.os 5), some error]).perform 1000
    (.receive ⟨"O1", "P", 10, 104, "N1", "H1"⟩)).perform 1001 (.flush 0)
  { withdrawn with exports := ["P"] }

/-- The same with a new route for `P`, which may not be installed. -/
def heldBack (error : KernelError) : Router :=
  (leftBehind error).perform 1002 (.receive ⟨"O2", "P", 10, 204, "N2", "H2"⟩)

/-- What a router announces itself may be anything at any time. -/
theorem Reachable.announcing (h : Reachable r) (exports : List Prefix) :
    Reachable { r with exports } := .surround h rfl rfl

theorem reachable_heldBack (error : KernelError) : Reachable (heldBack error) := by
  have hstart : Reachable (twoNeighbours [none, some (.os 5), some error]) :=
    .surround (.start {}) rfl rfl
  have hwithdrawn := (hstart.operate 1000 (.receive ⟨"O1", "P", 10, 104, "N1", "H1"⟩)).operate
    1001 (.flush 0)
  have hleft : Reachable (leftBehind error) := hwithdrawn.announcing ["P"]
  exact .operate hleft _ _

/-- If the failure is one of the operating system, the route is not installed and the leftover
remembered; if the entry is said to be there, it is the other way round. -/
theorem refused_heldBack :
    ((heldBack (.os 12)).exchange (.install 1)).kernel.entries =
        (heldBack (.os 12)).kernel.entries ∧
      SameTables (heldBack (.os 12)) ((heldBack (.os 12)).exchange (.install 1)) ∧
      ¬ SameTables (heldBack .alreadyExists)
        ((heldBack .alreadyExists).exchange (.install 1)) ∧
      ((heldBack .alreadyExists).exchange (.install 1)).isInstalled 1 = true := by
  have hfailed := sameTables_iff_of_refused (heldBack (.os 12)) (.install 1)
    ⟨"P", "H1", 1, 1⟩ ⟨"P", "H2", 2, 2⟩ (.os 12) (by decide +kernel)
  have hpresent := sameTables_iff_of_refused (heldBack .alreadyExists) (.install 1)
    ⟨"P", "H1", 1, 1⟩ ⟨"P", "H2", 2, 2⟩ .alreadyExists (by decide +kernel)
  exact ⟨hfailed.1, hfailed.2.1.2 (fun h => by cases h.1),
    fun hsame => hpresent.2.1.1 hsame ⟨rfl, 1, rfl⟩, by decide +kernel⟩

/-- A refused exchange may change both tables, in a router that comes about. -/
theorem refusal_taken_for_success :
    ¬ ∀ (r : Router) (step : Exchange) (old new : KernelEntry) (error : KernelError), Reachable r →
      (r.exchange step).kernel.calls = r.kernel.calls ++ [⟨.modify old new, some error⟩] →
        SameTables r (r.exchange step) := by
  intro hclaim
  have hsame := hclaim (heldBack .alreadyExists) (.install 1) ⟨"P", "H1", 1, 1⟩
    ⟨"P", "H2", 2, 2⟩ .alreadyExists (reachable_heldBack _) (by decide +kernel)
  have hbefore : (heldBack .alreadyExists).leftovers.get? "P" = some ⟨"P", "H1", 1, 1⟩ := by
    decide +kernel
  have hafter : ((heldBack .alreadyExists).exchange (.install 1)).leftovers.get? "P" = none := by
    decide +kernel
  rw [hsame.leftovers, hbefore] at hafter
  cases hafter

end Router

end DistanceVector
