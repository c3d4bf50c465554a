import DistanceVector.Proofs.Isolation
import DistanceVector.Proofs.Supply

/-!
# Nothing stray in the forwarding table

An entry of the forwarding table belongs to an installed route or was left over by one.  If no fault
is planned, this stays so whatever a router removes and whatever it installs instead, and then a
route that comes to be installed has its own entry in the forwarding table.  Here this is shown for
one destination at a time, without regard to what is left over for any other.

Main definitions:

* `Router.Tidy` — at most one route is installed for the destination, no fault is planned, and
  nothing is stray;
* `Router.Outclassed` — a route is not enough of a gain over the installed one.

Main results:

* `Router.consider_outcomes` — **what comes of a route that is considered**;
* `Router.Tidy.flush`, `Router.Tidy.makeRoom` — to remove routes leaves nothing stray.
-/

set_option relaxedAutoImplicit false
set_option autoImplicit false

namespace DistanceVector

/-! ### The kernel -/

namespace Kernel

variable {k : Kernel}

/-- Without a fault, an entry is gone after it was flushed, be it that there was none. -/
theorem Faultless.get?_entries_after_flush (h : k.Faultless) (entry : KernelEntry) :
    (k.after (.flush entry)).entries.get? entry.dest = none := by
  have hanswer := h.answer (.flush entry)
  cases hconflict : k.conflict? (.flush entry) with
  | none => exact get?_entries_after_of_accepted (hanswer.trans hconflict)
  | some error =>
      rw [entries_after_of_refused (hanswer.trans hconflict)]
      rw [conflict?] at hconflict
      split at hconflict
      · cases hconflict
      · next habsent =>
        rw [OrderedMap.contains, Option.not_isSome_iff_eq_none] at habsent
        exact habsent

end Kernel

namespace Router

variable {now : Instant} {dest dest' : Prefix} {r r' : Router} {id oldId : RouteId}
  {route old : Route}

/-! ### Tidiness -/

/-- At most one route is installed for the destination, no fault is planned, and unless a route is
installed for the destination or an entry left over, it has no entry in the forwarding table. -/
structure Tidy (dest : Prefix) (r : Router) : Prop where
  exclusive : r.table.Exclusive dest
  faultless : r.kernel.Faultless
  absent : (∀ id route, ¬ r.table.Owns dest id route) → r.leftovers.get? dest = none →
    r.kernel.entries.get? dest = none

/-- As long as a route is installed, nothing is stray. -/
theorem tidy_of_owns (hex : r.table.Exclusive dest) (hf : r.kernel.Faultless)
    (ho : r.table.Owns dest id route) : Tidy dest r :=
  ⟨hex, hf, fun hnone => absurd ho (hnone id route)⟩

theorem Tidy.of_told (h : Tidy dest r) (ht : Told dest' r r') : Tidy dest r' := by
  obtain ⟨_, _, _, rfl⟩ := ht
  exact ⟨h.exclusive, h.faultless, h.absent⟩

/-- What is done for another destination makes nothing stray. -/
theorem Tidy.elsewhere (h : Tidy dest r) (hmoves : Moves now dest' r r') (hu : Untouched dest' r r')
    (hne : dest ≠ dest') : Tidy dest r' := by
  refine ⟨hmoves.all.exclusive h.exclusive, (hmoves.asked.faultless h.faultless).2,
    fun hnone hleft => ?_⟩
  rw [hu.entries dest hne]
  refine h.absent (fun id route ho => ?_) (hu.leftovers dest hne ▸ hleft)
  exact hnone id route ((hmoves.owns_elsewhere_iff hne).2 ho)

/-! ### Installing -/

/-- A route that is installed where nothing was has its own entry in the forwarding table, unless
there was a stray one. -/
theorem entries_promoteAlone (hf : r.kernel.Faultless) (hr : r.table.get? id = some route)
    (hi : route.installed = false)
    (habsent : r.leftovers.get? route.dest = none → r.kernel.entries.get? route.dest = none) :
    (r.promoteAlone id route).kernel.entries.get? route.dest = some (r.entryOf route) := by
  have haccepted : r.kernel.answer (r.installOp (r.entryOf route)) = none := by
    rw [hf.answer]
    cases hl : r.leftovers.get? route.dest with
    | some leftover =>
        have hop : r.installOp (r.entryOf route) = .modify leftover (r.entryOf route) :=
          installOp_of_leftover hl
        rw [hop]
        rfl
    | none =>
        have hop : r.installOp (r.entryOf route) = .add (r.entryOf route) :=
          installOp_of_no_leftover hl
        have hnew : r.kernel.entries.contains (r.entryOf route).dest = false := by
          rw [OrderedMap.contains, Option.isSome_eq_false_iff, Option.isNone_iff_eq_none]
          exact habsent hl
        rw [hop, Kernel.conflict?, hnew]
        rfl
  have hinstalled := install_of_accepted (r := r.report (.switching id route)) hr hi haccepted
  have hkernel : (r.promoteAlone id route).kernel =
      r.kernel.after (r.installOp (r.entryOf route)) := by
    rw [promoteAlone, hinstalled]
    rfl
  have hentry := Kernel.get?_entries_after_of_accepted haccepted
  rw [outcome_installOp, dest_installOp] at hentry
  rw [hkernel]
  exact hentry

/-- A route that takes the place of the installed one has its own entry, whatever there was. -/
theorem entries_promoteOver (hf : r.kernel.Faultless) (ho : r.table.Owns dest oldId old)
    (hr : r.table.get? id = some route) :
    (r.promoteOver id route oldId old).kernel.entries.get? route.dest =
      some (r.entryOf route) := by
  have haccepted : r.kernel.answer (.modify (r.entryOf old) (r.entryOf route)) = none :=
    hf.answer _
  rw [kernel_promoteOver, replaceInstalled_of_accepted (r := r.report _) ho.get ho.installed hr
    haccepted]
  exact Kernel.get?_entries_after_of_accepted haccepted

/-- Another route is installed for the destination, and the route is not enough of a gain to take
its place. -/
def Outclassed (r : Router) (route : Route) : Prop :=
  ∃ e, r.table.installed? route.dest = some e ∧
    shouldSwitch e.2.metric route.metric (e.2.origin == route.origin) = false

/-- **What comes of a route that is considered.**  It may not be installed, or it is not enough of a
gain, and nothing happens; or it is installed, and has its own entry in the forwarding table unless
there was a stray one. -/
theorem consider_outcomes (hf : r.kernel.Faultless) (now : Instant) (id : RouteId) :
    r.candidate? now id = none ∧ r.consider now id = r ∨
    ∃ route, r.candidate? now id = some route ∧
      (r.Outclassed route ∧ r.consider now id = r ∨
        (r.consider now id).table.Owns route.dest id { route with installed := true } ∧
          (Tidy route.dest r → (r.consider now id).kernel.entries.get? route.dest =
            some (r.entryOf route))) := by
  have hunhindered := ((r.consider_allMoves now id).asked.faultless hf).1
  cases hc : r.candidate? now id with
  | none => exact .inl ⟨rfl, consider_of_no_candidate hc⟩
  | some route =>
      refine .inr ⟨route, rfl, ?_⟩
      obtain ⟨hr, hi, -, -⟩ := get?_of_candidate? hc
      cases ho : r.table.installed? route.dest with
      | none =>
          refine .inr ⟨hunhindered.owns_consider_of_vacant hc ho, fun htidy => ?_⟩
          rw [consider_of_vacant hc ho]
          exact entries_promoteAlone hf hr hi
            (htidy.absent (RouteTable.installed?_eq_none_iff.1 ho))
      | some e =>
          cases hgain : shouldSwitch e.2.metric route.metric (e.2.origin == route.origin) with
          | false => exact .inl ⟨⟨e, ho, hgain⟩, consider_of_no_gain hc ho hgain⟩
          | true =>
              refine .inr ⟨hunhindered.owns_consider_of_better hc ho hgain, fun _ => ?_⟩
              rw [consider_of_gain hc ho hgain]
              exact entries_promoteOver hf (RouteTable.owns_of_installed? ho) hr

/-! ### Nothing becomes stray -/

theorem Tidy.consider (h : Tidy dest r) (now : Instant) (id : RouteId) :
    Tidy dest (r.consider now id) := by
  obtain ⟨dest', hid⟩ := r.exists_isFor id
  by_cases hne : dest = dest'
  · subst hne
    rcases consider_outcomes h.faultless now id with ⟨-, heq⟩ | ⟨route, hc, ⟨-, heq⟩ | ⟨howns, -⟩⟩
    · rwa [heq]
    · rwa [heq]
    · obtain rfl := hid route (get?_of_candidate? hc).1
      have hmoves := r.consider_allMoves now id
      exact tidy_of_owns (hmoves.exclusive h.exclusive) (hmoves.asked.faultless h.faultless).2 howns
  · exact h.elsewhere (consider_moves hid)
      ((Agree.refl dest' r).consider ⟨hid, hid⟩ now).left hne

theorem Tidy.replaceLost (h : Tidy dest r) (now : Instant) (origin : NodeAddress)
    (lost : Prefix) (oldMetric : Metric) : Tidy dest (r.replaceLost now origin lost oldMetric) := by
  unfold Router.replaceLost
  split
  · exact h.consider now _
  · simp only []
    split
    · exact h.of_told ((told_announce r lost true).trans (told_requestSeqno _ origin lost))
    · exact h.of_told (told_announce r lost true)

/-- An installed route that leaves both tables takes its entry with it. -/
theorem Tidy.release (h : Tidy dest r) (ho : r.table.Owns dest id route) :
    Tidy dest ((r.release id).eraseRoute id) := by
  have hmoves : AllMoves 0 r ((r.release id).eraseRoute id) := (release_moves ho).all
  refine ⟨hmoves.exclusive h.exclusive, (hmoves.asked.faultless h.faultless).2, fun _ _ => ?_⟩
  have hflushed := h.faultless.get?_entries_after_flush (r.entryOf route)
  have hanswer : r.kernel.answer (.flush (r.entryOf route)) = none ∨
      r.kernel.answer (.flush (r.entryOf route)) = some .notFound := by
    rw [h.faultless.answer]
    exact r.kernel.conflict?_flush (r.entryOf route)
  have hwithdrawn := get?_uninstall_of_accepted ho.get ho.installed hanswer
  have hreleased : r.release id = r.uninstall id := by
    simp [Router.release, route?, hwithdrawn]
  have hkernel : ((r.release id).eraseRoute id).kernel =
      r.kernel.after (.flush (r.entryOf route)) := by
    rw [hreleased, uninstall_of_accepted ho.get ho.installed hanswer]
    rfl
  rw [hkernel, ← ho.dest_eq]
  exact hflushed

theorem Tidy.flush (h : Tidy dest r) (now : Instant) (id : RouteId) :
    Tidy dest (r.flush now id) := by
  obtain ⟨dest', hid⟩ := r.exists_isFor id
  by_cases hne : dest = dest'
  · subst hne
    cases hr : r.table.get? id with
    | none => rwa [flush_of_absent hr]
    | some route =>
        cases hi : route.installed with
        | true =>
            have ho : r.table.Owns dest id route := ⟨hr, hi, hid route hr⟩
            rw [flush_of_owns ho]
            exact (h.release ho).replaceLost now _ dest _
        | false =>
            have hmoves := r.flush_allMoves now id
            refine ⟨hmoves.exclusive h.exclusive, (hmoves.asked.faultless h.faultless).2, ?_⟩
            rw [flush_of_not_installed hr hi]
            refine fun hnone hleft => h.absent (fun other ρ ho => hnone other ρ ?_) hleft
            exact RouteTable.owns_erase.2 ⟨ho.ne_of_not_installed hr hi, ho⟩
  · exact h.elsewhere (flush_moves hid)
      ((Agree.refl dest' r).flush ⟨hid, hid⟩ now).left hne

theorem Tidy.flushIfUseless (h : Tidy dest r) (now : Instant) (id : RouteId) :
    Tidy dest (r.flushIfUseless now id) := by
  unfold Router.flushIfUseless
  split
  · exact h.flush now id
  · exact h

theorem Tidy.flushUseless (h : Tidy dest r) (now : Instant) : Tidy dest (r.flushUseless now) := by
  unfold Router.flushUseless
  generalize r.table.ids = ids
  induction ids generalizing r with
  | nil => exact h
  | cons id ids ih => exact ih (h.flushIfUseless now id)

/-- To make room leaves nothing stray. -/
theorem Tidy.makeRoom (h : Tidy dest r) (now : Instant) : Tidy dest (r.makeRoom now) := by
  unfold Router.makeRoom evict
  simp only []
  split
  · split
    · exact h.flushUseless now
    · exact ((h.flushUseless now).of_told (told_report "" _ _)).flush now _
  · exact h.flushUseless now

end Router

end DistanceVector
