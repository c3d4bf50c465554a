import DistanceVector.Proofs.Rejection
import DistanceVector.Proofs.Settling

/-!
# Advertisements that come twice

An advertisement that comes a second time right after the first changes nothing, whatever became of
it the first time.  For a rejection this is so because it leaves no trace but the record of the
source, which makes a difference to none of the reasons; else the advertisement is settled.

The one exception is a new route that takes the name of the installed route for its destination.
The forwarding table still has the entry of that one when the new route comes to be installed, and
only the second time gets the entry of the new route.

Main definitions:

* `Router.Repeated` — between two states nothing happened but what a repetition may do;
* `Router.Usurps` — a new route takes the name of the installed one.

Main results:

* `Rejected.grounds_iff` — after a rejection the same reasons apply as before;
* `Router.settled_receive` — **an advertisement that is not rejected is settled afterwards**;
* `Router.repeated_receive` — **an advertisement may come twice**;
* `Router.entry_changes_hands` — unless a new route takes the name of the installed one.
-/

set_option relaxedAutoImplicit false
set_option autoImplicit false

namespace DistanceVector.Router

variable {now : Instant} {dest : Prefix} {r r' : Router} {id : RouteId} {ρ : Route}
  {adv : Advertisement} {interface : InterfaceId} {feasible : Bool} {metric : Metric}

/-! ### The repetition -/

/-- Between the two states nothing happened to the router's own tables, and the kernel was asked at
most to put the entry of the installed route for the destination in the place of itself. -/
structure Repeated (dest : Prefix) (r r' : Router) : Prop where
  table : r'.table = r.table
  sources : r'.sources = r.sources
  leftovers : r'.leftovers = r.leftovers
  kernel : (r'.kernel.calls = r.kernel.calls ∧ r'.kernel.entries = r.kernel.entries) ∨
    ∃ id route, r.table.Owns dest id route ∧
      r'.kernel.calls =
        r.kernel.calls ++ [⟨.modify (r.entryOf route) (r.entryOf route), none⟩] ∧
      r'.kernel.entries = r.kernel.entries.insert dest (r.entryOf route)

/-- A settled advertisement may come again. -/
theorem Settled.repeated (h : Settled r now adv interface feasible metric id ρ) :
    (r.receive now adv).1 = .ok id ∧ Repeated adv.dest r (r.receive now adv).2 ∧
      (Held r ρ → (r.receive now adv).2.kernel.entries = r.kernel.entries) := by
  obtain ⟨hok, _, _, -, heq⟩ := h.receive
  refine ⟨hok, ?_⟩
  rw [heq]
  cases hi : ρ.installed with
  | false => exact ⟨⟨rfl, rfl, rfl, .inl ⟨rfl, rfl⟩⟩, fun _ => rfl⟩
  | true =>
      have haccepted : r.kernel.answer (.modify (r.entryOf ρ) (r.entryOf ρ)) = none :=
        h.faultless.answer _
      have hentries : (r.kernel.after (.modify (r.entryOf ρ) (r.entryOf ρ))).entries =
          r.kernel.entries.insert ρ.dest (r.entryOf ρ) :=
        Kernel.entries_after_of_accepted haccepted
      refine ⟨⟨rfl, rfl, rfl, .inr ⟨id, ρ, ⟨h.recorded.get, hi, h.recorded.dest_eq⟩, ?_, ?_⟩⟩,
        fun hheld => ?_⟩
      · rw [← haccepted]
        rfl
      · rw [← h.recorded.dest_eq]
        exact hentries
      · exact hentries.trans (OrderedMap.insert_eq_self (hheld hi))

/-! ### Rejections that are repeated -/

theorem isSome_find?_noted (r : Router) (now : Instant) (adv : Advertisement) :
    ((r.noted now adv).find? adv.origin adv.dest).isSome := by
  unfold noted
  split
  · assumption
  · exact congrArg Option.isSome ((SourceTable.find?_set ..).trans (if_pos rfl))

/-- A source is put on record once. -/
theorem noted_of_noted (h : r'.sources = r.noted now adv) : r'.noted now adv = r'.sources :=
  if_pos (h ▸ r.isSome_find?_noted now adv)

/-- If the first reason that applies is one of the last three, the source can be put on record. -/
theorem observe_of_find?_grounds {reason : Rejection} (hlate : reason ∉ Rejection.beforeRecord)
    (hfirst : Rejection.inOrder.find? (r.Grounds now adv) = some reason) :
    r.sources.observe adv.origin adv.dest adv.seqno now = some (r.noted now adv) ∧
      ¬ r.Grounds now adv .noSource := by
  rcases r.observe_cases now adv with ⟨-, hd⟩ | hobserved
  · exfalso
    rw [Rejection.inOrder, List.find?_append] at hfirst
    cases hearly : Rejection.beforeRecord.find? (r.Grounds now adv) with
    | none => exact List.find?_eq_none.1 hearly .noSource (by decide) (decide_eq_true hd)
    | some early =>
        rw [hearly, Option.some_or] at hfirst
        exact hlate (Option.some.inj hfirst ▸ List.mem_of_find?_eq_some hearly)
  · exact hobserved

/-- After a rejection the same reasons apply as before. -/
theorem Rejected.grounds_iff {reason : Rejection} (h : Rejected now adv reason r r')
    (hfirst : Rejection.inOrder.find? (r.Grounds now adv) = some reason) (other : Rejection) :
    r'.Grounds now adv other ↔ r.Grounds now adv other := by
  have hkept := h.kept
  have htable : r'.table = r.table := by rw [hkept]
  have hsources := h.sources
  split at hsources
  · rw [hkept, hsources]
    cases other <;> exact Iff.rfl
  · next hlate =>
    obtain ⟨hobserved, hd⟩ := observe_of_find?_grounds hlate hfirst
    have hnoted := noted_of_noted hsources
    rw [hsources] at hnoted
    -- that the source is on record makes a difference to none of the reasons
    cases other with
    | noSource =>
        refine iff_of_false (fun hground => ?_) hd
        have hrecord := r.isSome_find?_noted now adv
        rw [← hsources, hground.1] at hrecord
        cases hrecord
    | unfeasible =>
        have hfeasible : r'.feasible now adv.origin adv.dest adv.seqno adv.refmetric =
            r.feasible now adv.origin adv.dest adv.seqno adv.refmetric := by
          rw [hkept, Router.feasible, hsources]
          exact SourceTable.feasible_of_observe hobserved _ _
        rw [Grounds, Grounds, hfeasible, htable]
    | tableFull =>
        have hneeded : ∀ route, Needed { r' with sources := r'.noted now adv } now route ↔
            Needed { r with sources := r.noted now adv } now route := by
          intro route
          rw [hnoted, hkept]
          exact Iff.rfl
        simp only [Grounds, hneeded]
        rw [htable]
    | _ =>
        rw [hkept]
        exact Iff.rfl

/-- An advertisement that was rejected may come again. -/
theorem Rejected.repeated {reason : Rejection} (h : Rejected now adv reason r r')
    (hfirst : Rejection.inOrder.find? (r.Grounds now adv) = some reason)
    (hex : ∀ dest, r.table.Exclusive dest) (hsize : r.table.size ≤ r.table.capacity.toNat) :
    (r'.receive now adv).1 = .error reason ∧ Repeated adv.dest r' (r'.receive now adv).2 ∧
      (r'.receive now adv).2.kernel.entries = r'.kernel.entries := by
  have htable : r'.table = r.table := by rw [h.kept]
  have hsame : r'.Grounds now adv = r.Grounds now adv :=
    funext fun other => propext (h.grounds_iff hfirst other)
  have hagain : Rejection.inOrder.find? (r'.Grounds now adv) = some reason := by
    rw [← hfirst]
    simp only [hsame]
  rcases receive_rejected_or_groundless (r := r') (htable ▸ hex) (htable ▸ hsize) now adv with
    ⟨second, herror, hsecond, hrejected⟩ | ⟨-, hnone⟩
  · cases hagain.symm.trans hsecond
    have hsources : (r'.receive now adv).2.sources = r'.sources := by
      rw [hrejected.sources]
      split
      · rfl
      · next hlate => exact noted_of_noted (h.sources.trans (if_neg hlate))
    have hkept := hrejected.kept
    rw [hsources] at hkept
    refine ⟨herror, ?_, by rw [hkept]⟩
    rw [hkept]
    exact ⟨rfl, rfl, rfl, .inl ⟨rfl, rfl⟩⟩
  · cases hagain.symm.trans hnone

/-! ### The whole -/

/-- A new route takes the name of the installed route for its destination, as it is once there is
room.  That takes a table that did not give out its names in ascending order. -/
def Usurps (r : Router) (now : Instant) (adv : Advertisement) : Prop :=
  r.table.match? adv.dest adv.neigh adv.nexthop = none ∧
    ∃ ρ, (withRoom { r with sources := r.noted now adv } now).table.Owns adv.dest
      r.table.nextId ρ

/-- An advertisement that leads to a new route is feasible, and the route is taken up. -/
theorem accept_of_new (hm : r.table.match? adv.dest adv.neigh adv.nexthop = none)
    (hok : (r.accept now adv interface).1 = .ok id) :
    r.feasible now adv.origin adv.dest adv.seqno adv.refmetric = true ∧
      r.accept now adv interface = r.adopt now adv interface
        (r.pathMetric adv.origin adv.dest adv.neigh interface adv.refmetric) := by
  cases hf : r.feasible now adv.origin adv.dest adv.seqno adv.refmetric with
  | false =>
      simp only [accept, hm, hf, Bool.not_false, if_true] at hok
      cases hok
  | true =>
      cases hr : adv.refmetric.reachable with
      | false =>
          simp only [accept, hm, hf, hr, Bool.not_true, Bool.not_false, Bool.false_eq_true,
            if_true, if_false] at hok
          cases hok
      | true =>
          simp only [accept, hm, hf, hr, Bool.not_true, Bool.false_eq_true, if_false, and_self]

/-- **An advertisement that is not rejected is settled afterwards.** -/
theorem settled_receive (hex : ∀ dest, r.table.Exclusive dest) (hf : r.kernel.Faultless)
    (hok : (r.receive now adv).1 = .ok id) :
    ∃ interface feasible metric ρ,
      Settled (r.receive now adv).2 now adv interface feasible metric id ρ ∧
        (Tidy adv.dest r → ¬ r.Usurps now adv → Held (r.receive now adv).2 ρ) := by
  rcases r.receive_cases now adv with ⟨reason, heq⟩ | ⟨interface, sources, hscreen, ho, heq⟩
  · rw [heq] at hok
    cases hok
  rcases r.observe_cases now adv with ⟨hnone, -⟩ | ⟨hnoted, -⟩
  · cases ho.symm.trans hnone
  obtain rfl : r.noted now adv = sources := Option.some.inj (hnoted.symm.trans ho)
  rw [heq] at hok ⊢
  have htidied : Tidy adv.dest r → Tidy adv.dest { r with sources := r.noted now adv } :=
    fun htidy => ⟨htidy.exclusive, htidy.faultless, htidy.absent⟩
  have hj : Judged { r with sources := r.noted now adv } now adv interface _ _ :=
    ⟨hscreen, SourceTable.observe_of_observe ho, rfl, rfl⟩
  cases hm : r.table.match? adv.dest adv.neigh adv.nexthop with
  | some e =>
      obtain ⟨id', old⟩ := e
      rw [accept_of_match (r := { r with sources := r.noted now adv }) hm] at hok ⊢
      cases hok
      obtain ⟨ρ, hsettled, hholds⟩ := hj.settled_update hm hf (hex adv.dest)
      exact ⟨_, _, _, ρ, hsettled, fun htidy _ => hholds (htidied htidy)⟩
  | none =>
      obtain ⟨hfeasible, hadopt⟩ :=
        accept_of_new (r := { r with sources := r.noted now adv }) hm hok
      rw [hadopt] at hok ⊢
      rw [hfeasible] at hj
      obtain ⟨ρ, hsettled, hholds⟩ := hj.settled_adopt hm hf hok
      exact ⟨_, _, _, ρ, hsettled, fun htidy hnew =>
        hholds (htidied htidy) fun owner howns => hnew ⟨hm, owner, howns⟩⟩

/-- **An advertisement may come twice.**  If at most one route for each destination is installed,
there are no more routes than there is room for, no fault is planned and nothing is stray, then an
advertisement that comes again right after the first time has the same result and leaves the
router's own tables as they are; the kernel is asked at most to put the entry of the installed route
in the place of itself.  Nothing changes in the forwarding table either, unless a new route took the
name of the installed one: then the destination may get the entry of the new route only now. -/
theorem repeated_receive (hex : ∀ dest, r.table.Exclusive dest)
    (hsize : r.table.size ≤ r.table.capacity.toNat) (htidy : Tidy adv.dest r) (now : Instant) :
    ((r.receive now adv).2.receive now adv).1 = (r.receive now adv).1 ∧
      Repeated adv.dest (r.receive now adv).2 ((r.receive now adv).2.receive now adv).2 ∧
      (¬ r.Usurps now adv → ((r.receive now adv).2.receive now adv).2.kernel.entries =
        (r.receive now adv).2.kernel.entries) := by
  rcases receive_rejected_or_groundless hex hsize now adv with
    ⟨reason, herror, hfirst, hrejected⟩ | ⟨⟨id, hok⟩, -⟩
  · obtain ⟨hagain, hrepeated, hentries⟩ := hrejected.repeated hfirst hex hsize
    exact ⟨hagain.trans herror.symm, hrepeated, fun _ => hentries⟩
  · obtain ⟨_, _, _, ρ, hsettled, hholds⟩ := settled_receive hex htidy.faultless hok
    obtain ⟨hagain, hrepeated, hentries⟩ := hsettled.repeated
    exact ⟨hagain.trans hok.symm, hrepeated, fun hnew => hentries (hholds htidy hnew)⟩

/-- A route of the origin of the installed route of `rivals`, and a gain over it. -/
def shortcut : Advertisement := ⟨"O1", "P", 10, 4, "N2", "H3"⟩

/-- The first time the new route takes the place of the installed one of `rivals`.  The second time
all that happens is that the kernel is asked to put its entry in the place of itself. -/
theorem shortcut_may_come_twice :
    (rivals.receive 1001 shortcut).1 = .ok 2 ∧
      (rivals.receive 1001 shortcut).2.isInstalled 2 = true ∧
      ((rivals.receive 1001 shortcut).2.receive 1001 shortcut).1 = .ok 2 ∧
      Repeated "P" (rivals.receive 1001 shortcut).2
        ((rivals.receive 1001 shortcut).2.receive 1001 shortcut).2 ∧
      ((rivals.receive 1001 shortcut).2.receive 1001 shortcut).2.kernel.entries =
        (rivals.receive 1001 shortcut).2.kernel.entries ∧
      ((rivals.receive 1001 shortcut).2.receive 1001 shortcut).2.kernel.calls =
        (rivals.receive 1001 shortcut).2.kernel.calls ++
          [⟨.modify ⟨"P", "H3", 2, 1⟩ ⟨"P", "H3", 2, 1⟩, none⟩] := by
  have howns : rivals.table.Owns "P" 0
      ⟨"P", "O1", "N1", "H1", 1, 10, 104, 200, 1000, 1000, true⟩ := ⟨by decide +kernel, rfl, rfl⟩
  have hok : (rivals.receive 1001 shortcut).1 = .ok 2 := by decide +kernel
  have hfree : (withRoom { rivals with sources := rivals.noted 1001 shortcut } 1001).table.get?
      rivals.table.nextId = none := by decide +kernel
  have hexclusive : ∀ dest, rivals.table.Exclusive dest := fun dest =>
    (reachable_rivals.soleOwner dest).exclusive
  have htidy : Tidy shortcut.dest rivals :=
    tidy_of_owns (hexclusive "P") faultless_rivals howns
  obtain ⟨hagain, hrepeated, hentries⟩ :=
    repeated_receive hexclusive (by decide +kernel) htidy 1001
  refine ⟨hok, by decide +kernel, hagain.trans hok, hrepeated, hentries ?_, by decide +kernel⟩
  rintro ⟨-, ρ, hused⟩
  cases hfree.symm.trans hused.get

/-- A router with an installed route, whose entry is in the forwarding table, and whose name is the
next to be given out. -/
def mislaid : Router :=
  { twoNeighbours [] with
    table := {
      routes := .ofList [(0, ⟨"P", "O1", "N1", "H1", 1, 10, 104, 200, 1000, 1000, true⟩)]
      nextId := 0
      capacity := 8 }
    kernel := ({} : Kernel).setEntry ⟨"P", "H1", 1, 1⟩ }

/-- The forwarding table may change only when the advertisement comes the second time. -/
theorem entry_changes_hands :
    ¬ ∀ (r : Router) (now : Instant) (adv : Advertisement), (∀ dest, r.table.Exclusive dest) →
      r.table.size ≤ r.table.capacity.toNat →
      (∀ dest id route, r.table.Owns dest id route →
        r.kernel.entries.get? dest = some (r.entryOf route)) →
      (∀ dest, (∀ id route, ¬ r.table.Owns dest id route) → r.leftovers.get? dest = none →
        r.kernel.entries.get? dest = none) →
      r.kernel.Faultless →
        ((r.receive now adv).2.receive now adv).2.kernel.entries =
          (r.receive now adv).2.kernel.entries := by
  intro hclaim
  have hroute : mislaid.table.get? 0 = some
      ⟨"P", "O1", "N1", "H1", 1, 10, 104, 200, 1000, 1000, true⟩ := by decide +kernel
  have honly : ∀ e ∈ mislaid.table.toList, e.1 = 0 := by decide +kernel
  have howner : ∀ {dest id route}, mislaid.table.Owns dest id route → id = 0 ∧ dest = "P" ∧
      route = ⟨"P", "O1", "N1", "H1", 1, 10, 104, 200, 1000, 1000, true⟩ := by
    intro dest id route ho
    obtain rfl : id = 0 := honly (id, route) (RouteTable.mem_toList_iff.2 ho.get)
    obtain rfl := Option.some.inj (hroute.symm.trans ho.get)
    exact ⟨rfl, ho.dest_eq.symm, rfl⟩
  have hentries : mislaid.kernel.entries = OrderedMap.empty.insert "P" ⟨"P", "H1", 1, 1⟩ := rfl
  have hsame := hclaim mislaid 1001 ⟨"O2", "P", 10, 204, "N2", "H2"⟩
    (fun dest id id' route route' ho ho' => (howner ho).1.trans (howner ho').1.symm)
    (by decide +kernel)
    (fun dest id route ho => by
      obtain ⟨-, rfl, rfl⟩ := howner ho
      decide +kernel)
    (fun dest hnone _ => by
      have hne : dest ≠ "P" := fun heq => hnone 0 _ ⟨hroute, rfl, heq.symm⟩
      rw [hentries, OrderedMap.get?_insert, if_neg hne]
      rfl)
    (fun dest => rfl)
  revert hsame
  decide +kernel

end DistanceVector.Router
