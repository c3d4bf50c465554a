import DistanceVector.Proofs.Exchange

/-!
# How a route takes over

When a route is considered, the kernel is asked for at most one thing, and the router goes by the
answer.  Either the route takes over, and then the route that was installed before is withdrawn and
an entry that was left over is forgotten in the same step; or neither table changes at all.

Main definitions:

* `Kernel.Grants` — the destination is programmed as it was asked for;
* `Router.MayTakeOver` — the route may be installed and is enough of a gain;
* `Router.TakeoverOp` — what the kernel is asked for then;
* `Router.TookOver` — the route is installed, and nothing else is for its destination.

Main results:

* `Router.consider_eq_promoteAlone`, `Router.consider_eq_promoteOver`,
  `Router.consider_of_not_mayTakeOver` — when a route takes over, and from whom;
* `Router.takeover_exact` — **the kernel is asked exactly if a route may take over, once and for the
  right operation, and both tables go by the answer**.
-/

set_option relaxedAutoImplicit false
set_option autoImplicit false

namespace DistanceVector

/-- The kernel carries the operation out, or it finds the entry present that it was to add. -/
def Kernel.Grants (k : Kernel) (op : KernelOp) : Prop :=
  k.answer op = none ∨ k.answer op = some .alreadyExists ∧ ∃ entry, op = .add entry

namespace Router

variable {now : Instant} {dest : Prefix} {r r' s : Router} {id oldId : RouteId}
  {route old : Route} {op : KernelOp}

/-- The route is in the table and not installed, it is feasible, and this node does not announce its
destination itself.  If another route is installed for the destination, it is enough of a gain. -/
structure MayTakeOver (r : Router) (now : Instant) (id : RouteId) (route : Route) : Prop where
  get : r.table.get? id = some route
  withdrawn : route.installed = false
  feasible : r.routeFeasible now route = true
  foreign : route.dest ∉ r.exports
  gain : ∀ oldId old, r.table.Owns route.dest oldId old →
    shouldSwitch old.metric route.metric (old.origin == route.origin) = true

/-- What the kernel is asked for when a route takes over. -/
inductive TakeoverOp (r : Router) (route : Route) : KernelOp → Prop
  /-- The entry of the route takes the place of that of the installed route. -/
  | replace (oldId : RouteId) (old : Route) (owns : r.table.Owns route.dest oldId old) :
      TakeoverOp r route (.modify (r.entryOf old) (r.entryOf route))
  /-- Nothing is installed, and the entry takes the place of one that was left over. -/
  | overwrite (entry : KernelEntry) (vacant : ∀ id ρ, ¬ r.table.Owns route.dest id ρ)
      (left : r.leftovers.get? route.dest = some entry) :
      TakeoverOp r route (.modify entry (r.entryOf route))
  /-- Nothing is installed nor left over, and the entry is added. -/
  | add (vacant : ∀ id ρ, ¬ r.table.Owns route.dest id ρ)
      (clear : r.leftovers.get? route.dest = none) : TakeoverOp r route (.add (r.entryOf route))

/-- The route of that name is the one that is installed for the destination, nothing is left over
for it, and nothing else changed in the two tables. -/
structure TookOver (r r' : Router) (dest : Prefix) (id : RouteId) : Prop where
  routes : ∀ other, r'.table.get? other = (r.table.get? other).map fun ρ =>
    { ρ with installed := if ρ.dest = dest then decide (other = id) else ρ.installed }
  nextId : r'.table.nextId = r.table.nextId
  capacity : r'.table.capacity = r.table.capacity
  leftovers : r'.leftovers = r.leftovers.erase dest

/-- Both tables go by what the kernel says to the operation. -/
structure Decided (r r' : Router) (dest : Prefix) (id : RouteId) (op : KernelOp) : Prop where
  granted : r.kernel.Grants op → TookOver r r' dest id
  refused : ¬ r.kernel.Grants op → SameTables r r'

/-! ### What is asked, and when -/

theorem MayTakeOver.candidate? (h : MayTakeOver r now id route) :
    r.candidate? now id = some route :=
  candidate?_of_get? h.get h.withdrawn h.feasible h.foreign

/-- Where nothing is installed for its destination, a route is installed alone. -/
theorem consider_eq_promoteAlone (h : MayTakeOver r now id route)
    (hvacant : ∀ id ρ, ¬ r.table.Owns route.dest id ρ) :
    r.consider now id = r.promoteAlone id route :=
  consider_of_vacant h.candidate? (RouteTable.installed?_eq_none_iff.2 hvacant)

/-- Where a route is installed for its destination, a route is put in the place of that one. -/
theorem consider_eq_promoteOver (h : MayTakeOver r now id route)
    (hex : r.table.Exclusive route.dest) (ho : r.table.Owns route.dest oldId old) :
    r.consider now id = r.promoteOver id route oldId old :=
  consider_of_gain h.candidate? (ho.installed?_eq hex) (h.gain oldId old ho)

/-- If no route may take over, nothing happens at all. -/
theorem consider_of_not_mayTakeOver (hex : ∀ dest, r.table.Exclusive dest)
    (hnot : ∀ route, ¬ MayTakeOver r now id route) : r.consider now id = r := by
  cases hc : r.candidate? now id with
  | none => exact consider_of_no_candidate hc
  | some route =>
      obtain ⟨hr, hi, hf, hx⟩ := get?_of_candidate? hc
      cases ho : r.table.installed? route.dest with
      | none =>
          refine absurd ⟨hr, hi, hf, hx, fun oldId old hold => ?_⟩ (hnot route)
          exact absurd ho hold.installed?_ne_none
      | some e =>
          cases hgain : shouldSwitch e.2.metric route.metric (e.2.origin == route.origin) with
          | false => exact consider_of_no_gain hc ho hgain
          | true =>
              refine absurd ⟨hr, hi, hf, hx, fun oldId old hold => ?_⟩ (hnot route)
              obtain rfl := Option.some.inj (ho.symm.trans (hold.installed?_eq (hex _)))
              exact hgain

/-! ### What comes of it -/

/-- What was only told leaves kernel and tables as they are. -/
theorem Told.decided (ht : Told dest s r') (hkernel : s.kernel = r.kernel.after op)
    {dest' : Prefix} (h : Decided r s dest' id op) :
    r'.kernel = r.kernel.after op ∧ Decided r r' dest' id op := by
  obtain ⟨packets, events, -, rfl⟩ := ht
  refine ⟨hkernel, fun hgrants => ?_, fun hrefused => ?_⟩
  · obtain ⟨hroutes, hnext, hcapacity, hleft⟩ := h.granted hgrants
    exact ⟨hroutes, hnext, hcapacity, hleft⟩
  · obtain ⟨htable, hleft⟩ := h.refused hrefused
    exact ⟨htable, hleft⟩

theorem told_promoteOver (r : Router) (id : RouteId) (route : Route) (oldId : RouteId)
    (old : Route) :
    ∃ dest, Told dest ((r.report (.switching id route)).replaceInstalled oldId id)
      (r.promoteOver id route oldId old) := by
  unfold promoteOver
  simp only []
  split
  · obtain ⟨dest, hd⟩ :=
      ((r.report (.switching id route)).replaceInstalled oldId id).exists_isFor id
    exact ⟨dest, told_announceChange hd _ _⟩
  · exact ⟨_, told_announce _ _ _⟩

/-- What is said of the routes that are neither installed for the destination nor going to be. -/
theorem installed_of_bystander {ρ : Route} {other : RouteId} (hne : other ≠ id)
    (hnot : ¬ (ρ.installed = true ∧ ρ.dest = dest)) :
    { ρ with installed := if ρ.dest = dest then decide (other = id) else ρ.installed } = ρ := by
  by_cases hd : ρ.dest = dest
  · have hi : ρ.installed = false := by simpa [hd] using hnot
    cases ρ
    simp_all
  · rw [if_neg hd]

/-- Where nothing is installed for its destination, a route that is marked as installed is the only
one. -/
theorem tookOver_of_vacant (hr : r.table.get? id = some route)
    (hvacant : ∀ id ρ, ¬ r.table.Owns route.dest id ρ)
    (htable : r'.table = r.table.modify id ({ · with installed := true }))
    (hleft : r'.leftovers = r.leftovers.erase route.dest) : TookOver r r' route.dest id := by
  refine ⟨fun other => ?_, by rw [htable]; rfl, by rw [htable]; rfl, hleft⟩
  rw [htable, RouteTable.get?_modify]
  by_cases hid : other = id
  · subst hid
    simp [hr]
  rw [if_neg hid]
  cases hρ : r.table.get? other with
  | none => rfl
  | some ρ =>
      have hnot : ¬ (ρ.installed = true ∧ ρ.dest = route.dest) :=
        fun h => hvacant other ρ ⟨hρ, h.1, h.2⟩
      rw [Option.map_some, installed_of_bystander hid hnot]

/-- If the installed route is marked as withdrawn and another as installed, that is the only one. -/
theorem tookOver_of_owns (hr : r.table.get? id = some route) (hi : route.installed = false)
    (hex : r.table.Exclusive route.dest) (ho : r.table.Owns route.dest oldId old)
    (hidle : r.leftovers.get? route.dest = none)
    (htable : r'.table = (r.table.modify oldId ({ · with installed := false })).modify id
      ({ · with installed := true }))
    (hleft : r'.leftovers = r.leftovers) : TookOver r r' route.dest id := by
  have hne := ho.ne_of_not_installed hr hi
  refine ⟨fun other => ?_, by rw [htable]; rfl, by rw [htable]; rfl, ?_⟩
  · rw [htable, RouteTable.get?_modify, RouteTable.get?_modify]
    by_cases hid : other = id
    · subst hid
      simp [hr, hne.symm]
    rw [if_neg hid]
    by_cases hold : other = oldId
    · subst hold
      simp [ho.get, ho.dest_eq, hid]
    rw [if_neg hold]
    cases hρ : r.table.get? other with
    | none => rfl
    | some ρ =>
        have hnot : ¬ (ρ.installed = true ∧ ρ.dest = route.dest) :=
          fun h => hold (hex _ _ _ _ ⟨hρ, h.1, h.2⟩ ho)
        rw [Option.map_some, installed_of_bystander hid hnot]
  · rw [hleft, OrderedMap.erase_eq_self hidle]

theorem takeoverOp_installOp (hvacant : ∀ id ρ, ¬ r.table.Owns route.dest id ρ) :
    TakeoverOp r route (r.installOp (r.entryOf route)) := by
  cases hl : r.leftovers.get? route.dest with
  | none =>
      have hop : r.installOp (r.entryOf route) = .add (r.entryOf route) :=
        installOp_of_no_leftover hl
      exact hop ▸ .add hvacant hl
  | some entry =>
      have hop : r.installOp (r.entryOf route) = .modify entry (r.entryOf route) :=
        installOp_of_leftover hl
      exact hop ▸ .overwrite entry hvacant hl

/-- If the entry is found present, the operation was to add it, or to put it in the place of a
leftover. -/
theorem grants_installOp_of_present {entry : KernelEntry}
    (hplain : ∀ old new, r.installOp entry = .modify old new →
      r.kernel.answer (r.installOp entry) ≠ some .alreadyExists)
    (ha : r.kernel.answer (r.installOp entry) = some .alreadyExists) :
    r.kernel.Grants (r.installOp entry) := by
  cases hl : r.leftovers.get? entry.dest with
  | none => exact .inr ⟨ha, entry, installOp_of_no_leftover hl⟩
  | some old => exact absurd ha (hplain old entry (installOp_of_leftover hl))

/-- A route that is installed alone asks for its entry, in the place of a leftover if there is one,
and takes over if the kernel grants that. -/
theorem decided_promoteAlone (h : MayTakeOver r now id route)
    (hvacant : ∀ id ρ, ¬ r.table.Owns route.dest id ρ) :
    (r.promoteAlone id route).kernel = r.kernel.after (r.installOp (r.entryOf route)) ∧
      ((∀ old new, r.installOp (r.entryOf route) = .modify old new →
          r.kernel.answer (r.installOp (r.entryOf route)) ≠ some .alreadyExists) →
        Decided r (r.promoteAlone id route) route.dest id (r.installOp (r.entryOf route))) := by
  obtain ⟨hkernel, hcases⟩ :=
    install_cases (r := r.report (.switching id route)) h.get h.withdrawn
  refine ⟨hkernel, fun hplain => ?_⟩
  rcases hcases with ⟨ha, htable, hleft⟩ | ⟨error, ha, hne, htable, hleft⟩
  · have hgrants : r.kernel.Grants (r.installOp (r.entryOf route)) :=
      ha.elim .inl fun ha => grants_installOp_of_present hplain ha
    have htook : TookOver r (r.promoteAlone id route) route.dest id :=
      tookOver_of_vacant h.get hvacant htable hleft
    exact ⟨fun _ => htook, fun hrefused => absurd hgrants hrefused⟩
  · refine ⟨fun hgrants => ?_, fun _ => ⟨htable, hleft⟩⟩
    have ha : r.kernel.answer (r.installOp (r.entryOf route)) = some error := ha
    rcases hgrants with hgrants | ⟨hgrants, -⟩
    · rw [ha] at hgrants
      cases hgrants
    · exact absurd (Option.some.inj (ha.symm.trans hgrants)) hne

/-- A route that is put in the place of the installed one asks for just that, and takes over if the
kernel carries it out. -/
theorem decided_promoteOver (h : MayTakeOver r now id route) (hex : r.table.Exclusive route.dest)
    (hidle : r.leftovers.get? route.dest = none) (ho : r.table.Owns route.dest oldId old) :
    (r.promoteOver id route oldId old).kernel =
        r.kernel.after (.modify (r.entryOf old) (r.entryOf route)) ∧
      Decided r (r.promoteOver id route oldId old) route.dest id
        (.modify (r.entryOf old) (r.entryOf route)) := by
  obtain ⟨dest, htold⟩ := told_promoteOver r id route oldId old
  obtain ⟨hkernel, hcases⟩ :=
    replaceInstalled_cases (r := r.report (.switching id route)) ho.get ho.installed h.get
  have hkernel : ((r.report (.switching id route)).replaceInstalled oldId id).kernel =
      r.kernel.after (.modify (r.entryOf old) (r.entryOf route)) := hkernel
  refine htold.decided hkernel ?_
  rcases hcases with ⟨ha, htable, hleft⟩ | ⟨error, ha, htable, hleft⟩
  · have htook : TookOver r ((r.report (.switching id route)).replaceInstalled oldId id)
        route.dest id := tookOver_of_owns h.get h.withdrawn hex ho hidle htable hleft
    exact ⟨fun _ => htook, fun hrefused => absurd (.inl ha) hrefused⟩
  · refine ⟨fun hgrants => ?_, fun _ => ⟨htable, hleft⟩⟩
    have ha : r.kernel.answer (.modify (r.entryOf old) (r.entryOf route)) = some error := ha
    rcases hgrants with hgrants | ⟨-, entry, hadd⟩
    · rw [ha] at hgrants
      cases hgrants
    · cases hadd

/-- If a route may take over, the kernel is asked for the right operation, and both tables go by the
answer. -/
theorem MayTakeOver.consider (h : MayTakeOver r now id route)
    (hex : ∀ dest, r.table.Exclusive dest)
    (hidle : ∀ dest id route, r.table.Owns dest id route → r.leftovers.get? dest = none) :
    ∃ op, TakeoverOp r route op ∧ (r.consider now id).kernel = r.kernel.after op ∧
      ((∀ old new, op = .modify old new → r.kernel.answer op ≠ some .alreadyExists) →
        Decided r (r.consider now id) route.dest id op) := by
  by_cases hown : ∃ oldId old, r.table.Owns route.dest oldId old
  · obtain ⟨oldId, old, ho⟩ := hown
    obtain ⟨hkernel, hdecided⟩ := decided_promoteOver h (hex _) (hidle _ _ _ ho) ho
    rw [consider_eq_promoteOver h (hex _) ho]
    exact ⟨_, .replace oldId old ho, hkernel, fun _ => hdecided⟩
  · have hvacant : ∀ id ρ, ¬ r.table.Owns route.dest id ρ := fun i ρ ho => hown ⟨i, ρ, ho⟩
    obtain ⟨hkernel, hdecided⟩ := decided_promoteAlone h hvacant
    rw [consider_eq_promoteAlone h hvacant]
    exact ⟨_, takeoverOp_installOp hvacant, hkernel, hdecided⟩

/-- The route is installed afterwards exactly if the kernel granted the operation. -/
theorem Decided.isInstalled_iff (h : Decided r r' dest id op) (hr : r.table.get? id = some route)
    (hi : route.installed = false) (hd : route.dest = dest) :
    r'.isInstalled id = true ↔ r.kernel.Grants op := by
  constructor
  · intro hthere
    by_contra hrefused
    have hget : r'.table.get? id = some route := by rw [(h.refused hrefused).table, hr]
    rw [isInstalled_of_get? hget, hi] at hthere
    cases hthere
  · intro hgrants
    have hget := (h.granted hgrants).routes id
    rw [hr, Option.map_some] at hget
    rw [isInstalled_of_get? hget]
    simp [hd]

/-- **A takeover is exact and all of a piece.**  When a route is considered, the kernel is asked for
something exactly if the route may take over, and if not, nothing happens.  If it may, the kernel is
asked for one operation only: to put its entry in the place of that of the installed route or of
the leftover, or to add it if there is neither.  As long as the kernel does not take the former for
something to add, the route is installed exactly if the operation was granted; in the same step the
route that was installed before is withdrawn and the leftover forgotten, and nothing else in the two
tables changes. -/
theorem takeover_exact (r : Router) (now : Instant) (id : RouteId)
    (hex : ∀ dest, r.table.Exclusive dest)
    (hidle : ∀ dest id route, r.table.Owns dest id route → r.leftovers.get? dest = none) :
    ((r.consider now id).kernel.calls ≠ r.kernel.calls ↔ ∃ route, MayTakeOver r now id route) ∧
    ((r.consider now id).kernel.calls = r.kernel.calls → r.consider now id = r) ∧
    ∀ route, MayTakeOver r now id route →
      ∃ op, TakeoverOp r route op ∧ (r.consider now id).kernel = r.kernel.after op ∧
        ((∀ old new, op = .modify old new → r.kernel.answer op ≠ some .alreadyExists) →
          ((r.consider now id).isInstalled id = true ↔ r.kernel.Grants op) ∧
          (r.kernel.Grants op → TookOver r (r.consider now id) route.dest id) ∧
          (¬ r.kernel.Grants op → SameTables r (r.consider now id))) := by
  have hsilent : (∀ route, ¬ MayTakeOver r now id route) → r.consider now id = r :=
    consider_of_not_mayTakeOver hex
  have hasks : ∀ route, MayTakeOver r now id route →
      (r.consider now id).kernel.calls ≠ r.kernel.calls := by
    intro route h hcalls
    obtain ⟨op, -, hkernel, -⟩ := h.consider hex hidle
    rw [hkernel, Kernel.after, List.append_right_eq_self] at hcalls
    cases hcalls
  refine ⟨⟨fun hcalls => ?_, fun htakes => ?_⟩, fun hcalls => ?_, fun route h => ?_⟩
  · by_contra hnot
    exact hcalls (by rw [hsilent fun route h => hnot ⟨route, h⟩])
  · obtain ⟨route, h⟩ := htakes
    exact hasks route h
  · exact hsilent fun route h => hasks route h hcalls
  · obtain ⟨op, hop, hkernel, hdecided⟩ := h.consider hex hidle
    refine ⟨op, hop, hkernel, fun hplain => ?_⟩
    have hdecided := hdecided hplain
    exact ⟨hdecided.isInstalled_iff h.get h.withdrawn rfl, hdecided.granted, hdecided.refused⟩

/-- The router that announced `P` itself does so no longer. -/
def resumed : Router := { heldBack (.os 12) with exports := [] }

/-- The kernel refused to put the route in the place of the leftover. -/
def rebuffed : Router := resumed.consider 1003 1

/-- Where nothing at all is installed, there is nothing that a route has to be a gain over. -/
theorem mayTakeOver_of_idle (hget : r.table.get? id = some route)
    (hi : route.installed = false) (hf : r.routeFeasible now route = true)
    (hx : route.dest ∉ r.exports) (hnone : r.table.idsInstalled = []) :
    MayTakeOver r now id route := by
  refine ⟨hget, hi, hf, hx, fun oldId old ho => ?_⟩
  have hmem : oldId ∈ r.table.idsInstalled :=
    RouteTable.mem_idsWhere_iff.2 ⟨old, ho.get, ho.installed⟩
  rw [hnone] at hmem
  cases hmem

/-- The kernel refuses to put the route in the place of the leftover, and nothing changes.  When the
route is considered once more, it takes over. -/
theorem takeover_after_refusal :
    SameTables resumed rebuffed ∧ TookOver rebuffed (rebuffed.consider 1004 1) "P" 1 := by
  have hreachable : Reachable resumed := (reachable_heldBack _).announcing []
  have hrefused : SameTables resumed rebuffed := by
    obtain ⟨hsole, -⟩ := reachable_soleOwner hreachable
    obtain ⟨-, -, htake⟩ := takeover_exact resumed 1003 1 (fun dest => (hsole dest).1)
      fun dest => (hsole dest).2
    obtain ⟨op, -, hkernel, hdecided⟩ := htake
      ⟨"P", "O2", "N2", "H2", 2, 10, 204, 300, 1002, 1002, false⟩
      (mayTakeOver_of_idle (by decide +kernel) rfl (by decide +kernel) (by decide +kernel)
        (by decide +kernel))
    have hcalls : (resumed.consider 1003 1).kernel.calls = resumed.kernel.calls ++
        [⟨.modify ⟨"P", "H1", 1, 1⟩ ⟨"P", "H2", 2, 2⟩, some (.os 12)⟩] := by decide +kernel
    obtain ⟨-, hanswer⟩ := answer_of_calls hkernel hcalls
    refine (hdecided fun _ _ _ => by simp [hanswer]).2.2 ?_
    simp [Kernel.Grants, hanswer]
  refine ⟨hrefused, ?_⟩
  obtain ⟨hsole, -⟩ := reachable_soleOwner
    (.surround hreachable hrefused.table hrefused.leftovers)
  obtain ⟨-, -, htake⟩ := takeover_exact rebuffed 1004 1 (fun dest => (hsole dest).1)
    fun dest => (hsole dest).2
  obtain ⟨op, -, hkernel, hdecided⟩ := htake
    ⟨"P", "O2", "N2", "H2", 2, 10, 204, 300, 1002, 1002, false⟩
    (mayTakeOver_of_idle (by decide +kernel) rfl (by decide +kernel) (by decide +kernel)
      (by decide +kernel))
  have hcalls : (rebuffed.consider 1004 1).kernel.calls = rebuffed.kernel.calls ++
      [⟨.modify ⟨"P", "H1", 1, 1⟩ ⟨"P", "H2", 2, 2⟩, none⟩] := by decide +kernel
  obtain ⟨-, hanswer⟩ := answer_of_calls hkernel hcalls
  exact (hdecided fun _ _ _ => by simp [hanswer]).2.1 (.inl hanswer)

end Router

end DistanceVector
