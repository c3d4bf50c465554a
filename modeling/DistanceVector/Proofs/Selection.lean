import DistanceVector.Proofs.Loss
import DistanceVector.Proofs.Naming

/-!
# Selection after a worsening

When an installed route got worse, only the best of the routes that may be used is considered, and
only if it is a gain of the margin asked of a route of the same origin.  So a route that would be
good enough may be overlooked: if the installed route is out of reach, then anything reachable would
be, but what is less than the margin below infinity is not considered; and if the best route is of
another origin, it may be refused while a route of the same origin, which is good enough although
not the best, is not considered.  There is no third way.

Main definitions:

* `Router.Unrivalled` — no alternative is good enough to take the place of the installed route;
* `Router.Overlooked` — one is, but it was not considered.

Main results:

* `Router.unrivalled_iff_of_margin`, `Router.unrivalled_iff_of_refused` — the installed route where
  no alternative passes the margin, and where the best one passes it and is refused;
* `Router.selected_of_none`, `Router.selected_of_short`, `Router.selected_of_refused`,
  `Router.Unhindered.selected_of_promoted` — what is installed after each outcome of the search;
* `Router.Unhindered.selected_seekBetter` — **the search for a better route finds one that is good
  enough, if there is one, unless it is overlooked**;
* `Router.Unhindered.selected_after_worsening` — the same for the calls that make a route worse;
* `Router.rival_overlooked`, `Router.remote_rival_overlooked` — a route that is good enough may be
  overlooked in either way.
-/

set_option relaxedAutoImplicit false
set_option autoImplicit false

namespace DistanceVector.Router

variable {now : Instant} {dest : Prefix} {r r' s : Router} {id best other : RouteId}
  {route old new b ρ : Route}

/-! ### Alternatives to the installed route -/

/-- None of the alternatives is good enough to take the place of the installed route. -/
def Unrivalled (alternative : RouteId → Route → Prop) (route : Route) : Prop :=
  ∀ other ρ, alternative other ρ →
    shouldSwitch route.metric ρ.metric (route.origin == ρ.origin) = false

/-- One of the alternatives is good enough to take the place of the installed route, but the search
for a better route passes over it. -/
inductive Overlooked (alternative : RouteId → Route → Prop) (route : Route) : Prop
  /-- The installed route is out of reach, and the alternative is not; but all alternatives are less
  than the margin below infinity. -/
  | outOfReach {other : RouteId} {ρ : Route} (lost : route.metric.toNat = 65535)
      (there : alternative other ρ) (reachable : ρ.metric.toNat < 65535)
      (near : ∀ other ρ, alternative other ρ → 65535 < ρ.metric.toNat + 96)
  /-- The alternative is of the same origin as the installed route and a gain of the margin; but the
  best alternative is of another origin and less than the gain asked of such. -/
  | eclipsed {other best : RouteId} {ρ b : Route} (there : alternative other ρ)
      (same : ρ.origin = route.origin) (gain : ρ.metric.toNat + 96 ≤ route.metric.toNat)
      (first : alternative best b)
      (least : ∀ other ρ, alternative other ρ → b.metric.toNat ≤ ρ.metric.toNat)
      (foreign : b.origin ≠ route.origin) (short : route.metric.toNat < b.metric.toNat + 192)

section Alternatives

variable {alternative : RouteId → Route → Prop}

/-- If no alternative passes the margin, all that may be overlooked is a reachable one where the
installed route is out of reach. -/
theorem unrivalled_iff_of_margin
    (h : ∀ other ρ, alternative other ρ → route.metric.toNat < ρ.metric.toNat + 96) :
    Unrivalled alternative route ↔ ¬ Overlooked alternative route := by
  constructor
  · intro hnone hoverlooked
    cases hoverlooked with
    | @outOfReach other ρ hlost halt hreachable _ =>
        exact Bool.eq_false_iff.1 (hnone other ρ halt)
          (shouldSwitch_iff.2 ⟨hreachable, .inl hlost⟩)
    | @eclipsed other _ ρ _ halt _ hgain _ _ _ _ =>
        exact Nat.not_lt.2 hgain (h other ρ halt)
  · intro hnone other ρ halt
    rw [Bool.eq_false_iff, ne_eq, shouldSwitch_iff]
    rintro ⟨hreachable, hlost | hgain | ⟨-, hgain⟩⟩
    · exact hnone (.outOfReach hlost halt hreachable fun other ρ halt => hlost ▸ h other ρ halt)
    · have hshort := h other ρ halt
      omega
    · exact Nat.not_lt.2 hgain (h other ρ halt)

/-- If the best alternative passes the margin and is refused, all that may be overlooked is an
alternative of the same origin. -/
theorem unrivalled_iff_of_refused (hb : alternative best b)
    (hleast : ∀ other ρ, alternative other ρ → b.metric.toNat ≤ ρ.metric.toNat)
    (hmargin : b.metric.toNat + 96 ≤ route.metric.toNat)
    (hrefused : shouldSwitch route.metric b.metric (route.origin == b.origin) = false) :
    Unrivalled alternative route ↔ ¬ Overlooked alternative route := by
  have hinfinity := route.metric.toNat_le_infinity
  rw [Bool.eq_false_iff, ne_eq, shouldSwitch_iff, beq_iff_eq] at hrefused
  -- the installed route is reachable, or the best alternative would have taken its place
  have hreachable : route.metric.toNat ≠ 65535 := fun hlost =>
    hrefused ⟨by omega, .inl hlost⟩
  have hshort : route.metric.toNat < b.metric.toNat + 192 := by
    by_contra hgain
    exact hrefused ⟨by omega, .inr (.inl (Nat.not_lt.1 hgain))⟩
  have hforeign : b.origin ≠ route.origin := fun hsame =>
    hrefused ⟨by omega, .inr (.inr ⟨hsame.symm, hmargin⟩)⟩
  constructor
  · intro hnone hoverlooked
    cases hoverlooked with
    | outOfReach hlost _ _ _ => exact hreachable hlost
    | @eclipsed other _ ρ _ halt hsame hgain _ _ _ _ =>
        refine Bool.eq_false_iff.1 (hnone other ρ halt) (shouldSwitch_iff.2 ⟨by omega, ?_⟩)
        exact .inr (.inr ⟨by simpa using hsame.symm, hgain⟩)
  · intro hnone other ρ halt
    rw [Bool.eq_false_iff, ne_eq, shouldSwitch_iff, beq_iff_eq]
    rintro ⟨-, hlost | hgain | ⟨hsame, hgain⟩⟩
    · exact hreachable hlost
    · have hle := hleast other ρ halt
      omega
    · exact hnone (.eclipsed halt hsame.symm hgain hb hleast hforeign hshort)

end Alternatives

/-- The alternatives to a route are the routes of other names that may be used. -/
theorem alternative_iff_eligible :
    Alternative r now dest id other ρ ↔ other ≠ id ∧ r.table.get? other = some ρ ∧ ρ.dest = dest ∧
      r.eligible now true none ρ = true := by
  rw [eligible_iff]
  exact ⟨fun h => ⟨h.ne, h.get, h.dest_eq, h.fresh, h.feasible⟩,
    fun ⟨hne, hget, hdest, hfresh, hfeasible⟩ => ⟨hne, hget, hdest, hfeasible, hfresh⟩⟩

/-- A route is installed for the destination, and if one of the alternatives is good enough to take
its place, it is overlooked. -/
def Selected (now : Instant) (dest : Prefix) (r : Router) : Prop :=
  ∃ owner ρ, r.table.installed? dest = some (owner, ρ) ∧
    (Unrivalled (Alternative r now dest owner) ρ ↔ ¬ Overlooked (Alternative r now dest owner) ρ)

theorem Selected.of_same (h : Selected now dest r) (ht : r'.table = r.table)
    (hb : SameBackground r r') : Selected now dest r' := by
  have hsame : Alternative r' now dest = Alternative r now dest := by
    funext id other ρ
    rw [alternative_iff_eligible, alternative_iff_eligible, ht, eligible_of_bare_eq hb rfl]
  rwa [Selected, ht, hsame]

/-! ### The search for a better route

The best of the routes that may be used decides what happens.  If there is none, or it is less than
the margin better than the installed one, then no alternative passes the margin; if it passes the
margin, it is the best alternative, and is refused or takes the place of the installed route. -/

/-- No alternative is better than the best of the routes that may be used. -/
theorem Alternative.le_of_best? (h : Alternative r now dest id other ρ)
    (hbest : r.best? now dest true none = some (best, b)) : b.metric.toNat ≤ ρ.metric.toNat := by
  obtain ⟨-, hget, hdest, heligible⟩ := alternative_iff_eligible.1 h
  exact UInt16.le_iff_toNat_le.1 (metric_le_of_best? hbest hget hdest heligible)

/-- Where no route may be used, the installed one stays, and it has no alternative. -/
theorem selected_of_none (hex : r.table.Exclusive dest) (ho : r.table.Owns dest id route)
    (hbest : r.best? now dest true none = none) : Selected now dest r := by
  refine ⟨id, route, ho.installed?_eq hex, unrivalled_iff_of_margin fun other ρ halt => ?_⟩
  obtain ⟨-, hget, hdest, heligible⟩ := alternative_iff_eligible.1 halt
  rw [best?_eq_none_iff.1 hbest other ρ hget hdest] at heligible
  cases heligible

/-- Where the best route misses the margin, the installed one stays, and all alternatives miss
it. -/
theorem selected_of_short (hex : r.table.Exclusive dest) (ho : r.table.Owns dest id route)
    (hbest : r.best? now dest true none = some (best, b))
    (hshort : route.metric.toNat < b.metric.toNat + routeMargin) : Selected now dest r := by
  refine ⟨id, route, ho.installed?_eq hex, unrivalled_iff_of_margin fun other ρ halt => ?_⟩
  exact Nat.lt_of_lt_of_le hshort (Nat.add_le_add_right (halt.le_of_best? hbest) 96)

/-- Where the best route passes the margin and is refused, the installed one stays, and what would
have been good enough in the place of the best route was eclipsed by it. -/
theorem selected_of_refused (hex : r.table.Exclusive dest) (ho : r.table.Owns dest id route)
    (hbest : r.best? now dest true none = some (best, b)) (hne : best ≠ id)
    (hmargin : b.metric.toNat + routeMargin ≤ route.metric.toNat)
    (hrefused : shouldSwitch route.metric b.metric (route.origin == b.origin) = false) :
    Selected now dest r := by
  obtain ⟨hb, hd, he⟩ := eligible_of_best? hbest
  exact ⟨id, route, ho.installed?_eq hex, unrivalled_iff_of_refused
    (alternative_iff_eligible.2 ⟨hne, hb, hd, he⟩) (fun _ _ halt => halt.le_of_best? hbest)
    hmargin hrefused⟩

/-- Where the best route takes the place of the installed one, no alternative to it is better, not
even the route that was installed before. -/
theorem Unhindered.selected_of_promoted (h : Unhindered r (r.consider now best))
    (hex : r.table.Exclusive b.dest) (ho : r.table.installed? b.dest = some (id, route))
    (hbest : r.best? now b.dest true none = some (best, b))
    (hc : r.candidate? now best = some b)
    (hgain : shouldSwitch route.metric b.metric (route.origin == b.origin) = true) :
    Selected now b.dest (r.consider now best) := by
  have hmoves := r.consider_allMoves now best
  have howns := h.owns_consider_of_better hc ho hgain
  refine ⟨best, _, howns.installed?_eq (hmoves.exclusive hex),
    unrivalled_iff_of_margin fun other ρ halt => ?_⟩
  obtain ⟨-, hget, hdest, heligible⟩ := alternative_iff_eligible.1 halt
  -- what may be used afterwards is what might be used before
  obtain ⟨σ, hσ, hbare⟩ := exists_get?_of_shown
    ((r.alike_consider now best).routes other ▸ shown_of_get? hget _)
  rw [eligible_of_bare_eq hmoves.sameBackground hbare.symm] at heligible
  have hle : b.metric ≤ σ.metric :=
    metric_le_of_best? hbest hσ ((congrArg Route.dest hbare :).trans hdest) heligible
  have hmetric : σ.metric = ρ.metric := (congrArg Route.metric hbare :)
  rw [hmetric] at hle
  exact Nat.lt_of_le_of_lt (UInt16.le_iff_toNat_le.1 hle) (Nat.lt_add_of_pos_right (by decide))

/-- **The search for a better route** leaves a route installed, and passes over an alternative that
is good enough only if it is overlooked. -/
theorem Unhindered.selected_seekBetter (h : Unhindered r (r.seekBetter now route))
    (hex : r.table.Exclusive dest) (ho : r.table.Owns dest id route) (hx : dest ∉ r.exports) :
    Selected now dest (r.seekBetter now route) := by
  obtain rfl := ho.dest_eq
  cases hbest : r.best? now route.dest true none with
  | none =>
      rw [seekBetter_of_none hbest]
      exact selected_of_none hex ho hbest
  | some e =>
      obtain ⟨best, b⟩ := e
      rcases Nat.lt_or_ge route.metric.toNat (b.metric.toNat + routeMargin) with hshort | hmargin
      · rw [seekBetter_of_short hbest hshort]
        exact selected_of_short hex ho hbest hshort
      · obtain ⟨hne, hd, hc⟩ := candidate?_of_better hex ho hx hbest
          (Nat.lt_of_lt_of_le (Nat.lt_add_of_pos_right (by decide)) hmargin)
        have hkept : r.table.installed? b.dest = some (id, route) := hd ▸ ho.installed?_eq hex
        rw [seekBetter_of_margin hbest hmargin] at h ⊢
        cases hgain : shouldSwitch route.metric b.metric (route.origin == b.origin) with
        | false =>
            rw [consider_of_no_gain hc hkept hgain]
            exact selected_of_refused hex ho hbest hne hmargin hgain
        | true =>
            rw [← hd] at hex hbest ⊢
            exact h.selected_of_promoted hex hkept hbest hc hgain

/-! ### The calls that make a route worse -/

/-- What is announced of the change of a route makes no difference to what is selected. -/
theorem Rewritten.selected (hw : Rewritten r s id old new)
    (h : Unhindered s (s.reconsider now id old.origin old.metric)) (hex : r.table.Exclusive dest)
    (ho : r.table.Owns dest id old) (hx : dest ∉ s.exports) (hworse : old.metric < new.metric) :
    Selected now dest (s.reconsider now id old.origin old.metric) := by
  have hnew : s.table.Owns dest id new :=
    ⟨hw.after, hw.installed.trans ho.installed, hw.dest.trans ho.dest_eq⟩
  obtain ⟨htable, hkernel⟩ := reconsider_of_installed hnew.get hnew.installed now old.origin
    (if_pos hworse).symm
  have hsought := (h.of_kernel_eq hkernel.symm).selected_seekBetter (hw.exclusive hex) hnew hx
  exact hsought.of_same htable ((seekBetter_moves s now new).sameBackground.symm.trans
    (s.reconsider_allMoves now id old.origin old.metric).sameBackground)

/-- The metric of a route that was rewritten is the one that it has in the end. -/
theorem metric_reconsider (hr : s.table.get? id = some new) {oldOrigin : NodeAddress}
    {oldMetric : Metric}
    (hfinal : (s.reconsider now id oldOrigin oldMetric).table.get? id = some route) :
    route.metric = new.metric := by
  have hshown := (s.alike_reconsider now id oldOrigin oldMetric).routes id
  rw [shown_of_get? hfinal, shown_of_get? hr] at hshown
  exact (congrArg Route.metric (Option.some.inj hshown) :)

/-- To accept a feasible advertisement of a route is to rewrite the route and to draw the
conclusions. -/
theorem rewritten_receive {adv : Advertisement}
    (hf : r.feasible now adv.origin adv.dest adv.seqno adv.refmetric = true)
    (hm : r.table.match? adv.dest adv.neigh adv.nexthop = some (id, old)) :
    (r.receive now adv).2.table = r.table ∨
    ∃ s new, Rewritten r s id old new ∧ Asked r s ∧ s.exports = r.exports ∧
      (r.receive now adv).2 = s.reconsider now id old.origin old.metric := by
  rcases r.receive_cases now adv with ⟨reason, hrejected⟩ |
    ⟨interface, sources, -, hobserved, haccepted⟩
  · exact .inl (by rw [hrejected, table_reject])
  · have hstill : Router.feasible { r with sources := sources } now adv.origin adv.dest adv.seqno
        adv.refmetric = true :=
      (SourceTable.feasible_of_observe hobserved _ _).trans hf
    have hmatch : RouteTable.match? { r with sources := sources }.table adv.dest adv.neigh
        adv.nexthop = some (id, old) := hm
    obtain ⟨hr, hd, -⟩ := RouteTable.get?_of_match? hm
    rw [haccepted, accept_of_match hmatch, hstill]
    simp only [update_of_feasible]
    generalize pathMetric { r with sources := sources } adv.origin adv.dest adv.neigh interface
      adv.refmetric = metric
    obtain ⟨new, hw⟩ := rewritten_record (r := { r with sources := sources }) hr now adv true metric
    have hrecorded := record_moves (r := { r with sources := sources }) (isFor_dest hr) now adv true
      metric
    exact .inr ⟨_, new, ⟨hw.before, hw.after, hw.others, hw.nextId, hw.dest, hw.installed,
      hw.outbox⟩, hrecorded.asked, hrecorded.sameBackground.exports, rfl⟩

/-- **Selection after a worsening.**  If at most one route is installed for the destination, this
node does not announce the destination itself, no fault strikes, and a new metric is worse than that
which the installed route had, then a route is installed afterwards; and none of its alternatives is
good enough to take its place, exactly unless one of them is overlooked. -/
theorem Unhindered.selected_after_worsening {op : Operation} (h : Unhindered r (r.perform now op))
    (hex : r.table.Exclusive dest) (ho : r.table.Owns dest id old) (hx : dest ∉ r.exports)
    (hop : op.Recosts r now id) (hnew : (r.perform now op).table.get? id = some new)
    (hworse : old.metric < new.metric) :
    ∃ owner ρ, (r.perform now op).table.installed? dest = some (owner, ρ) ∧
      (Unrivalled (Alternative (r.perform now op) now dest owner) ρ ↔
        ¬ Overlooked (Alternative (r.perform now op) now dest owner) ρ) := by
  have hrewritten : (r.perform now op).table = r.table ∨
      ∃ s new, Rewritten r s id old new ∧ Asked r s ∧ s.exports = r.exports ∧
        r.perform now op = s.reconsider now id old.origin old.metric := by
    cases op with
    | remetric other =>
        obtain rfl : other = id := hop
        obtain ⟨s, new, hw, hmoves, hremetric⟩ := rewritten_remetric ho.get now
        exact .inr ⟨s, new, hw, hmoves.asked, hmoves.sameBackground.exports, hremetric⟩
    | receive adv =>
        obtain ⟨hf, route, hm⟩ := hop
        obtain rfl := Option.some.inj ((RouteTable.get?_of_match? hm).1.symm.trans ho.get)
        exact rewritten_receive hf hm
    | _ => exact hop.elim
  rcases hrewritten with htable | ⟨s, rewritten, hw, hasked, hexports, heq⟩
  · rw [htable, ho.get] at hnew
    cases hnew
    exact absurd hworse (UInt16.lt_irrefl _)
  · rw [heq] at h hnew ⊢
    have hmetric := metric_reconsider hw.after hnew
    exact hw.selected (h.split hasked (s.reconsider_allMoves now id _ _).asked).2 hex ho
      (by rwa [hexports]) (hmetric ▸ hworse)

/-- When the installed route of `rivals` gets much worse, the other takes its place, and there is
nothing better. -/
theorem better_rival_selected :
    ∃ ρ, (rivals.perform 1001 (.receive ⟨"O1", "P", 10, 504, "N1", "H1"⟩)).table.installed? "P" =
        some (1, ρ) ∧
      Unrivalled (Alternative (rivals.perform 1001
        (.receive ⟨"O1", "P", 10, 504, "N1", "H1"⟩)) 1001 "P" 1) ρ := by
  have hbefore : rivals.table.Owns "P" 0
      ⟨"P", "O1", "N1", "H1", 1, 10, 104, 200, 1000, 1000, true⟩ := ⟨by decide +kernel, rfl, rfl⟩
  have hrecosts : Operation.Recosts rivals 1001 (.receive ⟨"O1", "P", 10, 504, "N1", "H1"⟩) 0 :=
    ⟨by decide +kernel, ⟨"P", "O1", "N1", "H1", 1, 10, 104, 200, 1000, 1000, true⟩,
      by decide +kernel⟩
  have hafter : (rivals.perform 1001 (.receive ⟨"O1", "P", 10, 504, "N1", "H1"⟩)).table.toList = [
      (0, ⟨"P", "O1", "N1", "H1", 1, 10, 504, 600, 1001, 1000, false⟩),
      (1, ⟨"P", "O2", "N2", "H2", 2, 10, 204, 300, 1000, 1000, true⟩)] := by decide +kernel
  have hworse := RouteTable.mem_toList_iff.1 (hafter ▸ List.mem_cons_self)
  obtain ⟨owner, ρ, hinstalled, hiff⟩ :=
    (unhindered_perform faultless_rivals 1001 _).1.selected_after_worsening
      (reachable_rivals.soleOwner "P").exclusive hbefore (by decide +kernel) hrecosts hworse
      (by decide)
  have hselected : (rivals.perform 1001
      (.receive ⟨"O1", "P", 10, 504, "N1", "H1"⟩)).table.installed? "P" =
        some (1, ⟨"P", "O2", "N2", "H2", 2, 10, 204, 300, 1000, 1000, true⟩) := by decide +kernel
  cases hinstalled.symm.trans hselected
  refine ⟨_, hselected, hiff.2 fun hoverlooked => ?_⟩
  cases hoverlooked with
  | outOfReach hlost _ _ _ => exact absurd hlost (by decide)
  | @eclipsed other _ σ _ hthere _ hgain _ _ _ _ =>
      -- the only alternative is the route that got worse
      have hmem := RouteTable.mem_toList_iff.2 hthere.get
      have hne := hthere.ne
      rw [hafter] at hmem
      simp only [List.mem_cons, Prod.mk.injEq, List.not_mem_nil, or_false] at hmem
      rcases hmem with ⟨-, rfl⟩ | ⟨rfl, -⟩
      · exact absurd hgain (by decide)
      · exact hne rfl

/-- `rivals` with a third route, which is of the same origin as the installed one and worse than
the route of the other origin. -/
def eclipse : Router := rivals.perform 1000 (.receive ⟨"O1", "P", 10, 254, "N2", "H3"⟩)

/-- A route of the same origin that is good enough may be overlooked behind one of another. -/
theorem rival_overlooked :
    ¬ ∀ (r : Router) (now : Instant) (op : Operation) (dest : Prefix) (id : RouteId)
      (old new : Route), Reachable r → Unhindered r (r.perform now op) →
      r.table.Owns dest id old → dest ∉ r.exports → op.Recosts r now id →
      (r.perform now op).table.get? id = some new → old.metric < new.metric →
        ∃ owner ρ, (r.perform now op).table.installed? dest = some (owner, ρ) ∧
          Unrivalled (Alternative (r.perform now op) now dest owner) ρ := by
  intro hclaim
  have hfaultless : eclipse.kernel.Faultless :=
    (unhindered_perform faultless_rivals 1000 (.receive ⟨"O1", "P", 10, 254, "N2", "H3"⟩)).2
  have hrecosts : Operation.Recosts eclipse 1001 (.receive ⟨"O1", "P", 10, 354, "N1", "H1"⟩) 0 :=
    ⟨by decide +kernel, ⟨"P", "O1", "N1", "H1", 1, 10, 104, 200, 1000, 1000, true⟩,
      by decide +kernel⟩
  have hinstalled : (eclipse.perform 1001
      (.receive ⟨"O1", "P", 10, 354, "N1", "H1"⟩)).table.installed? "P" =
        some (0, ⟨"P", "O1", "N1", "H1", 1, 10, 354, 450, 1001, 1000, true⟩) := by decide +kernel
  obtain ⟨owner, ρ, hkept, hnone⟩ := hclaim eclipse 1001 _ "P" 0
    ⟨"P", "O1", "N1", "H1", 1, 10, 104, 200, 1000, 1000, true⟩ _
    (.operate reachable_rivals 1000 _) (unhindered_perform hfaultless 1001 _).1
    ⟨by decide +kernel, rfl, rfl⟩ (by decide +kernel) hrecosts
    (RouteTable.owns_of_installed? hinstalled).get (by decide)
  cases hkept.symm.trans hinstalled
  have hrefused := hnone 2 ⟨"P", "O1", "N2", "H3", 2, 10, 254, 350, 1000, 1000, false⟩
    ⟨by decide, by decide +kernel, rfl, by decide +kernel, by decide +kernel⟩
  revert hrefused
  decide

/-- A router with two routes for `P`, of which the one that is not installed is all but out of
reach. -/
def remote : Router :=
  ((twoNeighbours []).perform 1000 (.receive ⟨"O1", "P", 10, 104, "N1", "H1"⟩)).perform 1000
    (.receive ⟨"O2", "P", 10, 65404, "N2", "H2"⟩)

/-- When the installed route of `remote` is retracted, it stays installed although the other is
reachable. -/
theorem remote_rival_overlooked :
    ∃ ρ, (remote.perform 1001 (.receive ⟨"O1", "P", 10, 65535, "N1", "H1"⟩)).table.installed? "P" =
        some (0, ρ) ∧
      ¬ Unrivalled (Alternative (remote.perform 1001
        (.receive ⟨"O1", "P", 10, 65535, "N1", "H1"⟩)) 1001 "P" 0) ρ := by
  refine ⟨⟨"P", "O1", "N1", "H1", 1, 10, 65535, 65535, 1000, 1000, true⟩, by decide +kernel,
    fun hnone => ?_⟩
  have hrefused := hnone 1 ⟨"P", "O2", "N2", "H2", 2, 10, 65404, 65500, 1000, 1000, false⟩
    ⟨by decide, by decide +kernel, rfl, by decide +kernel, by decide +kernel⟩
  revert hrefused
  decide

end DistanceVector.Router
