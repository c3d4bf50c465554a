import DistanceVector.Proofs.Supply
import DistanceVector.Proofs.Takeover

/-!
# Stability

Routes that compete for a destination must not take turns.  When routes are considered one after the
other, each that takes over is a gain over the one before, so that the metric of the installed route
only ever falls.  A route that lost its place would have to come back with the metric that it had,
for to consider routes rewrites none; so it does not come back, whatever happens to the records, to
the requests and in the kernel in the meantime.

Main definitions:

* `Route.Outdoes` — a route is enough of a gain over another one;
* `Router.Considered`, `Router.Considerations` — a route was considered, or several were one after
  the other;
* `Router.Installs` — a route is installed that was not installed before.

Main results:

* `Router.MayTakeOver.owner`, `Router.Considered.owner` — an installed route keeps its place, or
  loses it to one that outdoes it;
* `Router.Considerations.held` — **the metric of the installed route is a potential**: it falls
  whenever another route is installed;
* `Router.Considerations.not_restored` — a route that lost its place is not installed again;
* `Router.considerations_settle` — **routes that are considered in any order do not take turns**.
-/

set_option relaxedAutoImplicit false
set_option autoImplicit false

namespace DistanceVector

/-- The route is enough of a gain over the old one: it can be reached and the old one cannot, or its
metric is smaller by 96, and by 192 if it is from another origin. -/
def Route.Outdoes (new old : Route) : Prop :=
  old.metric = Metric.infinity ∧ new.metric ≠ Metric.infinity ∨
    new.metric.toNat + 96 ≤ old.metric.toNat ∧
      (new.origin ≠ old.origin → new.metric.toNat + 192 ≤ old.metric.toNat)

theorem Route.outdoes_of_shouldSwitch {new old : Route}
    (h : shouldSwitch old.metric new.metric (old.origin == new.origin) = true) :
    new.Outdoes old := by
  obtain ⟨hreachable, hlost | hgain | ⟨hsame, hgain⟩⟩ := shouldSwitch_iff.1 h
  · exact .inl ⟨UInt16.toNat_inj.1 hlost, Metric.reachable_iff_ne_infinity.1
      (Metric.reachable_iff.2 hreachable)⟩
  · exact .inr ⟨by omega, fun _ => hgain⟩
  · exact .inr ⟨hgain, fun hne => absurd (beq_iff_eq.1 hsame).symm hne⟩

/-- Every gain is a smaller metric. -/
theorem Route.Outdoes.metric_lt {new old : Route} (h : new.Outdoes old) :
    new.metric < old.metric := by
  rw [UInt16.lt_iff_toNat_lt]
  rcases h with ⟨hlost, hreachable⟩ | ⟨hgain, -⟩
  · rw [hlost]
    exact Metric.reachable_iff.1 (Metric.reachable_iff_ne_infinity.2 hreachable)
  · omega

namespace Router

variable {now : Instant} {dest : Prefix} {r r' s : Router} {id id' : RouteId} {route route' : Route}

/-! ### A single route is considered -/

/-- A route that may take over is installed for its destination in the place of one that it
outdoes, if there was one; or the kernel refuses, and what was installed stays. -/
theorem MayTakeOver.owner (h : MayTakeOver r now id route) (hex : r.table.Exclusive route.dest) :
    (r.consider now id).table = r.table ∨
    (r.consider now id).table.Owns route.dest id { route with installed := true } ∧
      ∀ oldId old, r.table.Owns route.dest oldId old → route.Outdoes old := by
  by_cases hown : ∃ oldId old, r.table.Owns route.dest oldId old
  · obtain ⟨oldId, old, ho⟩ := hown
    rw [consider_eq_promoteOver h hex ho]
    rcases r.table_promoteOver id route oldId old with htable | htable
    · exact .inl htable
    · refine .inr ⟨?_, ?_⟩
      · rw [htable]
        exact RouteTable.owns_of_exchanged h.get (ho.ne_of_not_installed h.get h.withdrawn)
      · intro otherId other hother
        exact Route.outdoes_of_shouldSwitch (h.gain otherId other hother)
  · have hvacant : ∀ id ρ, ¬ r.table.Owns route.dest id ρ := fun i ρ ho => hown ⟨i, ρ, ho⟩
    rw [consider_eq_promoteAlone h hvacant]
    rcases r.table_promoteAlone id route with htable | htable
    · exact .inl htable
    · refine .inr ⟨?_, ?_⟩
      · rw [htable]
        exact RouteTable.owns_modify_self.2 ⟨route, h.get, rfl, rfl, rfl⟩
      · intro oldId old ho
        exact absurd ho (hvacant oldId old)

/-- To consider a route leaves what is installed for a destination, or installs that route in the
place of one that it outdoes, if there was one. -/
theorem consider_owner (hex : ∀ dest, r.table.Exclusive dest) (now : Instant) (id : RouteId)
    (dest : Prefix) :
    (∀ other ρ, (r.consider now id).table.Owns dest other ρ ↔ r.table.Owns dest other ρ) ∨
    ∃ route, (r.consider now id).table.Owns dest id route ∧
      ∀ oldId old, r.table.Owns dest oldId old → route.Outdoes old := by
  by_cases htakes : ∃ route, MayTakeOver r now id route
  · obtain ⟨route, h⟩ := htakes
    by_cases hdest : dest = route.dest
    · subst hdest
      rcases h.owner (hex _) with htable | ⟨ho, hgain⟩
      · exact .inl fun other ρ => by rw [htable]
      · exact .inr ⟨_, ho, hgain⟩
    · have hmoves : Moves now route.dest r (r.consider now id) := consider_moves (isFor_dest h.get)
      exact .inl fun other ρ => hmoves.owns_elsewhere_iff hdest
  · rw [consider_of_not_mayTakeOver hex fun route h => htakes ⟨route, h⟩]
    exact .inl fun other ρ => Iff.rfl

/-- A route was considered at some time.  Before that, everything but the table may have changed. -/
def Considered (r r' : Router) : Prop :=
  ∃ (s : Router) (now : Instant) (id : RouteId), s.table = r.table ∧ r' = s.consider now id

theorem Considered.alike (h : Considered r r') : Alike Route.bare r r' := by
  obtain ⟨s, now, id, htable, rfl⟩ := h
  exact (alike_of_table_eq htable).trans (s.alike_consider now id)

theorem Considered.exclusive (h : Considered r r') (hex : r.table.Exclusive dest) :
    r'.table.Exclusive dest := by
  obtain ⟨s, now, id, htable, rfl⟩ := h
  rw [← htable] at hex
  exact (s.consider_allMoves now id).exclusive hex

/-- An installed route keeps its place, or loses it to one that outdoes it. -/
theorem Considered.owner (h : Considered r r') (hex : ∀ dest, r.table.Exclusive dest)
    (dest : Prefix) :
    (∀ id ρ, r'.table.Owns dest id ρ ↔ r.table.Owns dest id ρ) ∨
    ∃ id route, r'.table.Owns dest id route ∧
      ∀ oldId old, r.table.Owns dest oldId old → route.Outdoes old := by
  obtain ⟨s, now, id, htable, rfl⟩ := h
  rw [← htable] at hex ⊢
  rcases consider_owner hex now id dest with hkept | ⟨route, ho, hgain⟩
  · exact .inl hkept
  · exact .inr ⟨id, route, ho, hgain⟩

/-- The route of that name is installed, and was not before. -/
structure Installs (r r' : Router) (id : RouteId) : Prop where
  before : r.isInstalled id = false
  after : r'.isInstalled id = true

theorem isInstalled_iff : r.isInstalled id = true ↔ ∃ dest route, r.table.Owns dest id route := by
  constructor
  · intro h
    obtain ⟨route, hr, hi⟩ := (Option.any_eq_true _ _).1 h
    exact ⟨route.dest, route, hr, hi, rfl⟩
  · rintro ⟨dest, route, ho⟩
    rw [isInstalled_of_get? ho.get, ho.installed]

/-! ### Several routes are considered -/

/-- Routes were considered one after the other. -/
def Considerations : Router → Router → Prop := Relation.ReflTransGen Considered

namespace Considerations

theorem alike (h : Considerations r r') : Alike Route.bare r r' := by
  induction h with
  | refl => exact alike_of_table_eq rfl
  | tail _ hstep ih => exact ih.trans hstep.alike

theorem exclusive (h : Considerations r r') (hex : r.table.Exclusive dest) :
    r'.table.Exclusive dest := by
  induction h with
  | refl => exact hex
  | tail _ hstep ih => exact hstep.exclusive ih

/-- **The metric of the installed route is a potential.**  A destination that has an installed route
keeps having one; its metric is never larger, and it is smaller if it is another one. -/
theorem held (h : Considerations r r') (hex : ∀ dest, r.table.Exclusive dest)
    (ho : r.table.Owns dest id route) :
    ∃ id' route', r'.table.Owns dest id' route' ∧ route'.metric ≤ route.metric ∧
      (id' ≠ id → route'.metric < route.metric) := by
  induction h with
  | refl => exact ⟨id, route, ho, UInt16.le_refl _, fun hne => absurd rfl hne⟩
  | tail hsteps hstep ih =>
      obtain ⟨id', route', ho', hle, hlt⟩ := ih
      rcases hstep.owner (fun dest => exclusive hsteps (hex dest)) dest with
        hkept | ⟨newId, new, hnew, hgain⟩
      · exact ⟨id', route', (hkept id' route').2 ho', hle, hlt⟩
      · have hfallen : new.metric < route.metric :=
          UInt16.lt_of_lt_of_le (hgain id' route' ho').metric_lt hle
        exact ⟨newId, new, hnew, UInt16.le_of_lt hfallen, fun _ => hfallen⟩

/-- A route that lost its place is not installed again: its metric is still the one that it had, and
the installed route has a smaller one. -/
theorem not_restored (h : Considerations r s) (h' : Considerations s r')
    (hex : ∀ dest, r.table.Exclusive dest) (hbefore : r.isInstalled id = true)
    (hlost : s.isInstalled id = false) : r'.isInstalled id = false := by
  obtain ⟨dest, route, ho⟩ := isInstalled_iff.1 hbefore
  obtain ⟨id', route', ho', -, hlt⟩ := h.held hex ho
  have hne : id' ≠ id := by
    rintro rfl
    rw [isInstalled_iff.2 ⟨dest, route', ho'⟩] at hlost
    cases hlost
  obtain ⟨id'', route'', ho'', hle, -⟩ := h'.held (fun dest => h.exclusive (hex dest)) ho'
  rw [← Bool.not_eq_true]
  intro hagain
  obtain ⟨dest', ρ, hρ⟩ := isInstalled_iff.1 hagain
  -- the route was not rewritten
  have hbare : ρ.bare = route.bare := by
    have hshown := (alike (h.trans h')).routes id
    rw [shown_of_get? hρ.get, shown_of_get? ho.get] at hshown
    exact Option.some.inj hshown
  have hdest : ρ.dest = dest := (congrArg Route.dest hbare).trans ho.dest_eq
  have hmetric : ρ.metric = route.metric := (congrArg Route.metric hbare :)
  -- so it is the one that is installed now, with a metric below its own
  obtain rfl : id'' = id := h'.exclusive (h.exclusive (hex dest)) _ _ _ _ ho''
    ⟨hρ.get, hρ.installed, hdest⟩
  obtain rfl := Option.some.inj (ho''.get.symm.trans hρ.get)
  rw [hmetric] at hle
  exact UInt16.lt_irrefl _ (UInt16.lt_of_le_of_lt hle (hlt hne))

end Considerations

/-! ### A sequence of routes -/

section Sequence

variable {n i j : Nat} {s : Nat → Router}

theorem considerations_of_le (hs : ∀ i < n, Considered (s i) (s (i + 1))) (hij : i ≤ j)
    (hj : j ≤ n) : Considerations (s i) (s j) := by
  induction hij with
  | refl => exact .refl
  | step _ ih => exact (ih (Nat.le_of_lt hj)).tail (hs _ hj)

/-- **Routes that are considered in any order do not take turns.**  If at most one route is
installed for each destination, then a destination that has an installed route has one ever after;
whenever another route takes its place, that one outdoes it; no route that lost its place is
installed again; and none becomes installed twice. -/
theorem considerations_settle (hex : ∀ dest, (s 0).table.Exclusive dest)
    (hs : ∀ i < n, Considered (s i) (s (i + 1))) :
    (∀ dest i j, i ≤ j → j ≤ n → (s i).table.installed? dest ≠ none →
      (s j).table.installed? dest ≠ none) ∧
    (∀ dest i, i < n → ∀ id route id' route', (s i).table.Owns dest id route →
      (s (i + 1)).table.Owns dest id' route' → id' ≠ id → route'.Outdoes route) ∧
    (∀ id i j k, i ≤ j → j ≤ k → k ≤ n → (s i).isInstalled id = true →
      (s j).isInstalled id = false → (s k).isInstalled id = false) ∧
    ∀ id i j, i < j → j < n → Installs (s i) (s (i + 1)) id → ¬ Installs (s j) (s (j + 1)) id := by
  have hexclusive : ∀ i ≤ n, ∀ dest, (s i).table.Exclusive dest := fun i hi dest =>
    (considerations_of_le hs (Nat.zero_le i) hi).exclusive (hex dest)
  have hgone : ∀ id i j k, i ≤ j → j ≤ k → k ≤ n → (s i).isInstalled id = true →
      (s j).isInstalled id = false → (s k).isInstalled id = false := by
    intro id i j k hij hjk hk
    have hj := Nat.le_trans hjk hk
    exact (considerations_of_le hs hij hj).not_restored (considerations_of_le hs hjk hk)
      (hexclusive i (Nat.le_trans hij hj))
  refine ⟨?_, ?_, hgone, ?_⟩
  · intro dest i j hij hj hinstalled
    obtain ⟨⟨id, route⟩, hfound⟩ := Option.ne_none_iff_exists'.1 hinstalled
    obtain ⟨id', route', ho, -⟩ := (considerations_of_le hs hij hj).held
      (hexclusive i (Nat.le_trans hij hj)) (RouteTable.owns_of_installed? hfound)
    exact ho.installed?_ne_none
  · intro dest i hi id route id' route' ho ho' hne
    rcases (hs i hi).owner (hexclusive i (Nat.le_of_lt hi)) dest with
      hkept | ⟨newId, new, hnew, hgain⟩
    · exact absurd (hexclusive i (Nat.le_of_lt hi) dest _ _ _ _ ((hkept id' route').1 ho') ho) hne
    · have hsame := hexclusive (i + 1) hi dest _ _ _ _ ho' hnew
      subst hsame
      obtain rfl := Option.some.inj (ho'.get.symm.trans hnew.get)
      exact hgain id route ho
  · intro id i j hij hj hfirst hsecond
    have hlost := hgone id (i + 1) j (j + 1) hij (Nat.le_succ j) hj hfirst.after hsecond.before
    rw [hsecond.after] at hlost
    cases hlost

end Sequence

/-- A router with three routes for `P`, none of which is installed, for it announces `P` itself.
The kernel is going to refuse the second operation on `P`. -/
def arena : Router :=
  (({ twoNeighbours [none, some (.os 12)] with exports := ["P"] }.perform 1000
    (.receive ⟨"O1", "P", 10, 504, "N1", "H1"⟩)).perform 1000
      (.receive ⟨"O2", "P", 10, 304, "N2", "H2"⟩)).perform 1000
        (.receive ⟨"O2", "P", 10, 204, "N1", "H3"⟩)

theorem reachable_arena : Reachable arena := by
  have hlinked : Reachable { twoNeighbours [none, some (.os 12)] with exports := ["P"] } :=
    .surround (.start {}) rfl rfl
  exact .operate (.operate (.operate hlinked 1000 _) 1000 _) 1000 _

/-- What the router announces itself, the time, and the route that is considered then. -/
def rounds : List (List Prefix × Instant × RouteId) :=
  [([], 1001, 0), ([], 1002, 1), ([], 1003, 1), (["P"], 1004, 2), ([], 1005, 2), ([], 1006, 0)]

/-- The router after so many of the rounds. -/
def contest : Nat → Router
  | 0 => arena
  | i + 1 =>
    let (exports, now, id) := rounds.getD i default
    { contest i with exports }.consider now id

/-- The first route is installed, and loses its place to the second one when the kernel no longer
refuses that; the second loses it to the third.  When the first route is considered once more, it is
not installed again. -/
theorem contest_settles :
    (∀ i < 6, Considered (contest i) (contest (i + 1))) ∧
      Installs (contest 0) (contest 1) 0 ∧ ¬ Installs (contest 5) (contest 6) 0 ∧
      (contest 2).isInstalled 0 = true ∧ (contest 3).isInstalled 0 = false ∧
      (contest 6).isInstalled 0 = false ∧ (contest 6).table.installed? "P" ≠ none ∧
      Route.Outdoes ⟨"P", "O2", "N2", "H2", 2, 10, 304, 400, 1000, 1000, true⟩
        ⟨"P", "O1", "N1", "H1", 1, 10, 504, 600, 1000, 1000, true⟩ := by
  have hconsidered : ∀ i < 6, Considered (contest i) (contest (i + 1)) :=
    fun i _ => ⟨{ contest i with exports := (rounds.getD i default).1 }, _, _, rfl, rfl⟩
  obtain ⟨hsole, -⟩ := reachable_soleOwner reachable_arena
  obtain ⟨hheld, houtdoes, hgone, hagain⟩ :=
    considerations_settle (s := contest) (fun dest => (hsole dest).1) hconsidered
  have hplaces : (contest 0).isInstalled 0 = false ∧ (contest 1).isInstalled 0 = true ∧
      (contest 2).isInstalled 0 = true ∧ (contest 3).isInstalled 0 = false := by decide +kernel
  have howners : (contest 2).table.installed? "P" =
        some (0, ⟨"P", "O1", "N1", "H1", 1, 10, 504, 600, 1000, 1000, true⟩) ∧
      (contest 3).table.installed? "P" =
        some (1, ⟨"P", "O2", "N2", "H2", 2, 10, 304, 400, 1000, 1000, true⟩) := by decide +kernel
  obtain ⟨hbefore, hafter, hstill, hlost⟩ := hplaces
  obtain ⟨hfirst, hsecond⟩ := howners
  refine ⟨hconsidered, ⟨hbefore, hafter⟩, ?_, hstill, hlost, ?_, ?_, ?_⟩
  · exact hagain 0 0 5 (by omega) (by omega) ⟨hbefore, hafter⟩
  · exact hgone 0 2 3 6 (by omega) (by omega) (by omega) hstill hlost
  · exact hheld "P" 2 6 (by omega) (by omega) (by rw [hfirst]; exact Option.some_ne_none _)
  · exact houtdoes "P" 2 (by omega) 0 _ 1 _ (RouteTable.owns_of_installed? hfirst)
      (RouteTable.owns_of_installed? hsecond) (by decide)

end Router

end DistanceVector
