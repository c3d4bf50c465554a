import DistanceVector.Proofs.Contents
import DistanceVector.Proofs.Names
import Mathlib.Data.List.Perm.Subperm

/-!
# Names and places

A route is found by its name or by its place.  In every place there is one route at most.  This
holds although the room for a new route is made after its place was found vacant, and although the
routes that leave are replaced by others as they go.  Names are given out in ascending order, and
one that stopped to be that of a route is not one again before the names run out.

Main definitions:

* `RouteTable.WellKept` — every place is taken once, and the routes fit;
* `Router.Grown` — one route entered the table, others may have left it;
* `Router.Later` — what a router may become, and how many routes were stored on the way.

Main results:

* `Router.thinned_or_grown` — **an operation only removes routes, or lets one more enter a vacant
  place**;
* `Router.Later.wellKept`, `Router.Later.numbered`, `Router.Later.gone` — what holds of a table, and
  from one table to any later one;
* `Router.Later.names_and_places` — all this of a router that started out empty;
* `Router.names_come_again` — the names do run out.
-/

set_option relaxedAutoImplicit false
set_option autoImplicit false

namespace DistanceVector

namespace RouteTable

variable {t t' : RouteTable}

/-- Every place is taken by one route at most, and there are no more routes than there is room
for. -/
structure WellKept (t : RouteTable) : Prop where
  places : ∀ i j ρ σ, t.get? i = some ρ → t.get? j = some σ → ρ.place = σ.place → i = j
  fits : t.size ≤ t.capacity.toNat

theorem wellKept_ofCapacity (capacity : UInt64) : (ofCapacity capacity).WellKept := by
  refine ⟨?_, Nat.zero_le _⟩
  intro i j ρ σ hi
  cases hi

/-- Where there are no other names, there are no more routes. -/
theorem size_le_of_ids_subset (h : t'.ids ⊆ t.ids) : t'.size ≤ t.size := by
  have hnodup : t'.ids.Nodup := t'.routes.pairwise_keys.imp OrderedMap.ne_of_lt
  have hlength := (List.subperm_of_subset hnodup h).length_le
  simpa only [ids, OrderedMap.keys, List.length_map, size, OrderedMap.size] using hlength

end RouteTable

namespace Router

variable {n m : Nat} {now : Instant} {dest : Prefix} {r r' s : Router} {id : RouteId}
  {route : Route} {adv : Advertisement} {place : Prefix × NeighbourId × NextHop}

/-! ### What an operation does to the table -/

theorem Move.capacity (h : Move now dest r r') : r'.table.capacity = r.table.capacity := by
  cases h with
  | told h =>
      obtain ⟨_, _, _, rfl⟩ := h
      rfl
  | _ => rfl

theorem AllMoves.capacity (h : AllMoves now r r') : r'.table.capacity = r.table.capacity :=
  h.preserves (P := fun s => s.table.capacity = r.table.capacity)
    (fun hmove hs => hmove.capacity.trans hs) rfl

/-- No operation makes the table larger or smaller. -/
theorem capacity_perform (r : Router) (now : Instant) (op : Operation) :
    (r.perform now op).table.capacity = r.table.capacity := by
  refine perform_induction (P := fun s => s.table.capacity = r.table.capacity) ?_ ?_ rfl
  · intro s s' hstep hs
    rcases hstep with ⟨dest, hmove⟩ | ⟨adv, hheard⟩
    · exact hmove.capacity.trans hs
    · cases hheard with
      | observed _ => exact hs
      | recorded _ _ _ => exact hs
  · intro s id route table _ _ _ ht hs
    exact (RouteTable.room_of_insert? ht).2.1.trans hs

/-- One route entered the table by the next name, in a place where none was, and found room.  All
others were there before, in the same places. -/
structure Grown (place : Prefix × NeighbourId × NextHop) (r r' : Router) : Prop where
  vacant : ∀ id, r.shown Route.place id ≠ some place
  routes : ∀ id a, r'.shown Route.place id = some a →
    id = r.table.nextId ∧ a = place ∨ r.shown Route.place id = some a
  room : r'.table.size ≤ r.table.capacity.toNat

theorem Thinned.size_le (h : Thinned Route.place r r') : r'.table.size ≤ r.table.size := by
  refine RouteTable.size_le_of_ids_subset fun id hid => ?_
  obtain ⟨route, hr⟩ := RouteTable.mem_ids_iff.1 hid
  obtain ⟨ρ, hρ, -⟩ := exists_get?_of_shown (h.routes id _ (shown_of_get? hr _))
  exact RouteTable.mem_ids_iff.2 ⟨ρ, hρ⟩

/-- To put a new route in a place that was vacant makes the table grow, whatever left it before. -/
theorem grown_of_insert? {table : RouteTable} (hs : Thinned Route.place r s)
    (hroom : s.table.capacity = r.table.capacity)
    (hvacant : ∀ id, r.shown Route.place id ≠ some route.place)
    (ht : s.table.insert? route = some (id, table))
    (h : Thinned Route.place { s with table := table } r') : Grown route.place r r' := by
  obtain ⟨-, -, hfits⟩ := RouteTable.room_of_insert? ht
  refine ⟨hvacant, ?_, ?_⟩
  · intro other a ha
    obtain ⟨ρ, hρ, rfl⟩ := exists_get?_of_shown (h.routes other a ha)
    obtain ⟨hid, hget⟩ := RouteTable.get?_of_insert? ht other
    rw [hget] at hρ
    split at hρ
    · next hother =>
      cases hρ
      exact .inl ⟨hother.trans (hid.trans hs.nextId), rfl⟩
    · exact .inr (hs.routes other _ (shown_of_get? hρ _))
  · exact Nat.le_trans h.size_le (hroom ▸ hfits)

theorem thinned_or_grown_adopt
    (hm : r.table.match? adv.dest adv.neigh adv.nexthop = none) (now : Instant)
    (interface : InterfaceId) (metric : Metric) :
    Thinned Route.place r (r.adopt now adv interface metric).2 ∨
      ∃ place, Grown place r (r.adopt now adv interface metric).2 := by
  have hthin : Thinned Route.place r (r.withRoom now) := (r.thinned_withRoom now).fixed.place
  rcases r.adopt_cases now adv interface metric with heq | ⟨id, table, ht, heq⟩
  · rw [heq]
    exact .inl (hthin.trans (alike_of_table_eq (table_reject _ adv _)).thinned)
  · refine .inr ⟨(adv.dest, adv.neigh, adv.nexthop), ?_⟩
    rw [heq]
    have hconsidered : Thinned Route.place { r.withRoom now with table := table }
        (consider { r.withRoom now with table := table } now id) :=
      (alike_consider _ now id).thinned.fixed.place
    refine grown_of_insert? hthin (r.withRoom_allMoves now).capacity ?_ ht hconsidered
    -- the place was found vacant before room was made
    intro other hother
    obtain ⟨ρ, hρ, hplace⟩ := exists_get?_of_shown hother
    simp only [Route.place, Route.ofAdvertisement, Prod.mk.injEq] at hplace
    have htest := RouteTable.find?_eq_none_iff.1 hm other ρ hρ
    simp [Route.through, hplace] at htest

theorem thinned_or_grown_accept (r : Router) (now : Instant) (adv : Advertisement)
    (interface : InterfaceId) :
    Thinned Route.place r (r.accept now adv interface).2 ∨
      ∃ place, Grown place r (r.accept now adv interface).2 := by
  have hrejected : ∀ s reason, s.table = r.table →
      Thinned Route.place r (reject s adv reason).2 :=
    fun s reason hs => (alike_of_table_eq ((table_reject s adv reason).trans hs)).thinned
  cases hm : r.table.match? adv.dest adv.neigh adv.nexthop with
  | some e =>
      rw [accept_of_match hm]
      exact .inl (r.alike_update now adv _ _ e.1 e.2).thinned.place
  | none =>
      rcases accept_of_vacant hm now interface with hunfeasible | hretraction | hadopt
      · exact .inl (hunfeasible ▸ hrejected _ _ (table_requestFeasible _ _ _ _))
      · exact .inl (hretraction ▸ hrejected r _ rfl)
      · exact hadopt ▸ thinned_or_grown_adopt hm now interface _

theorem thinned_or_grown_receive (r : Router) (now : Instant) (adv : Advertisement) :
    Thinned Route.place r (r.receive now adv).2 ∨
      ∃ place, Grown place r (r.receive now adv).2 := by
  rcases r.receive_cases now adv with ⟨reason, heq⟩ | ⟨interface, sources, -, -, heq⟩
  · exact .inl (heq ▸ (alike_of_table_eq (table_reject r adv reason)).thinned)
  · rw [heq]
    -- that the source is put on record first does not touch the table
    rcases thinned_or_grown_accept { r with sources := sources } now adv interface with
      hthin | ⟨place, hgrown⟩
    · exact .inl ⟨hthin.routes, hthin.nextId⟩
    · exact .inr ⟨place, hgrown.vacant, hgrown.routes, hgrown.room⟩

/-- **An operation only takes routes away, or lets one more enter a vacant place.** -/
theorem thinned_or_grown (r : Router) (now : Instant) (op : Operation) :
    Thinned Route.place r (r.perform now op) ∨ ∃ place, Grown place r (r.perform now op) := by
  cases op with
  | receive adv => exact thinned_or_grown_receive r now adv
  | flush id => exact .inl (r.thinned_flush now id).fixed.place
  | flushNeighbour neigh => exact .inl (r.thinned_flushNeighbour now neigh).fixed.place
  | remetric id => exact .inl (r.alike_remetric now id).thinned.place
  | remetricNeighbour neigh => exact .inl (r.thinned_remetricAll now _).place
  | remetricInterface interface => exact .inl (r.thinned_remetricAll now _).place
  | expire => exact .inl (r.thinned_expire now).place
  | makeRoom => exact .inl (r.thinned_makeRoom now).fixed.place
  | consider id => exact .inl (r.alike_consider now id).thinned.fixed.place
  | replaceLost origin dest oldMetric =>
      exact .inl (r.alike_replaceLost now origin dest oldMetric).thinned.fixed.place
  | reconsider id oldOrigin oldMetric =>
      exact .inl (r.alike_reconsider now id oldOrigin oldMetric).thinned.fixed.place
  | uninstall id => exact .inl (r.alike_uninstall id).thinned.fixed.place
  | setMetric id metric => exact .inl (r.alike_setMetric id metric).thinned.place
  | retryLeftovers => exact .inl (alike_of_table_eq r.table_retryLeftovers).thinned

/-! ### What holds of every table -/

theorem Thinned.wellKept (h : Thinned Route.place r r')
    (hroom : r'.table.capacity = r.table.capacity) (hk : r.table.WellKept) :
    r'.table.WellKept := by
  refine ⟨?_, hroom ▸ Nat.le_trans h.size_le hk.fits⟩
  intro i j ρ σ hi hj hplace
  obtain ⟨ρ', hi', hρ⟩ := exists_get?_of_shown (h.routes i _ (shown_of_get? hi _))
  obtain ⟨σ', hj', hσ⟩ := exists_get?_of_shown (h.routes j _ (shown_of_get? hj _))
  exact hk.places i j ρ' σ' hi' hj' (hρ.trans (hplace.trans hσ.symm))

theorem Grown.wellKept (h : Grown place r r') (hroom : r'.table.capacity = r.table.capacity)
    (hk : r.table.WellKept) : r'.table.WellKept := by
  have hbefore : ∀ id route, r'.table.get? id = some route →
      id = r.table.nextId ∧ route.place = place ∨ r.shown Route.place id = some route.place :=
    fun id route hr => h.routes id _ (shown_of_get? hr _)
  refine ⟨?_, hroom ▸ h.room⟩
  intro i j ρ σ hi hj hplace
  rcases hbefore i ρ hi with ⟨hnew, hρ⟩ | hold
  · rcases hbefore j σ hj with ⟨hnew', -⟩ | hold'
    · exact hnew.trans hnew'.symm
    · exact absurd (hold'.trans (congrArg some (hplace.symm.trans hρ))) (h.vacant j)
  · rcases hbefore j σ hj with ⟨-, hσ⟩ | hold'
    · exact absurd (hold.trans (congrArg some (hplace.trans hσ))) (h.vacant i)
    · obtain ⟨ρ', hi', hρ⟩ := exists_get?_of_shown hold
      obtain ⟨σ', hj', hσ⟩ := exists_get?_of_shown hold'
      exact hk.places i j ρ' σ' hi' hj' (hρ.trans (hplace.trans hσ.symm))

theorem wellKept_perform (hk : r.table.WellKept) (now : Instant) (op : Operation) :
    (r.perform now op).table.WellKept := by
  have hroom := r.capacity_perform now op
  rcases r.thinned_or_grown now op with hthin | ⟨place, hgrown⟩
  · exact hthin.wellKept hroom hk
  · exact hgrown.wellKept hroom hk

/-! ### Runs -/

/-- **What a router may become**: operations change it at any time, and everything but its table
may change in between.  The number is that of the routes that were stored on the way. -/
inductive Later (r : Router) : Nat → Router → Prop
  | refl : Later r 0 r
  | operate {n : Nat} {s : Router} (h : Later r n s) (now : Instant) (op : Operation) :
      Later r (n + (s.stores now op).toNat) (s.perform now op)
  | surround {n : Nat} {s s' : Router} (h : Later r n s) (ht : s'.table = s.table) : Later r n s'

theorem Later.wellKept (h : Later r m r') (hk : r.table.WellKept) :
    r'.table.WellKept ∧ r'.table.capacity = r.table.capacity := by
  induction h with
  | refl => exact ⟨hk, rfl⟩
  | operate _ now op ih =>
      exact ⟨wellKept_perform ih.1 now op, (capacity_perform _ now op).trans ih.2⟩
  | surround _ ht ih => exact ht ▸ ih

theorem Later.numbered (h : Later r m r') (hn : r.table.Numbered n) :
    r'.table.Numbered (n + m) := by
  induction h with
  | refl => exact hn
  | operate _ now op ih => exact Nat.add_assoc n _ _ ▸ numbered_perform ih now op
  | surround _ ht ih => exact ht ▸ ih

/-- Until the names run out, a name that was given out and is no route's does not become that of one
again. -/
theorem Later.gone (h : Later r m r') (hn : r.table.Numbered n) (hm : n + m ≤ UInt64.size)
    (hid : id.toNat < n) (hgone : r.table.get? id = none) : r'.table.get? id = none := by
  induction h with
  | refl => exact hgone
  | @operate m s h now op ih =>
      have hbefore := ih (by omega)
      rcases s.names_perform now op with ⟨-, hkept⟩ | ⟨hnew, hstored⟩
      · exact hkept.gone id hbefore
      · refine hstored.gone id ?_ hbefore
        rintro rfl
        rw [hnew, Bool.toNat_true] at hm
        rw [(h.numbered hn).next, Nat.mod_eq_of_lt (by omega)] at hid
        omega
  | surround _ ht ih => exact ht ▸ ih hm

/-- **Names last and places are taken once.**  In a router that started out empty, no two routes
lead to one destination through one neighbour and one next hop, and there are no more routes than
there is room for.  The next name is the number of the routes that were stored, as far as it fits a
name.  As long as it does, all names in use are below the next one, which never goes down, and a new
route gets a name above all that there were; and until a route is stored once it does not fit any
more, a name that stopped to be a route's never is one again. -/
theorem Later.names_and_places {params : Params} (h : Later (ofParams params) n r) :
    (∀ i j ρ σ, r.table.get? i = some ρ → r.table.get? j = some σ →
      ρ.dest = σ.dest → ρ.neigh = σ.neigh → ρ.nexthop = σ.nexthop → i = j) ∧
    r.table.size ≤ params.maxRoutes.toNat ∧
    r.table.nextId.toNat = n % UInt64.size ∧
    (n < UInt64.size → ∀ id ∈ r.table.ids, id < r.table.nextId) ∧
    ∀ m r', Later r m r' →
      (n + m < UInt64.size →
        r.table.nextId ≤ r'.table.nextId ∧
        ∀ now adv id, (r'.receive now adv).1 = .ok id → r'.table.get? id = none →
          ∀ other ∈ r.table.ids, other < id) ∧
      ∀ id ∈ r.table.ids, r'.table.get? id = none →
        ∀ k r'', Later r' k r'' → n + m + k ≤ UInt64.size → r''.table.get? id = none := by
  obtain ⟨hkept, hcapacity⟩ := h.wellKept (RouteTable.wellKept_ofCapacity params.maxRoutes)
  have hnumbered : r.table.Numbered n :=
    Nat.zero_add n ▸ h.numbered (RouteTable.numbered_ofCapacity params.maxRoutes)
  have hbelow : ∀ id ∈ r.table.ids, id.toNat < n := by
    intro id hid
    obtain ⟨route, hr⟩ := RouteTable.mem_ids_iff.1 hid
    exact hnumbered.below id route hr
  refine ⟨?_, ?_, hnumbered.next, ?_, ?_⟩
  · intro i j ρ σ hi hj hdest hneigh hnexthop
    exact hkept.places i j ρ σ hi hj (by simp only [Route.place, hdest, hneigh, hnexthop])
  · exact Nat.le_trans hkept.fits (Nat.le_of_eq (congrArg UInt64.toNat hcapacity))
  · intro hn id hid
    rw [UInt64.lt_iff_toNat_lt, hnumbered.next, Nat.mod_eq_of_lt hn]
    exact hbelow id hid
  intro m r' hlater
  have hafter : r'.table.Numbered (n + m) := hlater.numbered hnumbered
  refine ⟨fun hnm => ?_, ?_⟩
  · have hnext : r'.table.nextId.toNat = n + m := hafter.next.trans (Nat.mod_eq_of_lt hnm)
    refine ⟨?_, ?_⟩
    · rw [UInt64.le_iff_toNat_le, hnext, hnumbered.next]
      exact Nat.le_trans (Nat.mod_le n _) (Nat.le_add_right n m)
    · intro now adv id hok hnew other hother
      rcases id_of_receive hok with ⟨route, hr⟩ | rfl
      · cases hnew.symm.trans hr
      · rw [UInt64.lt_iff_toNat_lt, hnext]
        exact Nat.lt_of_lt_of_le (hbelow other hother) (Nat.le_add_right n m)
  · intro id hid hgone k r'' hlater' hk
    exact hlater'.gone hafter hk (Nat.lt_of_lt_of_le (hbelow id hid) (Nat.le_add_right n m)) hgone

/-- A router with room for two routes, both taken by routes for `P`. -/
def crowded : Router :=
  ({ twoNeighbours [] with table := .ofCapacity 2 }.perform 1000
    (.receive ⟨"O1", "P", 10, 104, "N1", "H1"⟩)).perform 1000
      (.receive ⟨"O2", "P", 10, 204, "N2", "H2"⟩)

/-- The same after the second route made room for one for `Q`, and the first was removed. -/
def evicted : Router :=
  (crowded.perform 1001 (.receive ⟨"O1", "Q", 10, 104, "N1", "H1"⟩)).perform 1002 (.flush 0)

/-- The route that made room is advertised again, in the place that it had.  It gets a name above
all that there were, and the one that it had names nothing. -/
theorem names_after_eviction :
    crowded.table.ids = [0, 1] ∧ crowded.table.size ≤ 2 ∧ evicted.table.get? 1 = none ∧
      (evicted.receive 1003 ⟨"O2", "P", 10, 204, "N2", "H2"⟩).1 = .ok 3 ∧
      (∀ other ∈ crowded.table.ids, other < 3) ∧
      (evicted.receive 1003 ⟨"O2", "P", 10, 204, "N2", "H2"⟩).2.table.get? 1 = none := by
  have hstart : Later (ofParams { maxRoutes := 2 }) 0
      { twoNeighbours [] with table := .ofCapacity 2 } := .surround .refl rfl
  have hcrowded : Later (ofParams { maxRoutes := 2 }) 2 crowded :=
    (hstart.operate 1000 (.receive ⟨"O1", "P", 10, 104, "N1", "H1"⟩)).operate 1000
      (.receive ⟨"O2", "P", 10, 204, "N2", "H2"⟩)
  have hevicted : Later crowded 1 evicted :=
    (Later.refl.operate 1001 (.receive ⟨"O1", "Q", 10, 104, "N1", "H1"⟩)).operate 1002 (.flush 0)
  have hids : crowded.table.ids = [0, 1] := by decide +kernel
  have hgone : evicted.table.get? 1 = none ∧ evicted.table.get? 3 = none := by decide +kernel
  have hok : (evicted.receive 1003 ⟨"O2", "P", 10, 204, "N2", "H2"⟩).1 = .ok 3 := by
    decide +kernel
  obtain ⟨-, hfits, -, -, hrun⟩ := hcrowded.names_and_places
  obtain ⟨hrising, hlast⟩ := hrun 1 evicted hevicted
  obtain ⟨-, hnew⟩ := hrising (by decide)
  refine ⟨hids, hfits, hgone.1, hok, hnew 1003 _ 3 hok hgone.2, ?_⟩
  have hagain : Later evicted 1 (evicted.receive 1003 ⟨"O2", "P", 10, 204, "N2", "H2"⟩).2 :=
    Later.refl.operate 1003 (.receive ⟨"O2", "P", 10, 204, "N2", "H2"⟩)
  exact hlast 1 (by rw [hids]; decide) hgone.1 1 _ hagain (by decide)

/-! ### When the names run out -/

theorem Operated.later (h : Operated r m r') : Later r m r' := by
  induction h with
  | refl => exact .refl
  | operate _ now op ih => exact ih.operate now op

/-- Once there were as many routes as there are names, the next name is that of the first route
again: it is not above that name, and below what it was before.  If the first route is removed now,
a new one has its name. -/
theorem names_come_again :
    Later (ofParams {}) 1 oneInstalled ∧ Later oneInstalled (UInt64.size - 1) namesUsedUp ∧
      oneInstalled.table.ids = [0] ∧ namesUsedUp.table.ids = [0] ∧
      ¬ 0 < namesUsedUp.table.nextId ∧
      ¬ oneInstalled.table.nextId ≤ namesUsedUp.table.nextId ∧
      (namesUsedUp.perform 1001 (.flush 0)).table.get? 0 = none ∧
      ((namesUsedUp.perform 1001 (.flush 0)).receive 1002
        ⟨"O1", "R", 10, 104, "N1", "H1"⟩).1 = .ok 0 ∧
      ((namesUsedUp.perform 1001 (.flush 0)).perform 1002
        (.receive ⟨"O1", "R", 10, 104, "N1", "H1"⟩)).table.ids = [0] := by
  have hstart : Later (ofParams {}) 0 { twoNeighbours [] with
      exports := ["Q"], sources := SourceTable.set {} (SourceTable.firstSight "O1" "Q" 10 1000) } :=
    .surround .refl rfl
  have hinstalled : Later (ofParams {}) 1 oneInstalled :=
    hstart.operate 1000 (.receive ⟨"O1", "P", 10, 104, "N1", "H1"⟩)
  exact ⟨hinstalled, operated_namesUsedUp.later, by decide +kernel, by decide +kernel,
    by decide +kernel, by decide +kernel, by decide +kernel, by decide +kernel, by decide +kernel⟩

end Router

end DistanceVector
