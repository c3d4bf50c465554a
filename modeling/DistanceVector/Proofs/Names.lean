import DistanceVector.Proofs.SingleOwner

/-!
# Giving out names

A name is given to a route when it is stored, and nothing but that touches the names that are still
to come.  There are as many of them as numbers of 64 bits.  Until they run out, the next one is
free; when they do, the first come again, and one may meet the route that has had it all the time.

Main definitions:

* `Router.OneStored` — one route was stored, under the next name;
* `Router.Operated` — operations alone lead from one state to the other, and so many routes were
  stored on the way.

Main results:

* `Router.names_perform` — **an operation gives out the next name, or none at all**;
* `Router.numbered_perform` — the names given out number the routes that were stored;
* `Router.id_of_receive` — the route that holds an advertisement was there before, or is new and has
  the next name;
* `Router.operated_turns` — **names may be given out without leaving a trace**, as long as the next
  one is free.
-/

set_option relaxedAutoImplicit false
set_option autoImplicit false

namespace DistanceVector.Router

variable {now : Instant} {dest : Prefix} {r r' r₁ r₂ r₃ : Router} {id : RouteId} {route : Route}
  {adv : Advertisement} {interface : InterfaceId} {n m : Nat}

/-! ### The names after an operation -/

/-- One route was stored between the two states: it took the next name, and no other name became
that of a route. -/
structure OneStored (r r' : Router) : Prop where
  nextId : r'.table.nextId = r.table.nextId.next
  gone : ∀ id, id ≠ r.table.nextId → r.table.get? id = none → r'.table.get? id = none

theorem NoneStored.trans (h : NoneStored r₁ r₂) (h' : NoneStored r₂ r₃) : NoneStored r₁ r₃ :=
  ⟨h'.nextId.trans h.nextId, fun id hgone => h'.gone id (h.gone id hgone)⟩

theorem NoneStored.nextFree (h : NoneStored r r') (hfree : r.table.NextFree) :
    r'.table.NextFree := by
  rw [RouteTable.NextFree, h.nextId]
  exact h.gone _ hfree

theorem OneStored.trans (h : OneStored r₁ r₂) (h' : NoneStored r₂ r₃) : OneStored r₁ r₃ :=
  ⟨h'.nextId.trans h.nextId, fun id hne hgone => h'.gone id (h.gone id hne hgone)⟩

/-- A change in place gives no name. -/
theorem noneStored_of_modify (r : Router) (id : RouteId) (f : Route → Route) :
    NoneStored r { r with table := r.table.modify id f } := by
  refine ⟨rfl, fun other hgone => ?_⟩
  rw [RouteTable.get?_modify]
  split
  · rw [hgone, Option.map_none]
  · exact hgone

theorem oneStored_of_insert? {table : RouteTable} (h : NoneStored r r')
    (ht : r'.table.insert? route = some (id, table)) :
    OneStored r { r' with table := table } := by
  refine ⟨?_, fun other hne hgone => ?_⟩
  · exact (RouteTable.room_of_insert? ht).1.trans (congrArg RouteId.next h.nextId)
  · obtain ⟨hid, hget⟩ := RouteTable.get?_of_insert? ht other
    have hother : other ≠ id := hid ▸ h.nextId ▸ hne
    rw [hget, if_neg hother]
    exact h.gone other hgone

/-- **An operation that stores a route gives it the next name; no other gives out any.** -/
theorem names_perform (r : Router) (now : Instant) (op : Operation) :
    r.stores now op = false ∧ NoneStored r (r.perform now op) ∨
      r.stores now op = true ∧ OneStored r (r.perform now op) := by
  rcases r.perform_moves now op with ⟨hnone, hmoves⟩ | ⟨adv, r', rfl, htaken, hmoves⟩
  · exact .inl ⟨hnone, hmoves.noneStored⟩
  cases htaken with
  | ignored hnone => exact .inl ⟨hnone, hmoves.noneStored⟩
  | observed hnone hs => exact .inl ⟨hnone, hmoves.noneStored.nextId, hmoves.noneStored.gone⟩
  | @recorded sources id route s feasible hnone hs hm hi hr hd =>
      have hbefore : NoneStored r s := ⟨hm.all.noneStored.nextId, hm.all.noneStored.gone⟩
      exact .inl ⟨hnone, (hbefore.trans (noneStored_of_modify s id _)).trans hmoves.noneStored⟩
  | @stored sources id route table s hnew hs hm hi ht =>
      have hbefore : NoneStored r s := ⟨hm.noneStored.nextId, hm.noneStored.gone⟩
      exact .inr ⟨hnew, (oneStored_of_insert? hbefore ht).trans hmoves.noneStored⟩

theorem numbered_perform (h : r.table.Numbered n) (now : Instant) (op : Operation) :
    (r.perform now op).table.Numbered (n + (r.stores now op).toNat) := by
  have hbefore : ∀ id, (r.table.get? id = none → (r.perform now op).table.get? id = none) →
      ∀ route, (r.perform now op).table.get? id = some route → ∃ ρ, r.table.get? id = some ρ := by
    intro id hgone route hr
    refine Option.ne_none_iff_exists'.1 fun hnone => ?_
    cases (hgone hnone).symm.trans hr
  rcases r.names_perform now op with ⟨hnone, hkept⟩ | ⟨hnew, hstored⟩
  · rw [hnone, Bool.toNat_false, Nat.add_zero]
    refine ⟨hkept.nextId ▸ h.next, fun id route hr => ?_⟩
    obtain ⟨ρ, hρ⟩ := hbefore id (hkept.gone id) route hr
    exact h.below id ρ hρ
  · rw [hnew, Bool.toNat_true]
    refine h.succ hstored.nextId fun id route hr => ?_
    by_cases hid : id = r.table.nextId
    · exact .inl hid
    · exact .inr (hbefore id (hstored.gone id hid) route hr)

/-- An advertisement that is accepted is held by the route that was in its place before, or by a new
one of the next name. -/
theorem id_of_receive (h : (r.receive now adv).1 = .ok id) :
    (∃ route, r.table.get? id = some route) ∨ id = r.table.nextId := by
  have hrejected : ∀ (s : Router) reason, (s.reject adv reason).1 ≠ .ok id :=
    fun _ _ hreject => nomatch hreject
  rcases r.receive_cases now adv with ⟨reason, heq⟩ | ⟨interface, sources, -, -, heq⟩
  · exact absurd (heq ▸ h) (hrejected r reason)
  rw [heq] at h
  cases hm : r.table.match? adv.dest adv.neigh adv.nexthop with
  | some e =>
      rw [accept_of_match (r := { r with sources := sources }) hm] at h
      cases h
      exact .inl ⟨e.2, (RouteTable.get?_of_match? hm).1⟩
  | none =>
      rcases accept_of_vacant (r := { r with sources := sources }) hm now interface with
        hunfeasible | hretraction | hadopt
      · exact absurd (hunfeasible ▸ h) (hrejected _ _)
      · exact absurd (hretraction ▸ h) (hrejected _ _)
      rw [hadopt] at h
      rcases adopt_cases { r with sources := sources } now adv interface _ with
        hfull | ⟨new, table, ht, hstored⟩
      · exact absurd (hfull ▸ h) (hrejected _ _)
      · rw [hstored] at h
        cases h
        have hroom := (withRoom_allMoves { r with sources := sources } now).noneStored
        exact .inr ((RouteTable.get?_of_insert? ht id).1.trans hroom.nextId)

/-! ### Names that run out -/

/-- Operations alone lead from one state to the other, and so many routes were stored on the way. -/
inductive Operated (r : Router) : Nat → Router → Prop
  | refl : Operated r 0 r
  | operate {n : Nat} {r' : Router} (h : Operated r n r') (now : Instant) (op : Operation) :
      Operated r (n + (r'.stores now op).toNat) (r'.perform now op)

/-- What a router finds that stores a route for a destination which this node announces itself. -/
structure Turning (r : Router) (now : Instant) (adv : Advertisement) (interface : InterfaceId) :
    Prop where
  screened : r.screen adv = .ok interface
  observed : r.sources.observe adv.origin adv.dest adv.seqno now = some r.sources
  vacant : r.table.match? adv.dest adv.neigh adv.nexthop = none
  feasible : r.feasible now adv.origin adv.dest adv.seqno adv.refmetric = true
  reachable : adv.refmetric.reachable = true
  exported : adv.dest ∈ r.exports
  room : r.table.isFull = false

/-- A route for a destination that this node announces itself is not installed. -/
theorem consider_of_exported (hr : r.table.get? id = some route) (hx : route.dest ∈ r.exports)
    (now : Instant) : r.consider now id = r := by
  have hnone : r.candidate? now id = none := by
    rw [Option.eq_none_iff_forall_ne_some]
    intro ρ hc
    obtain ⟨hget, -, -, hown⟩ := get?_of_candidate? hc
    exact hown (Option.some.inj (hr.symm.trans hget) ▸ hx)
  exact consider_of_no_candidate hnone

theorem Turning.receive (h : r.Turning now adv interface) :
    ∃ table, r.table.insert? (.ofAdvertisement adv now interface
        (r.pathMetric adv.origin adv.dest adv.neigh interface adv.refmetric)) =
          some (r.table.nextId, table) ∧
      r.receive now adv = (.ok r.table.nextId, { r with table := table }) := by
  obtain ⟨⟨id, table⟩, ht⟩ := Option.ne_none_iff_exists'.1 fun hnone =>
    Bool.false_ne_true (h.room.symm.trans (RouteTable.insert?_eq_none_iff.1 hnone))
  obtain ⟨rfl, hget⟩ := RouteTable.get?_of_insert? ht id
  rw [if_pos rfl] at hget
  refine ⟨table, ht, ?_⟩
  have hquiet : consider { r with table := table } now r.table.nextId = { r with table := table } :=
    consider_of_exported hget h.exported now
  simp [Router.receive, accept, adopt, h.screened, h.observed, h.vacant, h.feasible, h.reachable,
    h.room, ht, hquiet]

/-- A turn: the route is stored and removed again, and nothing is left of it but that one more name
was given out. -/
theorem Turning.turn (h : r.Turning now adv interface) (hfree : r.table.NextFree) :
    r.stores now (.receive adv) = true ∧
      (r.perform now (.receive adv)).perform now (.flush r.table.nextId) =
        { r with table := { r.table with nextId := r.table.nextId.next } } := by
  obtain ⟨table, ht, heq⟩ := h.receive
  refine ⟨stores_of_ok h.vacant (congrArg Prod.fst heq), ?_⟩
  have hnew := (RouteTable.get?_of_insert? ht r.table.nextId).2
  rw [if_pos rfl] at hnew
  rw [perform, perform, heq, flush_of_not_installed hnew rfl, eraseRoute,
    RouteTable.erase_of_insert? ht hfree]

/-- **One name after the other may be given out without leaving a trace**, until the next one is
that of a route. -/
theorem operated_turns (h : r.Turning now adv interface)
    (hfree : ∀ i < m, r.table.get? (r.table.nextId + UInt64.ofNat i) = none) :
    Operated r m
      { r with table := { r.table with nextId := r.table.nextId + UInt64.ofNat m } } := by
  induction m with
  | zero =>
      have hsame : r.table.nextId + UInt64.ofNat 0 = r.table.nextId := UInt64.add_zero _
      rw [hsame]
      exact .refl
  | succ m ih =>
      have hbefore := ih fun i hi => hfree i (Nat.lt_succ_of_lt hi)
      obtain ⟨hnew, hturn⟩ := Turning.turn (r := { r with
        table := { r.table with nextId := r.table.nextId + UInt64.ofNat m } })
        ⟨h.screened, h.observed, h.vacant, h.feasible, h.reachable, h.exported, h.room⟩
        (hfree m (Nat.lt_succ_self m))
      have hafter := (hbefore.operate now (.receive adv)).operate now
        (.flush (r.table.nextId + UInt64.ofNat m))
      have hnext : (r.table.nextId + UInt64.ofNat m).next =
          r.table.nextId + UInt64.ofNat (m + 1) := by
        rw [UInt64.ofNat_add, ← UInt64.add_assoc]
        rfl
      rw [hturn, hnew, hnext] at hafter
      exact hafter

/-- A router that has installed a route for `P` and announces `Q` itself. -/
def oneInstalled : Router :=
  { twoNeighbours [] with
    exports := ["Q"]
    sources := SourceTable.set {} (SourceTable.firstSight "O1" "Q" 10 1000) }.perform 1000
      (.receive ⟨"O1", "P", 10, 104, "N1", "H1"⟩)

/-- The same once all other names were given out to routes for `Q`, so that its own is the next. -/
def namesUsedUp : Router := { oneInstalled with table := { oneInstalled.table with nextId := 0 } }

theorem operated_namesUsedUp : Operated oneInstalled (UInt64.size - 1) namesUsedUp := by
  have hturning : oneInstalled.Turning 1000 ⟨"O1", "Q", 10, 104, "N1", "H1"⟩ 1 :=
    ⟨rfl, by decide +kernel, by decide +kernel, by decide +kernel, by decide +kernel,
      by decide +kernel, by decide +kernel⟩
  have hids : oneInstalled.table.ids = [0] := by decide +kernel
  have hnext : oneInstalled.table.nextId = 1 := by decide +kernel
  have hfree : ∀ i < UInt64.size - 1,
      oneInstalled.table.get? (oneInstalled.table.nextId + UInt64.ofNat i) = none := by
    intro i hi
    rw [hnext, Option.eq_none_iff_forall_ne_some]
    intro route hr
    -- the one name that is in use comes after all these
    have hzero : (1 : UInt64) + UInt64.ofNat i = 0 := by
      have hmem := RouteTable.mem_ids_iff.2 ⟨route, hr⟩
      rwa [hids, List.mem_singleton] at hmem
    have hnat := congrArg UInt64.toNat hzero
    rw [UInt64.toNat_add, UInt64.toNat_ofNat'] at hnat
    simp only [UInt64.toNat_one, UInt64.toNat_zero, UInt64.size] at hnat hi
    omega
  have hlast : oneInstalled.table.nextId + UInt64.ofNat (UInt64.size - 1) = 0 := by
    rw [hnext]
    decide +kernel
  have hturns := operated_turns hturning hfree
  rwa [hlast] at hturns

end DistanceVector.Router
