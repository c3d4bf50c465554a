import DistanceVector.OrderedMap.Lemmas
import DistanceVector.Route

/-!
# The route table

All candidate routes, by the name they were given.  Going through the table is going through it by
ascending name.  A route of a lower name is called older, which it is until the names run out.

Main definitions:

* `RouteTable.insert?` — the table with a new route, and the route's name, if there is room;
* `RouteTable.erase`, `RouteTable.modify` — removing a route and changing it in place;
* `RouteTable.match?`, `RouteTable.installed?`, `RouteTable.routesFor` — looking routes up;
* `RouteTable.Owns`, `RouteTable.Exclusive` — a route is installed for a destination, and no other
  is;
* `RouteTable.NextFree` — the name of the next new route is that of none;
* `RouteTable.Numbered` — names were given to so many routes.

Main results:

* `RouteTable.get?_modify`, `RouteTable.get?_erase`, `RouteTable.get?_of_insert?` — the routes after
  each change of the table;
* `RouteTable.insert?_eq_none_iff` — **there is no room exactly if the table is full**;
* `RouteTable.get?_of_find?`, `RouteTable.find?_eq_none_iff` — what a search finds;
* `RouteTable.exists_owns_of_modify`, `RouteTable.owns_erase`, `RouteTable.owns_of_insert?` — the
  installed routes after each change of the table;
* `RouteTable.Numbered.nextFree` — **until the names run out, the next one is new**.
-/

set_option relaxedAutoImplicit false
set_option autoImplicit false

namespace DistanceVector

/-- The candidate routes of a router. -/
structure RouteTable where
  /-- The routes, by name. -/
  routes : OrderedMap RouteId Route := .empty
  /-- The name of the next new route. -/
  nextId : RouteId := 0
  /-- How many routes there is room for. -/
  capacity : UInt64
  deriving DecidableEq, Inhabited

namespace RouteTable

/-- The table without routes. -/
def ofCapacity (capacity : UInt64) : RouteTable := { capacity }

/-- The routes with their names, from the oldest to the newest. -/
def toList (t : RouteTable) : List (RouteId × Route) := t.routes.toList

/-- The names of all routes. -/
def ids (t : RouteTable) : List RouteId := t.routes.keys

/-- The number of routes. -/
def size (t : RouteTable) : Nat := t.routes.size

/-- Whether there is no route. -/
def isEmpty (t : RouteTable) : Bool := t.routes.toList.isEmpty

/-- Whether there is no room for another route. -/
def isFull (t : RouteTable) : Bool := t.capacity.toNat ≤ t.size

/-- The route of a name. -/
def get? (t : RouteTable) (id : RouteId) : Option Route := t.routes.get? id

/-- The table with one route changed in place. -/
def modify (t : RouteTable) (id : RouteId) (f : Route → Route) : RouteTable :=
  { t with routes := t.routes.modify id f }

/-- The table without the route of that name. -/
def erase (t : RouteTable) (id : RouteId) : RouteTable :=
  { t with routes := t.routes.erase id }

/-- The table with a new route, and its name, if there is room.  If the name is that of another
route, the new one takes its place. -/
def insert? (t : RouteTable) (route : Route) : Option (RouteId × RouteTable) :=
  if t.isFull then none
  else some
    (t.nextId, { t with routes := t.routes.insert t.nextId route, nextId := t.nextId.next })

/-- The first route that passes a test, with its name. -/
def find? (t : RouteTable) (p : Route → Bool) : Option (RouteId × Route) :=
  t.toList.find? fun e => p e.2

/-- The names of the routes that pass a test. -/
def idsWhere (t : RouteTable) (p : Route → Bool) : List RouteId :=
  (t.toList.filter fun e => p e.2).map (·.1)

/-- The route for a destination through a neighbour and a next hop. -/
def match? (t : RouteTable) (dest : Prefix) (neigh : NeighbourId) (nexthop : NextHop) :
    Option (RouteId × Route) :=
  t.find? (·.through dest neigh nexthop)

/-- The installed route for a destination. -/
def installed? (t : RouteTable) (dest : Prefix) : Option (RouteId × Route) :=
  t.find? fun route => route.installed && route.dest == dest

/-- The routes for a destination. -/
def routesFor (t : RouteTable) (dest : Prefix) : List (RouteId × Route) :=
  t.toList.filter fun e => e.2.dest == dest

/-- The names of the routes for a destination. -/
def idsFor (t : RouteTable) (dest : Prefix) : List RouteId := t.idsWhere (·.dest == dest)

/-- The names of the routes through a neighbour. -/
def idsThrough (t : RouteTable) (neigh : NeighbourId) : List RouteId :=
  t.idsWhere (·.neigh == neigh)

/-- The names of the routes over an interface. -/
def idsOver (t : RouteTable) (interface : InterfaceId) : List RouteId :=
  t.idsWhere (·.interface == interface)

/-- The names of the installed routes. -/
def idsInstalled (t : RouteTable) : List RouteId := t.idsWhere (·.installed)

/-! ### The routes after a change -/

/-- A name is in the list of names exactly if it is that of a route. -/
theorem mem_ids_iff {t : RouteTable} {id : RouteId} :
    id ∈ t.ids ↔ ∃ route, t.get? id = some route :=
  OrderedMap.mem_keys_iff

/-- A route is in the list of routes exactly if it is the one of its name. -/
theorem mem_toList_iff {t : RouteTable} {id : RouteId} {route : Route} :
    (id, route) ∈ t.toList ↔ t.get? id = some route :=
  OrderedMap.get?_eq_some_iff.symm

/-- The names of the routes that pass a test are those of such routes. -/
theorem mem_idsWhere_iff {t : RouteTable} {p : Route → Bool} {id : RouteId} :
    id ∈ t.idsWhere p ↔ ∃ route, t.get? id = some route ∧ p route = true := by
  simp only [idsWhere, List.mem_map, List.mem_filter, Prod.exists, mem_toList_iff,
    exists_and_right, exists_eq_right]

/-- After a route was changed in place, it is the changed one, and the others are as before. -/
@[grind =] theorem get?_modify (t : RouteTable) (id : RouteId) (f : Route → Route)
    (other : RouteId) :
    (t.modify id f).get? other = if other = id then (t.get? other).map f else t.get? other :=
  OrderedMap.get?_modify t.routes id f other

/-- To change a route in place to itself changes nothing. -/
theorem modify_eq_self {t : RouteTable} {id : RouteId} {route : Route} {f : Route → Route}
    (h : t.get? id = some route) (hf : f route = route) : t.modify id f = t := by
  rw [modify, OrderedMap.modify_eq_self h hf]

/-- After a route was removed, it is gone, and the others are as before. -/
@[grind =] theorem get?_erase (t : RouteTable) (id other : RouteId) :
    (t.erase id).get? other = if other = id then none else t.get? other :=
  OrderedMap.get?_erase t.routes id other

/-- There is no room exactly if the table is full. -/
theorem insert?_eq_none_iff {t : RouteTable} {route : Route} :
    t.insert? route = none ↔ t.isFull = true := by
  unfold insert?
  split <;> simp_all

/-- A new route has the next name; the others are as before. -/
theorem get?_of_insert? {t t' : RouteTable} {route : Route} {id : RouteId}
    (h : t.insert? route = some (id, t')) (other : RouteId) :
    id = t.nextId ∧ t'.get? other = if other = id then some route else t.get? other := by
  unfold insert? at h
  split at h
  · cases h
  · cases h
    exact ⟨rfl, OrderedMap.get?_insert t.routes t.nextId route other⟩

/-- A new route takes the next name and finds room. -/
theorem room_of_insert? {t t' : RouteTable} {route : Route} {id : RouteId}
    (h : t.insert? route = some (id, t')) :
    t'.nextId = t.nextId.next ∧ t'.capacity = t.capacity ∧ t'.size ≤ t.capacity.toNat := by
  unfold insert? at h
  split at h
  · cases h
  · next hfull =>
    cases h
    refine ⟨rfl, rfl, ?_⟩
    have hsize := OrderedMap.length_insertEntry_le t.nextId route t.routes.toList
    have hroom : t.size < t.capacity.toNat := by simpa [isFull] using hfull
    exact Nat.le_trans hsize hroom

/-! ### Looking routes up -/

/-- A route that is found is the one of its name, and passes the test. -/
theorem get?_of_find? {t : RouteTable} {p : Route → Bool} {id : RouteId} {route : Route}
    (h : t.find? p = some (id, route)) : t.get? id = some route ∧ p route = true :=
  ⟨mem_toList_iff.1 (List.mem_of_find?_eq_some h),
    List.find?_some (p := fun e : RouteId × Route => p e.2) h⟩

/-- No route is found exactly if none passes the test. -/
theorem find?_eq_none_iff {t : RouteTable} {p : Route → Bool} :
    t.find? p = none ↔ ∀ id route, t.get? id = some route → p route = false := by
  simp only [find?, List.find?_eq_none, Prod.forall, mem_toList_iff, Bool.not_eq_true]

theorem get?_of_match? {t : RouteTable} {dest : Prefix} {neigh : NeighbourId} {nexthop : NextHop}
    {id : RouteId} {route : Route} (h : t.match? dest neigh nexthop = some (id, route)) :
    t.get? id = some route ∧ route.dest = dest ∧ route.neigh = neigh ∧ route.nexthop = nexthop := by
  obtain ⟨hget, htest⟩ := get?_of_find? h
  simp only [Route.through, Bool.and_eq_true, beq_iff_eq] at htest
  exact ⟨hget, htest.2, htest.1.1, htest.1.2⟩

theorem get?_of_installed? {t : RouteTable} {dest : Prefix} {id : RouteId} {route : Route}
    (h : t.installed? dest = some (id, route)) :
    t.get? id = some route ∧ route.installed = true ∧ route.dest = dest := by
  obtain ⟨hget, htest⟩ := get?_of_find? h
  simp only [Bool.and_eq_true, beq_iff_eq] at htest
  exact ⟨hget, htest.1, htest.2⟩

/-! ### Installed routes -/

/-- The route of that name is in the forwarding table for the destination. -/
structure Owns (t : RouteTable) (dest : Prefix) (id : RouteId) (route : Route) : Prop where
  get : t.get? id = some route
  installed : route.installed = true
  dest_eq : route.dest = dest

/-- At most one route for the destination is installed. -/
def Exclusive (t : RouteTable) (dest : Prefix) : Prop :=
  ∀ id id' route route', t.Owns dest id route → t.Owns dest id' route' → id = id'

/-- The name of the next new route is that of none. -/
def NextFree (t : RouteTable) : Prop := t.get? t.nextId = none

/-- Names were given to `n` routes, one after the other around the circle of all names: the next
one is `n` without the full turns, and every name in use is one of those given. -/
structure Numbered (t : RouteTable) (n : Nat) : Prop where
  next : t.nextId.toNat = n % UInt64.size
  below : ∀ id route, t.get? id = some route → id.toNat < n

section Owns

variable {t : RouteTable} {dest : Prefix} {id other : RouteId} {route ρ : Route}

theorem owns_of_installed? (h : t.installed? dest = some (id, route)) : t.Owns dest id route := by
  obtain ⟨hget, hi, hd⟩ := get?_of_installed? h
  exact ⟨hget, hi, hd⟩

/-- None is found to be installed for a destination exactly if none is. -/
theorem installed?_eq_none_iff :
    t.installed? dest = none ↔ ∀ id route, ¬ t.Owns dest id route := by
  rw [installed?, find?_eq_none_iff]
  constructor
  · intro h id route ho
    have htest := h id route ho.get
    simp [ho.installed, ho.dest_eq] at htest
  · intro h id route hget
    rw [Bool.eq_false_iff]
    intro htest
    rw [Bool.and_eq_true, beq_iff_eq] at htest
    exact h id route ⟨hget, htest.1, htest.2⟩

theorem Owns.installed?_ne_none (h : t.Owns dest id route) : t.installed? dest ≠ none :=
  fun hn => installed?_eq_none_iff.1 hn id route h

theorem Owns.installed?_eq (h : t.Owns dest id route) (hex : t.Exclusive dest) :
    t.installed? dest = some (id, route) := by
  obtain ⟨⟨other, ρ⟩, hfound⟩ := Option.ne_none_iff_exists'.1 h.installed?_ne_none
  have hother := owns_of_installed? hfound
  obtain rfl := hex _ _ _ _ h hother
  obtain rfl := Option.some.inj (h.get.symm.trans hother.get)
  exact hfound

theorem Owns.ne_of_not_installed (h : t.Owns dest other ρ) (hr : t.get? id = some route)
    (hi : route.installed = false) : other ≠ id := by
  rintro rfl
  rw [Option.some.inj (hr.symm.trans h.get), h.installed] at hi
  cases hi

/-- A change of one route leaves the others installed or not, as they were. -/
theorem owns_modify_of_ne {f : Route → Route} (hne : other ≠ id) :
    (t.modify id f).Owns dest other ρ ↔ t.Owns dest other ρ := by
  have hget : (t.modify id f).get? other = t.get? other := by rw [get?_modify, if_neg hne]
  constructor
  · intro h
    exact ⟨hget ▸ h.get, h.installed, h.dest_eq⟩
  · intro h
    exact ⟨hget ▸ h.get, h.installed, h.dest_eq⟩

theorem owns_modify_self {f : Route → Route} :
    (t.modify id f).Owns dest id ρ ↔
      ∃ route, t.get? id = some route ∧ f route = ρ ∧ ρ.installed = true ∧ ρ.dest = dest := by
  have hget : (t.modify id f).get? id = (t.get? id).map f := by rw [get?_modify, if_pos rfl]
  constructor
  · rintro ⟨h, hi, hd⟩
    rw [hget, Option.map_eq_some_iff] at h
    obtain ⟨route, hr, heq⟩ := h
    exact ⟨route, hr, heq, hi, hd⟩
  · rintro ⟨route, hr, heq, hi, hd⟩
    exact ⟨by rw [hget, hr, Option.map_some, heq], hi, hd⟩

/-- Once a route is marked as installed, it is. -/
theorem owns_of_marked (hr : t.get? id = some route) :
    (t.modify id ({ · with installed := true })).Owns route.dest id
      { route with installed := true } :=
  owns_modify_self.2 ⟨route, hr, rfl, rfl, rfl⟩

/-- Once another route is marked as withdrawn and the route as installed, it is installed. -/
theorem owns_of_exchanged (hr : t.get? id = some route) (hne : other ≠ id) :
    ((t.modify other ({ · with installed := false })).modify id
      ({ · with installed := true })).Owns route.dest id { route with installed := true } :=
  owns_of_marked (by rw [get?_modify, if_neg hne.symm, hr])

/-- A change that installs nothing leaves no more routes installed than there were. -/
theorem exists_owns_of_modify {f : Route → Route} (h : (t.modify id f).Owns dest other ρ)
    (hi : ∀ ρ, (f ρ).installed = true → ρ.installed = true) (hd : ∀ ρ, (f ρ).dest = ρ.dest) :
    ∃ σ, t.Owns dest other σ ∧ ρ = if other = id then f σ else σ := by
  by_cases hid : other = id
  · subst hid
    obtain ⟨route, hr, rfl, hinst, hdest⟩ := owns_modify_self.1 h
    exact ⟨route, ⟨hr, hi route hinst, (hd route).symm.trans hdest⟩, by rw [if_pos rfl]⟩
  · exact ⟨ρ, (owns_modify_of_ne hid).1 h, by rw [if_neg hid]⟩

/-- A change that withdraws nothing leaves no fewer routes installed than there were. -/
theorem Owns.modify {f : Route → Route} (h : t.Owns dest other ρ)
    (hi : ∀ ρ, ρ.installed = true → (f ρ).installed = true) (hd : ∀ ρ, (f ρ).dest = ρ.dest) :
    (t.modify id f).Owns dest other (if other = id then f ρ else ρ) := by
  by_cases hid : other = id
  · subst hid
    rw [if_pos rfl]
    exact owns_modify_self.2 ⟨ρ, h.get, rfl, hi ρ h.installed, (hd ρ).trans h.dest_eq⟩
  · rw [if_neg hid]
    exact (owns_modify_of_ne hid).2 h

/-- Once its only installed route is withdrawn, nothing is installed for a destination. -/
theorem Exclusive.not_owns_of_withdrawn (h : t.Exclusive dest) (ho : t.Owns dest id route)
    (other : RouteId) (ρ : Route) :
    ¬ (t.modify id ({ · with installed := false })).Owns dest other ρ := by
  intro hother
  by_cases hid : other = id
  · subst hid
    obtain ⟨_, -, rfl, hi, -⟩ := owns_modify_self.1 hother
    cases hi
  · exact hid (h _ _ _ _ ((owns_modify_of_ne hid).1 hother) ho)

theorem owns_erase : (t.erase id).Owns dest other ρ ↔ other ≠ id ∧ t.Owns dest other ρ := by
  constructor
  · rintro ⟨h, hi, hd⟩
    rw [get?_erase] at h
    split at h
    · cases h
    · next hne => exact ⟨hne, h, hi, hd⟩
  · rintro ⟨hne, h, hi, hd⟩
    exact ⟨by rw [get?_erase, if_neg hne, h], hi, hd⟩

/-- A new route that is not installed leaves the installed ones as they were. -/
theorem owns_of_insert? {t' : RouteTable} (ht : t.insert? route = some (id, t'))
    (hi : route.installed = false) (h : t'.Owns dest other ρ) : t.Owns dest other ρ := by
  obtain ⟨hget, hρ, hd⟩ := h
  rw [(get?_of_insert? ht other).2] at hget
  split at hget
  · cases hget
    rw [hi] at hρ
    cases hρ
  · exact ⟨hget, hρ, hd⟩

/-- Under a free name a new route takes the place of no other. -/
theorem get?_insert?_of_some {t' : RouteTable} (ht : t.insert? route = some (id, t'))
    (hfree : t.NextFree) (h : t.get? other = some ρ) : t'.get? other = some ρ := by
  obtain ⟨hid, hget⟩ := get?_of_insert? ht other
  have hne : other ≠ id := by
    rintro rfl
    cases (hid ▸ hfree : t.get? other = none).symm.trans h
  rw [hget, if_neg hne, h]

/-- A new route under a free name leaves nothing but the next name behind once it is removed. -/
theorem erase_of_insert? {t' : RouteTable} (ht : t.insert? route = some (id, t'))
    (hfree : t.NextFree) : t'.erase id = { t with nextId := t.nextId.next } := by
  unfold insert? at ht
  split at ht
  · cases ht
  · cases ht
    rw [erase, RouteTable.mk.injEq]
    refine ⟨OrderedMap.ext_get? fun other => ?_, rfl, rfl⟩
    rw [OrderedMap.get?_erase, OrderedMap.get?_insert]
    split
    · next hother => exact (hother ▸ hfree : t.get? other = none).symm
    · rfl

end Owns

/-! ### Names -/

section Names

variable {t : RouteTable} {n : Nat}

theorem numbered_ofCapacity (capacity : UInt64) : (ofCapacity capacity).Numbered 0 := by
  refine ⟨rfl, fun id route h => ?_⟩
  cases h

/-- Until the names run out, the next one is new. -/
theorem Numbered.nextFree (h : t.Numbered n) (hn : n < UInt64.size) : t.NextFree := by
  rw [NextFree, Option.eq_none_iff_forall_ne_some]
  intro route hr
  have hbelow := h.below _ _ hr
  rw [h.next, Nat.mod_eq_of_lt hn] at hbelow
  exact Nat.lt_irrefl n hbelow

/-- One more route has the next name, whatever name that is. -/
theorem Numbered.succ {t' : RouteTable} (h : t.Numbered n) (hnext : t'.nextId = t.nextId.next)
    (hroutes : ∀ id route, t'.get? id = some route → id = t.nextId ∨ ∃ ρ, t.get? id = some ρ) :
    t'.Numbered (n + 1) := by
  constructor
  · rw [hnext, RouteId.toNat_next, h.next, Nat.mod_add_mod]
  · intro id route hr
    rcases hroutes id route hr with rfl | ⟨ρ, hρ⟩
    · rw [h.next]
      exact Nat.lt_succ_of_le (Nat.mod_le _ _)
    · exact Nat.lt_succ_of_lt (h.below id ρ hρ)

end Names

end RouteTable

end DistanceVector
