import DistanceVector.Encoding.Records
import DistanceVector.Router.Basic

/-!
# Snapshots

The route table of a router as a text, and back.  The routes are written as an object whose keys
are their names in decimal, from the oldest route to the newest.  The next name is written beside
them, and read back without a look at the others.

Main definitions:

* `RouteTable.form`, `RouteTable.ofForm?` — the JSON form of a route table and back;
* `Router.snapshot`, `Router.load?` — the route table of a router as a text, and the router with the
  route table that a text gives.

Main results:

* `RouteTable.ofForm?_form` — **a table is read back from its form**.
-/

set_option relaxedAutoImplicit false
set_option autoImplicit false

namespace DistanceVector

open Json

namespace RouteTable

/-- The key of a route. -/
def keyOf (id : RouteId) : List Piece := (Decimal.encode id.toNat).map .plain

/-- The character that a piece is, if it is one that stands for itself. -/
def plainChar? : Piece → Option Char
  | .plain c => some c
  | _ => none

/-- The name that a key is of; its digits must stand for themselves. -/
def idOfKey? (key : List Piece) : Option RouteId :=
  (((key.mapM plainChar?).bind Decimal.decode?).filter (· < UInt64.size)).map UInt64.ofNat

/-- The JSON form of the routes. -/
def routesForm (routes : OrderedMap RouteId Route) : Json :=
  .object (routes.toList.map fun e => (keyOf e.1, toJson e.2))

/-- A map with one more member of the JSON form read into it; of two routes of one name the later
one counts. -/
def addMember? (routes : OrderedMap RouteId Route) (m : List Piece × Json) :
    Option (OrderedMap RouteId Route) := do
  return routes.insert (← idOfKey? m.1) (← ofJson? m.2)

/-- The routes of their JSON form. -/
def routesOfForm? : Json → Option (OrderedMap RouteId Route)
  | .object members => members.foldlM addMember? .empty
  | _ => none

/-- The fields of a route table, in the order in which they are written. -/
def fieldNames : List String := ["routes", "next_id", "capacity"]

/-- The JSON form of a route table. -/
def form (t : RouteTable) : Json :=
  record <| fieldNames.zip [routesForm t.routes, toJson t.nextId, toJson t.capacity]

/-- The route table of a JSON form. -/
def ofForm? (j : Json) : Option RouteTable := do
  let [routes, nextId, capacity] ← j.record? fieldNames | none
  return {
    routes := ← routes.bind routesOfForm?
    nextId := ← nextId.bind ofJson?
    capacity := ← capacity.bind ofJson? }

/-! ### Reading back -/

@[simp] theorem idOfKey?_keyOf (id : RouteId) : idOfKey? (keyOf id) = some id := by
  have hplain : ∀ cs : List Char, (cs.map Piece.plain).mapM plainChar? = some cs := fun cs => by
    induction cs with
    | nil => rfl
    | cons c rest ih => simp [plainChar?, ih]
  have hfits : id.toNat < UInt64.size := id.toNat_lt_size
  simp [idOfKey?, keyOf, hplain, Option.filter, hfits]

/-- The members written for entries are put into a map one after the other. -/
theorem foldlM_addMember? (entries : List (RouteId × Route)) (m : OrderedMap RouteId Route) :
    (entries.map fun e => (keyOf e.1, toJson e.2)).foldlM addMember? m =
      some (entries.foldl (fun m e => m.insert e.1 e.2) m) := by
  induction entries generalizing m with
  | nil => rfl
  | cons e rest ih =>
    have hadd : addMember? m (keyOf e.1, toJson e.2) = some (m.insert e.1 e.2) := by
      simp [addMember?]
    rw [List.map_cons, List.foldlM_cons, hadd]
    exact ih _

/-- The routes are read back from their form. -/
@[simp] theorem routesOfForm?_routesForm (routes : OrderedMap RouteId Route) :
    routesOfForm? (routesForm routes) = some routes := by
  rw [routesForm, routesOfForm?, foldlM_addMember?]
  exact congrArg some (OrderedMap.ofList_toList routes)

/-- **A table is read back from its form.** -/
@[simp] theorem ofForm?_form (t : RouteTable) : ofForm? t.form = some t := by
  rw [form, ofForm?, record?_zip (by decide) rfl]
  simp

instance : Coded RouteTable := ⟨form, ofForm?⟩

instance : LawfulCoded RouteTable := ⟨ofForm?_form⟩

end RouteTable

/-! ### The table of a router -/

namespace Router

/-- The route table as a text. -/
def snapshot (r : Router) : String := Json.write r.table

/-- The router with the route table that a text gives. -/
def load? (r : Router) (text : String) : Option Router :=
  (Json.read? text).map fun table => { r with table }

end Router

end DistanceVector
