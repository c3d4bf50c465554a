import DistanceVector.Encoding.Scalar
import DistanceVector.Json.Record
import DistanceVector.Source

/-!
# The JSON forms of the records

Sources, neighbours and routes are written as records.  All their fields have to be given.

Main results:

* `Source.ofForm?_form`, `Neighbour.ofForm?_form`, `Route.ofForm?_form` — **each record is read back
  from its form**.
-/

set_option relaxedAutoImplicit false
set_option autoImplicit false

namespace DistanceVector

open Json

/-! ### Sources -/

namespace Source

/-- The fields of a source, in the order in which they are written. -/
def fieldNames : List String := ["addr", "prefix", "seqno", "metric", "time"]

/-- The JSON form of a source. -/
def form (s : Source) : Json :=
  record <| fieldNames.zip
    [toJson s.origin, toJson s.dest, toJson s.seqno, toJson s.metric, toJson s.time]

/-- The source of a JSON form. -/
def ofForm? (j : Json) : Option Source := do
  let [origin, dest, seqno, metric, time] ← j.record? fieldNames | none
  return {
    origin := ← origin.bind ofJson?
    dest := ← dest.bind ofJson?
    seqno := ← seqno.bind ofJson?
    metric := ← metric.bind ofJson?
    time := ← time.bind ofJson? }

@[simp] theorem ofForm?_form (s : Source) : ofForm? s.form = some s := by
  rw [form, ofForm?, record?_zip (by decide) rfl]
  simp

instance : Coded Source := ⟨form, ofForm?⟩

instance : LawfulCoded Source := ⟨ofForm?_form⟩

end Source

/-! ### Neighbours -/

namespace Neighbour

/-- The fields of a neighbour, in the order in which they are written. -/
def fieldNames : List String := ["itf", "link_cost"]

/-- The JSON form of a neighbour. -/
def form (n : Neighbour) : Json := record <| fieldNames.zip [toJson n.interface, toJson n.cost]

/-- The neighbour of a JSON form. -/
def ofForm? (j : Json) : Option Neighbour := do
  let [interface, cost] ← j.record? fieldNames | none
  return { interface := ← interface.bind ofJson?, cost := ← cost.bind ofJson? }

@[simp] theorem ofForm?_form (n : Neighbour) : ofForm? n.form = some n := by
  rw [form, ofForm?, record?_zip (by decide) rfl]
  simp

instance : Coded Neighbour := ⟨form, ofForm?⟩

instance : LawfulCoded Neighbour := ⟨ofForm?_form⟩

end Neighbour

/-! ### Routes -/

namespace Route

/-- The fields of a route, in the order in which they are written. -/
def fieldNames : List String :=
  ["prefix", "origin", "neigh", "nexthop", "itf", "seqno", "refmetric", "metric", "time",
    "origtime", "installed"]

/-- The JSON form of a route. -/
def form (route : Route) : Json :=
  record <| fieldNames.zip
    [toJson route.dest, toJson route.origin, toJson route.neigh, toJson route.nexthop,
      toJson route.interface, toJson route.seqno, toJson route.refmetric, toJson route.metric,
      toJson route.time, toJson route.origtime, toJson route.installed]

/-- The route of a JSON form. -/
def ofForm? (j : Json) : Option Route := do
  let [dest, origin, neigh, nexthop, interface, seqno, refmetric, metric, time, origtime,
    installed] ← j.record? fieldNames | none
  return {
    dest := ← dest.bind ofJson?
    origin := ← origin.bind ofJson?
    neigh := ← neigh.bind ofJson?
    nexthop := ← nexthop.bind ofJson?
    interface := ← interface.bind ofJson?
    seqno := ← seqno.bind ofJson?
    refmetric := ← refmetric.bind ofJson?
    metric := ← metric.bind ofJson?
    time := ← time.bind ofJson?
    origtime := ← origtime.bind ofJson?
    installed := ← installed.bind ofJson? }

@[simp] theorem ofForm?_form (route : Route) : ofForm? route.form = some route := by
  rw [form, ofForm?, record?_zip (by decide) rfl]
  simp

instance : Coded Route := ⟨form, ofForm?⟩

instance : LawfulCoded Route := ⟨ofForm?_form⟩

end Route

end DistanceVector
