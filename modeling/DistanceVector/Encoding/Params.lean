import DistanceVector.Encoding.Scalar
import DistanceVector.Json.Record
import DistanceVector.Params

/-!
# Parameter documents

Protocol parameters are read from a JSON document.  A setting that is not given has its usual
value; settings that make no sense are refused.

Main definitions:

* `Params.ofDocument` — the parameters that a document gives;
* `Params.DocumentError` — why there are none.

Main results:

* `Params.ofForm?_form` — **parameters are read back from their form**.
-/

set_option relaxedAutoImplicit false
set_option autoImplicit false

namespace DistanceVector

open Json

namespace Params

/-- The settings, in the order in which they are written. -/
def fieldNames : List String :=
  ["max_routes", "route_timeout_delay", "route_gc_delay", "source_stale_delay",
    "route_drop_delay", "route_refresh_margin", "kernel_metric", "kernel_infinity"]

/-- The value of a setting that may be left out. -/
def setting? {α : Type} [Coded α] (usual : α) (given : Option Json) : Option α :=
  given.elim (some usual) ofJson?

/-- The JSON form of parameters. -/
def form (p : Params) : Json :=
  record <| fieldNames.zip
    [toJson p.maxRoutes, toJson p.timeoutDelay, toJson p.gcDelay, toJson p.staleDelay,
      toJson p.dropDelay, toJson p.refreshMargin, toJson p.kernelBias, toJson p.kernelInfinity]

/-- The parameters of a JSON form. -/
def ofForm? (j : Json) : Option Params := do
  let [maxRoutes, timeoutDelay, gcDelay, staleDelay, dropDelay, refreshMargin, kernelBias,
    kernelInfinity] ← j.record? fieldNames | none
  let usual : Params := {}
  return {
    maxRoutes := ← setting? usual.maxRoutes maxRoutes
    timeoutDelay := ← setting? usual.timeoutDelay timeoutDelay
    gcDelay := ← setting? usual.gcDelay gcDelay
    staleDelay := ← setting? usual.staleDelay staleDelay
    dropDelay := ← setting? usual.dropDelay dropDelay
    refreshMargin := ← setting? usual.refreshMargin refreshMargin
    kernelBias := ← setting? usual.kernelBias kernelBias
    kernelInfinity := ← setting? usual.kernelInfinity kernelInfinity }

@[simp] theorem ofForm?_form (p : Params) : ofForm? p.form = some p := by
  rw [form, ofForm?, record?_zip (by decide) rfl]
  simp [setting?]

instance : Coded Params := ⟨form, ofForm?⟩

instance : LawfulCoded Params := ⟨ofForm?_form⟩

/-- Why a document gives no parameters. -/
inductive DocumentError where
  /-- It cannot be read. -/
  | unreadable
  /-- Its settings make no sense. -/
  | defective (defect : Defect)
  deriving DecidableEq

/-- The text that names the error. -/
def DocumentError.message : DocumentError → String
  | .unreadable => "Failed to parse protocol parameters"
  | .defective _ => "Invalid protocol parameters"

/-- The defect behind the error, if it is one of the settings. -/
def DocumentError.defect? : DocumentError → Option Defect
  | .unreadable => none
  | .defective d => some d

/-- The parameters that a document gives. -/
def ofDocument (text : String) : Except DocumentError Params :=
  match (Json.read? text : Option Params) with
  | none => .error .unreadable
  | some p =>
    match p.defect? with
    | some d => .error (.defective d)
    | none => .ok p

end Params

end DistanceVector
