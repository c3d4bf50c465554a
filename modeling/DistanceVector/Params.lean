import DistanceVector.Clock
import DistanceVector.Metric

/-!
# Protocol parameters

The settings of a router and the conditions under which they make sense.

Main definitions:

* `Params` — the settings, each with its usual value;
* `Params.refreshDelay` — the age at which an installed route is refreshed;
* `Params.defect?` — the first condition that the settings violate.

Main results:

* `Params.defect?_eq_none_iff` — **settings without a defect are those that meet all three
  conditions**.
-/

set_option relaxedAutoImplicit false
set_option autoImplicit false

namespace DistanceVector

/-- The settings of a router. -/
structure Params where
  /-- How many routes the table may hold. -/
  maxRoutes : UInt64 := 1024
  /-- A route that was not refreshed for longer than this is retracted. -/
  timeoutDelay : Delay := 160
  /-- A route that was not refreshed for longer than this is removed. -/
  gcDelay : Delay := 180
  /-- A source record older than this does not restrict feasibility. -/
  staleDelay : Delay := 200
  /-- When room is needed, useless routes older than this are removed. -/
  dropDelay : Delay := 90
  /-- Installed routes are refreshed this long before they time out. -/
  refreshMargin : Delay := 25
  /-- What is added to every metric in the forwarding table. -/
  kernelBias : KernelMetric := 0
  /-- The metric of unreachable destinations in the forwarding table. -/
  kernelInfinity : KernelMetric := 65535
  deriving DecidableEq, Inhabited

/-- A reason why settings make no sense. -/
inductive Params.Defect where
  /-- The table may not hold any route. -/
  | noRoutes
  /-- Routes are removed before they are retracted. -/
  | gcBeforeTimeout (gc timeout : Delay)
  /-- The forwarding table cannot tell unreachable destinations apart. -/
  | zeroInfinity
  deriving DecidableEq

namespace Params

/-- The text that names a defect. -/
def Defect.message : Defect → String
  | .noRoutes => "max_routes must be at least 1"
  | .gcBeforeTimeout gc timeout =>
    "route_gc_delay (" ++ gc.toNat.repr ++ ") is shorter than route_timeout_delay (" ++
      timeout.toNat.repr ++ ")"
  | .zeroInfinity => "kernel_infinity must be non-zero"

/-- The age at which an installed route is refreshed: the margin before its timeout, but never
less than ten seconds. -/
def refreshDelay (p : Params) : Delay :=
  if p.refreshMargin.toNat + 10 < p.timeoutDelay.toNat then p.timeoutDelay - p.refreshMargin else 10

/-- The first condition that the settings violate. -/
def defect? (p : Params) : Option Defect :=
  if p.maxRoutes = 0 then some .noRoutes
  else if p.gcDelay < p.timeoutDelay then some (.gcBeforeTimeout p.gcDelay p.timeoutDelay)
  else if p.kernelInfinity = 0 then some .zeroInfinity
  else none

/-- **Settings without a defect are those that meet all three conditions.** -/
theorem defect?_eq_none_iff {p : Params} :
    p.defect? = none ↔ p.maxRoutes ≠ 0 ∧ p.timeoutDelay ≤ p.gcDelay ∧ p.kernelInfinity ≠ 0 := by
  unfold defect?
  split
  · next h => simp [h]
  · next h =>
    split
    · next hlt => simp [UInt64.not_le.2 hlt]
    · next hle =>
      have := UInt64.not_lt.1 hle
      split <;> simp_all

end Params

end DistanceVector
