import DistanceVector.Metric

/-!
# Hysteresis

When a route is good enough to take the place of the installed one.  Small gains are not worth a
change, least of all one of origin.

Main definitions:

* `shouldSwitch` — whether a candidate takes the place of the installed route.

Main results:

* `shouldSwitch_iff` — **the rule in numbers**;
* `shouldSwitch_infinity` — an unreachable candidate never does.
-/

set_option relaxedAutoImplicit false
set_option autoImplicit false

namespace DistanceVector

/-- The gain that is asked of a route from another origin. -/
def originMargin : Nat := 192

/-- The gain that is asked of another route from the same origin. -/
def routeMargin : Nat := 96

/-- Whether a candidate takes the place of the installed route: it must be reachable, and gain
enough unless the installed route is unreachable. -/
def shouldSwitch (installed candidate : Metric) (sameOrigin : Bool) : Bool :=
  candidate.reachable &&
    (!installed.reachable || candidate.toNat + originMargin ≤ installed.toNat ||
      (sameOrigin && candidate.toNat + routeMargin ≤ installed.toNat))

/-- **The rule in numbers.** -/
theorem shouldSwitch_iff {installed candidate : Metric} {sameOrigin : Bool} :
    shouldSwitch installed candidate sameOrigin = true ↔ candidate.toNat < 65535 ∧
      (installed.toNat = 65535 ∨ candidate.toNat + 192 ≤ installed.toNat ∨
        sameOrigin = true ∧ candidate.toNat + 96 ≤ installed.toNat) := by
  have hlost : installed.reachable = false ↔ installed.toNat = 65535 := by
    rw [Metric.not_reachable_iff, ← UInt16.toNat_inj, Metric.toNat_infinity]
  simp only [shouldSwitch, Bool.and_eq_true, Bool.or_eq_true, Bool.not_eq_true', decide_eq_true_eq,
    Metric.reachable_iff, hlost, or_assoc]
  rfl

/-- An unreachable candidate never takes the place of the installed route. -/
@[simp] theorem shouldSwitch_infinity (installed : Metric) (sameOrigin : Bool) :
    shouldSwitch installed Metric.infinity sameOrigin = false := by
  simp [shouldSwitch, Metric.reachable]

end DistanceVector
