/-!
# Metrics

A metric is the length of a path, with one value set aside for "unreachable".  Lower is better.
Sums never leave the range: they stop at infinity.

Main definitions:

* `Metric.infinity` — the metric of what cannot be reached;
* `Metric.plus` — the saturating sum;
* `KernelMetric.ofMetric` — a metric on the coarser scale of the forwarding table.

Main results:

* `Metric.toNat_plus` — **the sum is the sum of the numbers, cut at infinity**;
* `Metric.reachable_iff`, `Metric.not_reachable_iff`, `Metric.reachable_iff_ne_infinity` —
  reachability in numbers.
-/

set_option relaxedAutoImplicit false
set_option autoImplicit false

namespace DistanceVector

/-- The length of a path, `Metric.infinity` if there is none. -/
abbrev Metric := UInt16

namespace Metric

/-- The metric of what cannot be reached. -/
def infinity : Metric := 0xFFFF

/-- Whether the metric is that of something that can be reached. -/
def reachable (m : Metric) : Bool := m < infinity

/-- The sum of two metrics, infinity if it is not below infinity. -/
def plus (a b : Metric) : Metric :=
  if a.toNat + b.toNat < infinity.toNat then a + b else infinity

@[simp] theorem toNat_infinity : infinity.toNat = 65535 := rfl

/-- No metric is above infinity. -/
theorem toNat_le_infinity (m : Metric) : m.toNat ≤ 65535 := by
  have := m.toNat_lt
  omega

theorem reachable_iff {m : Metric} : m.reachable = true ↔ m.toNat < 65535 := by
  simp [reachable, UInt16.lt_iff_toNat_lt]

theorem not_reachable_iff {m : Metric} : m.reachable = false ↔ m = infinity := by
  have := m.toNat_le_infinity
  simp only [reachable, decide_eq_false_iff_not, UInt16.lt_iff_toNat_lt, toNat_infinity,
    ← UInt16.toNat_inj]
  omega

theorem reachable_iff_ne_infinity {m : Metric} : m.reachable = true ↔ m ≠ infinity := by
  rw [ne_eq, ← not_reachable_iff, Bool.not_eq_false]

/-- **The sum is the sum of the numbers, cut at infinity.** -/
theorem toNat_plus (a b : Metric) : (a.plus b).toNat = min (a.toNat + b.toNat) 65535 := by
  unfold plus
  split
  · next h =>
    rw [toNat_infinity] at h
    rw [UInt16.toNat_add]
    omega
  · next h =>
    rw [toNat_infinity] at h ⊢
    omega

/-- Nothing makes an infinite metric finite. -/
theorem infinity_plus (m : Metric) : infinity.plus m = infinity := by
  rw [← UInt16.toNat_inj, toNat_plus, toNat_infinity]
  omega

end Metric

/-- A metric on the scale of the forwarding table. -/
abbrev KernelMetric := UInt32

/-- A metric on the scale of the forwarding table: one unit for every 256 begun, shifted by `bias`
and cut at `infinity`, which also stands for what cannot be reached.  The shift is modulo `2 ^ 32`:
a bias that leaves no room above it makes a long path look short. -/
def KernelMetric.ofMetric (m : Metric) (bias infinity : KernelMetric) : KernelMetric :=
  if m.reachable then min ((m.toUInt32 + 255) / 256 + bias) infinity else infinity

end DistanceVector
