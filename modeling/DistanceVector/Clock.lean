/-!
# Time

Instants and delays are counted in seconds, in 64 bits.  A deadline that would lie beyond the last
instant is put at the last instant.

Main definitions:

* `Instant.plus` — the instant a delay later;
* `Instant.expired` — whether a delay that started at an instant is over.

Main results:

* `Instant.expired_iff` — **the cut at the last instant is never noticed**: a delay is over exactly
  if the sum of the two numbers is below the present.
-/

set_option relaxedAutoImplicit false
set_option autoImplicit false

namespace DistanceVector

/-- A point in time, in seconds. -/
abbrev Instant := UInt64

/-- A length of time, in seconds. -/
abbrev Delay := UInt64

namespace Instant

/-- The last instant that can be named. -/
def last : Instant := 0xFFFFFFFFFFFFFFFF

/-- The instant `delay` after `time`, the last one if there is none that late. -/
def plus (time : Instant) (delay : Delay) : Instant :=
  if time.toNat + delay.toNat < last.toNat then time + delay else last

/-- Whether, at `now`, more than `delay` has passed since `time`. -/
def expired (time : Instant) (delay : Delay) (now : Instant) : Bool := time.plus delay < now

theorem toNat_le_last (time : Instant) : time.toNat ≤ last.toNat := by
  have := time.toNat_lt
  have : last.toNat = 2 ^ 64 - 1 := rfl
  omega

theorem toNat_plus (time : Instant) (delay : Delay) :
    (time.plus delay).toNat = min (time.toNat + delay.toNat) last.toNat := by
  have hlast : last.toNat = 2 ^ 64 - 1 := rfl
  unfold plus
  split
  · next h =>
    rw [UInt64.toNat_add]
    omega
  · omega

/-- **A delay is over exactly if the sum of the two numbers is below the present.** -/
theorem expired_iff {time : Instant} {delay : Delay} {now : Instant} :
    time.expired delay now = true ↔ time.toNat + delay.toNat < now.toNat := by
  have := now.toNat_le_last
  simp only [expired, decide_eq_true_eq, UInt64.lt_iff_toNat_lt, toNat_plus]
  omega

end Instant

end DistanceVector
