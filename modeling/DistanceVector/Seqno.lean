/-!
# Sequence numbers

An origin numbers its announcements modulo `2 ^ 16`.  This module holds the arithmetic on these
numbers and their window order.

Main definitions:

* `Seqno.advance` — the number a given count of steps later, around the circle;
* `Seqno.newer` — whether one number lies in the half circle after another.

Main results:

* `Seqno.newer_iff` — the window order in terms of the distance between the two numbers;
* `Seqno.not_newer_self` — no number is newer than itself.
-/

set_option relaxedAutoImplicit false
set_option autoImplicit false

namespace DistanceVector

/-- A sequence number; all arithmetic on it is modulo `2 ^ 16`. -/
abbrev Seqno := UInt16

namespace Seqno

/-- The number `steps` later. -/
def advance (s : Seqno) (steps : UInt16) : Seqno := s + steps

/-- The next number. -/
def next (s : Seqno) : Seqno := s.advance 1

/-- How many steps lead from `a` forward to `b`. -/
def distance (a b : Seqno) : Nat := (b - a).toNat

/-- Whether `b` is newer than `a`: fewer than `2 ^ 15` steps ahead of it, and not equal to it. -/
def newer (a b : Seqno) : Bool := 0 < distance a b && distance a b < 32768

theorem newer_iff {a b : Seqno} : newer a b = true ↔ 0 < distance a b ∧ distance a b < 32768 := by
  simp [newer]

@[simp] theorem distance_self (a : Seqno) : distance a a = 0 := by simp [distance]

/-- No number is newer than itself. -/
@[simp] theorem not_newer_self (a : Seqno) : newer a a = false := by simp [newer]

end Seqno

end DistanceVector
