import DistanceVector.Kernel.Operation
import DistanceVector.OrderedMap.Basic

/-!
# The forwarding table

The kernel's side: one entry per destination, and a plan of the faults that will befall the coming
operations.  An operation without a fault is refused only if the table contradicts it.

Main definitions:

* `Kernel.answer` — what the kernel says to an operation: nothing, if it carries it out;
* `Kernel.after` — the kernel after the operation.

Main results:

* `Kernel.entries_after_of_refused`, `Kernel.entries_after_of_accepted` — **a refused operation
  changes no entry, and any other is carried out**.
-/

set_option relaxedAutoImplicit false
set_option autoImplicit false

namespace DistanceVector

/-- The forwarding table with an operation carried out. -/
def KernelOp.applyTo (entries : OrderedMap Prefix KernelEntry) :
    KernelOp → OrderedMap Prefix KernelEntry
  | .add e => entries.insert e.dest e
  | .flush e => entries.erase e.dest
  | .modify _ new => entries.insert new.dest new

/-- An operation that the kernel was asked for, and what it said. -/
structure KernelCall where
  op : KernelOp
  answer : Option KernelError
  deriving DecidableEq

/-- The forwarding table with what is going to happen to it and what was asked of it. -/
structure Kernel where
  /-- The forwarding table, by destination. -/
  entries : OrderedMap Prefix KernelEntry := .empty
  /-- By destination, the faults that await the coming operations; `none` lets one through. -/
  faults : OrderedMap Prefix (List (Option KernelError)) := .empty
  /-- The operations asked for, from the first to the last. -/
  calls : List KernelCall := []
  deriving DecidableEq, Inhabited

namespace Kernel

/-- The faults that await the coming operations on a destination. -/
def faultsFor (k : Kernel) (dest : Prefix) : List (Option KernelError) :=
  (k.faults.get? dest).getD []

/-- Why the forwarding table itself contradicts an operation, if it does. -/
def conflict? (k : Kernel) : KernelOp → Option KernelError
  | .add e => if k.entries.contains e.dest then some .alreadyExists else none
  | .flush e => if k.entries.contains e.dest then none else some .notFound
  | .modify _ _ => none

/-- What the kernel says to an operation: the next fault, else the conflict, else nothing. -/
def answer (k : Kernel) (op : KernelOp) : Option KernelError :=
  (k.faultsFor op.dest).head?.join.or (k.conflict? op)

/-- The kernel after an operation: the table changed unless it refused, and the fault used up. -/
def after (k : Kernel) (op : KernelOp) : Kernel where
  entries := if (k.answer op).isNone then op.applyTo k.entries else k.entries
  faults := k.faults.modify op.dest List.tail
  calls := k.calls ++ [⟨op, k.answer op⟩]

/-- A refused operation changes no entry. -/
theorem entries_after_of_refused {k : Kernel} {op : KernelOp} {e : KernelError}
    (h : k.answer op = some e) : (k.after op).entries = k.entries := by
  simp [after, h]

/-- An operation that is not refused is carried out. -/
theorem entries_after_of_accepted {k : Kernel} {op : KernelOp} (h : k.answer op = none) :
    (k.after op).entries = op.applyTo k.entries := by
  simp [after, h]

/-- Sets an entry without asking. -/
def setEntry (k : Kernel) (e : KernelEntry) : Kernel :=
  { k with entries := k.entries.insert e.dest e }

/-- Removes the entry of a destination without asking. -/
def dropEntry (k : Kernel) (dest : Prefix) : Kernel :=
  { k with entries := k.entries.erase dest }

/-- Plans faults for the operations on a destination, after those planned before. -/
def plan (k : Kernel) (dest : Prefix) (faults : List (Option KernelError)) : Kernel :=
  { k with faults := k.faults.insert dest (k.faultsFor dest ++ faults) }

/-- The kernel with its list of operations cleared. -/
def forgetCalls (k : Kernel) : Kernel := { k with calls := [] }

end Kernel

end DistanceVector
