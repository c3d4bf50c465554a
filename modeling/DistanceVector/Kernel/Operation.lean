import DistanceVector.Route

/-!
# Operations on the forwarding table

What the router may ask the kernel to do, and the reasons for which the kernel may refuse.

Main definitions:

* `KernelEntry` — an entry of the forwarding table;
* `KernelOp` — an operation: add an entry, flush one, or put one in place of another;
* `KernelError` — why an operation was refused.
-/

set_option relaxedAutoImplicit false
set_option autoImplicit false

namespace DistanceVector

/-- An entry of the forwarding table. -/
structure KernelEntry where
  dest : Prefix
  nexthop : NextHop
  interface : InterfaceId
  /-- The metric on the scale of the forwarding table. -/
  metric : KernelMetric
  deriving DecidableEq

/-- An operation on the forwarding table. -/
inductive KernelOp where
  /-- Adds an entry for a destination that has none. -/
  | add (entry : KernelEntry)
  /-- Removes an entry. -/
  | flush (entry : KernelEntry)
  /-- Puts the entry `new` in place of `old` in one step; both are for one destination. -/
  | modify (old new : KernelEntry)
  deriving DecidableEq

namespace KernelOp

/-- The name of the operation. -/
def name : KernelOp → String
  | .add _ => "ADD"
  | .flush _ => "FLUSH"
  | .modify _ _ => "MODIFY"

/-- The entry that the operation is about, the new one of two. -/
def entry : KernelOp → KernelEntry
  | .add e => e
  | .flush e => e
  | .modify _ new => new

/-- The destination that the operation is about. -/
def dest (op : KernelOp) : Prefix := op.entry.dest

end KernelOp

/-- Why the kernel refused an operation. -/
inductive KernelError where
  /-- There is an entry for the destination already, so it is programmed all the same. -/
  | alreadyExists
  /-- There is no entry for the destination, which is as good as flushed. -/
  | notFound
  /-- The operating system reported an error by its number. -/
  | os (code : Int32)
  /-- The channel to the kernel failed. -/
  | io (text : String)
  deriving DecidableEq

/-- The text that names the reason. -/
def KernelError.message : KernelError → String
  | .alreadyExists => "route already exists"
  | .notFound => "no such route"
  | .os code => "os error " ++ toString code.toInt
  | .io text => "io error: " ++ text

end DistanceVector
