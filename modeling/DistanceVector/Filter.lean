import DistanceVector.Route

/-!
# The input filter

What the administrator has to say about incoming announcements: destinations that must never be
routed, and rules that make announcements worse.  The first rule that applies decides.

Main definitions:

* `Filter.Rule.applies` — whether a rule is about an announcement;
* `Filter.penalty` — the extra metric of an announcement; an infinite one rejects it.
-/

set_option relaxedAutoImplicit false
set_option autoImplicit false

namespace DistanceVector

/-- A rule of the filter: what it asks of an announcement, and the penalty of those that meet
it.  A field left open asks nothing. -/
structure Filter.Rule where
  origin : Option NodeAddress
  dest : Option Prefix
  neigh : Option NeighbourId
  interface : Option InterfaceId
  penalty : Metric
  deriving DecidableEq

/-- The input filter. -/
structure Filter where
  /-- The destinations that must never be routed. -/
  martians : List Prefix := []
  /-- The rules; the first that applies decides. -/
  rules : List Filter.Rule := []
  deriving DecidableEq, Inhabited

namespace Filter

/-- Whether an announcement has everything that a rule asks for. -/
def Rule.applies (rule : Rule) (origin : NodeAddress) (dest : Prefix) (neigh : NeighbourId)
    (interface : InterfaceId) : Bool :=
  rule.origin.all (· == origin) && rule.dest.all (· == dest) && rule.neigh.all (· == neigh) &&
    rule.interface.all (· == interface)

/-- Whether a destination must never be routed. -/
def isMartian (f : Filter) (dest : Prefix) : Bool := dest ∈ f.martians

/-- The extra metric of an announcement: that of the first rule that applies. -/
def penalty (f : Filter) (origin : NodeAddress) (dest : Prefix) (neigh : NeighbourId)
    (interface : InterfaceId) : Metric :=
  (f.rules.find? (·.applies origin dest neigh interface)).elim 0 Rule.penalty

end Filter

end DistanceVector
