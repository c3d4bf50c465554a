import DistanceVector.Advertisement
import DistanceVector.Kernel.Operation

/-!
# Events

What a router reports about its work, for people to read.  Events have no influence on routing.
Names are quoted in their texts: quotes, backslashes and control characters are written with a
backslash, all else stands for itself.

Main definitions:

* `Text.quote` — the written form of a name;
* `Event` — something worth reporting;
* `Event.level` — how serious it is;
* `Event.message` — its text.
-/

set_option relaxedAutoImplicit false
set_option autoImplicit false

namespace DistanceVector

/-! ### Quoted text -/

namespace Text

/-- A control character: one of the two control ranges. -/
def isControl (c : Char) : Bool := c.toNat < 32 || (127 ≤ c.toNat && c.toNat < 160)

/-- The written form of one character. -/
def escape (c : Char) : List Char :=
  if c = '"' then ['\\', '"']
  else if c = '\\' then ['\\', '\\']
  else if c = '\t' then ['\\', 't']
  else if c = '\n' then ['\\', 'n']
  else if c = '\r' then ['\\', 'r']
  else if c.toNat = 0 then ['\\', '0']
  else if isControl c then ['\\', 'u', '\x7b'] ++ Nat.toDigits 16 c.toNat ++ ['\x7d']
  else [c]

/-- The written form of a text, between double quotes. -/
def quote (s : String) : String :=
  String.ofList ('"' :: (s.toList.flatMap escape ++ ['"']))

end Text

/-! ### Events -/

/-- How serious an event is. -/
inductive Level where
  | error
  | warn
  | info
  | debug
  | trace
  deriving DecidableEq

namespace Level

/-- The place of a level, the most serious one first. -/
def rank : Level → Nat
  | .error => 1
  | .warn => 2
  | .info => 3
  | .debug => 4
  | .trace => 5

/-- Whether a report limited to `limit` shows events of a level. -/
def shownAt (level limit : Level) : Bool := level.rank ≤ limit.rank

/-- The written form of a level. -/
def label : Level → String
  | .error => "ERROR"
  | .warn => "WARN"
  | .info => "INFO"
  | .debug => "DEBUG"
  | .trace => "TRACE"

end Level

/-- Something worth reporting. -/
inductive Event where
  /-- An advertisement for a destination that must never be routed. -/
  | martian (dest : Prefix) (origin : NodeAddress)
  /-- An advertisement from an unknown neighbour. -/
  | unknownNeighbour (dest : Prefix) (neigh : NeighbourId)
  /-- An advertisement that the input filter rejects. -/
  | filtered (dest : Prefix) (neigh : NeighbourId)
  /-- An unfeasible advertisement for the installed route. -/
  | unfeasible (oldOrigin : NodeAddress) (adv : Advertisement)
  /-- A new route for which there is no room. -/
  | noRoom (capacity : UInt64) (dest : Prefix) (neigh : NeighbourId)
  /-- A packet is put into the outbox. -/
  | queueing (packet : OutboundPacket)
  /-- A route is about to be installed. -/
  | switching (id : RouteId) (route : Route)
  /-- The kernel already holds the entry to install. -/
  | alreadyInKernel (op : KernelOp)
  /-- The kernel refused an operation. -/
  | refused (op : KernelOp) (error : KernelError)
  /-- There is no record of the source whose fresher news are needed. -/
  | sourceMissing (dest : Prefix) (origin : NodeAddress)
  /-- A sweep over all routes begins. -/
  | expiring
  /-- A route is removed to make room. -/
  | evicting (id : RouteId)
  deriving DecidableEq

/-- The written form of a packet. -/
def Packet.describe : Packet → String
  | .routeUpdate dest urgent =>
    "RouteUpdate \x7b prefix: " ++ Text.quote dest ++ ", urgent: " ++
      (if urgent then "true" else "false") ++ " \x7d"
  | .routeRequest dest => "RouteRequest \x7b prefix: " ++ Text.quote dest ++ " \x7d"
  | .seqnoRequest dest origin seqno =>
    "SeqnoRequest \x7b prefix: " ++ Text.quote dest ++ ", origin: " ++ Text.quote origin ++
      ", seqno: " ++ seqno.toNat.repr ++ " \x7d"

namespace Event

/-- How serious an event is. -/
def level : Event → Level
  | .refused .. => .error
  | .martian .. | .noRoom .. | .alreadyInKernel .. => .warn
  | .queueing .. => .trace
  | .unknownNeighbour .. | .filtered .. | .unfeasible .. | .switching .. | .sourceMissing ..
  | .expiring | .evicting .. => .debug

/-- The text of an event. -/
def message : Event → String
  | .martian dest origin =>
    "Rejecting martian route to " ++ Text.quote dest ++ " through " ++ Text.quote origin ++ "."
  | .unknownNeighbour dest neigh =>
    "Ignoring update for " ++ Text.quote dest ++ " from unknown neighbour " ++ Text.quote neigh ++
      "."
  | .filtered dest neigh =>
    "Filtered update for " ++ Text.quote dest ++ " from " ++ Text.quote neigh ++ "."
  | .unfeasible oldOrigin adv =>
    "Unfeasible update for installed route to " ++ Text.quote adv.dest ++ " (" ++
      Text.quote oldOrigin ++ " -> " ++ Text.quote adv.origin ++ " " ++ adv.seqno.toNat.repr ++
      " " ++ adv.refmetric.toNat.repr ++ ")."
  | .noRoom capacity dest neigh =>
    "Too many routes (" ++ capacity.toNat.repr ++ ") -- ignoring update for " ++ Text.quote dest ++
      " from " ++ Text.quote neigh ++ "."
  | .queueing ⟨neigh, packet⟩ =>
    "Queueing " ++ packet.describe ++ " for " ++
      neigh.elim "None" fun n => "Some(" ++ Text.quote n ++ ")"
  | .switching id route =>
    "Switching route to " ++ Text.quote route.dest ++ " to " ++ id.label ++ " via " ++
      Text.quote route.neigh ++ " (metric " ++ route.metric.toNat.repr ++ ")."
  | .alreadyInKernel op =>
    "kernel_route(" ++ op.name ++ ") for " ++ Text.quote op.dest ++ ": " ++
      KernelError.alreadyExists.message
  | .refused op error =>
    "kernel_route(" ++ op.name ++ ") failed for " ++ Text.quote op.dest ++ ": " ++ error.message
  | .sourceMissing dest origin =>
    "No source for " ++ Text.quote dest ++ " from " ++ Text.quote origin ++
      ", not requesting a seqno."
  | .expiring => "Expiring old routes."
  | .evicting id => "Evicting route " ++ id.label ++ " to make room."

end Event

end DistanceVector
