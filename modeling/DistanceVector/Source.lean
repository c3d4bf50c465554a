import DistanceVector.Route

/-!
# Sources and feasibility

A source is an origin together with a destination that it announces.  Its record holds the best
announcement passed on so far; an announcement is feasible if it is better than that one, so that
it cannot have come around a loop.

Main definitions:

* `Source` — the record of a source;
* `Source.wantedSeqno` — the number to ask for when fresher news are needed;
* `Source.admits` — whether an announcement is feasible against a record;
* `Source.feasible` — the same where there may be no record.

Main results:

* `Source.admits_infinity` — a retraction is always feasible;
* `Source.admits_of_stale` — a stale record restricts nothing.
-/

set_option relaxedAutoImplicit false
set_option autoImplicit false

namespace DistanceVector

/-- What is known of an origin's announcements of one destination. -/
structure Source where
  origin : NodeAddress
  dest : Prefix
  /-- The newest number known. -/
  seqno : Seqno
  /-- The least metric announced under that number: the feasibility distance. -/
  metric : Metric
  /-- When the record was last brought up to date. -/
  time : Instant
  deriving DecidableEq

namespace Source

/-- The number to ask for when fresher news of this source are needed: the next one, unless
nothing was announced under the present one yet. -/
def wantedSeqno (s : Source) : Seqno := if s.metric.reachable then s.seqno.next else s.seqno

/-- Whether the record is too old to restrict anything. -/
def stale (s : Source) (staleDelay : Delay) (now : Instant) : Bool := s.time.expired staleDelay now

/-- Whether an announcement is feasible against the record: the record is stale, the announcement
is a retraction, its number is newer, or its number is the same and its metric smaller. -/
def admits (s : Source) (staleDelay : Delay) (now : Instant) (seqno : Seqno) (refmetric : Metric) :
    Bool :=
  s.stale staleDelay now || !refmetric.reachable || s.seqno.newer seqno ||
    (s.seqno == seqno && refmetric < s.metric)

/-- Whether an announcement is feasible; without a record it is. -/
def feasible (record : Option Source) (staleDelay : Delay) (now : Instant) (seqno : Seqno)
    (refmetric : Metric) : Bool :=
  record.all fun s => s.admits staleDelay now seqno refmetric

/-- A retraction is always feasible. -/
theorem admits_infinity (s : Source) (staleDelay : Delay) (now : Instant) (seqno : Seqno) :
    s.admits staleDelay now seqno Metric.infinity = true := by
  simp [admits, Metric.reachable]

/-- A stale record restricts nothing. -/
theorem admits_of_stale {s : Source} {staleDelay : Delay} {now : Instant}
    (h : s.stale staleDelay now = true) (seqno : Seqno) (refmetric : Metric) :
    s.admits staleDelay now seqno refmetric = true := by
  simp [admits, h]

@[simp] theorem feasible_none (staleDelay : Delay) (now : Instant) (seqno : Seqno)
    (refmetric : Metric) : feasible none staleDelay now seqno refmetric = true := rfl

@[simp] theorem feasible_some (s : Source) (staleDelay : Delay) (now : Instant) (seqno : Seqno)
    (refmetric : Metric) :
    feasible (some s) staleDelay now seqno refmetric = s.admits staleDelay now seqno refmetric :=
  rfl

end Source

end DistanceVector
