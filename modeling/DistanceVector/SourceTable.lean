import DistanceVector.OrderedMap.Lemmas
import DistanceVector.Source

/-!
# The source table

The records of all sources, by origin and destination.  The router only reads them and opens
missing ones; whoever sends announcements keeps them current.  An origin may be denied: then no
record is opened for it.

Main definitions:

* `SourceTable.find?` — the record of a source;
* `SourceTable.observe` — the table in which a source has a record, if that can be had.

Main results:

* `SourceTable.feasible_of_observe` — a source may be put on record before its announcement is
  judged.
-/

set_option relaxedAutoImplicit false
set_option autoImplicit false

namespace DistanceVector

/-- The name of a source: who announces what. -/
structure SourceKey where
  origin : NodeAddress
  dest : Prefix
  deriving DecidableEq

namespace SourceKey

/-- Sources are ordered by origin, then by destination. -/
instance : Ord SourceKey where
  compare := compareLex (compareOn SourceKey.origin) (compareOn SourceKey.dest)

instance : Std.TransOrd SourceKey :=
  inferInstanceAs (Std.TransCmp
    (compareLex (compareOn SourceKey.origin) (compareOn SourceKey.dest)))

instance : Std.LawfulEqOrd SourceKey where
  eq_of_compare {a b} h := by
    have h : compareLex (compareOn SourceKey.origin) (compareOn SourceKey.dest) a b = .eq := h
    obtain ⟨horigin, hdest⟩ := compareLex_eq_eq.1 h
    cases a
    cases b
    congr 1
    · exact Std.LawfulEqOrd.eq_of_compare horigin
    · exact Std.LawfulEqOrd.eq_of_compare hdest

end SourceKey

/-- The name of the source that a record is about. -/
def Source.key (s : Source) : SourceKey := ⟨s.origin, s.dest⟩

/-- The records of all sources. -/
structure SourceTable where
  /-- The records, by source. -/
  records : OrderedMap SourceKey Source := .empty
  /-- The origins for which no record is opened. -/
  denied : List NodeAddress := []
  deriving DecidableEq, Inhabited

namespace SourceTable

/-- The record of a source. -/
def find? (t : SourceTable) (origin : NodeAddress) (dest : Prefix) : Option Source :=
  t.records.get? ⟨origin, dest⟩

/-- Puts a record in place of what was known of its source. -/
def set (t : SourceTable) (s : Source) : SourceTable :=
  { t with records := t.records.insert s.key s }

/-- Forgets a source. -/
def forget (t : SourceTable) (origin : NodeAddress) (dest : Prefix) : SourceTable :=
  { t with records := t.records.erase ⟨origin, dest⟩ }

/-- Opens no more records for an origin. -/
def deny (t : SourceTable) (origin : NodeAddress) : SourceTable :=
  { t with denied := t.denied.insert origin }

/-- The record opened for a source at its first sight: the number seen, and nothing announced
under it yet. -/
def firstSight (origin : NodeAddress) (dest : Prefix) (seqno : Seqno) (now : Instant) : Source :=
  { origin, dest, seqno, metric := Metric.infinity, time := now }

/-- The table in which a source has a record: the same one if it has a record already, with a new
record if not, and none if its origin is denied. -/
def observe (t : SourceTable) (origin : NodeAddress) (dest : Prefix) (seqno : Seqno)
    (now : Instant) : Option SourceTable :=
  if (t.find? origin dest).isSome then some t
  else if origin ∈ t.denied then none
  else some (t.set (firstSight origin dest seqno now))

theorem find?_set (t : SourceTable) (record : Source) (origin : NodeAddress) (dest : Prefix) :
    (t.set record).find? origin dest =
      if (⟨origin, dest⟩ : SourceKey) = record.key then some record else t.find? origin dest :=
  OrderedMap.get?_insert ..

/-- To put a source on record changes no record that there is. -/
theorem find?_of_observe {t t' : SourceTable} {origin : NodeAddress} {dest : Prefix}
    {seqno : Seqno} {now : Instant} (h : t.observe origin dest seqno now = some t')
    {other : NodeAddress} {dest' : Prefix} {s : Source} (hs : t.find? other dest' = some s) :
    t'.find? other dest' = some s := by
  unfold observe at h
  split at h
  · cases h
    exact hs
  · next hrecord =>
    split at h
    · cases h
    · cases h
      have hne : (⟨other, dest'⟩ : SourceKey) ≠ (firstSight origin dest seqno now).key := by
        rintro hkey
        cases hkey
        exact hrecord (hs ▸ rfl)
      rw [find?_set, if_neg hne, hs]

/-- To put a source on record makes no announcement of it feasible or unfeasible that was not. -/
theorem feasible_of_observe {t t' : SourceTable} {origin : NodeAddress} {dest : Prefix}
    {seqno : Seqno} {now : Instant} (h : t.observe origin dest seqno now = some t')
    (staleDelay : Delay) (refmetric : Metric) :
    Source.feasible (t'.find? origin dest) staleDelay now seqno refmetric =
      Source.feasible (t.find? origin dest) staleDelay now seqno refmetric := by
  unfold observe at h
  split at h
  · cases h
    rfl
  · next hrecord =>
    split at h
    · cases h
    · cases h
      have hnew : (t.set (firstSight origin dest seqno now)).find? origin dest =
          some (firstSight origin dest seqno now) :=
        OrderedMap.get?_insert_self t.records ⟨origin, dest⟩ _
      rw [hnew, Option.not_isSome_iff_eq_none.1 hrecord]
      simp only [Source.feasible_some, Source.feasible_none, Source.admits, firstSight,
        Metric.reachable, beq_self_eq_true, Bool.true_and]
      cases decide (refmetric < Metric.infinity) <;> simp

/-- A source that was put on record stays on record as it is. -/
theorem observe_of_observe {t t' : SourceTable} {origin : NodeAddress} {dest : Prefix}
    {seqno : Seqno} {now : Instant} (h : t.observe origin dest seqno now = some t') :
    t'.observe origin dest seqno now = some t' := by
  have hrecord : (t'.find? origin dest).isSome := by
    unfold observe at h
    split at h
    · next hrecord =>
      cases h
      exact hrecord
    · split at h
      · cases h
      · cases h
        have hnew : (t.set (firstSight origin dest seqno now)).find? origin dest =
            some (firstSight origin dest seqno now) :=
          OrderedMap.get?_insert_self t.records ⟨origin, dest⟩ _
        rw [hnew, Option.isSome_some]
  rw [observe, if_pos hrecord]

end SourceTable

end DistanceVector
