import DistanceVector.Source
import Mathlib.Algebra.BigOperators.Intervals
import Mathlib.Algebra.Order.BigOperators.Group.Finset

/-!
# Freshness

Numbers go around a circle, so that of two numbers each may be newer than the other in turn.  What
keeps an old announcement from being feasible again is that a source does not go once around the
circle: as long as its announcements lie within half of it, each is for good.  And what makes an
announcement feasible whatever its metric is its number alone: from the number that a router asks
for on, for half of the circle.

Main definitions:

* `Source.Suffices` — every announcement under a number is feasible against a record;
* `Source.Supersedes` — an announcement lies ahead of another one;
* `Succession` — announcements of a source, each feasible against the one before.

Main results:

* `Seqno.distance_add` — distances add up as long as they do not go around the circle;
* `Source.suffices_iff` — **the numbers that suffice are those from the wanted one on**;
* `Succession.supersedes` — the announcements lie ahead of one another, each of every earlier one;
* `Succession.never_feasible_again` — **no earlier announcement is feasible against the last one**.
-/

set_option relaxedAutoImplicit false
set_option autoImplicit false

namespace DistanceVector

/-! ### Numbers on the circle -/

namespace Seqno

variable {a b c : Seqno}

theorem distance_lt (a b : Seqno) : distance a b < 65536 := (b - a).toNat_lt

theorem distance_eq_zero_iff : distance a b = 0 ↔ a = b := by
  have ha := a.toNat_lt
  have hb := b.toNat_lt
  rw [← UInt16.toNat_inj, distance, UInt16.toNat_sub]
  omega

/-- Distances add up as long as they do not go around the circle. -/
theorem distance_add (h : distance a b + distance b c < 65536) :
    distance a c = distance a b + distance b c := by
  have ha := a.toNat_lt
  have hb := b.toNat_lt
  have hc := c.toNat_lt
  simp only [distance, UInt16.toNat_sub] at h ⊢
  omega

/-- The way back and the way there make the whole circle. -/
theorem distance_add_distance (hne : a ≠ b) : distance a b + distance b a = 65536 := by
  have ha := a.toNat_lt
  have hb := b.toNat_lt
  rw [ne_eq, ← UInt16.toNat_inj] at hne
  simp only [distance, UInt16.toNat_sub]
  omega

/-- A number that lies at most half of the circle behind is not newer. -/
theorem not_newer_of_distance_le (h : distance a b ≤ 32768) : newer b a = false := by
  by_cases hne : a = b
  · rw [hne, not_newer_self]
  · have hround := distance_add_distance hne
    rw [← Bool.not_eq_true, newer_iff]
    omega

@[simp] theorem distance_advance (a : Seqno) (steps : UInt16) :
    distance a (a.advance steps) = steps.toNat := by
  rw [distance, advance, UInt16.add_comm, UInt16.add_sub_cancel]

theorem distance_next (a b : Seqno) : distance a.next b = (distance a b + 65535) % 65536 := by
  have ha := a.toNat_lt
  have hb := b.toNat_lt
  have hone : (1 : UInt16).toNat = 1 := rfl
  simp only [distance, next, advance, UInt16.toNat_sub, UInt16.toNat_add, hone]
  omega

/-- The number before is the whole circle but one step away. -/
theorem distance_before (a : Seqno) : distance a (a - 1) = 65535 := by
  have ha := a.toNat_lt
  have hone : (1 : UInt16).toNat = 1 := rfl
  simp only [distance, UInt16.toNat_sub, hone]
  omega

end Seqno

namespace Source

variable {a b c s : Source} {staleDelay : Delay} {now : Instant} {seqno : Seqno}
  {refmetric : Metric} {m n : Nat}

/-- Unless the record is stale, an announcement that is no retraction is feasible exactly if it is
newer, or better under the same number. -/
theorem admits_iff (hs : s.stale staleDelay now = false) (hm : refmetric.reachable = true) :
    s.admits staleDelay now seqno refmetric = true ↔
      s.seqno.newer seqno = true ∨ s.seqno = seqno ∧ refmetric < s.metric := by
  simp [admits, hs, hm]

/-! ### The numbers that suffice -/

/-- Every announcement under the number is feasible against the record, whatever its metric. -/
def Suffices (s : Source) (staleDelay : Delay) (now : Instant) (seqno : Seqno) : Prop :=
  ∀ refmetric, s.admits staleDelay now seqno refmetric = true

theorem suffices_of_stale (hs : s.stale staleDelay now = true) (seqno : Seqno) :
    s.Suffices staleDelay now seqno := fun refmetric => admits_of_stale hs seqno refmetric

/-- It suffices that the number is newer, or that it is the same and nothing was announced under it
yet; and nothing less does. -/
theorem suffices_iff_newer (hs : s.stale staleDelay now = false) :
    s.Suffices staleDelay now seqno ↔
      s.seqno.newer seqno = true ∨ s.seqno = seqno ∧ s.metric = Metric.infinity := by
  constructor
  · intro h
    cases hm : s.metric.reachable with
    | true =>
        -- the metric on record is not smaller than itself
        rcases (admits_iff hs hm).1 (h s.metric) with hnewer | ⟨-, hlt⟩
        · exact .inl hnewer
        · exact absurd hlt (UInt16.lt_irrefl _)
    | false =>
        rcases (admits_iff hs (by decide)).1 (h 0) with hnewer | ⟨heq, -⟩
        · exact .inl hnewer
        · exact .inr ⟨heq, Metric.not_reachable_iff.1 hm⟩
  · intro h refmetric
    cases hm : refmetric.reachable with
    | true =>
        refine (admits_iff hs hm).2 (h.imp_right ?_)
        rintro ⟨heq, hinf⟩
        exact ⟨heq, by simpa [hinf, Metric.reachable] using hm⟩
    | false =>
        rw [Metric.not_reachable_iff.1 hm]
        exact admits_infinity s staleDelay now seqno

/-- **The numbers that suffice are those from the wanted one on**, for half of the circle. -/
theorem suffices_iff (hs : s.stale staleDelay now = false) :
    s.Suffices staleDelay now seqno ↔
      Seqno.distance s.wantedSeqno seqno < if s.metric.reachable then 32767 else 32768 := by
  have hlt := Seqno.distance_lt s.seqno seqno
  rw [suffices_iff_newer hs, Seqno.newer_iff, ← Seqno.distance_eq_zero_iff]
  cases hm : s.metric.reachable with
  | true =>
      have hfinite := Metric.reachable_iff_ne_infinity.1 hm
      rw [wantedSeqno, if_pos hm, if_pos rfl, Seqno.distance_next]
      simp only [hfinite, and_false, or_false]
      omega
  | false =>
      have hinf := Metric.not_reachable_iff.1 hm
      rw [wantedSeqno, hm, if_neg Bool.false_ne_true, if_neg Bool.false_ne_true]
      simp only [hinf, and_true]
      omega

/-- From the wanted number on, every number suffices for half of the circle. -/
theorem suffices_from_wanted (s : Source) (staleDelay : Delay) (now : Instant) {steps : UInt16}
    (h : steps.toNat < 32767) : s.Suffices staleDelay now (s.wantedSeqno.advance steps) := by
  cases hs : s.stale staleDelay now with
  | true => exact suffices_of_stale hs _
  | false =>
      rw [suffices_iff hs, Seqno.distance_advance]
      split <;> omega

/-- Under the number before the wanted one, some announcement that is no retraction is refused. -/
theorem exists_refused_before_wanted (hs : s.stale staleDelay now = false) :
    ∃ refmetric : Metric, refmetric.reachable = true ∧
      s.admits staleDelay now (s.wantedSeqno - 1) refmetric = false := by
  have hnot : ¬ s.Suffices staleDelay now (s.wantedSeqno - 1) := by
    rw [suffices_iff hs, Seqno.distance_before]
    split <;> omega
  obtain ⟨refmetric, hrefused⟩ := not_forall.1 hnot
  rw [Bool.not_eq_true] at hrefused
  refine ⟨refmetric, ?_, hrefused⟩
  -- a retraction would not be refused
  rw [Metric.reachable_iff_ne_infinity]
  rintro rfl
  rw [admits_infinity] at hrefused
  cases hrefused

/-! ### Announcements ahead of others -/

/-- The announcement `b` lies ahead of the announcement `a`: its number is so many steps later, and
if it is the same number, its metric is smaller. -/
structure Supersedes (steps : Nat) (a b : Source) : Prop where
  distance_eq : Seqno.distance a.seqno b.seqno = steps
  better : steps = 0 → b.metric < a.metric

/-- What is feasible against an announcement lies ahead of it. -/
theorem supersedes_of_admits (hs : a.stale staleDelay now = false)
    (hm : b.metric.reachable = true)
    (h : a.admits staleDelay now b.seqno b.metric = true) :
    Supersedes (Seqno.distance a.seqno b.seqno) a b := by
  refine ⟨rfl, ?_⟩
  intro hzero
  rcases (admits_iff hs hm).1 h with hnewer | ⟨-, hlt⟩
  · rw [Seqno.newer_iff] at hnewer
    omega
  · exact hlt

/-- To lie ahead of what lies ahead is to lie ahead, unless that goes around the circle. -/
theorem Supersedes.trans (h : Supersedes m a b) (h' : Supersedes n b c) (hlt : m + n < 65536) :
    Supersedes (m + n) a c := by
  obtain ⟨rfl, hbetter⟩ := h
  obtain ⟨rfl, hbetter'⟩ := h'
  refine ⟨Seqno.distance_add hlt, ?_⟩
  intro hzero
  exact UInt16.lt_trans (hbetter' (Nat.eq_zero_of_add_eq_zero_left hzero))
    (hbetter (Nat.eq_zero_of_add_eq_zero_right hzero))

/-- Nothing that lies at most half of the circle behind is feasible. -/
theorem Supersedes.not_admits (h : Supersedes n a b) (hn : n ≤ 32768)
    (hs : b.stale staleDelay now = false) (hm : a.metric.reachable = true) :
    b.admits staleDelay now a.seqno a.metric = false := by
  obtain ⟨rfl, hbetter⟩ := h
  rw [← Bool.not_eq_true, admits_iff hs hm, Seqno.not_newer_of_distance_le hn]
  rintro (hnewer | ⟨heq, hlt⟩)
  · cases hnewer
  · have hzero := Seqno.distance_eq_zero_iff.2 heq.symm
    exact UInt16.lt_asymm hlt (hbetter hzero)

end Source

/-! ### Announcements in succession -/

/-- Announcements of one source, each with a finite metric and feasible against the one before while
that is not stale, and all of them within half of the circle. -/
structure Succession (n : Nat) (s : Nat → Source) : Prop where
  finite : ∀ i ≤ n, (s i).metric.reachable = true
  feasible : ∀ i < n, ∃ staleDelay now, (s i).stale staleDelay now = false ∧
    (s i).admits staleDelay now (s (i + 1)).seqno (s (i + 1)).metric = true
  within : ∑ i ∈ Finset.range n, Seqno.distance (s i).seqno (s (i + 1)).seqno ≤ 32768

namespace Succession

variable {n i j : Nat} {s : Nat → Source} {staleDelay : Delay} {now : Instant}

/-- No part of the way is longer than half of the circle. -/
theorem sum_le (h : Succession n s) (hj : j ≤ n) :
    ∑ k ∈ Finset.Ico i j, Seqno.distance (s k).seqno (s (k + 1)).seqno ≤ 32768 := by
  refine Nat.le_trans (Finset.sum_le_sum_of_subset ?_) h.within
  intro k hk
  rw [Finset.mem_Ico] at hk
  rw [Finset.mem_range]
  omega

/-- Each announcement lies ahead of every earlier one, by the sum of the steps in between. -/
theorem supersedes (h : Succession n s) (hij : i < j) (hj : j ≤ n) :
    Source.Supersedes (∑ k ∈ Finset.Ico i j, Seqno.distance (s k).seqno (s (k + 1)).seqno)
      (s i) (s j) := by
  induction j, hij using Nat.le_induction with
  | base =>
      obtain ⟨staleDelay, now, hs, ha⟩ := h.feasible i hj
      rw [Nat.Ico_succ_singleton, Finset.sum_singleton]
      exact Source.supersedes_of_admits hs (h.finite (i + 1) hj) ha
  | succ j hij ih =>
      obtain ⟨staleDelay, now, hs, ha⟩ := h.feasible j hj
      have hstep := Source.supersedes_of_admits hs (h.finite (j + 1) hj) ha
      have hsum := h.sum_le (i := i) hj
      rw [Finset.sum_Ico_succ_top (Nat.le_of_lt hij)] at hsum ⊢
      exact (ih (Nat.le_of_lt hj)).trans hstep (Nat.lt_of_le_of_lt hsum (by decide))

/-- **No earlier announcement is feasible again.**  If the announcements of a source follow one
another within half of the circle of numbers, then none of them is feasible against a later one that
is not stale, however often it is repeated. -/
theorem never_feasible_again (h : Succession n s) (hi : i < n)
    (hs : (s n).stale staleDelay now = false) :
    (s n).admits staleDelay now (s i).seqno (s i).metric = false :=
  (h.supersedes hi (Nat.le_refl n)).not_admits (h.sum_le (Nat.le_refl n)) hs
    (h.finite i (Nat.le_of_lt hi))

end Succession

/-- Announcements whose numbers pass from the last to the first, one of them under the same number
as the one before. -/
def aroundZero : Nat → Source
  | 0 => ⟨"O1", "P", 65530, 300, 1000⟩
  | 1 => ⟨"O1", "P", 65535, 900, 1010⟩
  | 2 => ⟨"O1", "P", 65535, 700, 1020⟩
  | _ => ⟨"O1", "P", 4, 2000, 1030⟩

/-- The first of the announcements has the least metric of all, and is not feasible again. -/
theorem first_never_feasible_again :
    Succession 3 aroundZero ∧ (aroundZero 3).stale 180 1040 = false ∧
      (aroundZero 3).admits 180 1040 65530 300 = false := by
  have hfeasible : ∀ i < 3, (aroundZero i).stale 180 1040 = false ∧
      (aroundZero i).admits 180 1040 (aroundZero (i + 1)).seqno (aroundZero (i + 1)).metric = true := by
    decide
  have h : Succession 3 aroundZero :=
    ⟨by decide, fun i hi => ⟨180, 1040, hfeasible i hi⟩, by decide⟩
  exact ⟨h, by decide, h.never_feasible_again (i := 0) (by decide) (by decide)⟩

/-- Had the numbers gone one step further than half of the circle, an old announcement would be
feasible again. -/
example :
    let s : Nat → Source := fun i => ⟨"O1", "P", [0, 16384, 32769].getD i 0, 300, 1000⟩
    (s 0).admits 180 1000 (s 1).seqno 300 = true ∧ (s 1).admits 180 1000 (s 2).seqno 300 = true ∧
      (s 2).admits 180 1000 (s 0).seqno 300 = true := by
  decide

end DistanceVector
