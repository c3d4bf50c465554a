import DistanceVector.Proofs.Eviction

/-!
# Rejected advertisements

An advertisement is rejected for the first of seven reasons that applies.  The last of them is found
only after an attempt to make room in the table, but that attempt fails only if there is nothing to
remove, so that a rejection leaves no trace but the record of a source, and a request for fresher
news if an unfeasible advertisement would have been of use.

Main definitions:

* `Rejection.inOrder` — the reasons, in the order in which they are looked for, of which
  `Rejection.beforeRecord` come before the source is on record and `Rejection.onRecord` after that;
* `Router.Grounds` — a reason applies to an advertisement;
* `Router.noted` — the sources once that of an advertisement is on record;
* `Router.Rejected` — what a rejection does.

Main results:

* `Router.screen_cases`, `Router.observe_cases`, `Router.adopt_cases_of_room` — what each part of
  the reception finds;
* `Router.receive_rejected_or_groundless` — an advertisement is rejected for the first reason that
  applies, or none applies and it is taken up;
* `Router.rejected_for_first_ground` — **rejections are exact and leave no trace**.
-/

set_option relaxedAutoImplicit false
set_option autoImplicit false

namespace DistanceVector

namespace Rejection

/-- The reasons that are looked for before the source is on record, in their order. -/
def beforeRecord : List Rejection := [.martian, .unknownNeighbour, .filtered, .noSource]

/-- The reasons that are looked for once it is, in their order. -/
def onRecord : List Rejection := [.unfeasible, .unknownRetraction, .tableFull]

/-- The reasons for a rejection, in the order in which they are looked for. -/
def inOrder : List Rejection := beforeRecord ++ onRecord

end Rejection

namespace Router

variable {now : Instant} {r r' : Router} {adv : Advertisement} {reason : Rejection}
  {interface : InterfaceId} {metric : Metric}

/-! ### The reasons -/

/-- The sources once that of the advertisement is on record: the same ones if it was, and else with
a record of the number seen, under which nothing was announced yet. -/
def noted (r : Router) (now : Instant) (adv : Advertisement) : SourceTable :=
  if (r.sources.find? adv.origin adv.dest).isSome then r.sources
  else r.sources.set ⟨adv.origin, adv.dest, adv.seqno, Metric.infinity, now⟩

/-- The reason applies to the advertisement, whatever other reasons do. -/
def Grounds (r : Router) (now : Instant) (adv : Advertisement) : Rejection → Prop
  | .martian => adv.dest ∈ r.filter.martians
  | .unknownNeighbour => r.neighbours.interface? adv.neigh = none
  | .filtered => ∃ interface ∈ r.neighbours.interface? adv.neigh,
      65535 ≤ (r.filter.penalty adv.origin adv.dest adv.neigh interface).toNat
  | .noSource => r.sources.find? adv.origin adv.dest = none ∧ adv.origin ∈ r.sources.denied
  | .unfeasible => r.table.match? adv.dest adv.neigh adv.nexthop = none ∧
      r.feasible now adv.origin adv.dest adv.seqno adv.refmetric = false
  | .unknownRetraction => r.table.match? adv.dest adv.neigh adv.nexthop = none ∧
      adv.refmetric.toNat = 65535
  | .tableFull => r.table.match? adv.dest adv.neigh adv.nexthop = none ∧ r.table.isFull = true ∧
      ∀ e ∈ r.table.toList, Needed { r with sources := r.noted now adv } now e.2

instance (r : Router) (now : Instant) (adv : Advertisement) :
    DecidablePred (r.Grounds now adv) := fun reason =>
  match reason with
  | .martian => inferInstanceAs (Decidable (_ ∈ _))
  | .unknownNeighbour => inferInstanceAs (Decidable (_ = _))
  | .filtered => inferInstanceAs (Decidable (∃ interface ∈ r.neighbours.interface? adv.neigh,
      65535 ≤ (r.filter.penalty adv.origin adv.dest adv.neigh interface).toNat))
  | .noSource => inferInstanceAs (Decidable (_ ∧ _))
  | .unfeasible => inferInstanceAs (Decidable (_ ∧ _))
  | .unknownRetraction => inferInstanceAs (Decidable (_ ∧ _))
  | .tableFull => inferInstanceAs (Decidable (_ ∧ _ ∧ ∀ e ∈ r.table.toList, _))

/-- What the rejection of an advertisement does: nothing happens but to the sources, the outbox and
the events. -/
structure Rejected (now : Instant) (adv : Advertisement) (reason : Rejection) (r r' : Router) :
    Prop where
  kept : r' = { r with sources := r'.sources, outbox := r'.outbox, events := r'.events }
  /-- The source is on record if the reason was found after that. -/
  sources : r'.sources = if reason ∈ Rejection.beforeRecord then r.sources else r.noted now adv
  silent : reason ≠ .unfeasible → r'.outbox = r.outbox
  /-- After an unfeasible advertisement, fresher news are asked for if no route is installed for the
  destination, or one that is much worse. -/
  plea : reason = .unfeasible → ∃ interface source,
    r.neighbours.interface? adv.neigh = some interface ∧
    r.sources.find? adv.origin adv.dest = some source ∧
    r'.outbox = r.outbox ++
      if ∀ e ∈ r.table.installed? adv.dest,
          (r.pathMetric adv.origin adv.dest adv.neigh interface adv.refmetric).toNat + 256 ≤
            e.2.metric.toNat then
        [(Packet.seqnoRequest adv.dest adv.origin source.wantedSeqno).toAll]
      else []

/-! ### The parts of the reception -/

/-- The first three reasons are looked for in their order, and the interface is found if none of
them applies. -/
theorem screen_cases (r : Router) (now : Instant) (adv : Advertisement) :
    (r.screen adv = .error .martian ∧ r.Grounds now adv .martian) ∨
    (r.screen adv = .error .unknownNeighbour ∧ ¬ r.Grounds now adv .martian ∧
      r.Grounds now adv .unknownNeighbour) ∨
    (r.screen adv = .error .filtered ∧ ¬ r.Grounds now adv .martian ∧
      ¬ r.Grounds now adv .unknownNeighbour ∧ r.Grounds now adv .filtered) ∨
    ∃ interface, r.screen adv = .ok interface ∧ ¬ r.Grounds now adv .martian ∧
      ¬ r.Grounds now adv .unknownNeighbour ∧ ¬ r.Grounds now adv .filtered := by
  by_cases hm : adv.dest ∈ r.filter.martians
  · exact .inl ⟨by simp [screen, Filter.isMartian, hm], hm⟩
  · cases hi : r.neighbours.interface? adv.neigh with
    | none => exact .inr (.inl ⟨by simp [screen, Filter.isMartian, hm, hi], hm, hi⟩)
    | some interface =>
        have hknown : ¬ r.Grounds now adv .unknownNeighbour := by simp [Grounds, hi]
        cases hp : (r.filter.penalty adv.origin adv.dest adv.neigh interface).reachable with
        | true =>
            refine .inr (.inr (.inr ⟨interface, ?_, hm, hknown, ?_⟩))
            · simp [screen, Filter.isMartian, hm, hi, hp]
            · rintro ⟨other, hother, hinfinite⟩
              cases hi.symm.trans hother
              exact Nat.not_le_of_lt (Metric.reachable_iff.1 hp) hinfinite
        | false =>
            refine .inr (.inr (.inl ⟨?_, hm, hknown, interface, hi, ?_⟩))
            · simp [screen, Filter.isMartian, hm, hi, hp]
            · rw [Metric.not_reachable_iff.1 hp]
              exact Nat.le_refl _

/-- The source is put on record unless it has no record and its origin is denied one. -/
theorem observe_cases (r : Router) (now : Instant) (adv : Advertisement) :
    (r.sources.observe adv.origin adv.dest adv.seqno now = none ∧ r.Grounds now adv .noSource) ∨
    (r.sources.observe adv.origin adv.dest adv.seqno now = some (r.noted now adv) ∧
      ¬ r.Grounds now adv .noSource) := by
  cases hs : r.sources.find? adv.origin adv.dest with
  | some s =>
      refine .inr ⟨by simp [SourceTable.observe, noted, hs], fun h => ?_⟩
      cases hs.symm.trans h.1
  | none =>
      by_cases hd : adv.origin ∈ r.sources.denied
      · exact .inl ⟨by simp [SourceTable.observe, hs, hd], hs, hd⟩
      · exact .inr ⟨by simp [SourceTable.observe, noted, hs, hd, SourceTable.firstSight],
          fun h => hd h.2⟩

/-- A new route finds no room exactly if the table is full of routes that are needed; then nothing
was removed in vain. -/
theorem adopt_cases_of_room (hex : ∀ dest, r.table.Exclusive dest)
    (hsize : r.table.size ≤ r.table.capacity.toNat) (now : Instant) (adv : Advertisement)
    (interface : InterfaceId) (metric : Metric) :
    ((r.table.isFull = true ∧ ∀ e ∈ r.table.toList, r.Needed now e.2) ∧
      r.adopt now adv interface metric = r.reject adv .tableFull) ∨
    (¬ (r.table.isFull = true ∧ ∀ e ∈ r.table.toList, r.Needed now e.2) ∧
      ∃ id, (r.adopt now adv interface metric).1 = .ok id) := by
  cases hfull : r.table.isFull with
  | false =>
      have hroom : r.table.insert? (.ofAdvertisement adv now interface metric) ≠ none :=
        fun hnone => by
          rw [RouteTable.insert?_eq_none_iff.1 hnone] at hfull
          cases hfull
      obtain ⟨⟨id, table⟩, ht⟩ := Option.ne_none_iff_exists'.1 hroom
      refine .inr ⟨fun h => Bool.false_ne_true h.1, id, ?_⟩
      simp only [adopt, hfull, Bool.false_eq_true, if_false, ht]
  | true =>
      by_cases hneeded : ∀ e ∈ r.table.toList, r.Needed now e.2
      · refine .inl ⟨⟨rfl, hneeded⟩, adopt_of_needed hfull fun id route hr => ?_⟩
        exact hneeded (id, route) (RouteTable.mem_toList_iff.2 hr)
      · refine .inr ⟨fun h => hneeded h.2, r.table.nextId, ?_⟩
        simp only [not_forall] at hneeded
        obtain ⟨⟨id, route⟩, hmem, hn⟩ := hneeded
        have hsize : r.table.size = r.table.capacity.toNat :=
          Nat.le_antisymm hsize (by simpa [RouteTable.isFull] using hfull)
        have hcleared := cleared_makeRoom hex hsize (RouteTable.mem_toList_iff.1 hmem) hn
        exact (adopt_of_room hfull hcleared.room adv interface metric).1

/-! ### What a rejection does -/

theorem reject_snd (r : Router) (adv : Advertisement) (reason : Rejection) :
    (r.reject adv reason).2 = { r with events := (r.reject adv reason).2.events } := by
  unfold reject
  cases r.rejectionEvent? adv reason <;> rfl

/-- A reason that is found before the source is on record is given, and that is all. -/
theorem rejected_early (h : reason ∈ Rejection.beforeRecord) :
    Rejected now adv reason r (r.reject adv reason).2 := by
  rw [reject_snd]
  refine ⟨rfl, (if_pos h).symm, fun _ => rfl, ?_⟩
  rintro rfl
  simp [Rejection.beforeRecord] at h

/-- A reason that is found later is given, too, with the source on record. -/
theorem rejected_late (h : reason ∉ Rejection.beforeRecord) (hne : reason ≠ .unfeasible) :
    Rejected now adv reason r (reject { r with sources := r.noted now adv } adv reason).2 := by
  rw [reject_snd]
  exact ⟨rfl, (if_neg h).symm, fun _ => rfl, fun heq => absurd heq hne⟩

/-- After an unfeasible advertisement its origin is asked for fresher news if they would be of
use. -/
theorem rejected_unfeasible (hi : r.neighbours.interface? adv.neigh = some interface)
    (hf : r.feasible now adv.origin adv.dest adv.seqno adv.refmetric = false)
    (hmetric : metric = r.pathMetric adv.origin adv.dest adv.neigh interface adv.refmetric) :
    Rejected now adv .unfeasible r
      ((requestFeasible { r with sources := r.noted now adv } metric adv.origin adv.dest).reject adv
        .unfeasible).2 := by
  subst hmetric
  -- without a record the advertisement would be feasible
  obtain ⟨source, hsource⟩ : ∃ source, r.sources.find? adv.origin adv.dest = some source := by
    by_contra hnone
    rw [feasible, Option.eq_none_iff_forall_ne_some.2 (not_exists.1 hnone)] at hf
    cases hf
  have hnoted : r.noted now adv = r.sources := by simp [noted, hsource]
  have hhelp : r.wouldHelp adv.dest
      (r.pathMetric adv.origin adv.dest adv.neigh interface adv.refmetric) = true ↔
        ∀ e ∈ r.table.installed? adv.dest,
          (r.pathMetric adv.origin adv.dest adv.neigh interface adv.refmetric).toNat + 256 ≤
            e.2.metric.toNat := by
    rw [wouldHelp]
    cases r.table.installed? adv.dest <;> simp
  -- the reason is not reported, so only the request can make a difference
  have hrejected : ∀ s : Router, (s.reject adv .unfeasible).2 = s := fun _ => rfl
  rw [hrejected, hnoted]
  by_cases h : r.wouldHelp adv.dest
      (r.pathMetric adv.origin adv.dest adv.neigh interface adv.refmetric) = true
  · have hplea : r.requestFeasible
        (r.pathMetric adv.origin adv.dest adv.neigh interface adv.refmetric) adv.origin adv.dest =
          r.queue (Packet.seqnoRequest adv.dest adv.origin source.wantedSeqno).toAll := by
      simp [requestFeasible, requestSeqno, hsource, h]
    rw [hplea]
    exact ⟨rfl, hnoted.symm, fun hne => absurd rfl hne, fun _ =>
      ⟨interface, source, hi, hsource, by rw [if_pos (hhelp.1 h), outbox_queue]⟩⟩
  · have hplea : r.requestFeasible
        (r.pathMetric adv.origin adv.dest adv.neigh interface adv.refmetric) adv.origin adv.dest =
          r := by
      simp [requestFeasible, h]
    rw [hplea]
    exact ⟨rfl, hnoted.symm, fun hne => absurd rfl hne, fun _ =>
      ⟨interface, source, hi, hsource, by rw [if_neg (mt hhelp.2 h), List.append_nil]⟩⟩

/-! ### The whole -/

/-- If the source could be put on record, the first reason that applies is one of the last three. -/
theorem find?_grounds_of_observed (hm : ¬ r.Grounds now adv .martian)
    (hn : ¬ r.Grounds now adv .unknownNeighbour) (hp : ¬ r.Grounds now adv .filtered)
    (hd : ¬ r.Grounds now adv .noSource) :
    Rejection.inOrder.find? (r.Grounds now adv) =
      Rejection.onRecord.find? (r.Grounds now adv) := by
  have hnone : Rejection.beforeRecord.find? (r.Grounds now adv) = none := by
    simp [Rejection.beforeRecord, hm, hn, hp, hd]
  rw [Rejection.inOrder, List.find?_append, hnone, Option.none_or]

/-- Once its source is on record, an advertisement is rejected for the first of the last three
reasons that applies, or none of them applies and it leads to a route. -/
theorem accept_rejected_or_groundless (hex : ∀ dest, r.table.Exclusive dest)
    (hsize : r.table.size ≤ r.table.capacity.toNat)
    (hi : r.neighbours.interface? adv.neigh = some interface)
    (ho : r.sources.observe adv.origin adv.dest adv.seqno now = some (r.noted now adv)) :
    (∃ reason, (accept { r with sources := r.noted now adv } now adv interface).1 =
        .error reason ∧
      Rejection.onRecord.find? (r.Grounds now adv) = some reason ∧
      Rejected now adv reason r
        (accept { r with sources := r.noted now adv } now adv interface).2) ∨
    ((∃ id, (accept { r with sources := r.noted now adv } now adv interface).1 = .ok id) ∧
      Rejection.onRecord.find? (r.Grounds now adv) = none) := by
  have hfeasible : Router.feasible { r with sources := r.noted now adv } now adv.origin adv.dest
      adv.seqno adv.refmetric = r.feasible now adv.origin adv.dest adv.seqno adv.refmetric :=
    SourceTable.feasible_of_observe ho _ _
  cases hnew : r.table.match? adv.dest adv.neigh adv.nexthop with
  | some e =>
      refine .inr ⟨⟨e.1, by simp only [accept, hnew]⟩, ?_⟩
      simp [Rejection.onRecord, Grounds, hnew]
  | none =>
      cases hf : r.feasible now adv.origin adv.dest adv.seqno adv.refmetric with
      | false =>
          have hground : r.Grounds now adv .unfeasible := ⟨hnew, hf⟩
          refine .inl ⟨.unfeasible, ?_⟩
          simp only [accept, hnew, hfeasible, hf, Bool.not_false, if_true]
          exact ⟨rfl, by simp [Rejection.onRecord, hground], rejected_unfeasible hi hf rfl⟩
      | true =>
          have hground : ¬ r.Grounds now adv .unfeasible := fun h => by
            cases hf.symm.trans h.2
          cases hr : adv.refmetric.reachable with
          | false =>
              have hretracted : r.Grounds now adv .unknownRetraction :=
                ⟨hnew, congrArg UInt16.toNat (Metric.not_reachable_iff.1 hr)⟩
              refine .inl ⟨.unknownRetraction, ?_⟩
              simp only [accept, hnew, hfeasible, hf, hr, Bool.not_true, Bool.not_false,
                Bool.false_eq_true, if_true, if_false]
              exact ⟨rfl, by simp [Rejection.onRecord, hground, hretracted],
                rejected_late (by decide) (by decide)⟩
          | true =>
              have hretracted : ¬ r.Grounds now adv .unknownRetraction := fun h =>
                absurd h.2 (Nat.ne_of_lt (Metric.reachable_iff.1 hr))
              simp only [accept, hnew, hfeasible, hf, hr, Bool.not_true, Bool.false_eq_true,
                if_false]
              rcases adopt_cases_of_room (r := { r with sources := r.noted now adv }) hex hsize now
                adv interface (pathMetric { r with sources := r.noted now adv } adv.origin adv.dest
                  adv.neigh interface adv.refmetric) with ⟨hfull, hadopt⟩ | ⟨hfull, hadopt⟩
              · have htable : r.Grounds now adv .tableFull := ⟨hnew, hfull⟩
                rw [hadopt]
                exact .inl ⟨.tableFull, rfl,
                  by simp [Rejection.onRecord, hground, hretracted, htable],
                  rejected_late (by decide) (by decide)⟩
              · have htable : ¬ r.Grounds now adv .tableFull := fun h => hfull h.2
                exact .inr ⟨hadopt, by simp [Rejection.onRecord, hground, hretracted, htable]⟩

/-- An advertisement is rejected for the first reason that applies, or no reason applies and it
leads to a route. -/
theorem receive_rejected_or_groundless (hex : ∀ dest, r.table.Exclusive dest)
    (hsize : r.table.size ≤ r.table.capacity.toNat) (now : Instant) (adv : Advertisement) :
    (∃ reason, (r.receive now adv).1 = .error reason ∧
      Rejection.inOrder.find? (r.Grounds now adv) = some reason ∧
      Rejected now adv reason r (r.receive now adv).2) ∨
    ((∃ id, (r.receive now adv).1 = .ok id) ∧
      Rejection.inOrder.find? (r.Grounds now adv) = none) := by
  rcases r.screen_cases now adv with ⟨hs, hm⟩ | ⟨hs, hm, hn⟩ | ⟨hs, hm, hn, hp⟩ |
    ⟨interface, hs, hm, hn, hp⟩
  · refine .inl ⟨.martian, ?_⟩
    simp only [receive, hs]
    exact ⟨rfl, by simp [Rejection.inOrder, Rejection.beforeRecord, hm],
      rejected_early (by decide)⟩
  · refine .inl ⟨.unknownNeighbour, ?_⟩
    simp only [receive, hs]
    exact ⟨rfl, by simp [Rejection.inOrder, Rejection.beforeRecord, hm, hn],
      rejected_early (by decide)⟩
  · refine .inl ⟨.filtered, ?_⟩
    simp only [receive, hs]
    exact ⟨rfl, by simp [Rejection.inOrder, Rejection.beforeRecord, hm, hn, hp],
      rejected_early (by decide)⟩
  · rcases r.observe_cases now adv with ⟨ho, hd⟩ | ⟨ho, hd⟩
    · refine .inl ⟨.noSource, ?_⟩
      simp only [receive, hs, ho]
      exact ⟨rfl, by simp [Rejection.inOrder, Rejection.beforeRecord, hm, hn, hp, hd],
        rejected_early (by decide)⟩
    · rw [find?_grounds_of_observed hm hn hp hd]
      simp only [receive, hs, ho]
      exact accept_rejected_or_groundless hex hsize (interface?_of_screen hs) ho

/-- **Rejections are exact and leave no trace.**  If at most one route for each destination is
installed and there are no more routes than there is room for, then an advertisement is rejected
exactly if a reason applies, and for the first one that does.  Then nothing happens to the table,
the kernel or anything else, but that the source is on record if the reason was found after that,
and that fresher news are asked for if an unfeasible advertisement would have been of use. -/
theorem rejected_for_first_ground (hex : ∀ dest, r.table.Exclusive dest)
    (hsize : r.table.size ≤ r.table.capacity.toNat) (now : Instant) (adv : Advertisement)
    (reason : Rejection) :
    ((r.receive now adv).1 = .error reason ↔
      Rejection.inOrder.find? (r.Grounds now adv) = some reason) ∧
    ((r.receive now adv).1 = .error reason →
      Rejected now adv reason r (r.receive now adv).2) := by
  rcases receive_rejected_or_groundless hex hsize now adv with
    ⟨first, herror, hfirst, hrejected⟩ | ⟨⟨id, hok⟩, hnone⟩
  · rw [herror, hfirst]
    refine ⟨by simp, fun heq => ?_⟩
    cases heq
    exact hrejected
  · rw [hok, hnone]
    exact ⟨by simp, nofun⟩

/-- A router with room for one route, which is taken by a route that is needed. -/
def occupied : Router :=
  { twoNeighbours [] with table := .ofCapacity 1 }.perform 1000
    (.receive ⟨"O1", "P", 10, 104, "N1", "H1"⟩)

theorem reachable_occupied : Reachable occupied := by
  have hstart : Reachable { twoNeighbours [] with table := .ofCapacity 1 } :=
    .surround (.start { maxRoutes := 1 }) rfl rfl
  exact .operate hstart 1000 _

/-- A new route finds no room in `occupied`; its source is on record afterwards. -/
theorem turned_away_for_want_of_room :
    (occupied.receive 1001 ⟨"O2", "Q", 20, 204, "N2", "H2"⟩).1 = .error .tableFull ∧
      Rejected 1001 ⟨"O2", "Q", 20, 204, "N2", "H2"⟩ .tableFull occupied
        (occupied.receive 1001 ⟨"O2", "Q", 20, 204, "N2", "H2"⟩).2 ∧
      (occupied.receive 1001 ⟨"O2", "Q", 20, 204, "N2", "H2"⟩).2.sources.find? "O2" "Q" =
        some ⟨"O2", "Q", 20, 65535, 1001⟩ := by
  have hroom : occupied.table.size ≤ occupied.table.capacity.toNat := by decide +kernel
  obtain ⟨hiff, hrejected⟩ := rejected_for_first_ground
    (fun dest => (reachable_occupied.soleOwner dest).exclusive) hroom 1001
    ⟨"O2", "Q", 20, 204, "N2", "H2"⟩ .tableFull
  have hfull := hiff.2 (by decide +kernel)
  have hgone := hrejected hfull
  refine ⟨hfull, hgone, ?_⟩
  rw [hgone.sources]
  decide +kernel

end Router

end DistanceVector
