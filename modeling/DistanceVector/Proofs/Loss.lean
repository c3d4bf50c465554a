import DistanceVector.Proofs.Supply

/-!
# Repair of a lost route

When the installed route for a destination is removed, either another takes its place or the origin
is asked for fresher news.  There is a third case.  A retraction is always feasible, so a route that
was retracted and did not time out yet may be used; if there are only such, one of them is
installed, the destination is out of reach, and nobody is asked for anything.

Main definitions:

* `Router.Alternative` — another route for the destination that may be used;
* `Router.Requested` — the origin was asked for fresher news.

Main results:

* `Router.Unhindered.flush_with_alternative`, `Router.Unhindered.flush_without_alternative` — what
  comes of a loss;
* `Router.Unhindered.repaired_or_requested` — **a loss is repaired or reported to the origin unless
  all that is left are retracted routes, and what happens then**;
* `Router.retracted_alternative_silences_request` — a loss may be neither repaired nor reported.
-/

set_option relaxedAutoImplicit false
set_option autoImplicit false

namespace DistanceVector.Router

variable {now : Instant} {dest : Prefix} {r r' : Router} {id other : RouteId} {route ρ : Route}
  {source : Source}

/-! ### What is left -/

/-- A route other than that of the given name leads to the destination, is feasible and did not time
out. -/
structure Alternative (r : Router) (now : Instant) (dest : Prefix) (id other : RouteId)
    (ρ : Route) : Prop where
  ne : other ≠ id
  get : r.table.get? other = some ρ
  dest_eq : ρ.dest = dest
  feasible : r.routeFeasible now ρ = true
  fresh : r.timedOut now ρ = false

/-- Between the two states, all neighbours were asked for fresher news of the destination from the
origin, those of a certain number. -/
def Requested (r r' : Router) (dest : Prefix) (origin : NodeAddress) (seqno : Seqno) : Prop :=
  ∃ packets, r'.outbox = r.outbox ++ packets ∧
    (Packet.seqnoRequest dest origin seqno).toAll ∈ packets

/-- Where all that was queued is an announcement, nobody was asked for anything. -/
theorem not_requested_of_announced {dest' : Prefix} {urgent : Bool}
    (h : r'.outbox = r.outbox ++ [(Packet.routeUpdate dest' urgent).toAll]) (dest : Prefix)
    (origin : NodeAddress) (seqno : Seqno) : ¬ Requested r r' dest origin seqno := by
  rintro ⟨packets, hpackets, hmem⟩
  rw [h] at hpackets
  rw [← List.append_cancel_left hpackets, List.mem_singleton] at hmem
  cases congrArg OutboundPacket.packet hmem

/-- The alternatives are the routes that may be used once the route is taken out of both tables. -/
theorem alternative_iff (ho : r.table.Owns dest id route) :
    Alternative r now dest id other ρ ↔
      ((r.release id).eraseRoute id).table.get? other = some ρ ∧ ρ.dest = dest ∧
        ((r.release id).eraseRoute id).eligible now true none ρ = true := by
  have hreleased : Moves now dest r ((r.release id).eraseRoute id) := release_moves ho
  rw [get?_released, eligible_of_bare_eq hreleased.sameBackground rfl, eligible_iff]
  constructor
  · rintro ⟨hne, hget, hdest, hfeasible, hfresh⟩
    exact ⟨by rw [if_neg hne, hget], hdest, hfresh, hfeasible⟩
  · rintro ⟨hget, hdest, hfresh, hfeasible⟩
    split at hget
    · cases hget
    · next hne => exact ⟨hne, hget, hdest, hfeasible, hfresh⟩

/-! ### What comes of a loss -/

/-- If there is no alternative, nothing is installed any more; the loss is announced, and the origin
is asked for fresher news. -/
theorem flush_without_alternative (hex : r.table.Exclusive dest)
    (ho : r.table.Owns dest id route) (hm : route.reachable = true)
    (hs : r.sources.find? route.origin dest = some source)
    (hnone : ∀ other ρ, ¬ Alternative r now dest id other ρ) :
    (r.flush now id).table.installed? dest = none ∧
      (r.flush now id).outbox = r.outbox ++ [(Packet.routeUpdate dest true).toAll,
        (Packet.seqnoRequest dest route.origin source.wantedSeqno).toAll] := by
  have hreleased : Moves now dest r ((r.release id).eraseRoute id) := release_moves ho
  have hvacant := not_owns_of_released hex ho
  have hbest : ((r.release id).eraseRoute id).best? now dest true none = none := by
    rw [best?_eq_none_iff]
    intro other ρ hget hdest
    by_contra he
    exact hnone other ρ ((alternative_iff ho).2 ⟨hget, hdest, by simpa using he⟩)
  have hout : ((r.release id).eraseRoute id).outbox = r.outbox := outbox_release r id
  rw [flush_of_owns ho]
  generalize (r.release id).eraseRoute id = s at hreleased hvacant hbest hout ⊢
  have hfind : (s.announce dest true).sources.find? route.origin dest = some source := by
    rw [← hs, ← hreleased.sameBackground.sources]
    rfl
  have hreplaced : s.replaceLost now route.origin dest route.metric =
      (s.announce dest true).queue
        (Packet.seqnoRequest dest route.origin source.wantedSeqno).toAll := by
    have hm : route.metric.reachable = true := hm
    simp [replaceLost, hbest, hm, requestSeqno, hfind]
  rw [hreplaced]
  refine ⟨?_, ?_⟩
  · exact RouteTable.installed?_eq_none_iff.2 hvacant
  · rw [outbox_queue, announce, outbox_queue, hout, List.append_assoc]
    rfl

/-- If there is an alternative, the best one is installed, and that is all that is announced. -/
theorem Unhindered.flush_with_alternative (h : Unhindered r (r.flush now id))
    (hex : r.table.Exclusive dest) (ho : r.table.Owns dest id route) (hx : dest ∉ r.exports)
    (halt : Alternative r now dest id other ρ) :
    ∃ best b, Alternative r now dest id best b ∧ b.metric ≤ ρ.metric ∧
      (r.flush now id).table.Owns dest best { b with installed := true } ∧
      (r.flush now id).outbox = r.outbox ++ [(Packet.routeUpdate dest true).toAll] := by
  have hreleased : Moves now dest r ((r.release id).eraseRoute id) := release_moves ho
  have hvacant := not_owns_of_released hex ho
  have hout : ((r.release id).eraseRoute id).outbox = r.outbox := outbox_release r id
  have halternative : ∀ {other ρ}, Alternative r now dest id other ρ ↔ _ := alternative_iff ho
  rw [flush_of_owns ho] at h ⊢
  obtain ⟨hget, hdest, heligible⟩ := halternative.1 halt
  generalize (r.release id).eraseRoute id = s
    at h hreleased hvacant hout halternative hget heligible ⊢
  cases hbest : s.best? now dest true none with
  | none =>
      rw [best?_eq_none_iff.1 hbest other ρ hget hdest] at heligible
      cases heligible
  | some e =>
      obtain ⟨best, b⟩ := e
      obtain ⟨hb, hbdest, hbe⟩ := eligible_of_best? hbest
      have hexports : dest ∉ s.exports := by rwa [hreleased.sameBackground.exports]
      obtain ⟨-, -, hpromoted⟩ := replaceLost_of_best? hvacant hexports hbest route.origin
        route.metric
      have hunhindered := (h.split hreleased.asked
        (replaceLost_moves s now route.origin dest route.metric).asked).2
      refine ⟨best, b, halternative.2 ⟨hb, hbdest, hbe⟩,
        metric_le_of_best? hbest hget hdest heligible,
        hunhindered.owns_replaceLost hvacant hexports hbest, ?_⟩
      rw [hpromoted, promoteAlone, announce, outbox_queue, outbox_install, outbox_report, hout,
        hbdest]

/-- **What comes of the loss of a reachable route.**  If a reachable alternative is left, the
destination is reachable afterwards; if no alternative is left, the origin is asked for fresher news
than those on record.  But if there are alternatives and all of them are unreachable, then an
unreachable route is installed, and the origin is not asked. -/
theorem Unhindered.repaired_or_requested (h : Unhindered r (r.flush now id))
    (hex : r.table.Exclusive dest) (ho : r.table.Owns dest id route)
    (hm : route.metric.toNat < 65535) (hx : dest ∉ r.exports)
    (hs : r.sources.find? route.origin dest = some source) :
    ((∃ other ρ, Alternative r now dest id other ρ ∧ ρ.metric.toNat < 65535) →
      ∃ best b, (r.flush now id).table.installed? dest = some (best, b) ∧
        b.metric.toNat < 65535) ∧
    ((∀ other ρ, ¬ Alternative r now dest id other ρ) →
      (r.flush now id).table.installed? dest = none ∧
        Requested r (r.flush now id) dest route.origin source.wantedSeqno) ∧
    ((∃ other ρ, Alternative r now dest id other ρ) →
      (∀ other ρ, Alternative r now dest id other ρ → ρ.metric.toNat = 65535) →
        (∃ best b, (r.flush now id).table.installed? dest = some (best, b) ∧
          b.metric.toNat = 65535) ∧
        ∀ origin seqno, ¬ Requested r (r.flush now id) dest origin seqno) := by
  have hexclusive : (r.flush now id).table.Exclusive dest := (r.flush_allMoves now id).exclusive hex
  refine ⟨?_, ?_, ?_⟩
  · rintro ⟨other, ρ, halt, hreachable⟩
    obtain ⟨best, b, -, hle, howns, -⟩ := h.flush_with_alternative hex ho hx halt
    refine ⟨best, _, howns.installed?_eq hexclusive, ?_⟩
    exact Nat.lt_of_le_of_lt (UInt16.le_iff_toNat_le.1 hle) hreachable
  · intro hnone
    obtain ⟨hgone, hout⟩ :=
      flush_without_alternative hex ho (Metric.reachable_iff.2 hm) hs hnone
    exact ⟨hgone, _, hout, by simp⟩
  · rintro ⟨other, ρ, halt⟩ hlost
    obtain ⟨best, b, hbest, -, howns, hout⟩ := h.flush_with_alternative hex ho hx halt
    exact ⟨⟨best, _, howns.installed?_eq hexclusive, hlost best b hbest⟩,
      not_requested_of_announced hout dest⟩

/-- `rivals` after the route that is not installed was retracted. -/
def deserted : Router := rivals.perform 1001 (.receive ⟨"O2", "P", 10, 65535, "N2", "H2"⟩)

theorem reachable_deserted : Reachable deserted := .operate reachable_rivals 1001 _

theorem unhindered_deserted : Unhindered deserted (deserted.flush 1002 0) := by
  have hfaultless : deserted.kernel.Faultless :=
    (unhindered_perform faultless_rivals 1001
      (.receive ⟨"O2", "P", 10, 65535, "N2", "H2"⟩)).2
  exact (unhindered_perform hfaultless 1002 (.flush 0)).1

/-- The installed route of `deserted`. -/
theorem owns_deserted : deserted.table.Owns "P" 0
    ⟨"P", "O1", "N1", "H1", 1, 10, 104, 200, 1000, 1000, true⟩ :=
  ⟨by decide +kernel, rfl, rfl⟩

/-- All that is left of `deserted` once the installed route is removed is a retracted route, so that
this one is installed, and nobody is asked for anything. -/
theorem unrepaired_if_all_retracted :
    (∃ best b, (deserted.flush 1002 0).table.installed? "P" = some (best, b) ∧
      b.metric.toNat = 65535) ∧
    ∀ origin seqno, ¬ Requested deserted (deserted.flush 1002 0) "P" origin seqno := by
  have hsource : deserted.sources.find? "O1" "P" = some ⟨"O1", "P", 10, 65535, 1000⟩ ∧
      "P" ∉ deserted.exports := by decide +kernel
  obtain ⟨hsource, hexported⟩ := hsource
  obtain ⟨-, -, hretracted⟩ := (unhindered_deserted.repaired_or_requested
    ((reachable_deserted.soleOwner "P").exclusive) owns_deserted (by decide) hexported hsource)
  have hleft : deserted.table.toList = [
      (0, ⟨"P", "O1", "N1", "H1", 1, 10, 104, 200, 1000, 1000, true⟩),
      (1, ⟨"P", "O2", "N2", "H2", 2, 10, 65535, 65535, 1000, 1000, false⟩)] := by decide +kernel
  have halternative : Alternative deserted 1002 "P" 0 1
      ⟨"P", "O2", "N2", "H2", 2, 10, 65535, 65535, 1000, 1000, false⟩ :=
    ⟨by decide, by decide +kernel, rfl, by decide +kernel, by decide +kernel⟩
  refine hretracted ⟨1, _, halternative⟩ fun other ρ halt => ?_
  have hmem := RouteTable.mem_toList_iff.2 halt.get
  have hne := halt.ne
  rw [hleft] at hmem
  simp only [List.mem_cons, Prod.mk.injEq, List.not_mem_nil, or_false] at hmem
  rcases hmem with ⟨rfl, -⟩ | ⟨-, rfl⟩
  · exact absurd rfl hne
  · rfl

/-- A loss may be neither repaired nor reported to the origin. -/
theorem retracted_alternative_silences_request :
    ¬ ∀ (r : Router) (now : Instant) (dest : Prefix) (id : RouteId) (route : Route)
      (source : Source), Reachable r → r.table.Owns dest id route →
      route.metric.toNat < 65535 → dest ∉ r.exports →
      r.sources.find? route.origin dest = some source → Unhindered r (r.flush now id) →
        (∃ best b, (r.flush now id).table.installed? dest = some (best, b) ∧
          b.metric.toNat < 65535) ∨
        ∃ seqno, Requested r (r.flush now id) dest route.origin seqno := by
  intro hclaim
  have hsource : deserted.sources.find? "O1" "P" = some ⟨"O1", "P", 10, 65535, 1000⟩ ∧
      "P" ∉ deserted.exports := by decide +kernel
  have hafter : (deserted.flush 1002 0).table.installed? "P" =
      some (1, ⟨"P", "O2", "N2", "H2", 2, 10, 65535, 65535, 1000, 1000, true⟩) := by
    decide +kernel
  have hout : (deserted.flush 1002 0).outbox =
      deserted.outbox ++ [(Packet.routeUpdate "P" true).toAll] := by decide +kernel
  rcases hclaim deserted 1002 "P" 0 _ _ reachable_deserted owns_deserted (by decide) hsource.2
    hsource.1 unhindered_deserted with ⟨best, b, hinstalled, hreachable⟩ | ⟨seqno, hrequested⟩
  · rw [hafter] at hinstalled
    cases hinstalled
    exact absurd hreachable (by decide)
  · exact not_requested_of_announced hout _ _ _ hrequested

end DistanceVector.Router
