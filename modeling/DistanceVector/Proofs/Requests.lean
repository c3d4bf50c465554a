import DistanceVector.Proofs.Exchange
import DistanceVector.Proofs.Freshness

/-!
# Requests for fresher news

A router that needs fresher news of a source asks its origin for an announcement under a certain
number.  Whatever it does, it asks only for the number that its record of the source calls for; and
that number is the least that is sure to be feasible when the answer comes.

Main definitions:

* `Router.RequestsBacked` — only packets that the records back were queued.

Main results:

* `Router.RequestsBacked.move`, `Router.requestsBacked_perform` — no move queues other packets, and
  so no operation does;
* `Router.requests_exact` — **what is asked for is exactly what suffices**.
-/

set_option relaxedAutoImplicit false
set_option autoImplicit false

namespace DistanceVector

/-- What the records back, they still back when a source is put on record. -/
theorem SourceTable.Backs.of_observe {t t' : SourceTable} {p : Packet} (h : t.Backs p)
    {origin : NodeAddress} {dest : Prefix} {seqno : Seqno} {now : Instant}
    (ho : t.observe origin dest seqno now = some t') : t'.Backs p := by
  cases p with
  | routeUpdate dest urgent => trivial
  | routeRequest dest => trivial
  | seqnoRequest dest origin seqno =>
      obtain ⟨s, hs, hwanted⟩ := h
      exact ⟨s, SourceTable.find?_of_observe ho hs, hwanted⟩

namespace Router

variable {r r' r₀ : Router} {now : Instant} {dest : Prefix}

/-! ### What is queued -/

/-- Between the two states only packets were queued that the records of the second state back. -/
def RequestsBacked (r r' : Router) : Prop :=
  ∃ packets, r'.outbox = r.outbox ++ packets ∧ ∀ p ∈ packets, r'.sources.Backs p.packet

theorem requestsBacked_of_outbox_eq (h : r'.outbox = r.outbox) : RequestsBacked r r' :=
  ⟨[], by rw [h, List.append_nil], by simp⟩

/-- Of all moves one alone queues packets, and only those that the records back. -/
theorem Move.queued (h : Move now dest r r') :
    ∃ packets, r'.outbox = r.outbox ++ packets ∧ ∀ p ∈ packets, r.sources.Backs p.packet := by
  cases h with
  | told h =>
      obtain ⟨packets, events, hpackets, rfl⟩ := h
      exact ⟨packets, rfl, fun p hp => (hpackets p hp).2⟩
  | _ => exact ⟨[], by simp⟩

theorem RequestsBacked.move (h : RequestsBacked r₀ r) (hmove : Move now dest r r') :
    RequestsBacked r₀ r' := by
  obtain ⟨before, hbefore, hbacked⟩ := h
  obtain ⟨packets, hpackets, hbacked'⟩ := hmove.queued
  refine ⟨before ++ packets, by rw [hpackets, hbefore, List.append_assoc], fun p hp => ?_⟩
  rw [hmove.sameBackground.sources]
  exact (List.mem_append.1 hp).elim (hbacked p) (hbacked' p)

theorem Told.requestsBacked (h : Told dest r r') : RequestsBacked r r' := by
  have hmove : Move 0 dest r r' := .told h
  exact (requestsBacked_of_outbox_eq rfl).move hmove

theorem RequestsBacked.heard {adv : Advertisement} (h : RequestsBacked r₀ r)
    (hheard : Heard now adv r r') : RequestsBacked r₀ r' := by
  obtain ⟨packets, hpackets, hbacked⟩ := h
  cases hheard with
  | observed ho => exact ⟨packets, hpackets, fun p hp => (hbacked p hp).of_observe ho⟩
  | recorded _ _ _ => exact ⟨packets, hpackets, hbacked⟩

/-- Whatever a router does, it queues only packets that its records back. -/
theorem requestsBacked_perform (r : Router) (now : Instant) (op : Operation) :
    RequestsBacked r (r.perform now op) := by
  refine perform_induction (P := RequestsBacked r) ?_ ?_ (requestsBacked_of_outbox_eq rfl)
  · intro s s' hstep hs
    rcases hstep with ⟨dest, hmove⟩ | ⟨adv, hheard⟩
    · exact hs.move hmove
    · exact hs.heard hheard
  · intro s id route table _ _ _ _ hs
    exact hs

/-- The exchanges with the kernel queue nothing. -/
theorem outbox_exchange (r : Router) (step : Exchange) : (r.exchange step).outbox = r.outbox := by
  cases step with
  | install id => exact outbox_install r id
  | change old new =>
      cases old with
      | none => exact outbox_install r new
      | some old => exact outbox_replaceInstalled r old new
  | setMetric id metric => exact outbox_setMetric r id metric

/-- **What is asked for is exactly what suffices.**  Whatever a router does, the number in a request
is the one that its record of the source calls for.  For half of the circle from that number on,
every announcement is feasible against the record, whatever is on record and whatever the metric;
and under the number before it, unless the record is stale, some announcement is refused that is no
retraction. -/
theorem requests_exact (r : Router) (s : Source) (staleDelay : Delay) (now : Instant) :
    ((∀ op, RequestsBacked r (r.perform now op)) ∧
      (∀ step, RequestsBacked r (r.exchange step)) ∧
      (∀ id oldOrigin oldMetric, RequestsBacked r (r.announceChange id oldOrigin oldMetric)) ∧
      ∀ metric origin dest, RequestsBacked r (r.requestFeasible metric origin dest)) ∧
    (∀ steps : UInt16, steps.toNat < 32767 →
      s.Suffices staleDelay now (s.wantedSeqno.advance steps)) ∧
    (s.stale staleDelay now = false → ∃ refmetric : Metric, refmetric.reachable = true ∧
      s.admits staleDelay now (s.wantedSeqno - 1) refmetric = false) := by
  refine ⟨⟨?_, ?_, ?_, ?_⟩, ?_, ?_⟩
  · intro op
    exact r.requestsBacked_perform now op
  · intro step
    exact requestsBacked_of_outbox_eq (r.outbox_exchange step)
  · intro id oldOrigin oldMetric
    obtain ⟨dest, hd⟩ := r.exists_isFor id
    exact (told_announceChange hd oldOrigin oldMetric).requestsBacked
  · intro metric origin dest
    exact (told_requestFeasible r metric origin dest).requestsBacked
  · intro steps hsteps
    exact s.suffices_from_wanted staleDelay now hsteps
  · intro hs
    exact Source.exists_refused_before_wanted hs

/-- The last announcement of `O1` that was passed on has the highest number there is. -/
def lastOfO1 : Source := ⟨"O1", "P", 65535, 200, 1000⟩

/-- A router whose only route for `P` is the one that `lastOfO1` was passed on from. -/
def aboutToLose : Router :=
  { (twoNeighbours []).perform 1000 (.receive ⟨"O1", "P", 65535, 104, "N1", "H1"⟩) with
    sources := SourceTable.set {} lastOfO1 }

/-- When the route is lost, the number that follows on the highest one is asked for.  Every
announcement under it is feasible, and under the number before it not every one. -/
theorem requested_after_loss :
    (aboutToLose.flush 1001 0).outbox = aboutToLose.outbox ++
        [(Packet.routeUpdate "P" true).toAll, (Packet.seqnoRequest "P" "O1" 0).toAll] ∧
      (aboutToLose.flush 1001 0).sources.Backs (.seqnoRequest "P" "O1" 0) ∧
      lastOfO1.Suffices 180 1001 0 ∧
      ∃ refmetric : Metric, refmetric.reachable = true ∧
        lastOfO1.admits 180 1001 65535 refmetric = false := by
  have hqueued : (aboutToLose.flush 1001 0).outbox = aboutToLose.outbox ++
      [(Packet.routeUpdate "P" true).toAll, (Packet.seqnoRequest "P" "O1" 0).toAll] := by
    decide +kernel
  obtain ⟨⟨hperform, -, -, -⟩, hsuffices, hrefused⟩ :=
    requests_exact aboutToLose lastOfO1 180 1001
  obtain ⟨packets, hpackets, hbacked⟩ := hperform (.flush 0)
  obtain rfl := List.append_cancel_left (hpackets.symm.trans hqueued)
  exact ⟨hqueued, hbacked (Packet.seqnoRequest "P" "O1" 0).toAll (by simp),
    hsuffices 0 (by decide), hrefused (by decide)⟩

end Router

end DistanceVector
