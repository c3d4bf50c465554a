import DistanceVector.Proofs.SingleOwner

/-!
# What neighbours are told

Neighbours know a destination by the origin and the metric of the route that is installed for it.
This module says which changes of the two have to be announced, and what it means that they were.

Main definitions:

* `Router.standing` — origin and metric of the installed route;
* `UrgentChange`, `NotableChange` — a change that must be announced at once, and one that must be
  announced;
* `Router.Announced` — an announcement was queued;
* `Router.CoveredFrom`, `Router.Reported` — whatever had to be announced was.

Main results:

* `Router.Moves.standing_elsewhere` — moves leave the standing of other destinations alone;
* `Router.Reported.trans_covered` — what was announced on the way need not be announced again.
-/

set_option relaxedAutoImplicit false
set_option autoImplicit false

namespace DistanceVector

/-- Origin and metric of an installed route, if there is one. -/
abbrev Standing := Option (NodeAddress × Metric)

/-- A change that must be announced at once: the destination gained or lost its installed route,
the origin changed, exactly one of the metrics is infinite, or they are at least 512 apart. -/
def UrgentChange : Standing → Standing → Prop
  | some (origin, metric), some (origin', metric') =>
      origin ≠ origin' ∨ ¬ (metric = Metric.infinity ↔ metric' = Metric.infinity) ∨
        metric.toNat + 512 ≤ metric'.toNat ∨ metric'.toNat + 512 ≤ metric.toNat
  | none, none => False
  | some _, none | none, some _ => True

/-- A change that must be announced: the metrics are at least 256 apart. -/
def NotableChange : Standing → Standing → Prop
  | some (_, metric), some (_, metric') =>
      metric.toNat + 256 ≤ metric'.toNat ∨ metric'.toNat + 256 ≤ metric.toNat
  | _, _ => False

theorem not_urgentChange_self (standing : Standing) : ¬ UrgentChange standing standing := by
  cases standing with
  | none => exact fun h => h
  | some p =>
      rintro (h | h | h | h)
      · exact h rfl
      · exact h Iff.rfl
      · omega
      · omega

theorem not_notableChange_self (standing : Standing) : ¬ NotableChange standing standing := by
  cases standing with
  | none => exact fun h => h
  | some p =>
      rintro (h | h)
      · omega
      · omega

namespace Router

variable {now : Instant} {dest dest' : Prefix} {r r' r₁ r₂ r₃ : Router} {id : RouteId}
  {route : Route}

/-! ### Origin and metric of the installed route -/

/-- Origin and metric of the installed route for a destination. -/
def standing (r : Router) (dest : Prefix) : Standing :=
  (r.table.installed? dest).map fun e => (e.2.origin, e.2.metric)

theorem standing_of_owns (hex : r.table.Exclusive dest) (ho : r.table.Owns dest id route) :
    r.standing dest = some (route.origin, route.metric) := by
  rw [standing, ho.installed?_eq hex]
  rfl

theorem standing_eq_none (hn : ∀ id route, ¬ r.table.Owns dest id route) :
    r.standing dest = none := by
  cases h : r.table.installed? dest with
  | none =>
      rw [standing, h]
      rfl
  | some e => exact absurd (RouteTable.owns_of_installed? h) (hn e.1 e.2)

/-- If the same routes are installed with the same origins and metrics, then nothing changed for
the neighbours. -/
theorem standing_congr (hex : r.table.Exclusive dest) (hex' : r'.table.Exclusive dest)
    (hnew : ∀ id ρ, r'.table.Owns dest id ρ →
      ∃ σ, r.table.Owns dest id σ ∧ σ.origin = ρ.origin ∧ σ.metric = ρ.metric)
    (hold : ∀ id σ, r.table.Owns dest id σ → ∃ ρ, r'.table.Owns dest id ρ) :
    r'.standing dest = r.standing dest := by
  -- if no route is installed afterwards, none was before
  by_cases h : ∃ id ρ, r'.table.Owns dest id ρ
  · obtain ⟨id, ρ, ho'⟩ := h
    obtain ⟨σ, ho, horigin, hmetric⟩ := hnew id ρ ho'
    rw [standing_of_owns hex ho, standing_of_owns hex' ho', horigin, hmetric]
  · have hnone' : ∀ id ρ, ¬ r'.table.Owns dest id ρ := fun id ρ ho => h ⟨id, ρ, ho⟩
    have hnone : ∀ id σ, ¬ r.table.Owns dest id σ := by
      intro id σ ho
      obtain ⟨ρ, ho'⟩ := hold id σ ho
      exact hnone' id ρ ho'
    rw [standing_eq_none hnone, standing_eq_none hnone']

theorem standing_of_table_eq (h : r'.table = r.table) (dest : Prefix) :
    r'.standing dest = r.standing dest := by
  rw [standing, standing, h]

theorem AllMoves.exclusive (h : AllMoves now r r') (hex : r.table.Exclusive dest) :
    r'.table.Exclusive dest :=
  h.preserves (P := fun r => r.table.Exclusive dest) (fun hmove hex => hmove.exclusive hex) hex

/-- Moves leave the standing of other destinations alone. -/
theorem Moves.standing_elsewhere (h : Moves now dest r r') (hex : r.table.Exclusive dest')
    (hne : dest' ≠ dest) : r'.standing dest' = r.standing dest' := by
  refine standing_congr hex (h.all.exclusive hex) ?_ ?_
  · intro id ρ ho
    exact ⟨ρ, (h.owns_elsewhere_iff hne).1 ho, rfl, rfl⟩
  · intro id σ ho
    exact ⟨σ, (h.owns_elsewhere_iff hne).2 ho⟩

/-! ### Packets queued on the way -/

/-- No move takes a packet back. -/
theorem Move.outbox (h : Move now dest r r') : r.outbox <+: r'.outbox := by
  cases h with
  | told h =>
      obtain ⟨packets, _, _, rfl⟩ := h
      exact List.prefix_append r.outbox packets
  | _ => exact List.prefix_rfl

theorem AllMoves.outbox (h : AllMoves now r r') : r.outbox <+: r'.outbox := by
  induction h with
  | refl => exact List.prefix_rfl
  | tail _ hmove ih =>
      obtain ⟨dest, hmove⟩ := hmove
      exact ih.trans hmove.outbox

/-- Between the two states an announcement of the destination to all neighbours was queued. -/
def Announced (r r' : Router) (dest : Prefix) (urgent : Bool) : Prop :=
  ∃ packets, r'.outbox = r.outbox ++ packets ∧ (Packet.routeUpdate dest urgent).toAll ∈ packets

theorem Announced.of_later {urgent : Bool} (h : Announced r₂ r₃ dest urgent)
    (hp : r₁.outbox <+: r₂.outbox) : Announced r₁ r₃ dest urgent := by
  obtain ⟨packets, hpackets, hmem⟩ := h
  obtain ⟨before, hbefore⟩ := hp
  refine ⟨before ++ packets, ?_, List.mem_append_right before hmem⟩
  rw [hpackets, ← hbefore, List.append_assoc]

theorem Announced.of_earlier {urgent : Bool} (h : Announced r₁ r₂ dest urgent)
    (hp : r₂.outbox <+: r₃.outbox) : Announced r₁ r₃ dest urgent := by
  obtain ⟨packets, hpackets, hmem⟩ := h
  obtain ⟨after, hafter⟩ := hp
  refine ⟨packets ++ after, ?_, List.mem_append_left after hmem⟩
  rw [← hafter, hpackets, List.append_assoc]

theorem announced_announce (r : Router) (dest : Prefix) (urgent : Bool) :
    Announced r (r.announce dest urgent) dest urgent :=
  ⟨[(Packet.routeUpdate dest urgent).toAll], rfl, List.mem_singleton_self _⟩

/-- A change of the standing, away from `old`, was announced as it must be. -/
structure CoveredFrom (old : Standing) (r r' : Router) (dest : Prefix) : Prop where
  urgent : UrgentChange old (r'.standing dest) → Announced r r' dest true
  notable : NotableChange old (r'.standing dest) → ∃ urgent, Announced r r' dest urgent

/-- Somebody waits for news of the installed route. -/
def Awaited (r : Router) (dest : Prefix) : Prop :=
  ∃ id route, r.table.Owns dest id route ∧ r.awaits route = true

/-- A change of the standing, away from `old`, was announced at once exactly if it must be or
somebody waits for it, and announced at all exactly if that is so or it is notable. -/
structure AnnouncedExactly (old : Standing) (r r' : Router) (dest : Prefix) : Prop where
  urgent : Announced r r' dest true ↔ UrgentChange old (r'.standing dest) ∨ r'.Awaited dest
  any : (∃ urgent, Announced r r' dest urgent) ↔
    (UrgentChange old (r'.standing dest) ∨ r'.Awaited dest) ∨ NotableChange old (r'.standing dest)

theorem AnnouncedExactly.covered {old : Standing} (h : AnnouncedExactly old r r' dest) :
    CoveredFrom old r r' dest :=
  ⟨fun hchange => h.urgent.2 (.inl hchange), fun hchange => h.any.2 (.inr hchange)⟩

theorem announced_congr (h : r₁.outbox = r₂.outbox) {urgent : Bool} :
    Announced r₁ r₃ dest urgent ↔ Announced r₂ r₃ dest urgent := by
  rw [Announced, Announced, h]

theorem AnnouncedExactly.of_outbox_eq {old : Standing} (h : AnnouncedExactly old r₂ r₃ dest)
    (ho : r₁.outbox = r₂.outbox) : AnnouncedExactly old r₁ r₃ dest := by
  refine ⟨(announced_congr ho).trans h.urgent, ?_⟩
  simp only [announced_congr ho]
  exact h.any

/-- The change of the standing between the two states was announced as it must be. -/
def Covered (r r' : Router) (dest : Prefix) : Prop := CoveredFrom (r.standing dest) r r' dest

/-- The standing is the same in both states, or an urgent announcement was queued. -/
def Reported (r r' : Router) (dest : Prefix) : Prop :=
  r'.standing dest = r.standing dest ∨ Announced r r' dest true

theorem Announced.covered {old : Standing} (h : Announced r r' dest true) :
    CoveredFrom old r r' dest :=
  ⟨fun _ => h, fun _ => ⟨true, h⟩⟩

theorem covered_of_same (h : r'.standing dest = r.standing dest) : Covered r r' dest := by
  refine ⟨?_, ?_⟩
  · intro hchange
    rw [h] at hchange
    exact absurd hchange (not_urgentChange_self _)
  · intro hchange
    rw [h] at hchange
    exact absurd hchange (not_notableChange_self _)

theorem Reported.covered (h : Reported r r' dest) : Covered r r' dest := by
  rcases h with h | h
  · exact covered_of_same h
  · exact h.covered

theorem Reported.trans (h : Reported r₁ r₂ dest) (h' : Reported r₂ r₃ dest)
    (hp : r₁.outbox <+: r₂.outbox) (hp' : r₂.outbox <+: r₃.outbox) : Reported r₁ r₃ dest := by
  rcases h with h | h
  · rcases h' with h' | h'
    · exact .inl (h'.trans h)
    · exact .inr (h'.of_later hp)
  · exact .inr (h.of_earlier hp')

theorem CoveredFrom.of_later {old : Standing} (h : CoveredFrom old r₂ r₃ dest)
    (hp : r₁.outbox <+: r₂.outbox) : CoveredFrom old r₁ r₃ dest := by
  refine ⟨?_, ?_⟩
  · intro hchange
    exact (h.urgent hchange).of_later hp
  · intro hchange
    obtain ⟨urgent, hannounced⟩ := h.notable hchange
    exact ⟨urgent, hannounced.of_later hp⟩

/-- What was announced at once on the way need not be announced again. -/
theorem Reported.trans_covered (h : Reported r₁ r₂ dest) (h' : Covered r₂ r₃ dest)
    (hp : r₁.outbox <+: r₂.outbox) (hp' : r₂.outbox <+: r₃.outbox) : Covered r₁ r₃ dest := by
  rcases h with h | h
  · rw [Covered, ← h]
    exact CoveredFrom.of_later h' hp
  · exact (h.of_earlier hp').covered

end Router

end DistanceVector
