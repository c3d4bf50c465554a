import DistanceVector.Router.Receiving
import Mathlib.Logic.Relation
import Mathlib.Tactic.ByContra

/-!
# Elementary moves of a router

Whatever a router does is a chain of elementary moves, but for the two moments in which an
advertisement is taken down and a new route is stored.  A move asks the kernel for one operation at
most, brings no route into the table, and belongs to one destination: it touches nothing of any
other.  What holds of every run is proved here once for each move; that the operations of a router
are chains of moves is the business of `Proofs.Operations`.

Main definitions:

* `SourceTable.Backs` — the records back what a packet asks for;
* `Router.Told` — only packets that the records back and events were added;
* `Router.Asks` — the operations that a router may ask the kernel for;
* `Router.Move` — an elementary move, `Router.Moves` — a chain of them;
* `Router.Heard` — an advertisement is taken down;
* `Router.SameBackground` — what a router consults is the same.

Main results:

* `Router.Move.get?_elsewhere`, `Router.Move.get?_kept_elsewhere`,
  `Router.Move.leftovers_elsewhere` — **a move leaves every other destination alone**;
* `Router.Move.nextId`, `Router.Move.gone` — it gives out no name;
* `Router.Move.sameBackground` — and changes nothing that a router consults.
-/

set_option relaxedAutoImplicit false
set_option autoImplicit false

namespace DistanceVector

/-- A request for a number is backed if its source is on record and the number is the wanted one.
Nothing else that a packet says needs a record. -/
def SourceTable.Backs (t : SourceTable) : Packet → Prop
  | .routeUpdate _ _ => True
  | .routeRequest _ => True
  | .seqnoRequest dest origin seqno =>
    ∃ s, t.find? origin dest = some s ∧ s.wantedSeqno = seqno

namespace Router

/-- A name is that of a route for the destination, or of none. -/
def IsFor (r : Router) (id : RouteId) (dest : Prefix) : Prop :=
  ∀ route, r.table.get? id = some route → route.dest = dest

theorem isFor_dest {r : Router} {id : RouteId} {route : Route}
    (hr : r.table.get? id = some route) : r.IsFor id route.dest := by
  intro other ho
  rw [hr] at ho
  cases ho
  rfl

/-! ### Packets and events -/

/-- Between the two states, packets about the destination were queued that the records back, and
events reported. -/
def Told (dest : Prefix) (r r' : Router) : Prop :=
  ∃ packets events, (∀ p ∈ packets, p.packet.dest = dest ∧ r.sources.Backs p.packet) ∧
    r' = { r with outbox := r.outbox ++ packets, events := r.events ++ events }

theorem Told.refl (dest : Prefix) (r : Router) : Told dest r r := ⟨[], [], by simp, by simp⟩

theorem Told.trans {dest : Prefix} {r₁ r₂ r₃ : Router} (h : Told dest r₁ r₂)
    (h' : Told dest r₂ r₃) : Told dest r₁ r₃ := by
  obtain ⟨packets, events, hdest, rfl⟩ := h
  obtain ⟨packets', events', hdest', rfl⟩ := h'
  refine ⟨packets ++ packets', events ++ events', fun p hp => ?_, by simp⟩
  rcases List.mem_append.1 hp with hp | hp
  · exact hdest p hp
  · exact hdest' p hp

theorem told_report (dest : Prefix) (r : Router) (e : Event) : Told dest r (r.report e) :=
  ⟨[], [e], by simp, by simp [report]⟩

theorem told_queue {r : Router} {p : OutboundPacket} (h : r.sources.Backs p.packet) :
    Told p.packet.dest r (r.queue p) := by
  refine ⟨[p], [.queueing p], fun q hq => ?_, by simp [queue, report]⟩
  rw [List.mem_singleton.1 hq]
  exact ⟨rfl, h⟩

/-! ### Moves -/

/-- The operations that a router may ask the kernel for: to install a candidate where nothing is
installed, to put one in the place of the installed route, to withdraw the installed route or
change its metric, and to remove a leftover. -/
inductive Asks (now : Instant) (dest : Prefix) (r : Router) : KernelOp → Prop
  | install {id : RouteId} {route : Route} (hc : r.candidate? now id = some route)
      (hd : route.dest = dest) (hn : r.table.installed? dest = none) :
      Asks now dest r (r.installOp (r.entryOf route))
  | replace {id oldId : RouteId} {route old : Route} (hc : r.candidate? now id = some route)
      (hd : route.dest = dest) (ho : r.table.Owns dest oldId old) :
      Asks now dest r (.modify (r.entryOf old) (r.entryOf route))
  | withdraw {id : RouteId} {route : Route} (ho : r.table.Owns dest id route) :
      Asks now dest r (.flush (r.entryOf route))
  | remetric {id : RouteId} {route : Route} (metric : Metric) (ho : r.table.Owns dest id route) :
      Asks now dest r (r.metricOp route metric)
  | retry {entry : KernelEntry} (hl : r.leftovers.get? dest = some entry) :
      Asks now dest r (.flush entry)

/-- **An elementary move of a router** that concerns one destination. -/
inductive Move (now : Instant) (dest : Prefix) (r : Router) : Router → Prop
  /-- Packets are queued and events reported. -/
  | told {r' : Router} (h : Told dest r r') : Move now dest r r'
  /-- The kernel refuses an operation. -/
  | refused {op : KernelOp} {error : KernelError} (ha : Asks now dest r op)
      (he : r.kernel.answer op = some error) :
      Move now dest r { r with kernel := r.kernel.after op }
  /-- A candidate is installed where nothing was. -/
  | installed {id : RouteId} {route : Route} (hc : r.candidate? now id = some route)
      (hd : route.dest = dest) (hn : r.table.installed? dest = none)
      (he : r.kernel.answer (r.installOp (r.entryOf route)) = none ∨
        r.kernel.answer (r.installOp (r.entryOf route)) = some .alreadyExists) :
      Move now dest r { r with
        table := r.table.modify id ({ · with installed := true })
        kernel := r.kernel.after (r.installOp (r.entryOf route))
        leftovers := r.leftovers.erase dest }
  /-- A candidate takes the place of the installed route. -/
  | replaced {id oldId : RouteId} {route old : Route} (hc : r.candidate? now id = some route)
      (hd : route.dest = dest) (ho : r.table.Owns dest oldId old)
      (he : r.kernel.answer (.modify (r.entryOf old) (r.entryOf route)) = none) :
      Move now dest r { r with
        table := (r.table.modify oldId ({ · with installed := false })).modify id
          ({ · with installed := true })
        kernel := r.kernel.after (.modify (r.entryOf old) (r.entryOf route)) }
  /-- The installed route is taken out of the forwarding table. -/
  | withdrawn {id : RouteId} {route : Route} (ho : r.table.Owns dest id route)
      (he : r.kernel.answer (.flush (r.entryOf route)) = none ∨
        r.kernel.answer (.flush (r.entryOf route)) = some .notFound) :
      Move now dest r { r with
        table := r.table.modify id ({ · with installed := false })
        kernel := r.kernel.after (.flush (r.entryOf route)) }
  /-- The installed route leaves the table while the kernel keeps its entry. -/
  | abandoned {id : RouteId} {route : Route} {error : KernelError}
      (ho : r.table.Owns dest id route)
      (he : r.kernel.answer (.flush (r.entryOf route)) = some error) (hne : error ≠ .notFound) :
      Move now dest r { r with
        table := r.table.erase id
        kernel := r.kernel.after (.flush (r.entryOf route))
        leftovers := r.leftovers.insert dest (r.entryOf route) }
  /-- A route that is not installed leaves the table. -/
  | erased {id : RouteId} {route : Route} (hr : r.table.get? id = some route)
      (hd : route.dest = dest) (hi : route.installed = false) :
      Move now dest r { r with table := r.table.erase id }
  /-- A route is retracted. -/
  | retracted {id : RouteId} {route : Route} (seqno : Seqno) (hr : r.table.get? id = some route)
      (hd : route.dest = dest) :
      Move now dest r { r with
        table := r.table.modify id ({ · with seqno, refmetric := Metric.infinity }) }
  /-- The metric of a route that is not installed changes. -/
  | remetric {id : RouteId} {route : Route} (metric : Metric) (hr : r.table.get? id = some route)
      (hd : route.dest = dest) (hi : route.installed = false) :
      Move now dest r { r with table := r.table.modify id ({ · with metric }) }
  /-- The metric of the installed route changes. -/
  | remetricInstalled {id : RouteId} {route : Route} {metric : Metric}
      (ho : r.table.Owns dest id route) (he : r.kernel.answer (r.metricOp route metric) = none) :
      Move now dest r { r with
        table := r.table.modify id ({ · with metric })
        kernel := r.kernel.after (r.metricOp route metric) }
  /-- A leftover is removed. -/
  | forgotten {entry : KernelEntry} (hl : r.leftovers.get? dest = some entry)
      (he : r.kernel.answer (.flush entry) = none ∨
        r.kernel.answer (.flush entry) = some .notFound) :
      Move now dest r { r with
        kernel := r.kernel.after (.flush entry)
        leftovers := r.leftovers.erase dest }

/-- A chain of moves that concern one destination. -/
def Moves (now : Instant) (dest : Prefix) : Router → Router → Prop :=
  Relation.ReflTransGen (Move now dest)

/-- A chain of moves, whichever destinations they concern. -/
def AllMoves (now : Instant) : Router → Router → Prop :=
  Relation.ReflTransGen fun r r' => ∃ dest, Move now dest r r'

theorem Moves.all {now : Instant} {dest : Prefix} {r r' : Router} (h : Moves now dest r r') :
    AllMoves now r r' := by
  induction h with
  | refl => exact .refl
  | tail _ hmove ih => exact ih.tail ⟨dest, hmove⟩

/-- An advertisement is taken down: its source is put on record, or the route that it is about is
rewritten. -/
inductive Heard (now : Instant) (adv : Advertisement) (r : Router) : Router → Prop
  | observed {sources : SourceTable}
      (h : r.sources.observe adv.origin adv.dest adv.seqno now = some sources) :
      Heard now adv r { r with sources := sources }
  | recorded {id : RouteId} {route : Route} (feasible : Bool) (hr : r.table.get? id = some route)
      (hd : route.dest = adv.dest) :
      Heard now adv r { r with table := r.table.modify id (·.withAdvertisement now adv feasible) }

theorem Told.moves {now : Instant} {dest : Prefix} {r r' : Router} (h : Told dest r r') :
    Moves now dest r r' := .single (.told h)

/-! ### Other destinations -/

/-- A move leaves the routes of every other destination alone, and brings it none. -/
theorem Move.get?_elsewhere {now : Instant} {dest dest' : Prefix} {r r' : Router}
    (h : Move now dest r r') (hne : dest' ≠ dest) {id : RouteId} {route : Route}
    (hr : r'.table.get? id = some route) (hd : route.dest = dest') :
    r.table.get? id = some route := by
  cases h with
  | told h =>
      obtain ⟨_, _, _, rfl⟩ := h
      exact hr
  | installed hc hd' hn he => grind [get?_of_candidate? hc]
  | replaced hc hd' ho he => grind [get?_of_candidate? hc, RouteTable.Owns]
  | _ => grind [RouteTable.Owns]

/-- A move leaves the leftovers of every other destination alone. -/
theorem Move.leftovers_elsewhere {now : Instant} {dest dest' : Prefix} {r r' : Router}
    (h : Move now dest r r') (hne : dest' ≠ dest) :
    r'.leftovers.get? dest' = r.leftovers.get? dest' := by
  cases h with
  | told h =>
      obtain ⟨_, _, _, rfl⟩ := h
      rfl
  | _ => grind

theorem Move.isFor {now : Instant} {dest : Prefix} {r r' : Router} {id : RouteId}
    (h : Move now dest r r') (hd : r.IsFor id dest) : r'.IsFor id dest := by
  intro route hr
  by_contra hne
  exact hne (hd route (h.get?_elsewhere hne hr rfl))

theorem Moves.isFor {now : Instant} {dest : Prefix} {r r' : Router} {id : RouteId}
    (h : Moves now dest r r') (hd : r.IsFor id dest) : r'.IsFor id dest := by
  induction h with
  | refl => exact hd
  | tail _ hmove ih => exact hmove.isFor ih

section Elsewhere

variable {now : Instant} {dest dest' : Prefix} {r r' : Router}

theorem Move.owns_elsewhere (h : Move now dest r r') (hne : dest' ≠ dest) {id : RouteId}
    {route : Route} (ho : r'.table.Owns dest' id route) : r.table.Owns dest' id route :=
  ⟨h.get?_elsewhere hne ho.get ho.dest_eq, ho.installed, ho.dest_eq⟩

/-- A move takes nothing away from any other destination. -/
theorem Move.get?_kept_elsewhere (h : Move now dest r r') (hne : dest' ≠ dest) {id : RouteId}
    {route : Route} (hr : r.table.get? id = some route) (hd : route.dest = dest') :
    r'.table.get? id = some route := by
  cases h with
  | told h =>
      obtain ⟨_, _, _, rfl⟩ := h
      exact hr
  | installed hc hd' hn he => grind [get?_of_candidate? hc]
  | replaced hc hd' ho he => grind [get?_of_candidate? hc, RouteTable.Owns]
  | _ => grind [RouteTable.Owns]

theorem Move.owns_of_owns_elsewhere (h : Move now dest r r') (hne : dest' ≠ dest) {id : RouteId}
    {route : Route} (ho : r.table.Owns dest' id route) : r'.table.Owns dest' id route :=
  ⟨h.get?_kept_elsewhere hne ho.get ho.dest_eq, ho.installed, ho.dest_eq⟩

theorem Moves.get?_elsewhere (h : Moves now dest r r') (hne : dest' ≠ dest) {id : RouteId}
    {route : Route} (hr : r'.table.get? id = some route) (hd : route.dest = dest') :
    r.table.get? id = some route := by
  induction h with
  | refl => exact hr
  | tail _ hmove ih => exact ih (hmove.get?_elsewhere hne hr hd)

theorem Moves.get?_kept_elsewhere (h : Moves now dest r r') (hne : dest' ≠ dest) {id : RouteId}
    {route : Route} (hr : r.table.get? id = some route) (hd : route.dest = dest') :
    r'.table.get? id = some route := by
  induction h with
  | refl => exact hr
  | tail _ hmove ih => exact hmove.get?_kept_elsewhere hne ih hd

/-- What is installed for any other destination stays as it was. -/
theorem Moves.owns_elsewhere_iff (h : Moves now dest r r') (hne : dest' ≠ dest) {id : RouteId}
    {route : Route} : r'.table.Owns dest' id route ↔ r.table.Owns dest' id route := by
  constructor
  · intro ho
    exact ⟨h.get?_elsewhere hne ho.get ho.dest_eq, ho.installed, ho.dest_eq⟩
  · intro ho
    exact ⟨h.get?_kept_elsewhere hne ho.get ho.dest_eq, ho.installed, ho.dest_eq⟩

/-! ### Names -/

/-- A move gives out no name. -/
theorem Move.nextId (h : Move now dest r r') : r'.table.nextId = r.table.nextId := by
  cases h with
  | told h =>
      obtain ⟨_, _, _, rfl⟩ := h
      rfl
  | _ => rfl

/-- A name that is no route's does not become that of one by a move. -/
theorem Move.gone (h : Move now dest r r') {id : RouteId} (hgone : r.table.get? id = none) :
    r'.table.get? id = none := by
  cases h with
  | told h =>
      obtain ⟨_, _, _, rfl⟩ := h
      exact hgone
  | _ => grind

end Elsewhere

/-! ### What a router consults -/

/-- What a router consults is the same in both states. -/
structure SameBackground (r r' : Router) : Prop where
  params : r'.params = r.params
  sources : r'.sources = r.sources
  neighbours : r'.neighbours = r.neighbours
  filter : r'.filter = r.filter
  exports : r'.exports = r.exports
  requests : r'.requests = r.requests

theorem SameBackground.refl (r : Router) : SameBackground r r := ⟨rfl, rfl, rfl, rfl, rfl, rfl⟩

theorem SameBackground.symm {r r' : Router} (h : SameBackground r r') : SameBackground r' r :=
  ⟨h.params.symm, h.sources.symm, h.neighbours.symm, h.filter.symm, h.exports.symm,
    h.requests.symm⟩

theorem SameBackground.trans {r₁ r₂ r₃ : Router} (h : SameBackground r₁ r₂)
    (h' : SameBackground r₂ r₃) : SameBackground r₁ r₃ :=
  ⟨h'.params.trans h.params, h'.sources.trans h.sources, h'.neighbours.trans h.neighbours,
    h'.filter.trans h.filter, h'.exports.trans h.exports, h'.requests.trans h.requests⟩

theorem SameBackground.routeFeasible {r r' : Router} (h : SameBackground r r') (now : Instant)
    (route : Route) : r'.routeFeasible now route = r.routeFeasible now route := by
  rw [Router.routeFeasible, Router.routeFeasible, feasible, feasible, h.sources, h.params]

/-- A move changes nothing that a router consults. -/
theorem Move.sameBackground {now : Instant} {dest : Prefix} {r r' : Router}
    (h : Move now dest r r') : SameBackground r r' := by
  cases h with
  | told h =>
      obtain ⟨_, _, _, rfl⟩ := h
      exact ⟨rfl, rfl, rfl, rfl, rfl, rfl⟩
  | _ => exact ⟨rfl, rfl, rfl, rfl, rfl, rfl⟩

theorem Moves.sameBackground {now : Instant} {dest : Prefix} {r r' : Router}
    (h : Moves now dest r r') : SameBackground r r' := by
  induction h with
  | refl => exact .refl r
  | tail _ hmove ih => exact ih.trans hmove.sameBackground

theorem AllMoves.sameBackground {now : Instant} {r r' : Router} (h : AllMoves now r r') :
    SameBackground r r' := by
  induction h with
  | refl => exact .refl r
  | tail _ hmove ih =>
      obtain ⟨dest, hmove⟩ := hmove
      exact ih.trans hmove.sameBackground

end Router

end DistanceVector
