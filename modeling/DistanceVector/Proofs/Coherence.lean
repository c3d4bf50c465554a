import DistanceVector.Proofs.KernelLog
import DistanceVector.Proofs.Names

/-!
# Routes and the forwarding table agree

If nobody else edits the forwarding table, and the kernel refuses operations only for reasons of
its own, then the forwarding table holds the entries of the installed routes and the leftovers, and
nothing else.  That lasts until the names of the routes run out: then a new route may take the place
of an installed one by taking its name, and the entry of that one outlives it.

Main definitions:

* `Router.Coherent` — routes, leftovers and the forwarding table agree about a destination;
* `Router.InStep` — they agree about all, and so did every operation so far;
* `Router.Undisturbed` — the routers that come about when nobody else edits the forwarding table,
  and how many routes were stored on the way.

Main results:

* `Router.Asks.fits` — what a router asks for fits the forwarding table;
* `Router.Move.inStep`, `Router.Heard.inStep` — every step keeps a router in step;
* `Router.undisturbed_coherent` — **whatever the kernel refuses, routes and forwarding table
  agree**, until the names run out;
* `Router.entry_outlives_its_name` — they need not agree any more then.
-/

set_option relaxedAutoImplicit false
set_option autoImplicit false

namespace DistanceVector.Router

variable {now : Instant} {dest dest' : Prefix} {r r' : Router}

/-- The forwarding table holds the entry of the installed route for the destination, or what is
left over for it, or nothing. -/
structure Coherent (r : Router) (dest : Prefix) : Prop extends r.SoleOwner dest where
  owner : ∀ id route, r.table.Owns dest id route →
    r.kernel.entries.get? dest = some (r.entryOf route)
  leftover : ∀ entry, r.leftovers.get? dest = some entry →
    r.kernel.entries.get? dest = some entry
  covered : ∀ entry, r.kernel.entries.get? dest = some entry →
    (∃ id route, r.table.Owns dest id route) ∨ r.leftovers.get? dest = some entry

/-- Routes and forwarding table agree about every destination, and every operation so far fitted
the forwarding table of its time. -/
structure InStep (r : Router) : Prop where
  exact : r.kernel.Exact
  coherent : ∀ dest, r.Coherent dest

/-! ### Operations fit -/

theorem entries_of_nothing (h : r.Coherent dest) (hn : ∀ id route, ¬ r.table.Owns dest id route)
    (hl : r.leftovers.get? dest = none) : r.kernel.entries.get? dest = none := by
  rw [Option.eq_none_iff_forall_ne_some]
  intro entry he
  rcases h.covered entry he with ⟨id, route, ho⟩ | hl'
  · exact hn id route ho
  · rw [hl] at hl'
    cases hl'

/-- What a router asks for fits the forwarding table. -/
theorem Asks.fits {op : KernelOp} (ha : Asks now dest r op) (h : r.Coherent dest) :
    op.Fits r.kernel.entries := by
  cases ha with
  | @install id route hc hd hn =>
      subst hd
      cases hl : r.leftovers.get? route.dest with
      | none =>
          rw [show r.installOp (r.entryOf route) = .add _ from installOp_of_no_leftover hl]
          exact entries_of_nothing h (RouteTable.installed?_eq_none_iff.1 hn) hl
      | some old =>
          rw [show r.installOp (r.entryOf route) = .modify old _ from installOp_of_leftover hl]
          have hdest := h.keyed old hl
          refine ⟨hdest, ?_⟩
          rw [hdest]
          exact h.leftover old hl
  | @replace id oldId route old hc hd ho =>
      refine ⟨ho.dest_eq.trans hd.symm, ?_⟩
      have hentry := h.owner oldId old ho
      rwa [← ho.dest_eq] at hentry
  | @withdraw id route ho =>
      have hentry := h.owner id route ho
      rwa [← ho.dest_eq] at hentry
  | @remetric id route metric ho =>
      refine ⟨rfl, ?_⟩
      have hentry := h.owner id route ho
      rwa [← ho.dest_eq] at hentry
  | @retry entry hl =>
      have hentry := h.leftover entry hl
      rwa [← h.keyed entry hl] at hentry

theorem Asks.dest_eq {op : KernelOp} (ha : Asks now dest r op) (h : r.SoleOwner dest) :
    op.dest = dest := by
  cases ha with
  | install hc hd hn => exact (dest_installOp r _).trans hd
  | replace hc hd ho => exact hd
  | withdraw ho => exact ho.dest_eq
  | remetric metric ho => exact ho.dest_eq
  | retry hl => exact h.keyed _ hl

/-- A move asks the kernel for nothing, or for one operation. -/
theorem Move.asks (h : Move now dest r r') :
    r'.kernel = r.kernel ∨ ∃ op, Asks now dest r op ∧ r'.kernel = r.kernel.after op := by
  cases h with
  | told h =>
      obtain ⟨_, _, _, rfl⟩ := h
      exact .inl rfl
  | refused ha he => exact .inr ⟨_, ha, rfl⟩
  | installed hc hd hn he => exact .inr ⟨_, .install hc hd hn, rfl⟩
  | replaced hc hd ho he => exact .inr ⟨_, .replace hc hd ho, rfl⟩
  | withdrawn ho he => exact .inr ⟨_, .withdraw ho, rfl⟩
  | abandoned ho he => exact .inr ⟨_, .withdraw ho, rfl⟩
  | remetricInstalled ho he => exact .inr ⟨_, .remetric _ ho, rfl⟩
  | forgotten hl he => exact .inr ⟨_, .retry hl, rfl⟩
  | erased hr hd hi => exact .inl rfl
  | retracted seqno hr hd => exact .inl rfl
  | remetric metric hr hd hi => exact .inl rfl

theorem Move.exact (h : Move now dest r r') (hs : r.InStep) : r'.kernel.Exact := by
  rcases h.asks with hsame | ⟨op, ha, hafter⟩
  · exact hsame ▸ hs.exact
  · exact hafter ▸ hs.exact.after (ha.fits (hs.coherent dest))

/-! ### What the forwarding table may hold

There are three ways to agree about a destination, and a fourth is that nothing changed. -/

theorem SoleOwner.coherent_of_owner (hs : r.SoleOwner dest) {id : RouteId} {route : Route}
    (ho : r.table.Owns dest id route)
    (he : r.kernel.entries.get? dest = some (r.entryOf route)) : r.Coherent dest := by
  refine ⟨hs, ?_, ?_, ?_⟩
  · intro other ρ ho'
    obtain rfl := hs.exclusive _ _ _ _ ho ho'
    obtain rfl := Option.some.inj (ho.get.symm.trans ho'.get)
    exact he
  · intro entry hl
    rw [hs.idle id route ho] at hl
    cases hl
  · intro entry _
    exact .inl ⟨id, route, ho⟩

theorem SoleOwner.coherent_of_leftover (hs : r.SoleOwner dest) {entry : KernelEntry}
    (hl : r.leftovers.get? dest = some entry)
    (he : r.kernel.entries.get? dest = some entry) : r.Coherent dest := by
  refine ⟨hs, ?_, ?_, ?_⟩
  · intro id route ho
    rw [hs.idle id route ho] at hl
    cases hl
  · intro other hl'
    rw [he, ← hl, hl']
  · intro other he'
    rw [hl, ← he, he']
    exact .inr rfl

theorem SoleOwner.coherent_of_nothing (hs : r.SoleOwner dest)
    (hn : ∀ id route, ¬ r.table.Owns dest id route) (hl : r.leftovers.get? dest = none)
    (he : r.kernel.entries.get? dest = none) : r.Coherent dest := by
  refine ⟨hs, ?_, ?_, ?_⟩
  · intro id route ho
    exact absurd ho (hn id route)
  · intro entry hl'
    rw [hl] at hl'
    cases hl'
  · intro entry he'
    rw [he] at he'
    cases he'

/-- If entries, leftovers and the entries of the installed routes are as before, routes and
forwarding table still agree. -/
theorem SoleOwner.coherent_of_same (hs : r'.SoleOwner dest) (h : r.Coherent dest)
    (he : r'.kernel.entries.get? dest = r.kernel.entries.get? dest)
    (hl : r'.leftovers.get? dest = r.leftovers.get? dest)
    (hnew : ∀ id ρ, r'.table.Owns dest id ρ →
      ∃ σ, r.table.Owns dest id σ ∧ r'.entryOf ρ = r.entryOf σ)
    (hold : ∀ id σ, r.table.Owns dest id σ → ∃ ρ, r'.table.Owns dest id ρ) :
    r'.Coherent dest := by
  refine ⟨hs, ?_, ?_, ?_⟩
  · intro id ρ ho
    obtain ⟨σ, ho', hentry⟩ := hnew id ρ ho
    rw [he, hentry]
    exact h.owner id σ ho'
  · intro entry hl'
    rw [he]
    exact h.leftover entry (hl ▸ hl')
  · intro entry he'
    rcases h.covered entry (he ▸ he') with ⟨id, σ, ho⟩ | hl'
    · obtain ⟨ρ, ho'⟩ := hold id σ ho
      exact .inl ⟨id, ρ, ho'⟩
    · exact .inr (hl.trans hl')

/-- To rewrite what is not part of the entry of an installed route leaves routes and forwarding
table in agreement. -/
theorem SoleOwner.coherent_of_modify {id : RouteId} {f : Route → Route}
    (hs : SoleOwner { r with table := r.table.modify id f } dest) (h : r.Coherent dest)
    (hi : ∀ ρ, (f ρ).installed = ρ.installed) (hd : ∀ ρ, (f ρ).dest = ρ.dest)
    (he : ∀ ρ, r.table.Owns dest id ρ → r.entryOf (f ρ) = r.entryOf ρ) :
    Coherent { r with table := r.table.modify id f } dest := by
  refine hs.coherent_of_same h rfl rfl ?_ ?_
  · intro other ρ ho
    obtain ⟨σ, hσ, heq⟩ := RouteTable.exists_owns_of_modify ho (fun ρ hρ => hi ρ ▸ hρ) hd
    refine ⟨σ, hσ, ?_⟩
    rw [heq]
    split
    · next hid => exact he σ (hid ▸ hσ)
    · rfl
  · intro other σ ho
    exact ⟨_, ho.modify (fun ρ hρ => (hi ρ).trans hρ) hd⟩

/-! ### A single step -/

theorem entryOf_congr (h : r'.params = r.params) (route : Route) :
    r'.entryOf route = r.entryOf route := by
  rw [entryOf, entryOf, entryWith, entryWith, h]

theorem outcome_installOp (r : Router) (entry : KernelEntry) :
    (r.installOp entry).outcome = some entry := by
  unfold installOp
  split <;> rfl

/-- The kernel refuses what a router in step asks for only for an outage. -/
theorem Asks.isOutage {op : KernelOp} (ha : Asks now dest r op) (hs : r.InStep)
    {error : KernelError} (he : r.kernel.answer op = some error) : error.IsOutage :=
  Kernel.answer_of_fits (ha.fits (hs.coherent dest)) hs.exact.outages he

theorem Asks.answer_eq_none {op : KernelOp} (ha : Asks now dest r op) (hs : r.InStep)
    {error : KernelError} (he : r.kernel.answer op = none ∨ r.kernel.answer op = some error)
    (hne : ¬ error.IsOutage) : r.kernel.answer op = none := by
  rcases he with he | he
  · exact he
  · exact absurd (ha.isOutage hs he) hne

theorem Asks.accepted {op : KernelOp} (ha : Asks now dest r op) (hs : r.SoleOwner dest)
    (he : r.kernel.answer op = none) :
    (r.kernel.after op).entries.get? dest = op.outcome := by
  rw [← ha.dest_eq hs]
  exact Kernel.get?_entries_after_of_accepted he

/-- Where the kernel carried out an operation that leads to the entry of the route that is installed
now, routes and forwarding table agree. -/
theorem Asks.coherent_of_owner {op : KernelOp} {id : RouteId} {ρ : Route}
    (ha : Asks now dest r op) (hbefore : r.SoleOwner dest) (hs : r'.SoleOwner dest)
    (he : r.kernel.answer op = none) (hk : r'.kernel = r.kernel.after op)
    (hp : r'.params = r.params) (ho : r'.table.Owns dest id ρ)
    (hout : op.outcome = some (r.entryOf ρ)) : r'.Coherent dest := by
  refine hs.coherent_of_owner ho ?_
  rw [hk, ha.accepted hbefore he, hout, entryOf_congr hp]

/-- Where the kernel carried out an operation that leads to no entry, and neither a route is
installed now nor an entry left over, they agree, too. -/
theorem Asks.coherent_of_nothing {op : KernelOp} (ha : Asks now dest r op)
    (hbefore : r.SoleOwner dest) (hs : r'.SoleOwner dest) (he : r.kernel.answer op = none)
    (hk : r'.kernel = r.kernel.after op) (hn : ∀ id ρ, ¬ r'.table.Owns dest id ρ)
    (hl : r'.leftovers.get? dest = none) (hout : op.outcome = none) : r'.Coherent dest := by
  refine hs.coherent_of_nothing hn hl ?_
  rw [hk, ha.accepted hbefore he, hout]

/-- A move keeps routes and forwarding table in agreement about its destination. -/
theorem Move.coherent_here (h : Move now dest r r') (hs : r.InStep) : r'.Coherent dest := by
  have hc := hs.coherent dest
  have hbefore : r.SoleOwner dest := hc.toSoleOwner
  have hsole : r'.SoleOwner dest := h.soleOwner hbefore
  -- where the kernel was asked, its answer says what it holds now, and otherwise nothing changed
  cases h with
  | told h =>
      obtain ⟨_, _, _, rfl⟩ := h
      exact hsole.coherent_of_same hc rfl rfl (fun id ρ ho => ⟨ρ, ho, rfl⟩) fun id σ ho => ⟨σ, ho⟩
  | refused ha he =>
      refine hsole.coherent_of_same hc ?_ rfl (fun id ρ ho => ⟨ρ, ho, rfl⟩) fun id σ ho => ⟨σ, ho⟩
      rw [Kernel.entries_after_of_refused he]
  | @installed id route hcand hd hn he =>
      subst hd
      have hasks := Asks.install hcand rfl hn
      have howner := RouteTable.owns_of_marked (get?_of_candidate? hcand).1
      exact hasks.coherent_of_owner hbefore hsole (hasks.answer_eq_none hs he fun h => h) rfl rfl
        howner (outcome_installOp r _)
  | @replaced id oldId route old hcand hd ho he =>
      subst hd
      obtain ⟨hr, hi, -, -⟩ := get?_of_candidate? hcand
      have howner := RouteTable.owns_of_exchanged hr (ho.ne_of_not_installed hr hi)
      exact (Asks.replace hcand rfl ho).coherent_of_owner hbefore hsole he rfl rfl howner rfl
  | withdrawn ho he =>
      have hasks : Asks now dest r _ := .withdraw ho
      exact hasks.coherent_of_nothing hbefore hsole (hasks.answer_eq_none hs he fun h => h) rfl
        (hc.exclusive.not_owns_of_withdrawn ho) (hc.idle _ _ ho) rfl
  | abandoned ho he =>
      refine hsole.coherent_of_leftover (OrderedMap.get?_insert_self r.leftovers dest _) ?_
      rw [Kernel.entries_after_of_refused he]
      exact hc.owner _ _ ho
  | erased hr hd hi =>
      refine hsole.coherent_of_same hc rfl rfl ?_ ?_
      · intro other ρ ho
        exact ⟨ρ, (RouteTable.owns_erase.1 ho).2, rfl⟩
      · intro other σ ho
        exact ⟨σ, RouteTable.owns_erase.2 ⟨ho.ne_of_not_installed hr hi, ho⟩⟩
  | retracted seqno hr hd =>
      exact hsole.coherent_of_modify hc (fun _ => rfl) (fun _ => rfl) fun _ _ => rfl
  | remetric metric hr hd hi =>
      refine hsole.coherent_of_modify hc (fun _ => rfl) (fun _ => rfl) ?_
      intro σ hσ
      exact absurd rfl (hσ.ne_of_not_installed hr hi)
  | @remetricInstalled id route metric ho he =>
      have hasks : Asks now dest r _ := .remetric metric ho
      have howner : (r.table.modify id ({ · with metric })).Owns dest id { route with metric } :=
        RouteTable.owns_modify_self.2 ⟨route, ho.get, rfl, ho.installed, ho.dest_eq⟩
      exact hasks.coherent_of_owner hbefore hsole he rfl rfl howner rfl
  | forgotten hl he =>
      have hasks : Asks now dest r _ := .retry hl
      refine hasks.coherent_of_nothing hbefore hsole (hasks.answer_eq_none hs he fun h => h) rfl ?_
        (OrderedMap.get?_erase_self r.leftovers dest) rfl
      intro other ρ ho
      rw [hc.idle other ρ ho] at hl
      cases hl

theorem Move.entries_elsewhere (h : Move now dest r r') (hs : r.SoleOwner dest)
    (hne : dest' ≠ dest) : r'.kernel.entries.get? dest' = r.kernel.entries.get? dest' := by
  rcases h.asks with hsame | ⟨op, ha, hafter⟩
  · rw [hsame]
  · rw [hafter]
    exact Kernel.get?_entries_after_of_ne (by rwa [ha.dest_eq hs])

/-- Every move keeps a router in step. -/
theorem Move.inStep (h : Move now dest r r') (hs : r.InStep) : r'.InStep := by
  refine ⟨h.exact hs, ?_⟩
  intro dest'
  by_cases hdest : dest' = dest
  · exact hdest ▸ h.coherent_here hs
  · have hc := hs.coherent dest'
    refine (h.soleOwner hc.toSoleOwner).coherent_of_same hc ?_ ?_ ?_ ?_
    · exact h.entries_elsewhere (hs.coherent dest).toSoleOwner hdest
    · exact h.leftovers_elsewhere hdest
    · intro id ρ ho
      exact ⟨ρ, h.owns_elsewhere hdest ho, entryOf_congr h.sameBackground.params ρ⟩
    · intro id σ ho
      exact ⟨σ, h.owns_of_owns_elsewhere hdest ho⟩

/-- To take down an advertisement keeps a router in step: what it rewrites of a route is not part
of the route's entry. -/
theorem Heard.inStep {adv : Advertisement} (h : Heard now adv r r') (hs : r.InStep) :
    r'.InStep := by
  have hheard := h
  cases h with
  | observed hsources =>
      refine ⟨hs.exact, fun dest => ?_⟩
      obtain ⟨hsole, howner, hleftover, hcovered⟩ := hs.coherent dest
      exact ⟨⟨hsole.exclusive, hsole.idle, hsole.keyed⟩, howner, hleftover, hcovered⟩
  | @recorded id route feasible hr hd =>
      refine ⟨hs.exact, fun dest => ?_⟩
      have hc := hs.coherent dest
      exact (hheard.soleOwner hc.toSoleOwner).coherent_of_modify hc (fun _ => rfl) (fun _ => rfl)
        fun _ _ => rfl

/-- To store a new route under a free name keeps a router in step. -/
theorem InStep.stored {id : RouteId} {route : Route} {table : RouteTable} (hs : r.InStep)
    (hfree : r.table.NextFree) (hi : route.installed = false)
    (ht : r.table.insert? route = some (id, table)) : InStep { r with table := table } := by
  refine ⟨hs.exact, fun dest => ?_⟩
  have hc := hs.coherent dest
  refine (hc.toSoleOwner.stored hi ht).coherent_of_same hc rfl rfl ?_ ?_
  · intro other ρ ho
    exact ⟨ρ, RouteTable.owns_of_insert? ht hi ho, rfl⟩
  · intro other σ ho
    exact ⟨σ, RouteTable.get?_insert?_of_some ht hfree ho.get, ho.installed, ho.dest_eq⟩

/-- An operation keeps a router in step, if the name is free that it may give to a new route. -/
theorem InStep.perform {op : Operation} (hs : r.InStep)
    (hfree : r.stores now op = true → r.table.NextFree) : (r.perform now op).InStep := by
  refine perform_induction (P := InStep) ?_ ?_ hs
  · intro r r' hstep hs
    rcases hstep with ⟨dest, hmove⟩ | ⟨adv, hheard⟩
    · exact hmove.inStep hs
    · exact hheard.inStep hs
  · intro s id route table hstores hnone hi ht hs
    exact hs.stored (hnone.nextFree (hfree hstores)) hi ht

/-! ### Runs -/

/-- **The routers that come about when nobody else edits the forwarding table**, and the kernel
refuses operations for outages only, with the number of routes that were stored on the way.  The
settings stay; everything else that is not the routes, the leftovers or the kernel may change in
between. -/
inductive Undisturbed : Nat → Router → Prop
  | start (params : Params) : Undisturbed 0 (ofParams params)
  | operate {n : Nat} {r : Router} (h : Undisturbed n r) (now : Instant) (op : Operation) :
      Undisturbed (n + (r.stores now op).toNat) (r.perform now op)
  | surround {n : Nat} {r r' : Router} (h : Undisturbed n r) (hp : r'.params = r.params)
      (ht : r'.table = r.table) (hl : r'.leftovers = r.leftovers)
      (he : r'.kernel.entries = r.kernel.entries) (hc : r'.kernel.calls = r.kernel.calls)
      (hf : r'.kernel.OnlyOutages) : Undisturbed n r'

variable {n : Nat}

theorem inStep_ofParams (params : Params) : (ofParams params).InStep := by
  refine ⟨Kernel.exact_empty, fun dest => ?_⟩
  refine (soleOwner_ofParams params dest).coherent_of_nothing ?_ rfl rfl
  rintro id route ⟨hget, -, -⟩
  cases hget

/-- What is around the routes, the leftovers and the forwarding table has no part in the
agreement. -/
theorem InStep.surround (hs : r.InStep) (hp : r'.params = r.params) (ht : r'.table = r.table)
    (hl : r'.leftovers = r.leftovers) (he : r'.kernel.entries = r.kernel.entries)
    (hc : r'.kernel.calls = r.kernel.calls) (hf : r'.kernel.OnlyOutages) : r'.InStep := by
  refine ⟨⟨hf, ?_, ?_, ?_⟩, fun dest => ?_⟩
  · rw [he, hc]
    exact hs.exact.replayed
  · rw [hc]
    exact hs.exact.fits
  · rw [hc]
    exact hs.exact.answers
  · have hbefore := hs.coherent dest
    have hsole : r'.SoleOwner dest :=
      hbefore.toSoleOwner.of_fewer (fun _ ρ ho => ⟨ρ, ht ▸ ho⟩) hl
    refine hsole.coherent_of_same hbefore (by rw [he]) (by rw [hl]) ?_ ?_
    · intro id ρ ho
      exact ⟨ρ, ht ▸ ho, entryOf_congr hp ρ⟩
    · intro id σ ho
      exact ⟨σ, ht ▸ ho⟩

theorem Undisturbed.numbered (h : Undisturbed n r) : r.table.Numbered n := by
  induction h with
  | start params => exact RouteTable.numbered_ofCapacity _
  | operate _ now op ih => exact numbered_perform ih now op
  | surround _ _ ht _ _ _ _ ih => exact ht ▸ ih

/-- Until the names run out, a router stays in step. -/
theorem Undisturbed.inStep (h : Undisturbed n r) (hn : n ≤ UInt64.size) : r.InStep := by
  induction h with
  | start params => exact inStep_ofParams params
  | @operate n r h now op ih =>
      refine (ih (by omega)).perform fun hstores => h.numbered.nextFree ?_
      rw [hstores, Bool.toNat_true] at hn
      exact hn
  | surround _ hp ht hl he hc hf ih => exact (ih hn).surround hp ht hl he hc hf

theorem Coherent.entries_iff (h : r.Coherent dest) (entry : KernelEntry) :
    r.kernel.entries.get? dest = some entry ↔
      (∃ id route, r.table.Owns dest id route ∧ r.entryOf route = entry) ∨
        r.leftovers.get? dest = some entry := by
  constructor
  · intro he
    rcases h.covered entry he with ⟨id, route, ho⟩ | hl
    · rw [h.owner id route ho] at he
      exact .inl ⟨id, route, ho, Option.some.inj he⟩
    · exact .inr hl
  · rintro (⟨id, route, ho, rfl⟩ | hl)
    · exact h.owner id route ho
    · exact h.leftover entry hl

/-- **Whatever the kernel refuses, routes and forwarding table agree**: the forwarding table holds
exactly the entries of the installed routes and the leftovers, never both for one destination.
Every operation so far named what the forwarding table held at its time, and the kernel never said
that an entry is there already or is not there.  This is so until the names of the routes run
out. -/
theorem undisturbed_coherent (h : Undisturbed n r) (hn : n ≤ UInt64.size) :
    (∀ dest entry, r.kernel.entries.get? dest = some entry ↔
      (∃ id route, r.table.Owns dest id route ∧ r.entryOf route = entry) ∨
        r.leftovers.get? dest = some entry) ∧
    (∀ dest id route, r.table.Owns dest id route → r.leftovers.get? dest = none) ∧
    r.kernel.entries = Kernel.replay r.kernel.calls ∧
    ∀ before call after, r.kernel.calls = before ++ call :: after →
      call.op.Fits (Kernel.replay before) ∧
        call.answer ≠ some .alreadyExists ∧ call.answer ≠ some .notFound := by
  obtain ⟨hexact, hcoherent⟩ := h.inStep hn
  refine ⟨fun dest => (hcoherent dest).entries_iff, fun dest => (hcoherent dest).idle,
    hexact.replayed, ?_⟩
  intro before call after hsplit
  have hmem : call ∈ r.kernel.calls := by
    rw [hsplit]
    exact List.mem_append_right _ List.mem_cons_self
  refine ⟨hexact.fits before call after hsplit, ?_, ?_⟩
  · intro he
    exact hexact.answers call hmem _ he
  · intro he
    exact hexact.answers call hmem _ he

/-- A route for `P` is removed while its entry cannot be flushed, the kernel also refuses to put
the next route in the place of the leftover, and gives way at the second attempt. -/
theorem coherent_after_two_outages :
    ∃ r : Router, Undisturbed 2 r ∧ r.isInstalled 1 = true ∧
      r.kernel.entries.get? "P" = some ⟨"P", "H2", 2, 2⟩ ∧
      (r.kernel.calls.map (·.answer)) = [none, some (.os 5), some (.io "down"), none] ∧
      (∀ dest entry, r.kernel.entries.get? dest = some entry ↔
        (∃ id route, r.table.Owns dest id route ∧ r.entryOf route = entry) ∨
          r.leftovers.get? dest = some entry) ∧
      (∀ dest id route, r.table.Owns dest id route → r.leftovers.get? dest = none) ∧
      r.kernel.entries = Kernel.replay r.kernel.calls ∧
      ∀ before call after, r.kernel.calls = before ++ call :: after →
        call.op.Fits (Kernel.replay before) ∧
          call.answer ≠ some .alreadyExists ∧ call.answer ≠ some .notFound := by
  have houtages : (twoNeighbours [none, some (.os 5), some (.io "down")]).kernel.OnlyOutages := by
    refine Kernel.exact_empty.outages.plan ?_
    intro error he
    simp only [List.mem_cons, Option.some.injEq, reduceCtorEq, false_or, List.not_mem_nil,
      or_false] at he
    rcases he with rfl | rfl <;> trivial
  have hstart : Undisturbed 0 (twoNeighbours [none, some (.os 5), some (.io "down")]) :=
    .surround (.start {}) rfl rfl rfl rfl rfl houtages
  have h := (((hstart.operate 1000 (.receive ⟨"O1", "P", 10, 104, "N1", "H1"⟩)).operate 1000
    (.receive ⟨"O1", "P", 10, 204, "N2", "H2"⟩)).operate 1001 (.flush 0)).operate 1002 (.consider 1)
  exact ⟨_, h, by decide +kernel, by decide +kernel, by decide +kernel,
    undisturbed_coherent h (by decide +kernel)⟩

/-! ### When the names run out -/

theorem Operated.undisturbed {m : Nat} (h : Operated r m r') (hr : Undisturbed n r) :
    Undisturbed (n + m) r' := by
  induction h with
  | refl => exact hr
  | operate _ now op ih => exact Nat.add_assoc n _ _ ▸ ih.operate now op

theorem undisturbed_oneInstalled : Undisturbed 1 oneInstalled := by
  have houtages : (twoNeighbours []).kernel.OnlyOutages :=
    Kernel.exact_empty.outages.plan fun _ h => nomatch h
  have hstart : Undisturbed 0 { twoNeighbours [] with
      exports := ["Q"], sources := SourceTable.set {} (SourceTable.firstSight "O1" "Q" 10 1000) } :=
    .surround (.start {}) rfl rfl rfl rfl rfl houtages
  exact hstart.operate 1000 (.receive ⟨"O1", "P", 10, 104, "N1", "H1"⟩)

/-- One more route than there are names takes the place of the first, which was installed: the
kernel keeps an entry for `P` that neither a route nor a leftover stands for. -/
theorem entry_outlives_its_name :
    ∃ r : Router, Undisturbed (UInt64.size + 1) r ∧
      r.kernel.entries.get? "P" = some ⟨"P", "H1", 1, 1⟩ ∧
      (∀ id route, ¬ r.table.Owns "P" id route) ∧ r.leftovers.get? "P" = none := by
  have hused : Undisturbed UInt64.size namesUsedUp :=
    operated_namesUsedUp.undisturbed undisturbed_oneInstalled
  have h := hused.operate 1001 (.receive ⟨"O1", "R", 10, 104, "N1", "H1"⟩)
  exact ⟨_, h, by decide +kernel, RouteTable.installed?_eq_none_iff.1 (by decide +kernel),
    by decide +kernel⟩

end DistanceVector.Router
