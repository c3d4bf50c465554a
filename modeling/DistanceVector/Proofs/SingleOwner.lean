import DistanceVector.Proofs.Operations

/-!
# A single owner for every destination

Of the routes for a destination at most one is installed, and while one is, no entry for the
destination is left over.  No fault of the kernel and no change of what surrounds a router breaks
this.

Main definitions:

* `Router.SoleOwner` — at most one route for a destination is installed, and while one is, nothing
  is left over for it;
* `Router.Reachable` — the routers that come about when anything around them may change at any
  time;
* `Router.FlushedIdle` — the kernel was only asked to flush what no route stands for.

Main results:

* `Router.Move.soleOwner`, `Router.Heard.soleOwner`, `Router.SoleOwner.stored` — every step keeps it
  so;
* `Router.reachable_soleOwner` — **it is so in every router that comes about**, and what a retry of
  the leftovers flushes is no installed route.
-/

set_option relaxedAutoImplicit false
set_option autoImplicit false

namespace DistanceVector.Router

variable {now : Instant} {dest dest' : Prefix} {r r' : Router}

/-- At most one route for the destination is installed, and while one is, nothing is left over for
the destination.  What is left over for it is an entry for it. -/
structure SoleOwner (r : Router) (dest : Prefix) : Prop where
  exclusive : r.table.Exclusive dest
  idle : ∀ id route, r.table.Owns dest id route → r.leftovers.get? dest = none
  keyed : ∀ entry, r.leftovers.get? dest = some entry → entry.dest = dest

/-! ### A single step -/

/-- After a move, either no route is installed that was not before, or just one route is. -/
theorem Move.owners (h : Move now dest r r') (hex : r.table.Exclusive dest) :
    (∀ id ρ, r'.table.Owns dest id ρ → ∃ ρ', r.table.Owns dest id ρ') ∨
      ∃ id, ∀ id' ρ, r'.table.Owns dest id' ρ → id' = id := by
  cases h with
  | told h =>
      obtain ⟨_, _, _, rfl⟩ := h
      exact .inl fun _ ρ ho => ⟨ρ, ho⟩
  | refused ha he => exact .inl fun _ ρ ho => ⟨ρ, ho⟩
  | @installed id route hc hd hn he =>
      refine .inr ⟨id, fun id' ρ ho => ?_⟩
      by_contra hne
      exact ((RouteTable.owns_modify_of_ne hne).1 ho).installed?_ne_none hn
  | @replaced id oldId route old hc hd hold he =>
      refine .inr ⟨id, fun id' ρ ho => ?_⟩
      by_contra hne
      have ho := (RouteTable.owns_modify_of_ne hne).1 ho
      by_cases hid : id' = oldId
      · -- the route that was installed before is withdrawn in the same move
        subst hid
        obtain ⟨_, _, rfl, hi, _⟩ := RouteTable.owns_modify_self.1 ho
        cases hi
      · exact hid (hex _ _ _ _ ((RouteTable.owns_modify_of_ne hid).1 ho) hold)
  | withdrawn ho he =>
      refine .inl fun id' ρ ho => ?_
      obtain ⟨σ, ho, -⟩ := RouteTable.exists_owns_of_modify ho (fun _ hi => nomatch hi) fun _ => rfl
      exact ⟨σ, ho⟩
  | abandoned ho he => exact .inl fun _ ρ ho => ⟨ρ, (RouteTable.owns_erase.1 ho).2⟩
  | erased hr hd hi => exact .inl fun _ ρ ho => ⟨ρ, (RouteTable.owns_erase.1 ho).2⟩
  | retracted _ _ _ | remetric _ _ _ _ | remetricInstalled _ _ =>
      refine .inl fun id' ρ ho => ?_
      obtain ⟨σ, ho, -⟩ := RouteTable.exists_owns_of_modify ho (fun _ hi => hi) fun _ => rfl
      exact ⟨σ, ho⟩
  | forgotten hl he => exact .inl fun _ ρ ho => ⟨ρ, ho⟩

theorem Move.exclusive (h : Move now dest r r') (hex : r.table.Exclusive dest') :
    r'.table.Exclusive dest' := by
  intro i j ρ σ hi hj
  by_cases hdest : dest' = dest
  · subst hdest
    rcases h.owners hex with hkept | ⟨id, hone⟩
    · obtain ⟨ρ', hi'⟩ := hkept i ρ hi
      obtain ⟨σ', hj'⟩ := hkept j σ hj
      exact hex i j ρ' σ' hi' hj'
    · exact (hone i ρ hi).trans (hone j σ hj).symm
  · exact hex i j ρ σ (h.owns_elsewhere hdest hi) (h.owns_elsewhere hdest hj)

/-- After a move no entry is left over for an installed route: what was installed before left none
over, and the one entry that becomes a leftover loses its route. -/
theorem Move.idle (h : Move now dest r r') (hs : r.SoleOwner dest) {id : RouteId} {route : Route}
    (ho : r'.table.Owns dest id route) : r'.leftovers.get? dest = none := by
  -- a move that leaves the leftovers alone needs some route that was installed before
  have hkept : (∃ id ρ, r.table.Owns dest id ρ) → r.leftovers.get? dest = none := by
    rintro ⟨id, ρ, ho⟩
    exact hs.idle id ρ ho
  cases h with
  | told h =>
      obtain ⟨_, _, _, rfl⟩ := h
      exact hkept ⟨id, route, ho⟩
  | refused ha he => exact hkept ⟨id, route, ho⟩
  | installed hc hd hn he => exact OrderedMap.get?_erase_self r.leftovers dest
  | replaced hc hd hold he => exact hkept ⟨_, _, hold⟩
  | withdrawn hold he => exact hkept ⟨_, _, hold⟩
  | abandoned hold he =>
      obtain ⟨hne, ho⟩ := RouteTable.owns_erase.1 ho
      exact absurd (hs.exclusive _ _ _ _ ho hold) hne
  | erased hr hd hi => exact hkept ⟨id, route, (RouteTable.owns_erase.1 ho).2⟩
  | retracted _ _ _ | remetric _ _ _ _ =>
      obtain ⟨σ, ho, -⟩ := RouteTable.exists_owns_of_modify ho (fun _ hi => hi) fun _ => rfl
      exact hkept ⟨id, σ, ho⟩
  | remetricInstalled hold he => exact hkept ⟨_, _, hold⟩
  | forgotten hl he => exact OrderedMap.get?_erase_self r.leftovers dest

theorem Move.keyed (h : Move now dest r r') (hs : r.SoleOwner dest) {entry : KernelEntry}
    (hl : r'.leftovers.get? dest = some entry) : entry.dest = dest := by
  cases h with
  | told h =>
      obtain ⟨_, _, _, rfl⟩ := h
      exact hs.keyed entry hl
  | installed hc hd hn he | forgotten hl' he =>
      rw [OrderedMap.get?_erase_self] at hl
      cases hl
  | abandoned hold he =>
      rw [OrderedMap.get?_insert_self] at hl
      cases hl
      exact hold.dest_eq
  | _ => exact hs.keyed entry hl

/-- **Every move keeps every destination with a single owner.** -/
theorem Move.soleOwner (h : Move now dest r r') (hs : r.SoleOwner dest') :
    r'.SoleOwner dest' := by
  by_cases hdest : dest' = dest
  · subst hdest
    exact ⟨h.exclusive hs.exclusive, fun _ _ => h.idle hs, fun _ => h.keyed hs⟩
  · have hleftovers := h.leftovers_elsewhere hdest
    refine ⟨h.exclusive hs.exclusive, ?_, ?_⟩
    · intro i ρ hi
      exact hleftovers.trans (hs.idle i ρ (h.owns_elsewhere hdest hi))
    · intro entry hl
      exact hs.keyed entry (hleftovers ▸ hl)

/-- Where no more is installed than before and the leftovers are the same, there is no second
owner. -/
theorem SoleOwner.of_fewer (hs : r.SoleOwner dest)
    (howns : ∀ id ρ, r'.table.Owns dest id ρ → ∃ σ, r.table.Owns dest id σ)
    (hl : r'.leftovers = r.leftovers) : r'.SoleOwner dest := by
  refine ⟨?_, ?_, ?_⟩
  · intro i j ρ σ hi hj
    obtain ⟨ρ', hi⟩ := howns i ρ hi
    obtain ⟨σ', hj⟩ := howns j σ hj
    exact hs.exclusive i j ρ' σ' hi hj
  · intro i ρ hi
    obtain ⟨ρ', hi⟩ := howns i ρ hi
    rw [hl]
    exact hs.idle i ρ' hi
  · intro entry he
    rw [hl] at he
    exact hs.keyed entry he

/-- What is taken down of an advertisement installs nothing. -/
theorem Heard.soleOwner {adv : Advertisement} (h : Heard now adv r r')
    (hs : r.SoleOwner dest) : r'.SoleOwner dest := by
  cases h with
  | observed _ => exact hs.of_fewer (fun _ ρ ho => ⟨ρ, ho⟩) rfl
  | recorded feasible hr hd =>
      refine hs.of_fewer (fun id ρ ho => ?_) rfl
      obtain ⟨σ, ho, -⟩ := RouteTable.exists_owns_of_modify ho (fun _ hi => hi) fun _ => rfl
      exact ⟨σ, ho⟩

/-- A new route is not installed when it is stored, whatever name it is given. -/
theorem SoleOwner.stored {id : RouteId} {route : Route} {table : RouteTable}
    (hs : r.SoleOwner dest) (hi : route.installed = false)
    (ht : r.table.insert? route = some (id, table)) : SoleOwner { r with table := table } dest :=
  hs.of_fewer (fun _ ρ ho => ⟨ρ, RouteTable.owns_of_insert? ht hi ho⟩) rfl

/-- Every operation keeps every destination with a single owner. -/
theorem SoleOwner.perform (hs : r.SoleOwner dest) (now : Instant) (op : Operation) :
    (r.perform now op).SoleOwner dest := by
  refine perform_induction (P := fun r => r.SoleOwner dest) ?_ ?_ hs
  · intro r r' hstep hs
    rcases hstep with ⟨dest', hmove⟩ | ⟨adv, hheard⟩
    · exact hmove.soleOwner hs
    · exact hheard.soleOwner hs
  · intro s id route table _ _ hi ht hs
    exact hs.stored hi ht

/-! ### Runs -/

/-- **The routers that come about**: from one that knows nothing yet, by operations at any time,
while everything but the routes and the leftovers may change in between. -/
inductive Reachable : Router → Prop
  | start (params : Params) : Reachable (ofParams params)
  | operate {r : Router} (h : Reachable r) (now : Instant) (op : Operation) :
      Reachable (r.perform now op)
  | surround {r r' : Router} (h : Reachable r) (ht : r'.table = r.table)
      (hl : r'.leftovers = r.leftovers) : Reachable r'

theorem soleOwner_ofParams (params : Params) (dest : Prefix) :
    (ofParams params).SoleOwner dest := by
  have hempty : ∀ id route, ¬ (ofParams params).table.Owns dest id route := by
    rintro id route ⟨hget, -, -⟩
    cases hget
  refine ⟨?_, ?_, ?_⟩
  · intro i j ρ σ hi hj
    exact absurd hi (hempty i ρ)
  · intro i ρ hi
    exact absurd hi (hempty i ρ)
  · intro entry hl
    cases hl

theorem Reachable.soleOwner (h : Reachable r) (dest : Prefix) : r.SoleOwner dest := by
  -- the kernel may be anything after a change around the router, so no more can be claimed of it
  induction h with
  | start params => exact soleOwner_ofParams params dest
  | operate _ now op ih => exact ih.perform now op
  | surround _ ht hl ih => exact ih.of_fewer (fun id route ho => ⟨route, ht ▸ ho⟩) hl

/-! ### Retrying the leftovers -/

/-- Between the two states the kernel was only asked to flush entries for destinations where
nothing is installed, and no route changed. -/
def FlushedIdle (r r' : Router) : Prop :=
  r'.table = r.table ∧ ∃ calls, r'.kernel.calls = r.kernel.calls ++ calls ∧
    ∀ call ∈ calls, ∃ entry, call.op = .flush entry ∧
      ∀ id route, ¬ r.table.Owns entry.dest id route

theorem FlushedIdle.refl (r : Router) : FlushedIdle r r := ⟨rfl, [], by simp, by simp⟩

theorem FlushedIdle.trans {r₁ r₂ r₃ : Router} (h : FlushedIdle r₁ r₂) (h' : FlushedIdle r₂ r₃) :
    FlushedIdle r₁ r₃ := by
  obtain ⟨htable, calls, hcalls, hidle⟩ := h
  obtain ⟨htable', calls', hcalls', hidle'⟩ := h'
  refine ⟨htable'.trans htable, calls ++ calls', by rw [hcalls', hcalls, List.append_assoc], ?_⟩
  intro call hmem
  rcases List.mem_append.1 hmem with hmem | hmem
  · exact hidle call hmem
  · exact htable ▸ hidle' call hmem

theorem flushedIdle_retryLeftover (hs : r.SoleOwner dest) :
    FlushedIdle r (r.retryLeftover dest) := by
  cases hl : r.leftovers.get? dest with
  | none =>
      rw [retryLeftover_of_absent hl]
      exact FlushedIdle.refl r
  | some entry =>
      have hidle : ∀ id route, ¬ r.table.Owns entry.dest id route := by
        intro id route ho
        rw [hs.keyed entry hl] at ho
        rw [hs.idle id route ho] at hl
        cases hl
      have hasked : ∃ calls, (r.ask (.flush entry)).kernel.calls = r.kernel.calls ++ calls ∧
          ∀ call ∈ calls, ∃ entry, call.op = .flush entry ∧
            ∀ id route, ¬ r.table.Owns entry.dest id route := by
        refine ⟨[⟨.flush entry, r.kernel.answer (.flush entry)⟩], rfl, ?_⟩
        intro call hmem
        rw [List.mem_singleton] at hmem
        exact ⟨entry, by rw [hmem], hidle⟩
      by_cases ha : r.kernel.answer (.flush entry) = none ∨
          r.kernel.answer (.flush entry) = some .notFound
      · rw [retryLeftover_of_accepted hl ha]
        exact ⟨rfl, hasked⟩
      · obtain ⟨error, he⟩ := Option.ne_none_iff_exists'.1 fun h => ha (.inl h)
        rw [retryLeftover_of_refused hl he fun h => ha (.inr (h ▸ he))]
        exact ⟨rfl, hasked⟩

theorem flushedIdle_retryLeftovers (hs : ∀ dest, r.SoleOwner dest) :
    FlushedIdle r r.retryLeftovers := by
  unfold retryLeftovers
  generalize r.leftovers.keys = dests
  induction dests generalizing r with
  | nil => exact FlushedIdle.refl r
  | cons dest dests ih =>
      have hnext : ∀ dest', (r.retryLeftover dest).SoleOwner dest' := by
        intro dest'
        refine (r.retryLeftover_moves 0 dest).preserves (P := fun r => r.SoleOwner dest') ?_
          (hs dest')
        intro r r' hmove hs
        exact hmove.soleOwner hs
      exact (flushedIdle_retryLeftover (hs dest)).trans (ih hnext)

/-- **Every destination has a single owner, whatever happens**: of its routes at most one is
installed, and while one is, no entry for the destination is left over, so that a retry of the
leftovers never flushes an installed route. -/
theorem reachable_soleOwner (h : Reachable r) :
    (∀ dest, r.table.Exclusive dest ∧
      ∀ id route, r.table.Owns dest id route → r.leftovers.get? dest = none) ∧
    FlushedIdle r r.retryLeftovers := by
  refine ⟨?_, flushedIdle_retryLeftovers h.soleOwner⟩
  intro dest
  have hs := h.soleOwner dest
  exact ⟨hs.exclusive, hs.idle⟩

/-- A router with two neighbours, whose kernel is going to refuse operations on `P` as planned. -/
def twoNeighbours (faults : List (Option KernelError)) : Router :=
  { ofParams {} with
    neighbours := .ofList [("N1", ⟨1, 96⟩), ("N2", ⟨2, 96⟩)]
    kernel := ({} : Kernel).plan "P" faults }

/-- A route for `P` is removed while the kernel refuses to flush it, so that its entry is left
over, and one for `Q` is installed. -/
theorem soleOwner_after_refused_flush :
    ∃ r : Router, Reachable r ∧ r.leftovers.get? "P" = some ⟨"P", "H1", 1, 1⟩ ∧
      r.isInstalled 1 = true ∧
      (∀ dest, r.table.Exclusive dest ∧
        ∀ id route, r.table.Owns dest id route → r.leftovers.get? dest = none) ∧
      FlushedIdle r r.retryLeftovers := by
  let installed := ((twoNeighbours [none, some (.os 5)]).perform 1000
    (.receive ⟨"O1", "P", 10, 104, "N1", "H1"⟩)).perform 1000
      (.receive ⟨"O1", "Q", 10, 104, "N1", "H1"⟩)
  have hstart : Reachable (twoNeighbours [none, some (.os 5)]) :=
    .surround (.start {}) rfl rfl
  have h : Reachable (installed.perform 1001 (.flush 0)) :=
    .operate (.operate (.operate hstart _ _) _ _) _ _
  exact ⟨_, h, by decide +kernel, by decide +kernel, reachable_soleOwner h⟩

end DistanceVector.Router
