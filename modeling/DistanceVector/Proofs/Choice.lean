import DistanceVector.Router.Basic

/-!
# The choice of the best route

The best route for a destination is found by going through the table by name and keeping the one
with the least metric so far.  What is kept in the end does not depend on how the table is gone
through: it is the least of the routes that come into question, by metric and then by name.

Main definitions:

* `Router.InQuestion` — a route comes into question for a destination;
* `Precedes` — a route is better than another, or as good and of a lower name.

Main results:

* `exists_split_of_minOn?` — the choice from a list is the first of its metric;
* `Router.precedes_of_best?` — the best route precedes all others that come into question;
* `Router.best?_exact` — **the best route is the first of those that come into question, and there
  is none exactly if no route does**.
-/

set_option relaxedAutoImplicit false
set_option autoImplicit false

namespace DistanceVector

/-! ### The choice from a list -/

/-- What is chosen from a list for the least metric is the first of its metric. -/
theorem exists_split_of_minOn? {α : Type} {l : List α} {f : α → Metric} {a : α}
    (h : l.minOn? f = some a) :
    ∃ before after, l = before ++ a :: after ∧ ∀ b ∈ before, f a < f b := by
  induction l generalizing a with
  | nil => cases h
  | cons x xs ih =>
      rw [List.minOn?_cons] at h
      cases hrest : xs.minOn? f with
      | none =>
          rw [hrest] at h
          cases h
          exact ⟨[], xs, rfl, nofun⟩
      | some m =>
          rw [hrest, Option.elim_some, minOn] at h
          split at h
          · cases h
            exact ⟨[], xs, rfl, nofun⟩
          · next hlt =>
            cases h
            obtain ⟨before, after, hxs, hbefore⟩ := ih hrest
            refine ⟨x :: before, after, by rw [hxs, List.cons_append], fun b hb => ?_⟩
            rcases List.mem_cons.1 hb with rfl | hb
            · exact UInt16.not_le.1 hlt
            · exact hbefore b hb

/-- A route with its name comes before another one: its metric is smaller, or it is the same and the
route is older. -/
def Precedes (a b : RouteId × Route) : Prop :=
  a.2.metric < b.2.metric ∨ a.2.metric = b.2.metric ∧ a.1 < b.1

theorem Precedes.asymm {a b : RouteId × Route} (h : Precedes a b) : ¬ Precedes b a := by
  rintro (h' | ⟨heq', h'⟩)
  · rcases h with h | ⟨heq, -⟩
    · exact UInt16.lt_asymm h h'
    · exact UInt16.ne_of_lt h' heq.symm
  · rcases h with h | ⟨-, h⟩
    · exact UInt16.ne_of_lt h heq'.symm
    · exact UInt64.lt_asymm h h'

namespace Router

variable {r : Router} {now : Instant} {dest : Prefix} {feasibleOnly : Bool}
  {exclude : Option NeighbourId} {id other : RouteId} {route ρ : Route}

/-! ### The routes that come into question -/

/-- The route of that name leads to the destination and comes into question for it: it is not
refreshed too long ago, it is feasible if that is asked for, and it does not lead through the
neighbour that is left out. -/
structure InQuestion (r : Router) (now : Instant) (dest : Prefix) (feasibleOnly : Bool)
    (exclude : Option NeighbourId) (id : RouteId) (route : Route) : Prop where
  get : r.table.get? id = some route
  dest_eq : route.dest = dest
  timely : now.toNat ≤ route.time.toNat + r.params.timeoutDelay.toNat
  feasible : feasibleOnly = true → r.routeFeasible now route = true
  allowed : exclude ≠ some route.neigh

/-- A route is not timed out as long as the present is not past the sum of its time and the delay,
however large the two are. -/
theorem timedOut_eq_false_iff :
    r.timedOut now route = false ↔
      now.toNat ≤ route.time.toNat + r.params.timeoutDelay.toNat := by
  rw [timedOut, ← Bool.not_eq_true, Instant.expired_iff, Nat.not_lt]

theorem inQuestion_iff :
    r.InQuestion now dest feasibleOnly exclude id route ↔
      r.table.get? id = some route ∧ route.dest = dest ∧
        r.eligible now feasibleOnly exclude route = true := by
  have heligible : r.eligible now feasibleOnly exclude route = true ↔
      now.toNat ≤ route.time.toNat + r.params.timeoutDelay.toNat ∧
        (feasibleOnly = true → r.routeFeasible now route = true) ∧
        exclude ≠ some route.neigh := by
    rw [← timedOut_eq_false_iff]
    cases feasibleOnly <;> simp [eligible, and_assoc]
  rw [heligible]
  constructor
  · rintro ⟨hr, hd, htimely, hf, hallowed⟩
    exact ⟨hr, hd, htimely, hf, hallowed⟩
  · rintro ⟨hr, hd, htimely, hf, hallowed⟩
    exact ⟨hr, hd, htimely, hf, hallowed⟩

/-- The routes that the best one is chosen from are those that come into question. -/
theorem mem_eligible_iff :
    (id, route) ∈ (r.table.routesFor dest).filter
        (fun e => r.eligible now feasibleOnly exclude e.2) ↔
      r.InQuestion now dest feasibleOnly exclude id route := by
  rw [inQuestion_iff, List.mem_filter, RouteTable.routesFor, List.mem_filter,
    RouteTable.mem_toList_iff, beq_iff_eq, and_assoc]

/-! ### The best route -/

theorem inQuestion_of_best? (h : r.best? now dest feasibleOnly exclude = some (id, route)) :
    r.InQuestion now dest feasibleOnly exclude id route :=
  inQuestion_iff.2 (eligible_of_best? h)

/-- The best route precedes all others that come into question. -/
theorem precedes_of_best? (h : r.best? now dest feasibleOnly exclude = some (id, route))
    (hρ : r.InQuestion now dest feasibleOnly exclude other ρ) (hne : other ≠ id) :
    Precedes (id, route) (other, ρ) := by
  obtain ⟨before, after, hlist, hbefore⟩ := exists_split_of_minOn? h
  have hle : route.metric ≤ ρ.metric := by
    obtain ⟨hget, hd, he⟩ := inQuestion_iff.1 hρ
    exact metric_le_of_best? h hget hd he
  have hmem := mem_eligible_iff.2 hρ
  -- the routes are gone through by name
  have hascending := (r.table.routes.ascending.filter fun e => e.2.dest == dest).filter
    fun e => r.eligible now feasibleOnly exclude e.2
  rw [RouteTable.routesFor, RouteTable.toList] at hlist hmem
  rw [hlist] at hascending hmem
  rcases List.mem_append.1 hmem with hmem | hmem
  · exact .inl (hbefore _ hmem)
  · rcases List.mem_cons.1 hmem with heq | hmem
    · exact absurd (congrArg Prod.fst heq) hne
    · have hlater := (List.pairwise_cons.1 (List.pairwise_append.1 hascending).2.1).1 _ hmem
      have hlater : id < other := RouteId.compare_eq_lt.1 hlater
      rcases UInt16.lt_or_eq_of_le hle with hlt | heq
      · exact .inl hlt
      · exact .inr ⟨heq, hlater⟩

/-- A route that comes into question and precedes all others that do is the best one. -/
theorem best?_of_precedes (h : r.InQuestion now dest feasibleOnly exclude id route)
    (hfirst : ∀ other ρ, r.InQuestion now dest feasibleOnly exclude other ρ → other ≠ id →
      Precedes (id, route) (other, ρ)) :
    r.best? now dest feasibleOnly exclude = some (id, route) := by
  cases hbest : r.best? now dest feasibleOnly exclude with
  | none =>
      have he := best?_eq_none_iff.1 hbest id route h.get h.dest_eq
      rw [(inQuestion_iff.1 h).2.2] at he
      cases he
  | some e =>
      obtain ⟨other, ρ⟩ := e
      have hρ := inQuestion_of_best? hbest
      by_cases hid : other = id
      · subst hid
        cases h.get.symm.trans hρ.get
        rfl
      · exact absurd (precedes_of_best? hbest h (Ne.symm hid)) (hfirst other ρ hρ hid).asymm

/-- **The best route is the first of those that come into question**, by metric and then by name,
and there is none exactly if no route comes into question.  So of several with the least metric the
oldest is the best, be it that this metric is infinite. -/
theorem best?_exact (r : Router) (now : Instant) (dest : Prefix) (feasibleOnly : Bool)
    (exclude : Option NeighbourId) :
    (r.best? now dest feasibleOnly exclude = none ↔
      ∀ id route, ¬ r.InQuestion now dest feasibleOnly exclude id route) ∧
    ∀ id route, r.best? now dest feasibleOnly exclude = some (id, route) ↔
      r.InQuestion now dest feasibleOnly exclude id route ∧
        ∀ other ρ, r.InQuestion now dest feasibleOnly exclude other ρ → other ≠ id →
          Precedes (id, route) (other, ρ) := by
  constructor
  · rw [best?_eq_none_iff]
    constructor
    · intro hnone id route h
      obtain ⟨hget, hd, he⟩ := inQuestion_iff.1 h
      rw [hnone id route hget hd] at he
      cases he
    · intro hnone id route hget hd
      rw [← Bool.not_eq_true]
      intro he
      exact hnone id route (inQuestion_iff.2 ⟨hget, hd, he⟩)
  · intro id route
    constructor
    · intro h
      exact ⟨inQuestion_of_best? h, fun other ρ hρ hne => precedes_of_best? h hρ hne⟩
    · rintro ⟨h, hfirst⟩
      exact best?_of_precedes h hfirst

/-- Of two routes that cannot be reached any more the older one is the best, although the newer one
is as good, was refreshed later and is taken when the neighbour of the other is left out. -/
example :
    let lost (neigh : NeighbourId) (time : Instant) : Route :=
      ⟨"P", "O1", neigh, "H1", 1, 10, .infinity, .infinity, time, 1000, false⟩
    let r : Router := { ofParams {} with
      table := { routes := .ofList [(3, lost "N1" 1000), (5, lost "N2" 1001)], nextId := 6,
                 capacity := 2 } }
    r.best? 1002 "P" true none = some (3, lost "N1" 1000) ∧
      r.best? 1002 "P" true (some "N1") = some (5, lost "N2" 1001) := by
  decide +kernel

end Router

end DistanceVector
