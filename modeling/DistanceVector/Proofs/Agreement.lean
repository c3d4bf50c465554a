import DistanceVector.Proofs.Faultless

/-!
# Two routers that agree on a destination

Two routers may have little in common but what is about one destination: its routes by the same
names, its records, its leftover, its entry and the faults that await it.  What either looks up
about the destination then is the same, although the lookups go through tables that are shared by
all destinations.  So a step that both take for the sake of the destination, and that touches
nothing of any other, leaves them agreeing.

Main definitions:

* `Router.Agree` — both states are the same as far as the destination is concerned;
* `Router.Untouched` — between two states nothing happened to the other destinations;
* `KernelOp.Within`, `Router.Keyed` — an operation names no entry of another destination, as long
  as what is left over for a destination is an entry for it;
* `Router.Parallel` — two runs did the same for the destination and nothing for any other.

Main results:

* `Router.Agree.installed?_eq`, `Router.Agree.match?_eq`, `Router.Agree.best?_eq` — **what is looked
  up is the same**;
* `Router.Parallel.trans` — runs in parallel may be continued in parallel;
* `Router.Agree.ask`, `Router.Agree.modifyRoute` and the like — the elementary steps.
-/

set_option relaxedAutoImplicit false
set_option autoImplicit false

namespace DistanceVector

/-! ### The kernel -/

/-- All entries that the operation names are for the destination. -/
def KernelOp.Within (dest : Prefix) : KernelOp → Prop
  | .add entry | .flush entry => entry.dest = dest
  | .modify old new => old.dest = dest ∧ new.dest = dest

namespace Kernel

variable {k k' : Kernel} {op : KernelOp} {dest : Prefix}

/-- What the kernel says depends on the destination alone. -/
theorem answer_congr (he : k'.entries.get? op.dest = k.entries.get? op.dest)
    (hf : k'.faultsFor op.dest = k.faultsFor op.dest) : k'.answer op = k.answer op := by
  have hconflict : k'.conflict? op = k.conflict? op := by
    cases op with
    | add e | flush e =>
        have hentry : k'.entries.get? e.dest = k.entries.get? e.dest := he
        rw [conflict?, conflict?, OrderedMap.contains, OrderedMap.contains, hentry]
    | modify old new => rfl
  rw [answer, answer, hf, hconflict]

/-- So does the entry that it has after an operation. -/
theorem get?_entries_after_congr (he : k'.entries.get? op.dest = k.entries.get? op.dest)
    (hf : k'.faultsFor op.dest = k.faultsFor op.dest) :
    (k'.after op).entries.get? op.dest = (k.after op).entries.get? op.dest := by
  have hanswer := answer_congr he hf
  cases ha : k.answer op with
  | none =>
      rw [get?_entries_after_of_accepted ha, get?_entries_after_of_accepted (hanswer.trans ha)]
  | some error =>
      rw [entries_after_of_refused ha, entries_after_of_refused (hanswer.trans ha), he]

theorem faultsFor_after_of_ne (hne : dest ≠ op.dest) :
    (k.after op).faultsFor dest = k.faultsFor dest := by
  rw [faultsFor_after, List.countP_cons_of_neg (by simpa using Ne.symm hne), List.countP_nil,
    List.drop_zero]

end Kernel

theorem RouteTable.mem_routesFor_iff {t : RouteTable} {dest : Prefix} {id : RouteId}
    {route : Route} :
    (id, route) ∈ t.routesFor dest ↔ t.get? id = some route ∧ route.dest = dest := by
  simp only [routesFor, List.mem_filter, mem_toList_iff, beq_iff_eq]

namespace Router

variable {now : Instant} {dest : Prefix} {r s r' s' r'' s'' : Router} {id : RouteId}
  {route : Route}

/-! ### The relations -/

/-- Both states are the same as far as the destination is concerned. -/
structure Agree (dest : Prefix) (r s : Router) : Prop where
  params : s.params = r.params
  neighbours : s.neighbours = r.neighbours
  filter : s.filter = r.filter
  exports : s.exports = r.exports
  requests : s.requests = r.requests
  nextId : s.table.nextId = r.table.nextId
  capacity : s.table.capacity = r.table.capacity
  routes : ∀ id route, route.dest = dest →
    (s.table.get? id = some route ↔ r.table.get? id = some route)
  records : ∀ origin, s.sources.find? origin dest = r.sources.find? origin dest
  denied : s.sources.denied = r.sources.denied
  leftover : s.leftovers.get? dest = r.leftovers.get? dest
  entry : s.kernel.entries.get? dest = r.kernel.entries.get? dest
  faults : s.kernel.faultsFor dest = r.kernel.faultsFor dest

/-- Between the two states nothing happened to the other destinations: no route came to them or was
rewritten, and their records, leftovers, entries and faults are as they were.  A route may have
gone, for a new one may take the name of an old one. -/
structure Untouched (dest : Prefix) (r r' : Router) : Prop where
  came : ∀ id route, route.dest ≠ dest → r'.table.get? id = some route →
    r.table.get? id = some route
  records : ∀ origin other, other ≠ dest →
    r'.sources.find? origin other = r.sources.find? origin other
  leftovers : ∀ other, other ≠ dest → r'.leftovers.get? other = r.leftovers.get? other
  entries : ∀ other, other ≠ dest → r'.kernel.entries.get? other = r.kernel.entries.get? other
  faults : ∀ other, other ≠ dest → r'.kernel.faultsFor other = r.kernel.faultsFor other

/-- A leftover that is kept for the destination is an entry for it. -/
def Keyed (dest : Prefix) (r : Router) : Prop :=
  ∀ entry, r.leftovers.get? dest = some entry → entry.dest = dest

/-- Two runs, from `r` to `r'` and from `s` to `s'`, did the same for the destination and nothing
for any other.  A call may name a leftover that is kept for the destination, whatever it is. -/
structure Parallel (dest : Prefix) (r s r' s' : Router) : Prop where
  agree : Agree dest r' s'
  packets : ∃ packets, r'.outbox = r.outbox ++ packets ∧ s'.outbox = s.outbox ++ packets ∧
    ∀ p ∈ packets, p.packet.dest = dest
  calls : ∃ calls, r'.kernel.calls = r.kernel.calls ++ calls ∧
    s'.kernel.calls = s.kernel.calls ++ calls ∧
    ∀ c ∈ calls, c.op.dest = dest ∧ (Keyed dest r → c.op.Within dest)
  keyed : Keyed dest r → Keyed dest r'
  left : Untouched dest r r'
  right : Untouched dest s s'

theorem Untouched.refl (dest : Prefix) (r : Router) : Untouched dest r r where
  came _ _ _ h := h
  records _ _ _ := rfl
  leftovers _ _ := rfl
  entries _ _ := rfl
  faults _ _ := rfl

theorem Untouched.trans (h : Untouched dest r r') (h' : Untouched dest r' r'') :
    Untouched dest r r'' where
  came id route hne hr := h.came id route hne (h'.came id route hne hr)
  records origin other hne := (h'.records origin other hne).trans (h.records origin other hne)
  leftovers other hne := (h'.leftovers other hne).trans (h.leftovers other hne)
  entries other hne := (h'.entries other hne).trans (h.entries other hne)
  faults other hne := (h'.faults other hne).trans (h.faults other hne)

theorem Agree.refl (dest : Prefix) (r : Router) : Agree dest r r :=
  ⟨rfl, rfl, rfl, rfl, rfl, rfl, rfl, fun _ _ _ => Iff.rfl, fun _ => rfl, rfl, rfl, rfl, rfl⟩

theorem Parallel.refl (h : Agree dest r s) : Parallel dest r s r s where
  agree := h
  packets := ⟨[], by simp⟩
  calls := ⟨[], by simp⟩
  keyed h := h
  left := .refl dest r
  right := .refl dest s

/-- **Runs in parallel may be continued in parallel.** -/
theorem Parallel.trans (h : Parallel dest r s r' s') (h' : Parallel dest r' s' r'' s'') :
    Parallel dest r s r'' s'' := by
  obtain ⟨packets, hr, hs, hdest⟩ := h.packets
  obtain ⟨packets', hr', hs', hdest'⟩ := h'.packets
  obtain ⟨calls, hcr, hcs, hop⟩ := h.calls
  obtain ⟨calls', hcr', hcs', hop'⟩ := h'.calls
  refine ⟨h'.agree, ⟨packets ++ packets', ?_, ?_, ?_⟩, ⟨calls ++ calls', ?_, ?_, ?_⟩,
    fun hk => h'.keyed (h.keyed hk), h.left.trans h'.left, h.right.trans h'.right⟩
  · rw [hr', hr, List.append_assoc]
  · rw [hs', hs, List.append_assoc]
  · exact fun p hp => (List.mem_append.1 hp).elim (hdest p) (hdest' p)
  · rw [hcr', hcr, List.append_assoc]
  · rw [hcs', hcs, List.append_assoc]
  · intro c hc
    rcases List.mem_append.1 hc with hc | hc
    · exact hop c hc
    · exact ⟨(hop' c hc).1, fun hk => (hop' c hc).2 (h.keyed hk)⟩

/-- What both do next depends on their agreement alone. -/
theorem Parallel.andThen (h : Parallel dest r s r' s')
    (hnext : Agree dest r' s' → Parallel dest r' s' r'' s'') : Parallel dest r s r'' s'' :=
  h.trans (hnext h.agree)

/-- In both states, the name is that of a route for the destination, or of none. -/
structure BothFor (dest : Prefix) (r s : Router) (id : RouteId) : Prop where
  left : r.IsFor id dest
  right : s.IsFor id dest

theorem Untouched.isFor (h : Untouched dest r r') (hid : r.IsFor id dest) : r'.IsFor id dest := by
  intro route hr
  by_contra hne
  exact hne (hid route (h.came id route hne hr))

theorem Parallel.bothFor (h : Parallel dest r s r' s') (hid : BothFor dest r s id) :
    BothFor dest r' s' id :=
  ⟨h.left.isFor hid.left, h.right.isFor hid.right⟩

/-- The name of a route for the destination is that of a route for it in both states. -/
theorem Agree.bothFor (h : Agree dest r s) (hr : r.table.get? id = some route)
    (hd : route.dest = dest) : BothFor dest r s id :=
  ⟨hd ▸ isFor_dest hr, hd ▸ isFor_dest ((h.routes id route hd).2 hr)⟩

/-! ### What is looked up -/

namespace Agree

variable (h : Agree dest r s)
include h

theorem route?_eq (hid : BothFor dest r s id) : s.route? id = r.route? id := by
  cases hr : r.route? id with
  | some route => exact (h.routes id route (hid.left route hr)).2 hr
  | none =>
      refine Option.eq_none_iff_forall_ne_some.2 fun route hs => ?_
      cases hr.symm.trans ((h.routes id route (hid.right route hs)).1 hs)

theorem isInstalled_eq (hid : BothFor dest r s id) : s.isInstalled id = r.isInstalled id := by
  rw [isInstalled, isInstalled, h.route?_eq hid]

theorem routesFor_eq : s.table.routesFor dest = r.table.routesFor dest := by
  refine OrderedMap.AscendingKeys.eq_of_mem_iff (s.table.routes.ascending.filter _)
    (r.table.routes.ascending.filter _) fun ⟨id, route⟩ => ?_
  exact RouteTable.mem_routesFor_iff.trans
    ((and_congr_left fun hd => h.routes id route hd).trans RouteTable.mem_routesFor_iff.symm)

/-- What is sought among the routes for the destination is found in both or in none. -/
theorem find?_eq (p : Route → Bool) (hp : ∀ route, p route = true → route.dest = dest) :
    s.table.find? p = r.table.find? p := by
  have hwithin : ∀ t : RouteTable, t.find? p = (t.routesFor dest).find? fun e => p e.2 := by
    intro t
    rw [RouteTable.routesFor, List.find?_filter, RouteTable.find?]
    congr 1
    funext e
    cases htest : p e.2 with
    | false => simp
    | true => simp [hp e.2 htest]
  rw [hwithin, hwithin, h.routesFor_eq]

theorem installed?_eq : s.table.installed? dest = r.table.installed? dest :=
  h.find?_eq _ fun route htest => by simpa using (Bool.and_eq_true_iff.1 htest).2

theorem match?_eq (neigh : NeighbourId) (nexthop : NextHop) :
    s.table.match? dest neigh nexthop = r.table.match? dest neigh nexthop :=
  h.find?_eq _ fun route htest => by simpa using (Bool.and_eq_true_iff.1 htest).2

theorem feasible_eq (now : Instant) (origin : NodeAddress) (seqno : Seqno) (refmetric : Metric) :
    s.feasible now origin dest seqno refmetric = r.feasible now origin dest seqno refmetric := by
  rw [feasible, feasible, h.records, h.params]

theorem routeFeasible_eq (hd : route.dest = dest) (now : Instant) :
    s.routeFeasible now route = r.routeFeasible now route := by
  rw [routeFeasible, routeFeasible, hd, h.feasible_eq]

theorem timedOut_eq (now : Instant) (route : Route) :
    s.timedOut now route = r.timedOut now route := by
  rw [timedOut, timedOut, h.params]

theorem pathMetric_eq : s.pathMetric = r.pathMetric := by
  funext origin dest neigh interface refmetric
  rw [pathMetric, pathMetric, h.neighbours, h.filter]

/-- The best route is the same in both. -/
theorem best?_eq (now : Instant) (feasibleOnly : Bool) (exclude : Option NeighbourId) :
    s.best? now dest feasibleOnly exclude = r.best? now dest feasibleOnly exclude := by
  rw [best?, best?, h.routesFor_eq]
  refine congrArg (fun l : List (RouteId × Route) => l.minOn? fun e => e.2.metric) ?_
  refine List.filter_congr fun e he => ?_
  have hd : e.2.dest = dest := by simpa using (List.mem_filter.1 he).2
  rw [eligible, eligible, h.timedOut_eq, h.routeFeasible_eq hd]

theorem candidate?_eq (hid : BothFor dest r s id) (now : Instant) :
    s.candidate? now id = r.candidate? now id := by
  rw [candidate?, candidate?, h.route?_eq hid]
  cases hr : r.route? id with
  | none => rfl
  | some route =>
      rw [Option.filter_some, Option.filter_some, h.routeFeasible_eq (hid.left route hr), h.exports]

theorem entryWith_eq : s.entryWith = r.entryWith := by
  funext route metric
  rw [entryWith, entryWith, h.params]

theorem entryOf_eq : s.entryOf = r.entryOf := by
  funext route
  rw [entryOf, entryOf, h.entryWith_eq]

theorem metricOp_eq : s.metricOp = r.metricOp := by
  funext route metric
  rw [metricOp, metricOp, h.entryOf_eq, h.entryWith_eq]

theorem installOp_eq (entry : KernelEntry) (hd : entry.dest = dest) :
    s.installOp entry = r.installOp entry := by
  rw [installOp, installOp, hd, h.leftover]

theorem answer_eq {op : KernelOp} (hd : op.dest = dest) :
    s.kernel.answer op = r.kernel.answer op :=
  Kernel.answer_congr (hd ▸ h.entry) (hd ▸ h.faults)

end Agree

/-! ### Elementary steps -/

theorem untouched_modifyRoute {f : Route → Route} (hid : r.IsFor id dest)
    (hf : ∀ route, (f route).dest = route.dest) : Untouched dest r (r.modifyRoute id f) :=
  { Untouched.refl dest r with
    came := fun other route hne hr => by
      rw [modifyRoute, RouteTable.get?_modify] at hr
      split at hr
      · next heq =>
        obtain ⟨ρ, hρ, rfl⟩ := Option.map_eq_some_iff.1 hr
        exact absurd ((hf ρ).trans (hid ρ (heq ▸ hρ))) hne
      · exact hr }

theorem untouched_eraseRoute (dest : Prefix) (r : Router) (id : RouteId) :
    Untouched dest r (r.eraseRoute id) :=
  { Untouched.refl dest r with
    came := fun other route _ hr => by
      rw [eraseRoute, RouteTable.get?_erase] at hr
      split at hr
      · cases hr
      · exact hr }

theorem within_installOp (r : Router) (entry : KernelEntry) (hk : Keyed entry.dest r) :
    (r.installOp entry).Within entry.dest := by
  unfold installOp
  split
  · next old hold => exact ⟨hk old hold, rfl⟩
  · rfl

theorem untouched_ask {op : KernelOp} (hd : op.dest = dest) : Untouched dest r (r.ask op) :=
  { Untouched.refl dest r with
    entries := fun _ hne => Kernel.get?_entries_after_of_ne (hd ▸ hne)
    faults := fun _ hne => Kernel.faultsFor_after_of_ne (hd ▸ hne) }

theorem untouched_eraseLeftover (dest : Prefix) (r : Router) :
    Untouched dest r { r with leftovers := r.leftovers.erase dest } :=
  { Untouched.refl dest r with
    leftovers := fun _ hne => (OrderedMap.get?_erase ..).trans (if_neg hne) }

theorem untouched_insertLeftover (dest : Prefix) (r : Router) (entry : KernelEntry) :
    Untouched dest r { r with leftovers := r.leftovers.insert dest entry } :=
  { Untouched.refl dest r with
    leftovers := fun _ hne => (OrderedMap.get?_insert ..).trans (if_neg hne) }

theorem untouched_insert {table : RouteTable} (hd : route.dest = dest)
    (ht : r.table.insert? route = some (id, table)) :
    Untouched dest r { r with table := table } :=
  { Untouched.refl dest r with
    came := fun other ρ hne hρ => by
      rw [(RouteTable.get?_of_insert? ht other).2] at hρ
      split at hρ
      · cases hρ
        exact absurd hd hne
      · exact hρ }

theorem untouched_set (r : Router) {record : Source} (hd : record.dest = dest) :
    Untouched dest r { r with sources := r.sources.set record } :=
  { Untouched.refl dest r with
    records := fun origin other hne => by
      refine (SourceTable.find?_set ..).trans (if_neg fun hkey => hne ?_)
      exact (congrArg SourceKey.dest hkey).trans hd }

namespace Agree

variable (h : Agree dest r s)
include h

theorem report (e e' : Event) : Parallel dest r s (r.report e) (s.report e') :=
  { Parallel.refl h with
    agree := { h with }
    left := { Untouched.refl dest r with }
    right := { Untouched.refl dest s with } }

theorem queue {p : OutboundPacket} (hp : p.packet.dest = dest) :
    Parallel dest r s (r.queue p) (s.queue p) :=
  { Parallel.refl h with
    agree := { h with }
    packets := ⟨[p], rfl, rfl, by simpa using hp⟩
    left := { Untouched.refl dest r with }
    right := { Untouched.refl dest s with } }

theorem ask {op : KernelOp} (hd : op.dest = dest) (hw : Keyed dest r → op.Within dest) :
    Parallel dest r s (r.ask op) (s.ask op) := by
  subst hd
  exact { Parallel.refl h with
    agree := { h with
      entry := Kernel.get?_entries_after_congr h.entry h.faults
      faults := by
        rw [Router.ask, Router.ask, Kernel.faultsFor_after, Kernel.faultsFor_after, h.faults] }
    calls := by
      refine ⟨[⟨op, r.kernel.answer op⟩], rfl, ?_, ?_⟩
      · rw [← h.answer_eq rfl]
        rfl
      · simpa using hw
    left := untouched_ask rfl
    right := untouched_ask rfl }

theorem modifyRoute {f : Route → Route} (hid : BothFor dest r s id)
    (hf : ∀ route, (f route).dest = route.dest) :
    Parallel dest r s (r.modifyRoute id f) (s.modifyRoute id f) :=
  { Parallel.refl h with
    agree := { h with
      routes := fun other route hd => by
        rw [Router.modifyRoute, Router.modifyRoute, RouteTable.get?_modify,
          RouteTable.get?_modify]
        split
        · simp only [Option.map_eq_some_iff]
          refine exists_congr fun ρ => and_congr_left fun heq => h.routes other ρ ?_
          rw [← hf, heq, hd]
        · exact h.routes other route hd }
    left := untouched_modifyRoute hid.left hf
    right := untouched_modifyRoute hid.right hf }

theorem eraseRoute (id : RouteId) :
    Parallel dest r s (r.eraseRoute id) (s.eraseRoute id) :=
  { Parallel.refl h with
    agree := { h with
      routes := fun other route hd => by
        rw [Router.eraseRoute, Router.eraseRoute, RouteTable.get?_erase, RouteTable.get?_erase]
        split
        · exact iff_of_false (Option.some_ne_none route).symm (Option.some_ne_none route).symm
        · exact h.routes other route hd }
    left := untouched_eraseRoute dest r id
    right := untouched_eraseRoute dest s id }

theorem eraseLeftover : Parallel dest r s { r with leftovers := r.leftovers.erase dest }
    { s with leftovers := s.leftovers.erase dest } :=
  { Parallel.refl h with
    agree := { h with
      leftover := by rw [OrderedMap.get?_erase_self, OrderedMap.get?_erase_self] }
    keyed := fun _ entry hentry => by
      rw [OrderedMap.get?_erase_self] at hentry
      cases hentry
    left := untouched_eraseLeftover dest r
    right := untouched_eraseLeftover dest s }

theorem insertLeftover {entry : KernelEntry} (hd : entry.dest = dest) :
    Parallel dest r s { r with leftovers := r.leftovers.insert dest entry }
      { s with leftovers := s.leftovers.insert dest entry } :=
  { Parallel.refl h with
    agree := { h with
      leftover := by rw [OrderedMap.get?_insert_self, OrderedMap.get?_insert_self] }
    keyed := fun _ other hother => by
      rw [OrderedMap.get?_insert_self] at hother
      cases hother
      exact hd
    left := untouched_insertLeftover dest r entry
    right := untouched_insertLeftover dest s entry }

/-- A new route gets the same name in both. -/
theorem insert {table table' : RouteTable} {id' : RouteId}
    (hr : r.table.insert? route = some (id, table))
    (hs : s.table.insert? route = some (id', table')) (hd : route.dest = dest) :
    id' = id ∧ Parallel dest r s { r with table := table } { s with table := table' } := by
  have hid : id' = id := by
    rw [(RouteTable.get?_of_insert? hs id').1, (RouteTable.get?_of_insert? hr id).1, h.nextId]
  subst hid
  obtain ⟨hnext, hcapacity, -⟩ := RouteTable.room_of_insert? hr
  obtain ⟨hnext', hcapacity', -⟩ := RouteTable.room_of_insert? hs
  exact ⟨rfl, { Parallel.refl h with
    agree := { h with
      nextId := by rw [hnext, hnext', h.nextId]
      capacity := by rw [hcapacity, hcapacity', h.capacity]
      routes := fun other ρ hρ => by
        rw [(RouteTable.get?_of_insert? hr other).2, (RouteTable.get?_of_insert? hs other).2]
        split
        · exact Iff.rfl
        · exact h.routes other ρ hρ }
    left := untouched_insert hd hr
    right := untouched_insert hd hs }⟩

theorem setRecord {record : Source} (hd : record.dest = dest) :
    Parallel dest r s { r with sources := r.sources.set record }
      { s with sources := s.sources.set record } :=
  { Parallel.refl h with
    agree := { h with
      records := fun origin => by
        rw [SourceTable.find?_set, SourceTable.find?_set, h.records] }
    left := untouched_set r hd
    right := untouched_set s hd }

/-- A source is put on record in both or in none. -/
theorem observe (origin : NodeAddress) (seqno : Seqno) (now : Instant) :
    (r.sources.observe origin dest seqno now = none ∧
      s.sources.observe origin dest seqno now = none) ∨
    ∃ sources sources', r.sources.observe origin dest seqno now = some sources ∧
      s.sources.observe origin dest seqno now = some sources' ∧
      Parallel dest r s { r with sources := sources } { s with sources := sources' } := by
  unfold SourceTable.observe
  rw [h.records, h.denied]
  split
  · exact .inr ⟨r.sources, s.sources, rfl, rfl, .refl h⟩
  split
  · exact .inl ⟨rfl, rfl⟩
  · exact .inr ⟨_, _, rfl, rfl, h.setRecord rfl⟩

end Agree

end Router

end DistanceVector
