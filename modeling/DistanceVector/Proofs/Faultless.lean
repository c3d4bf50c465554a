import DistanceVector.Proofs.Contents
import DistanceVector.Proofs.Overtaking

/-!
# Where no fault strikes

The faults planned for the kernel await its operations one by one, so that whether a call goes
unhindered can be told part by part.  Where no fault strikes, the kernel refuses nothing but what
its own table contradicts, and a router gets its way: what it installs, puts in the place of
another or gives a new metric is so afterwards.

Main definitions:

* `Kernel.afterAll` — the kernel after a list of operations;
* `Kernel.Clear`, `Kernel.Faultless` — no fault is planned for the coming operations, or for any;
* `Router.Asked` — between two states, nothing happened to the kernel but operations.

Main results:

* `Kernel.clear_append` — no fault awaits a list of operations exactly if none awaits the parts;
* `Router.Unhindered.split` — **a call that goes unhindered does so up to any state on the way and
  from there on**;
* `Router.Unhindered.owns_consider_of_vacant`, `Router.Unhindered.owns_consider_of_better` — a
  route that is considered and good enough is installed.
-/

set_option relaxedAutoImplicit false
set_option autoImplicit false

namespace DistanceVector

/-! ### Lists of operations -/

namespace Kernel

variable {k : Kernel} {op : KernelOp} {ops ops' : List KernelOp} {dest : Prefix}

/-- The kernel after a list of operations. -/
def afterAll (k : Kernel) (ops : List KernelOp) : Kernel := ops.foldl after k

theorem afterAll_append (k : Kernel) (ops ops' : List KernelOp) :
    k.afterAll (ops ++ ops') = (k.afterAll ops).afterAll ops' :=
  List.foldl_append

/-- An operation uses up the first of the faults planned for its destination. -/
theorem faultsFor_after (k : Kernel) (op : KernelOp) (dest : Prefix) :
    (k.after op).faultsFor dest = (k.faultsFor dest).drop ([op].countP (·.dest = dest)) := by
  rw [faultsFor, after, OrderedMap.get?_modify]
  by_cases h : dest = op.dest
  · subst h
    rw [if_pos rfl, List.countP_cons_of_pos (by simp), List.countP_nil, List.drop_one, faultsFor]
    cases k.faults.get? op.dest <;> rfl
  · rw [if_neg h, List.countP_cons_of_neg (by simpa using Ne.symm h), List.countP_nil,
      List.drop_zero, faultsFor]

theorem faultsFor_afterAll (k : Kernel) (ops : List KernelOp) (dest : Prefix) :
    (k.afterAll ops).faultsFor dest = (k.faultsFor dest).drop (ops.countP (·.dest = dest)) := by
  induction ops generalizing k with
  | nil => rfl
  | cons op ops ih =>
      rw [afterAll, List.foldl_cons, ← afterAll, ih, faultsFor_after, List.drop_drop,
        ← List.countP_append, List.singleton_append]

/-- The operations are on the list of calls in the order in which they were asked for. -/
theorem calls_afterAll (k : Kernel) (ops : List KernelOp) :
    ∃ calls, (k.afterAll ops).calls = k.calls ++ calls ∧ calls.map KernelCall.op = ops := by
  induction ops generalizing k with
  | nil => exact ⟨[], (List.append_nil _).symm, rfl⟩
  | cons op ops ih =>
      obtain ⟨calls, hcalls, hops⟩ := ih (k.after op)
      refine ⟨⟨op, k.answer op⟩ :: calls, ?_, by rw [List.map_cons, hops]⟩
      rw [afterAll, List.foldl_cons, ← afterAll, hcalls, after, List.append_assoc,
        List.singleton_append]

/-- No fault is planned for the coming operations. -/
def Clear (k : Kernel) (ops : List KernelOp) : Prop :=
  ∀ dest, ∀ fault ∈ (k.faultsFor dest).take (ops.countP (·.dest = dest)), fault = none

theorem clear_append : k.Clear (ops ++ ops') ↔ k.Clear ops ∧ (k.afterAll ops).Clear ops' := by
  simp only [Clear, faultsFor_afterAll, List.countP_append, List.take_add, List.mem_append, or_imp,
    forall_and]

/-- Without a fault, the kernel refuses only what its table contradicts. -/
theorem Clear.answer (h : k.Clear (op :: ops)) : k.answer op = k.conflict? op := by
  have hnone : (k.faultsFor op.dest).head?.join = none := by
    cases hfaults : k.faultsFor op.dest with
    | nil => rfl
    | cons fault faults =>
        have hmem : fault ∈ (k.faultsFor op.dest).take ((op :: ops).countP (·.dest = op.dest)) := by
          rw [hfaults, List.countP_cons_of_pos (by simp), List.take_succ_cons]
          exact List.mem_cons_self
        rw [h op.dest fault hmem]
        rfl
  rw [Kernel.answer, hnone, Option.none_or]

/-- The forwarding table contradicts the removal of an entry only if it has none. -/
theorem conflict?_flush (k : Kernel) (entry : KernelEntry) :
    k.conflict? (.flush entry) = none ∨ k.conflict? (.flush entry) = some .notFound := by
  rw [conflict?]
  split
  · exact .inl rfl
  · exact .inr rfl

/-- No fault is planned at all. -/
def Faultless (k : Kernel) : Prop := ∀ dest, k.faultsFor dest = []

theorem Faultless.clear (h : k.Faultless) (ops : List KernelOp) : k.Clear ops := by
  intro dest fault hmem
  rw [h dest, List.take_nil] at hmem
  cases hmem

theorem Faultless.afterAll (h : k.Faultless) (ops : List KernelOp) :
    (k.afterAll ops).Faultless := by
  intro dest
  rw [faultsFor_afterAll, h dest, List.drop_nil]

theorem Faultless.answer (h : k.Faultless) (op : KernelOp) : k.answer op = k.conflict? op :=
  Clear.answer (h.clear [op])

end Kernel

namespace Router

variable {now : Instant} {dest : Prefix} {r r' r₁ r₂ r₃ s : Router} {id oldId : RouteId}
  {route old : Route}

/-! ### The parts of a call -/

/-- Between the two states, nothing happened to the kernel but that it was asked for operations. -/
def Asked (r r' : Router) : Prop := ∃ ops, r'.kernel = r.kernel.afterAll ops

theorem asked_of_kernel_eq (h : r'.kernel = r.kernel) : Asked r r' := ⟨[], h⟩

theorem Asked.trans (h : Asked r₁ r₂) (h' : Asked r₂ r₃) : Asked r₁ r₃ := by
  obtain ⟨ops, hops⟩ := h
  obtain ⟨ops', hops'⟩ := h'
  exact ⟨ops ++ ops', by rw [hops', hops, Kernel.afterAll_append]⟩

theorem Move.asked (h : Move now dest r r') : Asked r r' := by
  rcases h.asks with hsame | ⟨op, -, hafter⟩
  · exact asked_of_kernel_eq hsame
  · exact ⟨[op], hafter⟩

theorem AllMoves.asked (h : AllMoves now r r') : Asked r r' := by
  induction h with
  | refl => exact asked_of_kernel_eq rfl
  | tail _ hmove ih =>
      obtain ⟨dest, hmove⟩ := hmove
      exact ih.trans hmove.asked

theorem Moves.asked (h : Moves now dest r r') : Asked r r' := h.all.asked

/-- Nothing else happens to the kernel in any operation. -/
theorem asked_perform (r : Router) (now : Instant) (op : Operation) :
    Asked r (r.perform now op) := by
  refine perform_induction (P := Asked r) ?_ ?_ (asked_of_kernel_eq rfl)
  · intro s s' hstep hs
    rcases hstep with ⟨dest, hmove⟩ | ⟨adv, hheard⟩
    · exact hs.trans hmove.asked
    · cases hheard with
      | observed _ => exact hs
      | recorded _ _ _ => exact hs
  · intro s id route table _ _ _ _ hs
    exact hs

theorem unhindered_iff {ops : List KernelOp} (h : r'.kernel = r.kernel.afterAll ops) :
    Unhindered r r' ↔ r.kernel.Clear ops := by
  obtain ⟨calls, hcalls, hops⟩ := r.kernel.calls_afterAll ops
  have hcount : ∀ dest, calls.countP (·.op.dest = dest) = ops.countP (·.dest = dest) := by
    intro dest
    rw [← hops, List.countP_map]
    rfl
  constructor
  · rintro ⟨calls', hcalls', hclear⟩
    rw [h, hcalls] at hcalls'
    obtain rfl := List.append_cancel_left hcalls'
    intro dest
    rw [← hcount]
    exact hclear dest
  · intro hclear
    refine ⟨calls, h ▸ hcalls, fun dest => ?_⟩
    rw [hcount]
    exact hclear dest

/-- **A call that goes unhindered does so up to any state on the way and from there on.** -/
theorem Unhindered.split (h : Unhindered r r') (hs : Asked r s) (hs' : Asked s r') :
    Unhindered r s ∧ Unhindered s r' := by
  obtain ⟨ops, hops⟩ := hs
  obtain ⟨ops', hops'⟩ := hs'
  have hall : r'.kernel = r.kernel.afterAll (ops ++ ops') := by
    rw [hops', hops, Kernel.afterAll_append]
  rw [unhindered_iff hall, Kernel.clear_append, ← hops] at h
  exact ⟨(unhindered_iff hops).2 h.1, (unhindered_iff hops').2 h.2⟩

theorem Unhindered.of_kernel_eq (h : Unhindered r r') (hk : s.kernel = r'.kernel) :
    Unhindered r s := by
  rwa [Unhindered, hk]

/-- If the first thing that an unhindered call does is to ask for an operation, the kernel refuses
it only if its table contradicts it. -/
theorem Unhindered.answer {op : KernelOp} (h : Unhindered r r') (ha : Asked (r.ask op) r') :
    r.kernel.answer op = r.kernel.conflict? op := by
  have hask : Asked r (r.ask op) := ⟨[op], rfl⟩
  have hfirst : r.kernel.Clear [op] := (unhindered_iff rfl).1 (h.split hask ha).1
  exact hfirst.answer

/-- Where no fault is planned, none strikes, and none is planned afterwards. -/
theorem Asked.faultless (h : Asked r r') (hf : r.kernel.Faultless) :
    Unhindered r r' ∧ r'.kernel.Faultless := by
  obtain ⟨ops, hops⟩ := h
  exact ⟨(unhindered_iff hops).2 (hf.clear ops), hops ▸ hf.afterAll ops⟩

theorem unhindered_perform (h : r.kernel.Faultless) (now : Instant) (op : Operation) :
    Unhindered r (r.perform now op) ∧ (r.perform now op).kernel.Faultless :=
  (r.asked_perform now op).faultless h

theorem Told.kernel (h : Told dest r r') : r'.kernel = r.kernel := by
  obtain ⟨_, _, _, rfl⟩ := h
  rfl

theorem kernel_announceChange (r : Router) (id : RouteId) (oldOrigin : NodeAddress)
    (oldMetric : Metric) : (r.announceChange id oldOrigin oldMetric).kernel = r.kernel := by
  obtain ⟨dest, hd⟩ := r.exists_isFor id
  exact (told_announceChange hd oldOrigin oldMetric).kernel

/-- If the periodic sweep goes unhindered, so does what is left of it after the leftovers. -/
theorem Unhindered.sweep (h : Unhindered r (r.expire now)) :
    Unhindered (r.report .expiring).retryLeftovers
      ((r.report .expiring).retryLeftovers.table.ids.foldl (fun r id => r.expireRoute now id)
        (r.report .expiring).retryLeftovers) :=
  (h.split (r.retryFirst_allMoves now).asked
    (foldl_moves (fun r id => r.expireRoute_allMoves now id) _ _).asked).2

theorem faultless_twoNeighbours : (twoNeighbours []).kernel.Faultless := by
  intro dest
  simp only [twoNeighbours, Kernel.faultsFor, Kernel.plan, OrderedMap.get?_insert]
  split <;> rfl

theorem faultless_rivals : rivals.kernel.Faultless := by
  have hfirst := (unhindered_perform faultless_twoNeighbours 1000
    (.receive ⟨"O1", "P", 10, 104, "N1", "H1"⟩)).2
  exact (unhindered_perform hfirst 1000 (.receive ⟨"O2", "P", 10, 204, "N2", "H2"⟩)).2

/-! ### The steps -/

/-- The forwarding table contradicts no installation, except that the entry may be there already. -/
theorem conflict?_installOp (r : Router) (entry : KernelEntry) :
    r.kernel.conflict? (r.installOp entry) = none ∨
      r.kernel.conflict? (r.installOp entry) = some .alreadyExists := by
  cases hl : r.leftovers.get? entry.dest with
  | some old => exact .inl (by rw [installOp_of_leftover hl]; rfl)
  | none =>
      rw [installOp_of_no_leftover hl, Kernel.conflict?]
      split
      · exact .inr rfl
      · exact .inl rfl

theorem Unhindered.table_install (h : Unhindered r (r.install id))
    (hr : r.table.get? id = some route) (hi : route.installed = false) :
    (r.install id).table = r.table.modify id ({ · with installed := true }) := by
  cases ha : r.kernel.answer (r.installOp (r.entryOf route)) with
  | none =>
      rw [install_of_accepted hr hi ha]
      rfl
  | some error =>
      by_cases hp : error = .alreadyExists
      · subst hp
        rw [install_of_present hr hi ha]
        rfl
      · -- only a fault could have made the kernel refuse
        rw [install_of_refused hr hi ha hp] at h
        have hconflict := h.answer (asked_of_kernel_eq rfl)
        rcases r.conflict?_installOp (r.entryOf route) with hnone | hpresent
        · cases ha.symm.trans (hconflict.trans hnone)
        · exact absurd (Option.some.inj (ha.symm.trans (hconflict.trans hpresent))) hp

theorem Unhindered.table_replaceInstalled (h : Unhindered r (r.replaceInstalled oldId id))
    (ho : r.table.Owns dest oldId old) (hr : r.table.get? id = some route) :
    (r.replaceInstalled oldId id).table =
      (r.table.modify oldId ({ · with installed := false })).modify id
        ({ · with installed := true }) := by
  cases ha : r.kernel.answer (.modify (r.entryOf old) (r.entryOf route)) with
  | none =>
      rw [replaceInstalled_of_accepted ho.get ho.installed hr ha]
      rfl
  | some error =>
      rw [replaceInstalled_of_refused ho.get ho.installed hr ha] at h
      cases ha.symm.trans (h.answer (asked_of_kernel_eq rfl))

theorem Unhindered.table_setMetric {metric : Metric} (h : Unhindered r (r.setMetric id metric))
    (hr : r.table.get? id = some route) :
    (r.setMetric id metric).table = r.table.modify id ({ · with metric }) := by
  cases hi : route.installed with
  | false =>
      rw [setMetric_of_not_installed hr hi]
      rfl
  | true =>
      cases ha : r.kernel.answer (r.metricOp route metric) with
      | none =>
          rw [setMetric_of_accepted hr hi ha]
          rfl
      | some error =>
          rw [setMetric_of_refused hr hi ha] at h
          cases ha.symm.trans (h.answer (asked_of_kernel_eq rfl))

/-! ### Considering a route -/

theorem kernel_promoteOver (r : Router) (id : RouteId) (route : Route) (oldId : RouteId)
    (old : Route) : (r.promoteOver id route oldId old).kernel =
      ((r.report (.switching id route)).replaceInstalled oldId id).kernel := by
  unfold promoteOver
  simp only []
  split
  · exact kernel_announceChange _ _ _ _
  · rfl

/-- A candidate is installed if nothing is installed for its destination. -/
theorem Unhindered.owns_consider_of_vacant (h : Unhindered r (r.consider now id))
    (hc : r.candidate? now id = some route) (hn : r.table.installed? route.dest = none) :
    (r.consider now id).table.Owns route.dest id { route with installed := true } := by
  obtain ⟨hr, hi, -, -⟩ := get?_of_candidate? hc
  rw [consider_of_vacant hc hn] at h ⊢
  have hinstall : Unhindered (r.report (.switching id route))
      ((r.report (.switching id route)).install id) := h
  have htable : (r.promoteAlone id route).table =
      r.table.modify id ({ · with installed := true }) := hinstall.table_install hr hi
  rw [htable]
  exact RouteTable.owns_modify_self.2 ⟨route, hr, rfl, rfl, rfl⟩

/-- A candidate takes the place of the installed route if it is enough of a gain. -/
theorem Unhindered.owns_consider_of_better (h : Unhindered r (r.consider now id))
    (hc : r.candidate? now id = some route) (ho : r.table.installed? route.dest = some (oldId, old))
    (hgain : shouldSwitch old.metric route.metric (old.origin == route.origin) = true) :
    (r.consider now id).table.Owns route.dest id { route with installed := true } := by
  obtain ⟨hr, hi, -, -⟩ := get?_of_candidate? hc
  have howns := RouteTable.owns_of_installed? ho
  have hne := howns.ne_of_not_installed hr hi
  rw [consider_of_gain hc ho hgain] at h ⊢
  have hreplace : Unhindered (r.report (.switching id route))
      ((r.report (.switching id route)).replaceInstalled oldId id) :=
    h.of_kernel_eq (kernel_promoteOver r id route oldId old).symm
  have htable : (r.promoteOver id route oldId old).table =
      ((r.report (.switching id route)).replaceInstalled oldId id).table := by
    unfold promoteOver
    simp only []
    split
    · exact table_announceChange _ _ _ _
    · rfl
  rw [htable, hreplace.table_replaceInstalled (r := r.report _) howns hr]
  exact RouteTable.owns_of_exchanged hr hne

end Router

end DistanceVector
