import DistanceVector.Proofs.Announcements

/-!
# Overtaken routes

A single call announces whatever it changes for the neighbours, with one exception.  If it makes an
installed route worse and a better one takes its place, what is announced is the change from the
worse route to the new one, although no neighbour ever heard of the worse route.  What changed from
the route before may then go unannounced, a change of origin included.

Main definitions:

* `Operation.Recosts` — the operation gives a route a new metric;
* `RouteTable.Sound` — the next name is free, and no two routes for one destination are installed;
* `Router.Unhindered` — no planned fault befell what the kernel was asked for;
* `Router.Overtaken` — a route that was given a new metric is not installed any more;
* `Router.Accounted` — what is announced, whether or not a route was overtaken.

Main results:

* `Router.accounted_remetric`, `Router.accounted_receive` — the calls that give a new metric;
* `Router.announced_unless_overtaken` — **a single call announces what it changes unless it
  overtakes the route that it makes worse, and exactly what it announces then**;
* `Router.overtaking_hides_change_of_origin` — it may hide a change of origin.
-/

set_option relaxedAutoImplicit false
set_option autoImplicit false

namespace DistanceVector

/-- The operation gives the route of that name a new metric: it recomputes the metric, or it is a
feasible advertisement of the route. -/
def Operation.Recosts (r : Router) (now : Instant) : Operation → RouteId → Prop
  | .remetric id, other => id = other
  | .receive adv, other =>
      r.feasible now adv.origin adv.dest adv.seqno adv.refmetric = true ∧
        ∃ route, r.table.match? adv.dest adv.neigh adv.nexthop = some (other, route)
  | _, _ => False

/-- The name of the next new route is that of none, and at most one route for every destination is
installed. -/
structure RouteTable.Sound (t : RouteTable) : Prop where
  nextFree : t.NextFree
  exclusive : ∀ dest, t.Exclusive dest

/-- The operation is a single call about one route: the route is advertised, its metric is
recomputed, or it is removed. -/
def Operation.OfOneRoute : Operation → Prop
  | .receive _ | .remetric _ | .flush _ => True
  | _ => False

namespace Router

variable {now : Instant} {dest : Prefix} {r r' s : Router} {id : RouteId} {route old : Route}
  {adv : Advertisement}

/-- No fault planned for the kernel befell what it was asked for between the two states. -/
def Unhindered (r r' : Router) : Prop :=
  ∃ calls, r'.kernel.calls = r.kernel.calls ++ calls ∧
    ∀ dest, ∀ fault ∈ (r.kernel.faultsFor dest).take (calls.countP (·.op.dest = dest)),
      fault = none

/-- The route was installed for the destination, the operation gave it a new metric, and it is in
the table as `route'`, but not installed any more. -/
structure Overtaken (recosts : RouteId → Prop) (r r' : Router) (dest : Prefix) (id : RouteId)
    (route route' : Route) : Prop where
  recosted : recosts id
  before : r.table.Owns dest id route
  after : r'.table.get? id = some route'
  withdrawn : route'.installed = false

/-- If no route was overtaken, the change of the standing is announced as it must be.  If one was,
it got worse, and the change is announced from the worse route on. -/
structure Accounted (recosts : RouteId → Prop) (r r' : Router) (dest : Prefix) : Prop where
  covered : (∀ id route route', ¬ Overtaken recosts r r' dest id route route') →
    Covered r r' dest
  overtaken : ∀ id route route', Overtaken recosts r r' dest id route route' →
    route.metric < route'.metric ∧
      AnnouncedExactly (some (route'.origin, route'.metric)) r r' dest

theorem Overtaken.mono {p q : RouteId → Prop} {route' : Route}
    (h : Overtaken p r r' dest id route route') (hpq : p id → q id) :
    Overtaken q r r' dest id route route' :=
  ⟨hpq h.recosted, h.before, h.after, h.withdrawn⟩

/-- Where no route gets a new metric, none is overtaken. -/
theorem Covered.accounted {recosts : RouteId → Prop} (h : Covered r r' dest)
    (hnone : ∀ id, ¬ recosts id) : Accounted recosts r r' dest :=
  ⟨fun _ => h, fun id _ _ hover => absurd hover.recosted (hnone id)⟩

theorem Accounted.congr {p q : RouteId → Prop} (h : Accounted p r r' dest)
    (hpq : ∀ id, p id ↔ q id) : Accounted q r r' dest := by
  refine ⟨fun hnone => h.covered fun id route route' hover => ?_, fun id route route' hover => ?_⟩
  · exact hnone id route route' (hover.mono (hpq id).1)
  · exact h.overtaken id route route' (hover.mono (hpq id).2)

theorem Accounted.of_same {p : RouteId → Prop} (h : Accounted p s r' dest)
    (htable : s.table = r.table) (hout : s.outbox = r.outbox) : Accounted p r r' dest := by
  refine ⟨fun hnone => ?_, fun id route route' hover => ?_⟩
  · have hcovered := h.covered fun id route route' hover =>
      hnone id route route' ⟨hover.recosted, htable ▸ hover.before, hover.after, hover.withdrawn⟩
    rw [Covered, standing_of_table_eq htable] at hcovered
    exact hcovered.of_later (by simp only [hout, List.prefix_rfl])
  · obtain ⟨hworse, hexact⟩ := h.overtaken id route route'
      ⟨hover.recosted, htable ▸ hover.before, hover.after, hover.withdrawn⟩
    exact ⟨hworse, hexact.of_outbox_eq hout.symm⟩

theorem accounted_of_table_eq {recosts : RouteId → Prop} (h : r'.table = r.table) :
    Accounted recosts r r' dest := by
  refine ⟨fun _ => covered_of_same (standing_of_table_eq h dest), fun id route route' hover => ?_⟩
  have hsame : some route = some route' := by rw [← hover.before.get, ← hover.after, h]
  have hwithdrawn := hover.withdrawn
  rw [← Option.some.inj hsame, hover.before.installed] at hwithdrawn
  cases hwithdrawn

/-- The changes of a route that was rewritten are accounted for. -/
theorem Rewritten.accounted {new : Route} (h : Rewritten r s id old new)
    (hex : ∀ dest, r.table.Exclusive dest) (now : Instant) (dest : Prefix) :
    Accounted (· = id) r (s.reconsider now id old.origin old.metric) dest := by
  rcases h.reconsider hex now with ⟨hstill, hcovered⟩ | ⟨hget, hi, hworse, hexact⟩
  · refine ⟨fun _ => hcovered dest, ?_⟩
    rintro _ route route' ⟨rfl, ho, hget', hi'⟩
    obtain rfl := Option.some.inj (h.before.symm.trans ho.get)
    have hthere := hstill ho.installed
    rw [isInstalled_of_get? hget', hi'] at hthere
    cases hthere
  · refine ⟨fun hnone => ?_, ?_⟩
    · by_cases hdest : dest = old.dest
      · exact absurd ⟨rfl, ⟨h.before, hi, hdest.symm⟩, hget, rfl⟩ (hnone id old _)
      · have hnew : new.dest = old.dest := h.dest
        have hmoves : Moves now old.dest s (s.reconsider now id old.origin old.metric) :=
          reconsider_moves (hnew ▸ isFor_dest h.after) _ _
        refine covered_of_same ?_
        rw [hmoves.standing_elsewhere (h.exclusive (hex dest)) hdest, h.standing hex (.inr hdest)]
    · rintro _ route route' ⟨rfl, ho, hget', -⟩
      obtain rfl := Option.some.inj (h.before.symm.trans ho.get)
      obtain rfl := Option.some.inj (hget.symm.trans hget')
      exact ⟨hworse, ho.dest_eq ▸ hexact⟩

/-- Whatever the change from `old` calls for, the change from `worse` calls for it, too, or it is
announced because somebody waits for news. -/
structure CallsForNoMore (old worse : Standing) (r' : Router) (dest : Prefix) : Prop where
  urgent : UrgentChange old (r'.standing dest) →
    UrgentChange worse (r'.standing dest) ∨ r'.Awaited dest
  notable : NotableChange old (r'.standing dest) →
    (UrgentChange worse (r'.standing dest) ∨ r'.Awaited dest) ∨
      NotableChange worse (r'.standing dest)

theorem AnnouncedExactly.coveredFrom_iff {old worse : Standing}
    (h : AnnouncedExactly worse r r' dest) :
    CoveredFrom old r r' dest ↔ CallsForNoMore old worse r' dest := by
  constructor
  · intro hcovered
    exact ⟨fun hchange => h.urgent.1 (hcovered.urgent hchange),
      fun hchange => h.any.1 (hcovered.notable hchange)⟩
  · intro hmore
    exact ⟨fun hchange => h.urgent.2 (hmore.urgent hchange),
      fun hchange => h.any.2 (hmore.notable hchange)⟩

/-! ### Changing costs -/

theorem rewritten_retractIfTimedOut (hr : r.table.get? id = some route) (now : Instant) :
    ∃ new, Rewritten r (r.retractIfTimedOut now id route) id route new := by
  unfold retractIfTimedOut
  split
  · exact ⟨_, (Rewritten.refl hr).modify rfl rfl (fun _ => rfl) fun _ => rfl⟩
  · exact ⟨route, .refl hr⟩

/-- To recompute the metric of a route is to rewrite the route and to draw the conclusions. -/
theorem rewritten_remetric (hr : r.table.get? id = some route) (now : Instant) :
    ∃ s new, Rewritten r s id route new ∧ Moves now route.dest r s ∧
      r.remetric now id = s.reconsider now id route.origin route.metric := by
  obtain ⟨_, hretracted⟩ := rewritten_retractIfTimedOut hr now
  obtain ⟨_, hset⟩ := hretracted.setMetric (r.currentMetric now route)
  have hretract : Moves now route.dest r (r.retractIfTimedOut now id route) :=
    retractIfTimedOut_moves hr
  exact ⟨_, _, hset, hretract.trans (setMetric_moves (hretract.isFor (isFor_dest hr)) _),
    remetric_of_get? hr now⟩

theorem accounted_remetric (hex : ∀ dest, r.table.Exclusive dest) (now : Instant) (id : RouteId)
    (dest : Prefix) : Accounted (id = ·) r (r.remetric now id) dest := by
  cases hr : r.table.get? id with
  | none =>
      exact accounted_of_table_eq (by rw [remetric_of_absent hr])
  | some route =>
      obtain ⟨_, _, hset, -, hremetric⟩ := rewritten_remetric hr now
      rw [hremetric]
      exact (hset.accounted hex now dest).congr fun other => eq_comm

/-! ### Recording an advertisement -/

theorem rewritten_record (hr : r.table.get? id = some old) (now : Instant) (adv : Advertisement)
    (feasible : Bool) (metric : Metric) :
    ∃ new, Rewritten r (r.record now adv feasible metric id) id old new := by
  have hrecorded : Rewritten r (r.modifyRoute id (·.withAdvertisement now adv feasible)) id old _ :=
    (Rewritten.refl hr).modify rfl rfl (fun _ => rfl) fun _ => rfl
  exact hrecorded.setMetric metric

/-- No move takes a call back. -/
theorem Move.calls (h : Move now dest r r') : r.kernel.calls <+: r'.kernel.calls := by
  rcases h.asks with hsame | ⟨op, -, hafter⟩
  · simp only [hsame, List.prefix_rfl]
  · rw [hafter]
    exact List.prefix_append r.kernel.calls _

theorem Moves.calls (h : Moves now dest r r') : r.kernel.calls <+: r'.kernel.calls := by
  induction h with
  | refl => exact List.prefix_rfl
  | tail _ hmove ih => exact ih.trans hmove.calls

theorem calls_record (r : Router) (now : Instant) (adv : Advertisement) (feasible : Bool)
    (metric : Metric) (id : RouteId) :
    r.kernel.calls <+: (r.record now adv feasible metric id).kernel.calls := by
  obtain ⟨dest, hd⟩ := r.exists_isFor id
  exact (record_moves hd now adv feasible metric).calls

/-- If the kernel refuses to let go of the route of an unfeasible advertisement, that is the first
call of all. -/
theorem calls_update_of_refused (hr : r.table.get? id = some old) (hi : old.installed = true)
    {error : KernelError} (he : r.kernel.answer (.flush (r.entryOf old)) = some error)
    (hne : error ≠ .notFound) (now : Instant) (adv : Advertisement) (metric : Metric) :
    ∃ rest, (r.update now adv false metric id old).kernel.calls =
      r.kernel.calls ++ ⟨.flush (r.entryOf old), some error⟩ :: rest := by
  have hw : (r.report (.unfeasible old.origin adv)).uninstall id =
      ((r.report (.unfeasible old.origin adv)).ask (.flush (r.entryOf old))).report
        (.refused (.flush (r.entryOf old)) error) :=
    uninstall_of_refused (r := r.report (.unfeasible old.origin adv)) hr hi he hne
  have hget : ((r.report (.unfeasible old.origin adv)).uninstall id).table.get? id = some old := by
    rw [hw]
    exact hr
  rw [update_of_stuck hi ((isInstalled_of_get? hget).trans hi)]
  generalize hu : (r.report (.unfeasible old.origin adv)).uninstall id = w at hget hw
  have hrest : Moves now adv.dest (w.record now adv false metric id)
      ((w.record now adv false metric id).requestFeasible metric adv.origin adv.dest) :=
    (told_requestFeasible _ metric adv.origin adv.dest).moves
  obtain ⟨rest, hcalls⟩ := (calls_record w now adv false metric id).trans hrest.calls
  have hwcalls : w.kernel.calls = r.kernel.calls ++ [⟨.flush (r.entryOf old), some error⟩] := by
    rw [← he, hw]
    rfl
  refine ⟨rest, ?_⟩
  rw [← hcalls, hwcalls, List.append_assoc]
  rfl

/-- If no fault befalls the kernel, it lets go of the route of an unfeasible advertisement. -/
theorem answer_of_unhindered {metric : Metric} (hr : r.table.get? id = some old)
    (hi : old.installed = true) (h : Unhindered r (r.update now adv false metric id old)) :
    r.kernel.answer (.flush (r.entryOf old)) = none ∨
      r.kernel.answer (.flush (r.entryOf old)) = some .notFound := by
  cases he : r.kernel.answer (.flush (r.entryOf old)) with
  | none => exact .inl rfl
  | some error =>
      refine .inr (congrArg some ?_)
      by_contra hne
      obtain ⟨rest, hcalls⟩ := calls_update_of_refused hr hi he hne now adv metric
      -- the refusal used up the first fault planned for the destination
      obtain ⟨calls, hsplit, hnofault⟩ := h
      have hfirst : calls = ⟨.flush (r.entryOf old), some error⟩ :: rest :=
        List.append_cancel_left (hsplit.symm.trans hcalls)
      obtain ⟨plan, hplan⟩ :=
        List.head?_eq_some_iff.1 (Kernel.head?_faultsFor_of_flush_refused he hne)
      have hcount : calls.countP (·.op.dest = (r.entryOf old).dest) =
          rest.countP (·.op.dest = (r.entryOf old).dest) + 1 := by
        rw [hfirst, List.countP_cons, if_pos (by simp [KernelOp.dest, KernelOp.entry])]
      have hmem : some error ∈ (r.kernel.faultsFor (r.entryOf old).dest).take
          (calls.countP (·.op.dest = (r.entryOf old).dest)) := by
        rw [hplan, hcount, List.take_succ_cons]
        exact List.mem_cons_self
      cases hnofault _ (some error) hmem

/-- An advertisement of a route of the table changes nothing for other destinations. -/
theorem standing_update_elsewhere (hex : ∀ dest, r.table.Exclusive dest)
    (hr : r.table.get? id = some old) (hd : old.dest = adv.dest) (hdest : dest ≠ adv.dest)
    (feasible : Bool) (metric : Metric) :
    (r.update now adv feasible metric id old).standing dest = r.standing dest := by
  -- moves up to the state `w` in which the advertisement is recorded, and moves from there
  obtain ⟨w, route, hbefore, -, hget, hroute, hafter⟩ := update_moves now hr hd feasible metric
  have hexclusive : ∀ dest, w.table.Exclusive dest := fun dest =>
    hbefore.all.exclusive (hex dest)
  have hrecorded : Rewritten w
      { w with table := w.table.modify id (·.withAdvertisement now adv feasible) } id route _ :=
    (Rewritten.refl hget).modify rfl rfl (fun _ => rfl) fun _ => rfl
  rw [hafter.standing_elsewhere (hrecorded.exclusive (hexclusive dest)) hdest,
    hrecorded.standing hexclusive (.inr (hroute ▸ hdest)),
    hbefore.standing_elsewhere (hex dest) hdest]

/-- An unfeasible advertisement of the installed route is announced, be it that another route is
installed or that there is none, if the kernel lets go of the route. -/
theorem announced_update_unfeasible (hex : ∀ dest, r.table.Exclusive dest)
    (ho : r.table.Owns adv.dest id old) (hx : adv.dest ∉ r.exports) {metric : Metric}
    (h : Unhindered r (r.update now adv false metric id old)) :
    Announced r (r.update now adv false metric id old) adv.dest true := by
  have hreport : (r.report (.unfeasible old.origin adv)).route? id = some old := ho.get
  have hfor : (r.report (.unfeasible old.origin adv)).IsFor id adv.dest :=
    ho.dest_eq ▸ isFor_dest ho.get
  have hanswer := answer_of_unhindered ho.get ho.installed h
  have hwithdrawn : Moves now adv.dest r ((r.report (.unfeasible old.origin adv)).uninstall id) :=
    (told_report _ r _).moves.trans (uninstall_moves hfor)
  have hget := get?_uninstall_of_accepted hreport ho.installed hanswer
  have hnone : ∀ other ρ, ¬ ((r.report (.unfeasible old.origin adv)).uninstall id).table.Owns
      adv.dest other ρ := by
    intro other ρ hother
    rw [table_uninstall_of_accepted hreport ho.installed hanswer] at hother
    exact (hex adv.dest).not_owns_of_withdrawn ho other ρ hother
  rw [update_of_withdrawn ho.installed (isInstalled_of_get? hget)]
  -- from here on, it only matters that nothing is installed for the destination
  generalize (r.report (.unfeasible old.origin adv)).uninstall id = w at hwithdrawn hget hnone
  obtain ⟨new, hrecorded⟩ := rewritten_record hget now adv false metric
  have hrequested : Move now adv.dest (w.record now adv false metric id)
      ((w.record now adv false metric id).requestFeasible metric adv.origin adv.dest) :=
    .told (told_requestFeasible _ metric adv.origin adv.dest)
  have hbackground := hwithdrawn.sameBackground.trans
    ((sameBackground_record w now adv false metric id).trans hrequested.sameBackground)
  rw [← hbackground.exports] at hx
  refine (announced_replaceLost ?_ hx _ _ _).of_later ?_
  · intro other ρ hother
    rw [table_requestFeasible] at hother
    obtain ⟨σ, hσ, -⟩ := hrecorded.owns hother
    exact hnone other σ hσ
  · refine hwithdrawn.all.outbox.trans ?_
    rw [← hrecorded.outbox]
    exact hrequested.outbox

/-- An unfeasible advertisement is reported, too, if the kernel lets go of its route. -/
theorem reported_update_unfeasible (hex : ∀ dest, r.table.Exclusive dest)
    (hr : r.table.get? id = some old) (hd : old.dest = adv.dest) (hx : dest ∉ r.exports)
    {metric : Metric}
    (h : Unhindered r (r.update now adv false metric id old)) :
    Reported r (r.update now adv false metric id old) dest := by
  by_cases hdest : dest = adv.dest
  · subst hdest
    cases hi : old.installed with
    | false =>
        obtain ⟨new, hrecorded⟩ := rewritten_record hr now adv false metric
        rw [update_of_not_installed hi]
        refine .inl ?_
        rw [standing_of_table_eq (table_requestFeasible _ _ _ _), hrecorded.standing hex (.inl hi)]
    | true => exact .inr (announced_update_unfeasible hex ⟨hr, hi, hd⟩ hx h)
  · exact .inl (standing_update_elsewhere hex hr hd hdest false metric)

/-! ### A route that is not in the table -/

theorem reported_withRoom (hex : ∀ dest, r.table.Exclusive dest) (hx : dest ∉ r.exports)
    (now : Instant) : Reported r (r.withRoom now) dest := by
  unfold withRoom
  split
  · exact reported_makeRoom hex hx now
  · exact .inl rfl

/-- To store a new route under a free name leaves every standing as it is. -/
theorem standing_of_insert? {table : RouteTable} (hs : r.table.Sound) (hi : route.installed = false)
    (ht : r.table.insert? route = some (id, table)) (dest : Prefix) :
    (∀ dest, table.Exclusive dest) ∧
      standing { r with table := table } dest = r.standing dest := by
  have hexclusive : ∀ dest, table.Exclusive dest := fun dest i j ρ σ hi' hj' =>
    hs.exclusive dest i j ρ σ (RouteTable.owns_of_insert? ht hi hi')
      (RouteTable.owns_of_insert? ht hi hj')
  refine ⟨hexclusive, standing_congr (hs.exclusive dest) (hexclusive dest) ?_ ?_⟩
  · intro other ρ ho
    exact ⟨ρ, RouteTable.owns_of_insert? ht hi ho, rfl, rfl⟩
  · intro other σ ho
    exact ⟨σ, RouteTable.get?_insert?_of_some ht hs.nextFree ho.get, ho.installed, ho.dest_eq⟩

/-- To take up a new route reports what that changes, the routes included that make room for it. -/
theorem covered_adopt (hs : r.table.Sound) (hx : dest ∉ r.exports) (now : Instant)
    (adv : Advertisement) (interface : InterfaceId) (metric : Metric) :
    Covered r (r.adopt now adv interface metric).2 dest := by
  have hroom : AllMoves now r (r.withRoom now) := withRoom_allMoves r now
  have hreported : Reported r (r.withRoom now) dest := reported_withRoom hs.exclusive hx now
  have hsound : (r.withRoom now).table.Sound :=
    ⟨hroom.noneStored.nextFree hs.nextFree, fun dest => hroom.exclusive (hs.exclusive dest)⟩
  rcases adopt_cases r now adv interface metric with heq | ⟨id, table, ht, heq⟩
  · rw [heq]
    have hrejected : Move now "" (r.withRoom now) ((r.withRoom now).reject adv .tableFull).2 :=
      .told (told_reject _ adv _ "")
    have hsame : ((r.withRoom now).reject adv .tableFull).2.table = (r.withRoom now).table :=
      table_reject _ adv _
    exact hreported.trans_covered (covered_of_same (standing_of_table_eq hsame dest))
      hroom.outbox hrejected.outbox
  · rw [heq]
    -- the new route is not installed yet, so the standing is that after room was made
    obtain ⟨hexclusive, hstanding⟩ := standing_of_insert? hsound rfl ht dest
    have hconsidered : Covered { r.withRoom now with table := table }
        (consider { r.withRoom now with table := table } now id) dest :=
      covered_consider hexclusive now id dest
    rw [Covered, hstanding] at hconsidered
    have hcovered : Covered (r.withRoom now)
        (consider { r.withRoom now with table := table } now id) dest :=
      hconsidered.of_later List.prefix_rfl
    have hmoves := consider_allMoves { r.withRoom now with table := table } now id
    exact hreported.trans_covered hcovered hroom.outbox hmoves.outbox

/-! ### Advertisements -/

/-- What is announced of an advertisement of a route that is in the table. -/
theorem accounted_update (hex : ∀ dest, r.table.Exclusive dest) (hr : r.table.get? id = some old)
    (hd : old.dest = adv.dest) (hx : dest ∉ r.exports) (feasible : Bool) {metric : Metric}
    (h : Unhindered r (r.update now adv feasible metric id old)) :
    Accounted (fun other => feasible = true ∧ other = id) r
      (r.update now adv feasible metric id old) dest := by
  cases feasible with
  | false =>
      exact (reported_update_unfeasible hex hr hd hx h).covered.accounted fun other hother =>
        Bool.false_ne_true hother.1
  | true =>
      obtain ⟨new, hrecorded⟩ := rewritten_record hr now adv true metric
      rw [update_of_feasible]
      exact (hrecorded.accounted hex now dest).congr fun other => by simp

theorem accounted_accept (hs : r.table.Sound) (hx : dest ∉ r.exports) {interface : InterfaceId}
    (h : Unhindered r (r.accept now adv interface).2) :
    Accounted (Operation.Recosts r now (.receive adv)) r (r.accept now adv interface).2 dest := by
  cases hm : r.table.match? adv.dest adv.neigh adv.nexthop with
  | some e =>
      obtain ⟨id, old⟩ := e
      obtain ⟨hr, hd, -⟩ := RouteTable.get?_of_match? hm
      rw [accept_of_match hm] at h ⊢
      refine (accounted_update hs.exclusive hr hd hx _ h).congr fun other =>
        and_congr_right fun _ => ?_
      constructor
      · rintro rfl
        exact ⟨old, hm⟩
      · rintro ⟨route, hroute⟩
        cases hm.symm.trans hroute
        rfl
  | none =>
      have hnone : ∀ other, ¬ Operation.Recosts r now (.receive adv) other := by
        rintro other ⟨-, route, hroute⟩
        cases hm.symm.trans hroute
      rcases accept_of_vacant hm now interface with hunfeasible | hretraction | hadopt
      · rw [hunfeasible]
        exact accounted_of_table_eq ((table_reject _ adv _).trans (table_requestFeasible _ _ _ _))
      · rw [hretraction]
        exact accounted_of_table_eq (table_reject r adv _)
      · rw [hadopt]
        exact (covered_adopt hs hx now adv interface _).accounted hnone

/-- **What is announced of an advertisement.** -/
theorem accounted_receive (hs : r.table.Sound) (hx : dest ∉ r.exports)
    (h : Unhindered r (r.receive now adv).2) :
    Accounted (Operation.Recosts r now (.receive adv)) r (r.receive now adv).2 dest := by
  rcases r.receive_cases now adv with ⟨reason, heq⟩ | ⟨interface, sources, -, hobserve, heq⟩
  · rw [heq]
    exact accounted_of_table_eq (table_reject r adv reason)
  · rw [heq] at h ⊢
    have haccepted : Accounted (Operation.Recosts { r with sources := sources } now (.receive adv))
        { r with sources := sources } (accept { r with sources := sources } now adv interface).2
        dest := accounted_accept (r := { r with sources := sources }) hs hx h
    -- that the source is put on record first does not change what is feasible
    have hfeasible : feasible { r with sources := sources } now adv.origin adv.dest adv.seqno
        adv.refmetric = r.feasible now adv.origin adv.dest adv.seqno adv.refmetric :=
      SourceTable.feasible_of_observe hobserve r.params.staleDelay adv.refmetric
    have hsame : Accounted (Operation.Recosts { r with sources := sources } now (.receive adv)) r
        (accept { r with sources := sources } now adv interface).2 dest :=
      haccepted.of_same rfl rfl
    exact hsame.congr fun other => by simp only [Operation.Recosts, hfeasible]

/-! ### Single calls -/

theorem accounted_perform (hs : r.table.Sound) {op : Operation} (hop : op.OfOneRoute)
    (h : Unhindered r (r.perform now op)) (hx : dest ∉ r.exports) :
    Accounted (op.Recosts r now) r (r.perform now op) dest := by
  cases op with
  | receive adv => exact accounted_receive hs hx h
  | flush id => exact (reported_flush hs.exclusive hx now id).covered.accounted fun _ => False.elim
  | remetric id => exact accounted_remetric hs.exclusive now id dest
  | _ => exact hop.elim

/-- **A single call announces what it changes unless it overtakes the route that it makes worse.**
Then the announcement is that of the change from the worse route on, and it falls short exactly if
the change from the route before called for more, and nobody waits for news. -/
theorem announced_unless_overtaken (hs : r.table.Sound) (op : Operation) (hop : op.OfOneRoute)
    (h : Unhindered r (r.perform now op)) (hx : dest ∉ r.exports) :
    ((∀ id route route',
        ¬ Overtaken (op.Recosts r now) r (r.perform now op) dest id route route') →
      Covered r (r.perform now op) dest) ∧
    ∀ id route route', Overtaken (op.Recosts r now) r (r.perform now op) dest id route route' →
      route.metric < route'.metric ∧
      AnnouncedExactly (some (route'.origin, route'.metric)) r (r.perform now op) dest ∧
      (Covered r (r.perform now op) dest ↔
        CallsForNoMore (some (route.origin, route.metric)) (some (route'.origin, route'.metric))
          (r.perform now op) dest) := by
  obtain ⟨hcovered, hovertaken⟩ := accounted_perform hs hop h hx
  refine ⟨hcovered, fun id route route' hover => ?_⟩
  obtain ⟨hworse, hexact⟩ := hovertaken id route route' hover
  refine ⟨hworse, hexact, ?_⟩
  rw [Covered, standing_of_owns (hs.exclusive dest) hover.before]
  exact hexact.coveredFrom_iff

/-- A router with two routes for `P`, of which that of `O1` is installed, and no fault planned. -/
def rivals : Router :=
  ((twoNeighbours []).perform 1000 (.receive ⟨"O1", "P", 10, 104, "N1", "H1"⟩)).perform 1000
    (.receive ⟨"O2", "P", 10, 204, "N2", "H2"⟩)

theorem reachable_rivals : Reachable rivals := by
  have hlinked : Reachable (twoNeighbours []) := .surround (.start {}) rfl rfl
  exact .operate (.operate hlinked 1000 _) 1000 _

theorem unhindered_rivals (calls : List KernelCall)
    (hcalls : r'.kernel.calls = rivals.kernel.calls ++ calls) : Unhindered rivals r' := by
  have hfaults : rivals.kernel.faults = OrderedMap.empty.insert "P" [] := by decide +kernel
  refine ⟨calls, hcalls, fun dest fault hmem => ?_⟩
  have hnone : rivals.kernel.faultsFor dest = [] := by
    rw [Kernel.faultsFor, hfaults, OrderedMap.get?_insert]
    split <;> rfl
  rw [hnone, List.take_nil] at hmem
  cases hmem

/-- `rivals` after the neighbour of the installed route passed on a worse one of `O2`. -/
def worsened : Router := rivals.perform 1001 (.receive ⟨"O2", "P", 10, 304, "N1", "H1"⟩)

/-- The other route of `O2` takes the place of the worse one, and between these two there is nothing
to announce, although it was a route of `O1` before.  Had the route of `O1` been removed, the same
change would have been announced. -/
theorem announced_from_worse_rival :
    rivals.standing "P" = some ("O1", 200) ∧ worsened.standing "P" = some ("O2", 300) ∧
      (rivals.perform 1001 (.flush 0)).standing "P" = some ("O2", 300) ∧
      Covered rivals (rivals.perform 1001 (.flush 0)) "P" ∧
      AnnouncedExactly (some ("O2", 400)) rivals worsened "P" ∧
      (Covered rivals worsened "P" ↔
        CallsForNoMore (some ("O1", 200)) (some ("O2", 400)) worsened "P") := by
  have hfree : rivals.table.get? rivals.table.nextId = none := by decide +kernel
  have hs : rivals.table.Sound := ⟨hfree, fun dest => (reachable_rivals.soleOwner dest).exclusive⟩
  have hexported : "P" ∉ rivals.exports := by decide +kernel
  have hflushed : Unhindered rivals (rivals.perform 1001 (.flush 0)) :=
    unhindered_rivals [⟨.flush ⟨"P", "H1", 1, 1⟩, none⟩, ⟨.add ⟨"P", "H2", 2, 2⟩, none⟩]
      (by decide +kernel)
  have hworsened : Unhindered rivals worsened :=
    unhindered_rivals [⟨.modify ⟨"P", "H1", 1, 1⟩ ⟨"P", "H1", 1, 2⟩, none⟩,
      ⟨.modify ⟨"P", "H1", 1, 2⟩ ⟨"P", "H2", 2, 2⟩, none⟩] (by decide +kernel)
  have hover : Overtaken (Operation.Recosts rivals 1001
      (.receive ⟨"O2", "P", 10, 304, "N1", "H1"⟩)) rivals worsened "P" 0
      ⟨"P", "O1", "N1", "H1", 1, 10, 104, 200, 1000, 1000, true⟩
      ⟨"P", "O2", "N1", "H1", 1, 10, 304, 400, 1001, 1000, false⟩ := by
    have hroutes : rivals.feasible 1001 "O2" "P" 10 304 = true ∧
        rivals.table.match? "P" "N1" "H1" = some (0,
          ⟨"P", "O1", "N1", "H1", 1, 10, 104, 200, 1000, 1000, true⟩) ∧
        worsened.table.get? 0 = some
          ⟨"P", "O2", "N1", "H1", 1, 10, 304, 400, 1001, 1000, false⟩ := by decide +kernel
    obtain ⟨hfeasible, hmatch, hafter⟩ := hroutes
    obtain ⟨hget, -, -⟩ := RouteTable.get?_of_match? hmatch
    exact ⟨⟨hfeasible, _, hmatch⟩, ⟨hget, rfl, rfl⟩, hafter, rfl⟩
  have hremoved := (announced_unless_overtaken hs (.flush 0) trivial hflushed hexported).1
  obtain ⟨-, hexact, hiff⟩ := (announced_unless_overtaken hs
    (.receive ⟨"O2", "P", 10, 304, "N1", "H1"⟩) trivial hworsened hexported).2 _ _ _ hover
  have hstandings : rivals.standing "P" = some ("O1", 200) ∧
      worsened.standing "P" = some ("O2", 300) ∧
      (rivals.perform 1001 (.flush 0)).standing "P" = some ("O2", 300) := by decide +kernel
  exact ⟨hstandings.1, hstandings.2.1, hstandings.2.2,
    hremoved fun id route route' hflush => hflush.recosted, hexact, hiff⟩

/-- A change of origin may go unannounced. -/
theorem overtaking_hides_change_of_origin :
    ¬ ∀ (r : Router) (now : Instant) (op : Operation) (dest : Prefix), Reachable r →
      op.OfOneRoute → Unhindered r (r.perform now op) → dest ∉ r.exports →
        Covered r (r.perform now op) dest := by
  intro hclaim
  have hcalls : worsened.kernel.calls = rivals.kernel.calls ++
      [⟨.modify ⟨"P", "H1", 1, 1⟩ ⟨"P", "H1", 1, 2⟩, none⟩,
        ⟨.modify ⟨"P", "H1", 1, 2⟩ ⟨"P", "H2", 2, 2⟩, none⟩] := by decide +kernel
  have hcovered := hclaim rivals 1001 (.receive ⟨"O2", "P", 10, 304, "N1", "H1"⟩) "P"
    reachable_rivals trivial (unhindered_rivals _ hcalls) (by decide +kernel)
  have hstandings : rivals.standing "P" = some ("O1", 200) ∧
      worsened.standing "P" = some ("O2", 300) := by decide +kernel
  have hchange : UrgentChange (rivals.standing "P") (worsened.standing "P") := by
    rw [hstandings.1, hstandings.2]
    exact .inl (by decide)
  obtain ⟨packets, hpackets, hmem⟩ := hcovered.urgent hchange
  have hsilent : worsened.outbox = rivals.outbox := by decide +kernel
  have hnone : rivals.outbox ++ packets = rivals.outbox := hpackets.symm.trans hsilent
  rw [List.append_right_eq_self.1 hnone] at hmem
  cases hmem

end Router

end DistanceVector
