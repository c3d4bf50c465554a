import DistanceVector.Proofs.Coherence
import DistanceVector.Proofs.Standing

/-!
# Changes are announced

A change of the installed route for a destination that matters to the neighbours is announced when
it happens.  This module goes through what can happen to a single route: another is considered, it
was rewritten, it is lost, it makes room.

Main definitions:

* `Router.Rewritten` — one route was rewritten, and nothing else that neighbours know or are told.

Main results:

* `Router.announcedExactly_announceChange` — **the change of an installed route is announced exactly
  if it has to be or somebody waits for news**;
* `Router.covered_consider`, `Router.reported_flush`, `Router.reported_makeRoom` — to consider a
  route, to remove one and to make room announce what that changes;
* `Router.Rewritten.reconsider` — what comes of a route that was rewritten: all that changed is
  announced, or the route got worse and was overtaken.
-/

set_option relaxedAutoImplicit false
set_option autoImplicit false

namespace DistanceVector.Router

variable {now : Instant} {dest : Prefix} {r r' s : Router} {id oldId : RouteId}
  {route old ρ : Route}

/-! ### The packets that a change calls for -/

/-- None of the packets announces a route. -/
def NoUpdates (packets : List OutboundPacket) : Prop :=
  ∀ dest urgent, (Packet.routeUpdate dest urgent).toAll ∉ packets

theorem outbox_requestSeqno (r : Router) (origin : NodeAddress) (dest : Prefix) :
    ∃ requests, (r.requestSeqno origin dest).outbox = r.outbox ++ requests ∧
      NoUpdates requests := by
  unfold requestSeqno
  split
  · exact ⟨[], by simp, by simp [NoUpdates]⟩
  · exact ⟨_, rfl, by simp [NoUpdates, Packet.toAll]⟩

theorem outbox_requestIfWorse (r : Router) (route : Route) (oldMetric : Metric) :
    ∃ requests, (r.requestIfWorse route oldMetric).outbox = r.outbox ++ requests ∧
      NoUpdates requests := by
  unfold requestIfWorse
  split
  · exact ⟨[], by simp, by simp [NoUpdates]⟩
  split
  · exact outbox_requestSeqno r route.origin route.dest
  split
  · exact ⟨_, rfl, by simp [NoUpdates, Packet.toAll]⟩
  · exact ⟨[], by simp, by simp [NoUpdates]⟩

theorem outbox_announceIfChanged (r : Router) (route : Route) (oldOrigin : NodeAddress)
    (oldMetric : Metric) :
    (r.announceIfChanged route oldOrigin oldMetric).outbox = r.outbox ++
      if r.changeIsUrgent route oldOrigin oldMetric || farApart oldMetric route.metric 256 then
        [(Packet.routeUpdate route.dest (r.changeIsUrgent route oldOrigin oldMetric)).toAll]
      else [] := by
  unfold announceIfChanged
  simp only []
  split
  · rfl
  · rw [List.append_nil]

/-- The packets that the change of an installed route calls for: one announcement or none, and
then requests. -/
theorem outbox_announceChange (hr : r.table.get? id = some route) (hi : route.installed = true)
    (oldOrigin : NodeAddress) (oldMetric : Metric) :
    ∃ requests, (r.announceChange id oldOrigin oldMetric).outbox = r.outbox ++
      ((if r.changeIsUrgent route oldOrigin oldMetric || farApart oldMetric route.metric 256 then
        [(Packet.routeUpdate route.dest (r.changeIsUrgent route oldOrigin oldMetric)).toAll]
      else []) ++ requests) ∧ NoUpdates requests := by
  have hchange : r.announceChange id oldOrigin oldMetric =
      (r.announceIfChanged route oldOrigin oldMetric).requestIfWorse route oldMetric := by
    simp [announceChange, route?, hr, hi]
  obtain ⟨requests, hrequests, hno⟩ :=
    outbox_requestIfWorse (r.announceIfChanged route oldOrigin oldMetric) route oldMetric
  refine ⟨requests, ?_, hno⟩
  rw [hchange, hrequests, outbox_announceIfChanged, List.append_assoc]

theorem announced_announceChange_iff (hr : r.table.get? id = some route)
    (hi : route.installed = true) (oldOrigin : NodeAddress) (oldMetric : Metric) (urgent : Bool) :
    Announced r (r.announceChange id oldOrigin oldMetric) route.dest urgent ↔
      r.changeIsUrgent route oldOrigin oldMetric = urgent ∧
        (urgent = true ∨ farApart oldMetric route.metric 256 = true) := by
  obtain ⟨requests, houtbox, hno⟩ := outbox_announceChange hr hi oldOrigin oldMetric
  -- the requests that follow are no announcements, so the one before them decides
  have hmem : Announced r (r.announceChange id oldOrigin oldMetric) route.dest urgent ↔
      (Packet.routeUpdate route.dest urgent).toAll ∈
        if r.changeIsUrgent route oldOrigin oldMetric || farApart oldMetric route.metric 256 then
          [(Packet.routeUpdate route.dest (r.changeIsUrgent route oldOrigin oldMetric)).toAll]
        else [] := by
    constructor
    · rintro ⟨packets, hpackets, hmem⟩
      rw [houtbox] at hpackets
      rw [← List.append_cancel_left hpackets] at hmem
      exact (List.mem_append.1 hmem).resolve_right (hno route.dest urgent)
    · intro hmem
      exact ⟨_, houtbox, List.mem_append_left requests hmem⟩
  rw [hmem]
  split
  · next hcond =>
    rw [Bool.or_eq_true] at hcond
    simp only [List.mem_singleton, Packet.toAll, OutboundPacket.mk.injEq, Packet.routeUpdate.injEq,
      true_and]
    constructor
    · rintro rfl
      exact ⟨rfl, hcond⟩
    · rintro ⟨h, -⟩
      exact h.symm
  · next hcond =>
    rw [Bool.or_eq_true, not_or] at hcond
    simp only [List.not_mem_nil, false_iff]
    rintro ⟨rfl, h⟩
    exact h.elim hcond.1 hcond.2

theorem reachable_ne_iff (a b : Metric) :
    (a.reachable != b.reachable) = true ↔ ¬ (a = Metric.infinity ↔ b = Metric.infinity) := by
  rw [← Metric.not_reachable_iff, ← Metric.not_reachable_iff]
  cases a.reachable <;> cases b.reachable <;> decide

theorem farApart_iff (a b : Metric) (margin : Nat) :
    farApart a b margin = true ↔
      a.toNat + margin ≤ b.toNat ∨ b.toNat + margin ≤ a.toNat := by
  simp [farApart]

/-- A change is urgent if it must be announced at once, or if somebody waits for it. -/
theorem changeIsUrgent_iff (r : Router) (route : Route) (oldOrigin : NodeAddress)
    (oldMetric : Metric) :
    r.changeIsUrgent route oldOrigin oldMetric = true ↔
      UrgentChange (some (oldOrigin, oldMetric)) (some (route.origin, route.metric)) ∨
        r.awaits route = true := by
  rw [changeIsUrgent, Bool.or_eq_true, Bool.or_eq_true, Bool.or_eq_true, reachable_ne_iff,
    farApart_iff, bne_iff_ne, ne_comm]
  simp only [UrgentChange, or_assoc]

/-- The change of an installed route is announced exactly if it has to be or somebody waits. -/
theorem announcedExactly_announceChange (hex : r.table.Exclusive dest)
    (ho : r.table.Owns dest id route) (oldOrigin : NodeAddress) (oldMetric : Metric) :
    AnnouncedExactly (some (oldOrigin, oldMetric)) r (r.announceChange id oldOrigin oldMetric)
      dest := by
  have htable : (r.announceChange id oldOrigin oldMetric).table = r.table :=
    table_announceChange _ _ _ _
  -- to announce changes neither the table nor who waits, so the route is still that of before
  have hstanding : (r.announceChange id oldOrigin oldMetric).standing dest =
      some (route.origin, route.metric) := by
    rw [standing_of_table_eq htable, standing_of_owns hex ho]
  have hrequests : (r.announceChange id oldOrigin oldMetric).requests = r.requests := by
    have htold := told_announceChange (ho.dest_eq ▸ isFor_dest ho.get) oldOrigin oldMetric
    exact (htold.moves : Moves 0 dest _ _).sameBackground.requests
  have hawaited : (r.announceChange id oldOrigin oldMetric).Awaited dest ↔
      r.awaits route = true := by
    constructor
    · rintro ⟨other, ρ, hother, hawaits⟩
      rw [htable] at hother
      obtain rfl := hex _ _ _ _ ho hother
      obtain rfl := Option.some.inj (ho.get.symm.trans hother.get)
      rwa [awaits, hrequests] at hawaits
    · intro hawaits
      exact ⟨id, route, htable ▸ ho, by rwa [awaits, hrequests]⟩
  have hannounced := announced_announceChange_iff ho.get ho.installed oldOrigin oldMetric
  rw [ho.dest_eq] at hannounced
  refine ⟨?_, ?_⟩
  · rw [hstanding, hawaited, ← changeIsUrgent_iff, hannounced]
    simp
  · rw [hstanding, hawaited, ← changeIsUrgent_iff]
    simp only [hannounced, farApart_iff, NotableChange]
    constructor
    · rintro ⟨urgent, rfl, h⟩
      exact h
    · intro h
      exact ⟨_, rfl, h⟩

/-! ### Promotion -/

/-- What it comes to that a route is considered: it may not be installed or is not good enough, or
it is installed where nothing was, or it is put in the place of the installed one. -/
theorem consider_cases (r : Router) (now : Instant) (id : RouteId) :
    r.consider now id = r ∨
    (∃ route, r.candidate? now id = some route ∧
      r.table.installed? route.dest = none ∧ r.consider now id = r.promoteAlone id route) ∨
    ∃ route oldId old, r.candidate? now id = some route ∧ r.table.Owns route.dest oldId old ∧
      r.consider now id = r.promoteOver id route oldId old := by
  cases hc : r.candidate? now id with
  | none => exact .inl (consider_of_no_candidate hc)
  | some route =>
      cases ho : r.table.installed? route.dest with
      | none => exact .inr (.inl ⟨route, rfl, ho, consider_of_vacant hc ho⟩)
      | some e =>
          cases hgain : shouldSwitch e.2.metric route.metric (e.2.origin == route.origin) with
          | true =>
              exact .inr (.inr ⟨route, e.1, e.2, rfl, RouteTable.owns_of_installed? ho,
                consider_of_gain hc ho hgain⟩)
          | false => exact .inl (consider_of_no_gain hc ho hgain)

theorem announced_promoteAlone (r : Router) (id : RouteId) (route : Route) :
    Announced r (r.promoteAlone id route) route.dest true := by
  refine (announced_announce _ route.dest true).of_later ?_
  simp only [outbox_install, outbox_report, List.prefix_rfl]

/-- A candidate is put in the place of the installed route, and the change is announced; or the
kernel refuses, and the installed route is announced. -/
theorem promoteOver_cases (hc : r.candidate? now id = some route)
    (ho : r.table.Owns route.dest oldId old) :
    ((r.promoteOver id route oldId old).table = r.table ∧
      Announced r (r.promoteOver id route oldId old) route.dest true) ∨
    ∃ s : Router, s.outbox = r.outbox ∧
      s.table = (r.table.modify oldId ({ · with installed := false })).modify id
        ({ · with installed := true }) ∧
      r.promoteOver id route oldId old = s.announceChange id old.origin old.metric := by
  obtain ⟨hr, hi, -, -⟩ := get?_of_candidate? hc
  have hne := ho.ne_of_not_installed hr hi
  have hrep : (r.report (.switching id route)).route? oldId = some old := ho.get
  have hnew : (r.report (.switching id route)).route? id = some route := hr
  cases ha : r.kernel.answer (.modify (r.entryOf old) (r.entryOf route)) with
  | some error =>
      have hrefused := replaceInstalled_of_refused hrep ho.installed hnew ha
      have hstill : (replaceInstalled (r.report (.switching id route)) oldId id).isInstalled id =
          false := by
        rw [hrefused]
        simp only [isInstalled, route?, report, ask, hr, Option.any_some, hi]
      have hover : r.promoteOver id route oldId old =
          (replaceInstalled (r.report (.switching id route)) oldId id).announce route.dest
            true := by
        simp [promoteOver, hstill]
      rw [hover]
      refine .inl ⟨?_, ?_⟩
      · rw [table_announce, hrefused]
        rfl
      · refine (announced_announce _ route.dest true).of_later ?_
        simp only [outbox_replaceInstalled, outbox_report, List.prefix_rfl]
  | none =>
      have haccepted := replaceInstalled_of_accepted hrep ho.installed hnew ha
      have htable : (replaceInstalled (r.report (.switching id route)) oldId id).table =
          (r.table.modify oldId ({ · with installed := false })).modify id
            ({ · with installed := true }) := by
        rw [haccepted]
        rfl
      have hthere : (replaceInstalled (r.report (.switching id route)) oldId id).isInstalled id =
          true := by
        simp only [isInstalled, route?, htable, RouteTable.get?_modify, if_neg hne.symm, if_true,
          hr, Option.map_some, Option.any_some]
      refine .inr ⟨replaceInstalled (r.report (.switching id route)) oldId id, ?_, htable, ?_⟩
      · rw [outbox_replaceInstalled, outbox_report]
      · simp [promoteOver, hthere]

/-- If a route is installed for the destination, then to consider another leaves the table alone, or
puts the other in its place and announces exactly what has to be announced. -/
theorem consider_of_owns (hex : ∀ dest, r.table.Exclusive dest) (ho : r.table.Owns dest oldId old)
    (hd : r.IsFor id dest) (now : Instant) :
    ((r.consider now id).table = r.table ∧
      (r.consider now id = r ∨ Announced r (r.consider now id) dest true)) ∨
    ((r.consider now id).table.get? oldId = some { old with installed := false } ∧
      AnnouncedExactly (some (old.origin, old.metric)) r (r.consider now id) dest) := by
  rcases consider_cases r now id with heq | ⟨route, hc, hn, -⟩ | ⟨route, id', old', hc, ho', heq⟩
  · exact .inl ⟨by rw [heq], .inl heq⟩
  · rw [hd route (get?_of_candidate? hc).1] at hn
    exact absurd hn ho.installed?_ne_none
  · obtain ⟨hr, hi, -, -⟩ := get?_of_candidate? hc
    obtain rfl := hd route hr
    obtain rfl := hex _ _ _ _ _ ho ho'
    obtain rfl := Option.some.inj (ho.get.symm.trans ho'.get)
    have hne := ho.ne_of_not_installed hr hi
    have hmoves : Moves now route.dest r (r.consider now id) := consider_moves hd
    have hexclusive := hmoves.all.exclusive (hex route.dest)
    rw [heq] at hexclusive ⊢
    rcases promoteOver_cases hc ho with ⟨htable, hannounced⟩ | ⟨s, hout, htable, hchange⟩
    · exact .inl ⟨htable, .inr hannounced⟩
    · -- the baseline is the installed route as it stands when it is replaced
      rw [hchange] at hexclusive ⊢
      rw [table_announceChange] at hexclusive
      have howns : s.table.Owns route.dest id { route with installed := true } := by
        rw [htable]
        exact RouteTable.owns_of_exchanged hr hne
      refine .inr ⟨?_, ?_⟩
      · rw [table_announceChange, htable, RouteTable.get?_modify, if_neg hne,
          RouteTable.get?_modify, if_pos rfl, ho.get, Option.map_some]
      · exact (announcedExactly_announceChange hexclusive howns old.origin
          old.metric).of_outbox_eq hout.symm

/-- To consider a route announces what that changes. -/
theorem covered_consider (hex : ∀ dest, r.table.Exclusive dest) (now : Instant) (id : RouteId)
    (dest : Prefix) :
    Covered r (r.consider now id) dest := by
  obtain ⟨d, hd⟩ := r.exists_isFor id
  by_cases hdest : dest = d
  · subst hdest
    by_cases hown : ∃ oldId old, r.table.Owns dest oldId old
    · obtain ⟨oldId, old, ho⟩ := hown
      rcases consider_of_owns hex ho hd now with ⟨htable, -⟩ | ⟨-, hexact⟩
      · exact covered_of_same (standing_of_table_eq htable dest)
      · rw [Covered, standing_of_owns (hex dest) ho]
        exact hexact.covered
    · rcases consider_cases r now id with
        heq | ⟨route, hc, hn, heq⟩ | ⟨route, oldId, old, hc, ho, -⟩
      · exact covered_of_same (by rw [heq])
      · rw [heq, ← hd route (get?_of_candidate? hc).1]
        exact (announced_promoteAlone r id route).covered
      · rw [hd route (get?_of_candidate? hc).1] at ho
        exact absurd ⟨oldId, old, ho⟩ hown
  · have hmoves : Moves now d r (r.consider now id) := consider_moves hd
    exact covered_of_same (hmoves.standing_elsewhere (hex dest) hdest)

/-! ### A route that changed -/

theorem seekBetter_cases (r : Router) (now : Instant) (route : Route) :
    r.seekBetter now route = r ∨
      ∃ id, r.IsFor id route.dest ∧ r.seekBetter now route = r.consider now id := by
  unfold seekBetter
  split
  · exact .inl rfl
  · next id better hbest =>
    split
    · exact .inr ⟨id, isFor_of_best? hbest, rfl⟩
    · exact .inl rfl

theorem reconsider_of_still_installed (hr : r.table.get? id = some route)
    (hi : route.installed = true) {oldOrigin : NodeAddress} {oldMetric : Metric}
    (hs : s = if oldMetric < route.metric then r.seekBetter now route else r)
    (hstill : s.isInstalled id = true) :
    r.reconsider now id oldOrigin oldMetric = s.announceChange id oldOrigin oldMetric := by
  subst hs
  simp only [reconsider, route?, hr, hi, if_true]
  rw [if_pos hstill]

theorem reconsider_of_overtaken (hr : r.table.get? id = some route)
    (hi : route.installed = true) {oldOrigin : NodeAddress} {oldMetric : Metric}
    (hs : s = if oldMetric < route.metric then r.seekBetter now route else r)
    (hgone : s.isInstalled id = false) : r.reconsider now id oldOrigin oldMetric = s := by
  subst hs
  simp only [reconsider, route?, hr, hi, if_true]
  rw [if_neg (by rw [hgone]; exact Bool.false_ne_true)]

/-- What comes of the change of an installed route: either it stays installed and the change is
announced, or it got worse and was overtaken, and the change is announced that others see from the
worse route to the new one. -/
theorem reconsider_of_owns (hex : ∀ dest, r.table.Exclusive dest)
    (ho : r.table.Owns dest id route) (now : Instant) (oldOrigin : NodeAddress)
    (oldMetric : Metric) :
    ((r.reconsider now id oldOrigin oldMetric).table = r.table ∧
      CoveredFrom (some (oldOrigin, oldMetric)) r (r.reconsider now id oldOrigin oldMetric) dest) ∨
    ((r.reconsider now id oldOrigin oldMetric).table.get? id =
        some { route with installed := false } ∧
      oldMetric < route.metric ∧
      AnnouncedExactly (some (route.origin, route.metric)) r
        (r.reconsider now id oldOrigin oldMetric) dest) := by
  have hquiet : r = (if oldMetric < route.metric then r.seekBetter now route else r) →
      (r.reconsider now id oldOrigin oldMetric).table = r.table ∧
        CoveredFrom (some (oldOrigin, oldMetric)) r
          (r.reconsider now id oldOrigin oldMetric) dest := by
    intro hseek
    have hstill : r.isInstalled id = true := (isInstalled_of_get? ho.get).trans ho.installed
    rw [reconsider_of_still_installed ho.get ho.installed hseek hstill]
    exact ⟨table_announceChange _ _ _ _,
      (announcedExactly_announceChange (hex dest) ho _ _).covered⟩
  by_cases hworse : oldMetric < route.metric
  · rcases r.seekBetter_cases now route with hsame | ⟨other, hother, hseek⟩
    · exact .inl (hquiet (by rw [if_pos hworse, hsame]))
    · have hseek : r.consider now other =
          if oldMetric < route.metric then r.seekBetter now route else r := by
        rw [if_pos hworse, hseek]
      rw [ho.dest_eq] at hother
      rcases consider_of_owns hex ho hother now with ⟨htable, hsame⟩ | ⟨hget, hexact⟩
      · rcases hsame with hsame | hannounced
        · rw [hsame] at hseek
          exact .inl (hquiet hseek)
        · -- another route was to be installed, but the kernel refused
          have howns : (r.consider now other).table.Owns dest id route := htable ▸ ho
          have hfor : (r.consider now other).IsFor id dest :=
            howns.dest_eq ▸ isFor_dest howns.get
          have hstill := (isInstalled_of_get? howns.get).trans ho.installed
          rw [reconsider_of_still_installed ho.get ho.installed hseek hstill]
          have hmove : Move now dest (r.consider now other)
              ((r.consider now other).announceChange id oldOrigin oldMetric) :=
            .told (told_announceChange hfor oldOrigin oldMetric)
          refine .inl ⟨?_, (hannounced.of_earlier hmove.outbox).covered⟩
          rw [table_announceChange, htable]
      · have hgone : (r.consider now other).isInstalled id = false := by
          rw [isInstalled, route?_eq_get?, hget]
          rfl
        rw [reconsider_of_overtaken ho.get ho.installed hseek hgone]
        exact .inr ⟨hget, hworse, hexact⟩
  · exact .inl (hquiet (by rw [if_neg hworse]))

/-- Between the two states one route was rewritten, and nothing else that neighbours know or are
told changed.  The route stays one for its destination, installed or not. -/
structure Rewritten (r s : Router) (id : RouteId) (old new : Route) : Prop where
  before : r.table.get? id = some old
  after : s.table.get? id = some new
  others : ∀ other, other ≠ id → s.table.get? other = r.table.get? other
  nextId : s.table.nextId = r.table.nextId
  dest : new.dest = old.dest
  installed : new.installed = old.installed
  outbox : s.outbox = r.outbox

theorem Rewritten.refl (h : r.table.get? id = some route) : Rewritten r r id route route :=
  ⟨h, h, fun _ _ => rfl, rfl, rfl, rfl, rfl⟩

theorem Rewritten.modify {new : Route} (h : Rewritten r s id old new) {f : Route → Route}
    (htable : r'.table = s.table.modify id f) (hout : r'.outbox = s.outbox)
    (hd : ∀ ρ, (f ρ).dest = ρ.dest) (hi : ∀ ρ, (f ρ).installed = ρ.installed) :
    Rewritten r r' id old (f new) := by
  refine ⟨h.before, ?_, ?_, ?_, (hd new).trans h.dest, (hi new).trans h.installed,
    hout.trans h.outbox⟩
  · rw [htable, RouteTable.get?_modify, if_pos rfl, h.after, Option.map_some]
  · intro other hne
    rw [htable, RouteTable.get?_modify, if_neg hne, h.others other hne]
  · rw [htable]
    exact h.nextId

/-- A route that was rewritten may be rewritten again by setting its metric. -/
theorem Rewritten.setMetric {new : Route} (h : Rewritten r s id old new) (metric : Metric) :
    ∃ new', Rewritten r (s.setMetric id metric) id old new' := by
  rcases s.table_setMetric id metric with htable | htable
  · refine ⟨new, h.before, ?_, ?_, ?_, h.dest, h.installed, ?_⟩
    · rw [htable, h.after]
    · intro other hne
      rw [htable, h.others other hne]
    · rw [htable, h.nextId]
    · rw [outbox_setMetric, h.outbox]
  · exact ⟨_, h.modify htable (outbox_setMetric s id metric) (fun _ => rfl) fun _ => rfl⟩

theorem Rewritten.owns {new : Route} (h : Rewritten r s id old new) {other : RouteId}
    (ho : s.table.Owns dest other ρ) :
    ∃ σ, r.table.Owns dest other σ ∧ (other = id → σ = old ∧ ρ = new) ∧ (other ≠ id → σ = ρ) := by
  by_cases hid : other = id
  · subst hid
    obtain rfl := Option.some.inj (h.after.symm.trans ho.get)
    refine ⟨old, ⟨h.before, ?_, ?_⟩, fun _ => ⟨rfl, rfl⟩, fun hne => absurd rfl hne⟩
    · rw [← h.installed, ho.installed]
    · rw [← h.dest, ho.dest_eq]
  · refine ⟨ρ, ⟨?_, ho.installed, ho.dest_eq⟩, fun heq => absurd heq hid, fun _ => rfl⟩
    rw [← h.others other hid, ho.get]

theorem Rewritten.owns_of_owns {new : Route} (h : Rewritten r s id old new) {other : RouteId}
    (ho : r.table.Owns dest other ρ) : ∃ σ, s.table.Owns dest other σ := by
  by_cases hid : other = id
  · subst hid
    obtain rfl := Option.some.inj (h.before.symm.trans ho.get)
    exact ⟨new, h.after, h.installed.trans ho.installed, h.dest.trans ho.dest_eq⟩
  · exact ⟨ρ, (h.others other hid).trans ho.get, ho.installed, ho.dest_eq⟩

theorem Rewritten.exclusive {new : Route} (h : Rewritten r s id old new)
    (hex : r.table.Exclusive dest) : s.table.Exclusive dest := by
  intro i j ρ σ hi hj
  obtain ⟨ρ', hi', -, -⟩ := h.owns hi
  obtain ⟨σ', hj', -, -⟩ := h.owns hj
  exact hex i j ρ' σ' hi' hj'

/-- If the rewritten route is not installed, or for another destination, nothing changed for the
neighbours. -/
theorem Rewritten.standing {new : Route} (h : Rewritten r s id old new)
    (hex : ∀ dest, r.table.Exclusive dest)
    (hother : old.installed = false ∨ dest ≠ old.dest) : s.standing dest = r.standing dest := by
  refine standing_congr (hex dest) (h.exclusive (hex dest)) ?_ ?_
  · intro other ρ ho
    obtain ⟨σ, hσ, hsame, hsame'⟩ := h.owns ho
    by_cases hid : other = id
    · obtain ⟨rfl, rfl⟩ := hsame hid
      rcases hother with hi | hne
      · rw [hσ.installed] at hi
        cases hi
      · exact absurd hσ.dest_eq.symm hne
    · obtain rfl := hsame' hid
      exact ⟨σ, hσ, rfl, rfl⟩
  · intro other σ ho
    exact h.owns_of_owns ho

theorem reconsider_of_not_installed (hr : r.table.get? id = some route)
    (hi : route.installed = false) (now : Instant) (oldOrigin : NodeAddress)
    (oldMetric : Metric) : r.reconsider now id oldOrigin oldMetric = r.consider now id := by
  simp [reconsider, route?, hr, hi]

/-- What comes of a route that was rewritten: either all that changed is announced, or the route was
installed, got worse and was overtaken, and what is announced for its destination is the change
from the worse route to the new one. -/
theorem Rewritten.reconsider {new : Route} (h : Rewritten r s id old new)
    (hex : ∀ dest, r.table.Exclusive dest) (now : Instant) :
    ((old.installed = true →
        (s.reconsider now id old.origin old.metric).isInstalled id = true) ∧
      ∀ dest, Covered r (s.reconsider now id old.origin old.metric) dest) ∨
    ((s.reconsider now id old.origin old.metric).table.get? id =
        some { new with installed := false } ∧
      old.installed = true ∧ old.metric < new.metric ∧
      AnnouncedExactly (some (new.origin, new.metric)) r
        (s.reconsider now id old.origin old.metric) old.dest) := by
  have hafter : ∀ dest, s.table.Exclusive dest := fun dest => h.exclusive (hex dest)
  cases hi : old.installed with
  | false =>
      -- rewriting changed nothing for the neighbours, and to consider the route announces its share
      refine .inl ⟨by simp, ?_⟩
      intro dest
      rw [reconsider_of_not_installed h.after (h.installed.trans hi)]
      have hcovered := covered_consider hafter now id dest
      rw [Covered, h.standing hex (.inl hi)] at hcovered
      exact hcovered.of_later (by simp only [h.outbox, List.prefix_rfl])
  | true =>
      have hold : r.table.Owns old.dest id old := ⟨h.before, hi, rfl⟩
      have hnew : s.table.Owns old.dest id new := ⟨h.after, h.installed.trans hi, h.dest⟩
      have hmoves : Moves now old.dest s (s.reconsider now id old.origin old.metric) :=
        reconsider_moves (hnew.dest_eq ▸ isFor_dest hnew.get) _ _
      rcases reconsider_of_owns hafter hnew now old.origin old.metric with
        ⟨htable, hcovered⟩ | ⟨hget, hworse, hexact⟩
      · refine .inl ⟨fun _ => ?_, fun dest => ?_⟩
        · have hget : (s.reconsider now id old.origin old.metric).table.get? id = some new := by
            rw [htable, h.after]
          exact (isInstalled_of_get? hget).trans hnew.installed
        · by_cases hdest : dest = old.dest
          · subst hdest
            rw [Covered, standing_of_owns (hex _) hold]
            exact hcovered.of_later (by simp only [h.outbox, List.prefix_rfl])
          · refine covered_of_same ?_
            rw [hmoves.standing_elsewhere (hafter dest) hdest, h.standing hex (.inr hdest)]
      · exact .inr ⟨hget, rfl, hworse, hexact.of_outbox_eq h.outbox.symm⟩

/-! ### A route that is lost -/

/-- If nothing is installed for the destination any more, the best route that may be used is
installed, if there is one. -/
theorem replaceLost_of_best? (hn : ∀ id ρ, ¬ r.table.Owns dest id ρ) (hx : dest ∉ r.exports)
    (hbest : r.best? now dest true none = some (id, route)) (origin : NodeAddress)
    (oldMetric : Metric) :
    r.candidate? now id = some route ∧ r.table.installed? dest = none ∧
      r.replaceLost now origin dest oldMetric = r.promoteAlone id route := by
  obtain ⟨hr, rfl, heligible⟩ := eligible_of_best? hbest
  obtain ⟨-, hfeasible⟩ := eligible_iff.1 heligible
  have hi : route.installed = false := by
    cases hi : route.installed with
    | false => rfl
    | true => exact absurd ⟨hr, hi, rfl⟩ (hn id route)
  have hc := candidate?_of_get? hr hi hfeasible hx
  have hnone := RouteTable.installed?_eq_none_iff.2 hn
  exact ⟨hc, hnone,
    (replaceLost_of_some hbest origin oldMetric).trans (consider_of_vacant hc hnone)⟩

/-- If nothing is installed for the destination any more, the neighbours hear of it at once, be it
that another route is installed or that there is none. -/
theorem announced_replaceLost (hn : ∀ id ρ, ¬ r.table.Owns dest id ρ) (hx : dest ∉ r.exports)
    (now : Instant) (origin : NodeAddress) (oldMetric : Metric) :
    Announced r (r.replaceLost now origin dest oldMetric) dest true := by
  cases hbest : r.best? now dest true none with
  | some e =>
      obtain ⟨-, -, hpromoted⟩ := replaceLost_of_best? hn hx hbest origin oldMetric
      obtain ⟨-, hd, -⟩ := eligible_of_best? hbest
      rw [hpromoted, ← hd]
      exact announced_promoteAlone r e.1 e.2
  | none =>
      simp only [replaceLost, hbest]
      split
      · have hmove : Move now dest (r.announce dest true)
            ((r.announce dest true).requestSeqno origin dest) :=
          .told (told_requestSeqno _ origin dest)
        exact (announced_announce r dest true).of_earlier hmove.outbox
      · exact announced_announce r dest true

theorem flush_of_owns (ho : r.table.Owns dest id route) (now : Instant) :
    r.flush now id =
      ((r.release id).eraseRoute id).replaceLost now route.origin dest route.metric := by
  rw [← ho.dest_eq]
  simp [flush, route?, ho.get, ho.installed]

/-- To take a route out of both tables leaves the others as they are. -/
theorem get?_released (r : Router) (id other : RouteId) :
    ((r.release id).eraseRoute id).table.get? other =
      if other = id then none else r.table.get? other := by
  rw [eraseRoute, RouteTable.get?_erase, table_release]
  split
  · rfl
  · next hne =>
    rcases r.table_uninstall id with htable | htable
    · rw [htable]
    · rw [htable, RouteTable.get?_modify, if_neg hne]

/-- After an installed route left the table, nothing is installed for its destination. -/
theorem not_owns_of_released (hex : r.table.Exclusive dest) (ho : r.table.Owns dest id route)
    (other : RouteId) (ρ : Route) :
    ¬ ((r.release id).eraseRoute id).table.Owns dest other ρ := by
  rintro ⟨hget, hi, hd⟩
  rw [get?_released] at hget
  split at hget
  · cases hget
  · next hne => exact hne (hex _ _ _ _ ⟨hget, hi, hd⟩ ho)

/-- To remove a route reports what that changes. -/
theorem reported_flush (hex : ∀ dest, r.table.Exclusive dest) (hx : dest ∉ r.exports)
    (now : Instant) (id : RouteId) : Reported r (r.flush now id) dest := by
  cases hr : r.table.get? id with
  | none => exact .inl (by rw [flush_of_absent hr])
  | some route =>
      have hmoves : Moves now route.dest r (r.flush now id) := flush_moves (isFor_dest hr)
      by_cases hdest : dest = route.dest
      · subst hdest
        cases hi : route.installed with
        | false =>
            have hflush := flush_of_not_installed hr hi now
            refine .inl (standing_congr (hex _)
              (hmoves.all.exclusive (hex _)) ?_ ?_)
            · intro other ρ ho
              rw [hflush] at ho
              exact ⟨ρ, (RouteTable.owns_erase.1 ho).2, rfl, rfl⟩
            · intro other σ ho
              rw [hflush]
              exact ⟨σ, RouteTable.owns_erase.2 ⟨ho.ne_of_not_installed hr hi, ho⟩⟩
        | true =>
            have ho : r.table.Owns route.dest id route := ⟨hr, hi, rfl⟩
            have hreleased : Moves now route.dest r ((r.release id).eraseRoute id) :=
              release_moves ho
            rw [flush_of_owns ho]
            have hvacant := not_owns_of_released (hex _) ho
            refine .inr ((announced_replaceLost hvacant ?_ _ _ _).of_later hreleased.all.outbox)
            rw [hreleased.sameBackground.exports]
            exact hx
      · exact .inl (hmoves.standing_elsewhere (hex dest) hdest)

/-! ### Making room -/

/-- What is done with one route after the other reports what it changes if each part of it does. -/
theorem reported_foldl {α : Type} {f : Router → α → Router}
    (hf : ∀ r a, AllMoves now r (f r a))
    (hreported : ∀ r a, (∀ dest, r.table.Exclusive dest) → dest ∉ r.exports →
      Reported r (f r a) dest)
    (l : List α) (hex : ∀ dest, r.table.Exclusive dest) (hx : dest ∉ r.exports) :
    Reported r (l.foldl f r) dest := by
  induction l generalizing r with
  | nil => exact .inl rfl
  | cons a l ih =>
      -- what is exported stays the same, so that the hypotheses hold of the next state, too
      have hrest := ih (fun dest => (hf r a).exclusive (hex dest))
        (by rwa [(hf r a).sameBackground.exports])
      exact (hreported r a hex hx).trans hrest (hf r a).outbox (foldl_moves hf l _).outbox

theorem reported_flushIfUseless (hex : ∀ dest, r.table.Exclusive dest) (hx : dest ∉ r.exports)
    (now : Instant) (id : RouteId) : Reported r (r.flushIfUseless now id) dest := by
  unfold flushIfUseless
  split
  · exact reported_flush hex hx now id
  · exact .inl rfl

theorem reported_evict (hex : ∀ dest, r.table.Exclusive dest) (hx : dest ∉ r.exports)
    (now : Instant) : Reported r (r.evict now) dest := by
  unfold evict
  split
  · exact .inl rfl
  · next id _ =>
    have hex : ∀ dest, (r.report (.evicting id)).table.Exclusive dest := hex
    have hx : dest ∉ (r.report (.evicting id)).exports := hx
    exact reported_flush hex hx now id

/-- To make room reports what that changes. -/
theorem reported_makeRoom (hex : ∀ dest, r.table.Exclusive dest) (hx : dest ∉ r.exports)
    (now : Instant) : Reported r (r.makeRoom now) dest := by
  have huseless : Reported r (r.flushUseless now) dest :=
    reported_foldl (fun r id => flushIfUseless_allMoves r now id)
      (fun r id hex hx => reported_flushIfUseless hex hx now id) _ hex hx
  have hmoves := flushUseless_allMoves r now
  unfold makeRoom
  simp only []
  split
  · have hx' : dest ∉ (r.flushUseless now).exports := by rwa [hmoves.sameBackground.exports]
    have hevict := reported_evict (fun dest => hmoves.exclusive (hex dest)) hx' now
    exact huseless.trans hevict hmoves.outbox (evict_allMoves _ now).outbox
  · exact huseless

end DistanceVector.Router
