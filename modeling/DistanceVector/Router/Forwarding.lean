import DistanceVector.Router.Basic

/-!
# Keeping the forwarding table in step

The steps that change the forwarding table together with the record of which routes are in it.
The kernel may refuse any of them; each step says what then becomes of the routes.

Main definitions:

* `Router.install`, `Router.uninstall` — putting a route into the forwarding table and taking it
  out;
* `Router.replaceInstalled` — putting one route in the place of another;
* `Router.setMetric` — changing the metric of a route, in the forwarding table too;
* `Router.release` — taking a route out before it leaves the table; an entry that the kernel keeps
  becomes a leftover;
* `Router.retryLeftovers` — removing leftovers again.

Main results:

* `Router.install_of_accepted`, `Router.install_of_refused` and the like — what each step comes to,
  by the kernel's answer.
-/

set_option relaxedAutoImplicit false
set_option autoImplicit false

namespace DistanceVector.Router

/-- The forwarding entry of a route under a given metric. -/
def entryWith (r : Router) (route : Route) (metric : Metric) : KernelEntry where
  dest := route.dest
  nexthop := route.nexthop
  interface := route.interface
  metric := .ofMetric metric r.params.kernelBias r.params.kernelInfinity

/-- The forwarding entry of a route. -/
def entryOf (r : Router) (route : Route) : KernelEntry := r.entryWith route route.metric

/-- The router after the kernel was asked for an operation. -/
def ask (r : Router) (op : KernelOp) : Router := { r with kernel := r.kernel.after op }

/-- The router with one route changed in place. -/
def modifyRoute (r : Router) (id : RouteId) (f : Route → Route) : Router :=
  { r with table := r.table.modify id f }

/-- Records whether a route is in the forwarding table. -/
def setInstalled (r : Router) (id : RouteId) (installed : Bool) : Router :=
  r.modifyRoute id ({ · with installed })

/-- The operation that installs an entry: it takes the place of a leftover for the same
destination, so that the two never stand side by side. -/
def installOp (r : Router) (entry : KernelEntry) : KernelOp :=
  match r.leftovers.get? entry.dest with
  | some old => .modify old entry
  | none => .add entry

/-- Records that a route was installed, and that no leftover for its destination remains. -/
def markInstalled (r : Router) (id : RouteId) (dest : Prefix) : Router :=
  { r.setInstalled id true with leftovers := r.leftovers.erase dest }

/-- Puts a route into the forwarding table, unless it is there.  That the kernel holds an entry
already is no failure. -/
def install (r : Router) (id : RouteId) : Router :=
  match r.route? id with
  | none => r
  | some route =>
    if route.installed then r
    else
      let op := r.installOp (r.entryOf route)
      let asked := r.ask op
      match r.kernel.answer op with
      | none => asked.markInstalled id route.dest
      | some .alreadyExists =>
        (asked.report (.alreadyInKernel op)).markInstalled id route.dest
      | some error => asked.report (.refused op error)

/-- Takes a route out of the forwarding table, if it is there.  That the kernel holds no entry is
no failure; after any other the route stays installed. -/
def uninstall (r : Router) (id : RouteId) : Router :=
  match r.route? id with
  | none => r
  | some route =>
    if !route.installed then r
    else
      let op := .flush (r.entryOf route)
      let asked := r.ask op
      match r.kernel.answer op with
      | none | some .notFound => asked.setInstalled id false
      | some error => asked.report (.refused op error)

/-- Takes a route out of the forwarding table before it leaves the route table.  If the kernel
refuses, the entry is remembered as a leftover. -/
def release (r : Router) (id : RouteId) : Router :=
  let r := r.uninstall id
  match r.route? id with
  | none => r
  | some route =>
    if route.installed then
      { r with leftovers := r.leftovers.insert route.dest (r.entryOf route) }
    else r

/-- Puts the route `new` in the place of the installed route `old` for the same destination, in
one step.  If the kernel refuses, `old` stays installed. -/
def replaceInstalled (r : Router) (old new : RouteId) : Router :=
  match r.route? old, r.route? new with
  | some oldRoute, some newRoute =>
    if !oldRoute.installed then r
    else
      let op := .modify (r.entryOf oldRoute) (r.entryOf newRoute)
      let asked := r.ask op
      match r.kernel.answer op with
      | none => (asked.setInstalled old false).setInstalled new true
      | some error => asked.report (.refused op error)
  | _, _ => r

/-- Installs the route `new`, in the place of the route `old` if there is one. -/
def changeInstalled (r : Router) (old : Option RouteId) (new : RouteId) : Router :=
  match old with
  | none => r.install new
  | some old => r.replaceInstalled old new

/-- The operation that changes the metric of an installed route. -/
def metricOp (r : Router) (route : Route) (metric : Metric) : KernelOp :=
  .modify (r.entryOf route) (r.entryWith route metric)

/-- Changes the metric of a route, in the forwarding table first if the route is there.  If the
kernel refuses, the metric stays. -/
def setMetric (r : Router) (id : RouteId) (metric : Metric) : Router :=
  match r.route? id with
  | none => r
  | some route =>
    if route.installed then
      let op := r.metricOp route metric
      let asked := r.ask op
      match r.kernel.answer op with
      | none => asked.modifyRoute id ({ · with metric })
      | some error => asked.report (.refused op error)
    else r.modifyRoute id ({ · with metric })

/-- Whether the metric of a route can be changed: there is such a route, and the kernel does not
refuse if it has to be asked. -/
def takesMetric (r : Router) (id : RouteId) (metric : Metric) : Bool :=
  (r.route? id).any fun route =>
    !route.installed || (r.kernel.answer (r.metricOp route metric)).isNone

/-- Tries once more to remove the leftover for a destination. -/
def retryLeftover (r : Router) (dest : Prefix) : Router :=
  match r.leftovers.get? dest with
  | none => r
  | some entry =>
    let op := .flush entry
    let asked := r.ask op
    match r.kernel.answer op with
    | none | some .notFound => { asked with leftovers := asked.leftovers.erase dest }
    | some error => asked.report (.refused op error)

/-- Tries once more to remove every leftover.  No order is prescribed for this; here it is that of
ascending destinations, and `Router.retryLeftovers_rearranged` says that any other would do. -/
def retryLeftovers (r : Router) : Router := r.leftovers.keys.foldl retryLeftover r

/-! ### What the steps come to

Each step asks the kernel for at most one operation; what becomes of the router depends on the
answer alone. -/

theorem installOp_of_leftover {r : Router} {entry old : KernelEntry}
    (h : r.leftovers.get? entry.dest = some old) : r.installOp entry = .modify old entry := by
  simp [installOp, h]

theorem installOp_of_no_leftover {r : Router} {entry : KernelEntry}
    (h : r.leftovers.get? entry.dest = none) : r.installOp entry = .add entry := by
  simp [installOp, h]

theorem dest_installOp (r : Router) (entry : KernelEntry) :
    (r.installOp entry).dest = entry.dest := by
  unfold installOp
  split <;> rfl

section Outcomes

variable {r : Router} {id : RouteId} {route : Route} {error : KernelError}

theorem install_of_accepted (hr : r.route? id = some route) (hi : route.installed = false)
    (ha : r.kernel.answer (r.installOp (r.entryOf route)) = none) :
    r.install id = (r.ask (r.installOp (r.entryOf route))).markInstalled id route.dest := by
  simp [install, hr, hi, ha]

theorem install_of_present (hr : r.route? id = some route) (hi : route.installed = false)
    (ha : r.kernel.answer (r.installOp (r.entryOf route)) = some .alreadyExists) :
    r.install id = ((r.ask (r.installOp (r.entryOf route))).report
      (.alreadyInKernel (r.installOp (r.entryOf route)))).markInstalled id route.dest := by
  simp [install, hr, hi, ha]

theorem install_of_refused (hr : r.route? id = some route) (hi : route.installed = false)
    (ha : r.kernel.answer (r.installOp (r.entryOf route)) = some error)
    (hne : error ≠ .alreadyExists) :
    r.install id = (r.ask (r.installOp (r.entryOf route))).report
      (.refused (r.installOp (r.entryOf route)) error) := by
  cases error <;> simp_all [install]

theorem uninstall_of_absent (hr : r.route? id = none) : r.uninstall id = r := by
  simp [uninstall, hr]

theorem uninstall_of_not_installed (hr : r.route? id = some route)
    (hi : route.installed = false) : r.uninstall id = r := by
  simp [uninstall, hr, hi]

theorem uninstall_of_accepted (hr : r.route? id = some route) (hi : route.installed = true)
    (ha : r.kernel.answer (.flush (r.entryOf route)) = none ∨
      r.kernel.answer (.flush (r.entryOf route)) = some .notFound) :
    r.uninstall id = (r.ask (.flush (r.entryOf route))).setInstalled id false := by
  rcases ha with ha | ha <;> simp [uninstall, hr, hi, ha]

theorem table_uninstall_of_accepted (hr : r.route? id = some route) (hi : route.installed = true)
    (ha : r.kernel.answer (.flush (r.entryOf route)) = none ∨
      r.kernel.answer (.flush (r.entryOf route)) = some .notFound) :
    (r.uninstall id).table = r.table.modify id ({ · with installed := false }) := by
  rw [uninstall_of_accepted hr hi ha]
  rfl

theorem get?_uninstall_of_accepted (hr : r.route? id = some route) (hi : route.installed = true)
    (ha : r.kernel.answer (.flush (r.entryOf route)) = none ∨
      r.kernel.answer (.flush (r.entryOf route)) = some .notFound) :
    (r.uninstall id).table.get? id = some { route with installed := false } := by
  rw [table_uninstall_of_accepted hr hi ha, RouteTable.get?_modify, if_pos rfl]
  exact congrArg (Option.map _) hr

theorem uninstall_of_refused (hr : r.route? id = some route) (hi : route.installed = true)
    (ha : r.kernel.answer (.flush (r.entryOf route)) = some error) (hne : error ≠ .notFound) :
    r.uninstall id = (r.ask (.flush (r.entryOf route))).report
      (.refused (.flush (r.entryOf route)) error) := by
  cases error <;> simp_all [uninstall]

/-- An installed route is either taken out of the forwarding table, or the kernel refused. -/
theorem uninstall_cases (hr : r.route? id = some route) (hi : route.installed = true) :
    ((r.kernel.answer (.flush (r.entryOf route)) = none ∨
        r.kernel.answer (.flush (r.entryOf route)) = some .notFound) ∧
      r.uninstall id = (r.ask (.flush (r.entryOf route))).setInstalled id false) ∨
    ∃ error, r.kernel.answer (.flush (r.entryOf route)) = some error ∧ error ≠ .notFound ∧
      r.uninstall id = (r.ask (.flush (r.entryOf route))).report
        (.refused (.flush (r.entryOf route)) error) := by
  cases he : r.kernel.answer (.flush (r.entryOf route)) with
  | none => exact .inl ⟨.inl rfl, uninstall_of_accepted hr hi (.inl he)⟩
  | some error =>
      by_cases hp : error = .notFound
      · exact .inl ⟨.inr (hp ▸ rfl), uninstall_of_accepted hr hi (.inr (hp ▸ he))⟩
      · exact .inr ⟨error, rfl, hp, uninstall_of_refused hr hi he hp⟩

theorem setMetric_of_absent (hr : r.route? id = none) (metric : Metric) :
    r.setMetric id metric = r := by
  simp [setMetric, hr]

theorem setMetric_of_not_installed (hr : r.route? id = some route) (hi : route.installed = false)
    (metric : Metric) : r.setMetric id metric = r.modifyRoute id ({ · with metric }) := by
  simp [setMetric, hr, hi]

theorem setMetric_of_accepted {metric : Metric} (hr : r.route? id = some route)
    (hi : route.installed = true) (ha : r.kernel.answer (r.metricOp route metric) = none) :
    r.setMetric id metric =
      (r.ask (r.metricOp route metric)).modifyRoute id ({ · with metric }) := by
  simp [setMetric, hr, hi, ha]

theorem setMetric_of_refused {metric : Metric} (hr : r.route? id = some route)
    (hi : route.installed = true) (ha : r.kernel.answer (r.metricOp route metric) = some error) :
    r.setMetric id metric =
      (r.ask (r.metricOp route metric)).report (.refused (r.metricOp route metric) error) := by
  simp [setMetric, hr, hi, ha]

variable {oldId : RouteId} {old : Route}

theorem replaceInstalled_of_accepted (ho : r.route? oldId = some old) (hi : old.installed = true)
    (hr : r.route? id = some route)
    (ha : r.kernel.answer (.modify (r.entryOf old) (r.entryOf route)) = none) :
    r.replaceInstalled oldId id = ((r.ask (.modify (r.entryOf old) (r.entryOf route))).setInstalled
      oldId false).setInstalled id true := by
  simp [replaceInstalled, ho, hi, hr, ha]

theorem replaceInstalled_of_refused (ho : r.route? oldId = some old) (hi : old.installed = true)
    (hr : r.route? id = some route)
    (ha : r.kernel.answer (.modify (r.entryOf old) (r.entryOf route)) = some error) :
    r.replaceInstalled oldId id = (r.ask (.modify (r.entryOf old) (r.entryOf route))).report
      (.refused (.modify (r.entryOf old) (r.entryOf route)) error) := by
  simp [replaceInstalled, ho, hi, hr, ha]

variable {dest : Prefix} {entry : KernelEntry}

theorem retryLeftover_of_absent (hl : r.leftovers.get? dest = none) :
    r.retryLeftover dest = r := by
  simp [retryLeftover, hl]

theorem retryLeftover_of_accepted (hl : r.leftovers.get? dest = some entry)
    (ha : r.kernel.answer (.flush entry) = none ∨
      r.kernel.answer (.flush entry) = some .notFound) :
    r.retryLeftover dest =
      { r.ask (.flush entry) with leftovers := r.leftovers.erase dest } := by
  rcases ha with ha | ha <;> simp [retryLeftover, hl, ha, ask]

theorem retryLeftover_of_refused (hl : r.leftovers.get? dest = some entry)
    (ha : r.kernel.answer (.flush entry) = some error) (hne : error ≠ .notFound) :
    r.retryLeftover dest = (r.ask (.flush entry)).report (.refused (.flush entry) error) := by
  cases error <;> simp_all [retryLeftover]

end Outcomes

/-! ### What the steps leave alone -/

@[simp] theorem outbox_install (r : Router) (id : RouteId) : (r.install id).outbox = r.outbox := by
  unfold install
  split
  · rfl
  split
  · rfl
  simp only []
  split <;> rfl

@[simp] theorem outbox_uninstall (r : Router) (id : RouteId) :
    (r.uninstall id).outbox = r.outbox := by
  unfold uninstall
  split
  · rfl
  split
  · rfl
  simp only []
  split <;> rfl

@[simp] theorem outbox_release (r : Router) (id : RouteId) : (r.release id).outbox = r.outbox := by
  unfold release
  simp only []
  split
  · exact outbox_uninstall r id
  split
  · exact outbox_uninstall r id
  · exact outbox_uninstall r id

@[simp] theorem outbox_replaceInstalled (r : Router) (old new : RouteId) :
    (r.replaceInstalled old new).outbox = r.outbox := by
  unfold replaceInstalled
  split
  · split
    · rfl
    simp only []
    split <;> rfl
  · rfl

@[simp] theorem outbox_setMetric (r : Router) (id : RouteId) (metric : Metric) :
    (r.setMetric id metric).outbox = r.outbox := by
  unfold setMetric
  split
  · rfl
  split
  · simp only []
    split <;> rfl
  · rfl

/-- To change a metric changes at most the metric. -/
theorem table_setMetric (r : Router) (id : RouteId) (metric : Metric) :
    (r.setMetric id metric).table = r.table ∨
      (r.setMetric id metric).table = r.table.modify id ({ · with metric }) := by
  unfold setMetric
  split
  · exact .inl rfl
  split
  · simp only []
    split
    · exact .inr rfl
    · exact .inl rfl
  · exact .inr rfl

theorem table_uninstall (r : Router) (id : RouteId) :
    (r.uninstall id).table = r.table ∨
      (r.uninstall id).table = r.table.modify id ({ · with installed := false }) := by
  unfold uninstall
  split
  · exact .inl rfl
  split
  · exact .inl rfl
  simp only []
  split
  · exact .inr rfl
  · exact .inr rfl
  · exact .inl rfl

theorem table_release (r : Router) (id : RouteId) :
    (r.release id).table = (r.uninstall id).table := by
  unfold release
  simp only []
  split
  · rfl
  split <;> rfl

theorem table_replaceInstalled (r : Router) (old new : RouteId) :
    (r.replaceInstalled old new).table = r.table ∨
      (r.replaceInstalled old new).table =
        (r.table.modify old ({ · with installed := false })).modify new
          ({ · with installed := true }) := by
  unfold replaceInstalled
  split
  · split
    · exact .inl rfl
    simp only []
    split
    · exact .inr rfl
    · exact .inl rfl
  · exact .inl rfl

theorem table_install (r : Router) (id : RouteId) :
    (r.install id).table = r.table ∨
      (r.install id).table = r.table.modify id ({ · with installed := true }) := by
  unfold install
  split
  · exact .inl rfl
  split
  · exact .inl rfl
  simp only []
  split
  · exact .inr rfl
  · exact .inr rfl
  · exact .inl rfl

end DistanceVector.Router
