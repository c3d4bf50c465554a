import DistanceVector.Proofs.Agreement
import DistanceVector.Proofs.SingleOwner

/-!
# The order in which leftovers are retried

`Router.retryLeftovers` goes through the leftovers by ascending destination, but any other order
would do.  A leftover is an entry for its own destination; the kernel answers for every destination
apart, and so two retries in either order lead to the same tables.  Only the order shows in which
the kernel was asked and in which its refusals were reported, and nothing in a router goes by that.

Main definitions:

* `Kernel.Rearranged`, `Router.Rearranged` — two states are the same but for the order of the
  operations that the kernel was asked for, and of the events that were reported;
* `Kernel.keeps?` — why the kernel keeps an entry that it is asked to flush, if it does.

Main results:

* `Kernel.after_rearranged` — operations on two destinations may be asked for in either order;
* `Router.retryLeftover_rearranged` — so may two leftovers be retried;
* `Router.retryLeftovers_rearranged` — **the order in which all leftovers are retried makes no
  difference**.
-/

set_option relaxedAutoImplicit false
set_option autoImplicit false

namespace DistanceVector

/-! ### Two operations of the kernel -/

namespace Kernel

variable {k k' k'' : Kernel} {op op' : KernelOp} {dest : Prefix}

/-- The two are the same but for the order of the operations that they were asked for. -/
structure Rearranged (k k' : Kernel) : Prop where
  entries : k'.entries = k.entries
  faults : k'.faults = k.faults
  calls : k.calls.Perm k'.calls

theorem Rearranged.refl (k : Kernel) : k.Rearranged k := ⟨rfl, rfl, .refl _⟩

theorem Rearranged.trans (h : k.Rearranged k') (h' : k'.Rearranged k'') : k.Rearranged k'' :=
  ⟨h'.entries.trans h.entries, h'.faults.trans h.faults, h.calls.trans h'.calls⟩

theorem Rearranged.answer (h : k.Rearranged k') (op : KernelOp) : k'.answer op = k.answer op :=
  answer_congr (by rw [h.entries]) (by rw [faultsFor, h.faults, faultsFor])

/-- What was asked for before makes no difference to what one more operation does. -/
theorem Rearranged.after (h : k.Rearranged k') (op : KernelOp) :
    (k.after op).Rearranged (k'.after op) where
  entries := by rw [Kernel.after, Kernel.after, h.answer, h.entries]
  faults := by rw [Kernel.after, Kernel.after, h.faults]
  calls := by
    rw [Kernel.after, Kernel.after, h.answer]
    exact h.calls.append_right _

theorem calls_after (k : Kernel) (op : KernelOp) :
    (k.after op).calls = k.calls ++ [⟨op, k.answer op⟩] := rfl

/-- An operation makes no difference to what the kernel says to one on another destination. -/
theorem answer_after_of_ne (hne : op'.dest ≠ op.dest) : (k.after op).answer op' = k.answer op' :=
  answer_congr (get?_entries_after_of_ne hne) (faultsFor_after_of_ne hne)

/-- The entry of a destination does not depend on when an operation on another was asked for. -/
theorem get?_entries_after_after (hne : op.dest ≠ op'.dest) (hd : dest ≠ op'.dest) :
    ((k.after op).after op').entries.get? dest = ((k.after op').after op).entries.get? dest := by
  rw [get?_entries_after_of_ne hd]
  by_cases hdest : dest = op.dest
  · rw [hdest]
    exact (get?_entries_after_congr (get?_entries_after_of_ne hne)
      (faultsFor_after_of_ne hne)).symm
  · rw [get?_entries_after_of_ne hdest, get?_entries_after_of_ne hdest, get?_entries_after_of_ne hd]

/-- **Operations on two destinations may be asked for in either order.** -/
theorem after_rearranged (k : Kernel) (hne : op.dest ≠ op'.dest) :
    ((k.after op).after op').Rearranged ((k.after op').after op) where
  entries := by
    refine OrderedMap.ext_get? fun dest => ?_
    by_cases hdest : dest = op'.dest
    · exact get?_entries_after_after hne.symm (hdest ▸ hne.symm)
    · exact (get?_entries_after_after hne hdest).symm
  faults := by
    refine OrderedMap.ext_get? fun dest => ?_
    simp only [after, OrderedMap.get?_modify]
    by_cases hdest : dest = op.dest
    · rw [if_pos hdest, if_pos hdest, if_neg (hdest ▸ hne), if_neg (hdest ▸ hne)]
    · rw [if_neg hdest, if_neg hdest]
  calls := by
    rw [calls_after, calls_after, calls_after, calls_after, answer_after_of_ne hne.symm,
      answer_after_of_ne hne, List.append_assoc, List.append_assoc]
    exact (List.Perm.swap _ _ []).append_left k.calls

/-- Why the kernel keeps an entry that it is asked to flush, if it does; that there is none is as
good as flushed. -/
def keeps? (k : Kernel) (entry : KernelEntry) : Option KernelError :=
  (k.answer (.flush entry)).filter (· ≠ .notFound)

theorem Rearranged.keeps? (h : k.Rearranged k') (entry : KernelEntry) :
    k'.keeps? entry = k.keeps? entry := by
  rw [Kernel.keeps?, h.answer, Kernel.keeps?]

theorem keeps?_after_of_ne {entry : KernelEntry} (hne : entry.dest ≠ op.dest) :
    (k.after op).keeps? entry = k.keeps? entry := by
  have hanswer : (k.after op).answer (.flush entry) = k.answer (.flush entry) :=
    answer_after_of_ne hne
  rw [keeps?, hanswer, keeps?]

end Kernel

namespace Router

variable {r s r' : Router} {dest dest' : Prefix} {entry : KernelEntry}

/-! ### Two retries -/

/-- The two are the same but for the order of what the kernel was asked for and of what was
reported. -/
structure Rearranged (r s : Router) : Prop where
  kernel : r.kernel.Rearranged s.kernel
  events : r.events.Perm s.events
  rest : s = { r with kernel := s.kernel, events := s.events }

theorem Rearranged.refl (r : Router) : Rearranged r r := ⟨.refl _, .refl _, rfl⟩

theorem Rearranged.trans (h : Rearranged r s) (h' : Rearranged s r') : Rearranged r r' :=
  ⟨h.kernel.trans h'.kernel, h.events.trans h'.events, by rw [h'.rest, h.rest]⟩

/-- A retry asks the kernel to flush the leftover; if the kernel keeps it, that is reported, and
otherwise it is forgotten. -/
theorem retryLeftover_eq (hl : r.leftovers.get? dest = some entry) :
    r.retryLeftover dest = { r.ask (.flush entry) with
      leftovers := if (r.kernel.keeps? entry).isSome then r.leftovers else r.leftovers.erase dest
      events := r.events ++ (r.kernel.keeps? entry).toList.map (.refused (.flush entry)) } := by
  cases ha : r.kernel.answer (.flush entry) with
  | none =>
      rw [retryLeftover_of_accepted hl (.inl ha)]
      simp [Kernel.keeps?, ha, ask]
  | some error =>
      by_cases hnot : error = .notFound
      · rw [retryLeftover_of_accepted hl (.inr (hnot ▸ ha))]
        simp [Kernel.keeps?, ha, ask, hnot]
      · have hkeeps : r.kernel.keeps? entry = some error := by simp [Kernel.keeps?, ha, hnot]
        rw [retryLeftover_of_refused hl ha hnot, hkeeps]
        rfl

/-- What is left over after a retry is what the kernel keeps, and all that was left over for other
destinations. -/
theorem get?_leftovers_retryLeftover (r : Router) (tried dest : Prefix) :
    (r.retryLeftover tried).leftovers.get? dest =
      if dest = tried then
        (r.leftovers.get? dest).filter fun entry => (r.kernel.keeps? entry).isSome
      else r.leftovers.get? dest := by
  cases hl : r.leftovers.get? tried with
  | none =>
      rw [retryLeftover_of_absent hl]
      split
      · next hd => rw [hd, hl, Option.filter_none]
      · rfl
  | some entry =>
      rw [retryLeftover_eq hl]
      cases hk : (r.kernel.keeps? entry).isSome with
      | true =>
          rw [if_pos rfl]
          split
          · next hd => rw [hd, hl, Option.filter_some, if_pos hk]
          · rfl
      | false =>
          rw [if_neg Bool.false_ne_true, OrderedMap.get?_erase]
          split
          · next hd => rw [hd, hl, Option.filter_some, if_neg (by simp [hk])]
          · rfl

theorem Keyed.retryLeftover (hk : Keyed dest r) (tried : Prefix) :
    Keyed dest (r.retryLeftover tried) := by
  intro entry hl
  rw [get?_leftovers_retryLeftover] at hl
  split at hl
  · exact hk entry (Option.filter_eq_some_iff.1 hl).1
  · exact hk entry hl

/-- A retry does the same, in whatever order everything happened before. -/
theorem Rearranged.retryLeftover (h : Rearranged r s) (dest : Prefix) :
    Rearranged (r.retryLeftover dest) (s.retryLeftover dest) := by
  obtain ⟨kernel, events, rfl⟩ : ∃ kernel events, s = { r with kernel, events } := ⟨_, _, h.rest⟩
  have hkernel : r.kernel.Rearranged kernel := h.kernel
  have hevents : r.events.Perm events := h.events
  cases hl : r.leftovers.get? dest with
  | none =>
      rw [retryLeftover_of_absent hl,
        retryLeftover_of_absent (r := { r with kernel, events }) hl]
      exact h
  | some entry =>
      rw [retryLeftover_eq hl, retryLeftover_eq (r := { r with kernel, events }) hl]
      simp only [hkernel.keeps?]
      exact ⟨hkernel.after _, hevents.append_right _, rfl⟩

/-- **Two leftovers may be retried in either order**, if each is an entry for its destination. -/
theorem retryLeftover_rearranged (hne : dest ≠ dest') (hk : Keyed dest r)
    (hk' : Keyed dest' r) :
    Rearranged ((r.retryLeftover dest).retryLeftover dest')
      ((r.retryLeftover dest').retryLeftover dest) := by
  have hleft : (r.retryLeftover dest').leftovers.get? dest = r.leftovers.get? dest := by
    rw [get?_leftovers_retryLeftover, if_neg hne]
  have hleft' : (r.retryLeftover dest).leftovers.get? dest' = r.leftovers.get? dest' := by
    rw [get?_leftovers_retryLeftover, if_neg hne.symm]
  cases hl : r.leftovers.get? dest with
  | none =>
      rw [retryLeftover_of_absent hl, retryLeftover_of_absent (hleft.trans hl)]
      exact .refl _
  | some entry =>
      cases hl' : r.leftovers.get? dest' with
      | none =>
          rw [retryLeftover_of_absent hl', retryLeftover_of_absent (hleft'.trans hl')]
          exact .refl _
      | some entry' =>
          have hops : entry.dest ≠ entry'.dest := by rwa [hk entry hl, hk' entry' hl']
          have hkeeps : (r.kernel.after (.flush entry')).keeps? entry = r.kernel.keeps? entry :=
            Kernel.keeps?_after_of_ne hops
          have hkeeps' : (r.kernel.after (.flush entry)).keeps? entry' = r.kernel.keeps? entry' :=
            Kernel.keeps?_after_of_ne hops.symm
          rw [retryLeftover_eq (hleft'.trans hl'), retryLeftover_eq (hleft.trans hl),
            retryLeftover_eq hl, retryLeftover_eq hl']
          simp only [ask, hkeeps, hkeeps', List.append_assoc]
          refine ⟨r.kernel.after_rearranged hops, List.perm_append_comm.append_left _, ?_⟩
          -- what is left over is what was, less the destinations of what the kernel let go of
          have herase := OrderedMap.erase_erase r.leftovers dest dest'
          cases (r.kernel.keeps? entry).isSome <;> cases (r.kernel.keeps? entry').isSome <;>
            simp [herase]

/-! ### All of them -/

theorem Rearranged.retryAll (h : Rearranged r s) (dests : List Prefix) :
    Rearranged (dests.foldl Router.retryLeftover r) (dests.foldl Router.retryLeftover s) := by
  induction dests generalizing r s with
  | nil => exact h
  | cons dest dests ih => exact ih (h.retryLeftover dest)

/-- Leftovers may be retried in any order, if each is an entry for its destination. -/
theorem retryAll_rearranged {dests dests' : List Prefix} (hp : dests.Perm dests')
    (hk : ∀ dest, Keyed dest r) :
    Rearranged (dests.foldl retryLeftover r) (dests'.foldl retryLeftover r) := by
  induction hp generalizing r with
  | nil => exact .refl r
  | cons tried _ ih => exact ih fun dest => (hk dest).retryLeftover tried
  | swap dest dest' dests =>
      refine Rearranged.retryAll ?_ dests
      by_cases hne : dest' = dest
      · rw [hne]
        exact .refl _
      · exact retryLeftover_rearranged hne (hk dest') (hk dest)
  | trans _ _ ih ih' => exact (ih hk).trans (ih' hk)

/-- **The order in which the leftovers are retried makes no difference**: in every router that
comes about, to retry them in any order leads to the same tables, packets and coming faults; the
kernel is asked for the same operations, and the same events are reported. -/
theorem retryLeftovers_rearranged (h : Reachable r) {dests : List Prefix}
    (hp : dests.Perm r.leftovers.keys) :
    Rearranged r.retryLeftovers (dests.foldl retryLeftover r) :=
  retryAll_rearranged hp.symm fun dest => (h.soleOwner dest).keyed

end Router

end DistanceVector
