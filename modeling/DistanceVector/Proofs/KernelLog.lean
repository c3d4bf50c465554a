import DistanceVector.Kernel.Forwarding
import DistanceVector.OrderedMap.Lemmas

/-!
# What a kernel was asked

The kernel keeps a list of the operations that it was asked for.  From it one can tell what the
forwarding table held at any time, and whether the asker knew.

Main definitions:

* `KernelOp.Fits` — an operation names what the forwarding table holds;
* `Kernel.replay` — the forwarding table that a list of operations leads to;
* `Kernel.Exact` — every operation so far fitted the forwarding table of its time.

Main results:

* `Kernel.answer_of_fits` — **the forwarding table contradicts no operation that fits**;
* `Kernel.Exact.after` — a further operation that fits keeps the whole list so.
-/

set_option relaxedAutoImplicit false
set_option autoImplicit false

namespace DistanceVector

/-- The operation names what the forwarding table holds: an entry is added where there is none,
and the entry that is removed or replaced is the one that is there. -/
def KernelOp.Fits (entries : OrderedMap Prefix KernelEntry) : KernelOp → Prop
  | .add e => entries.get? e.dest = none
  | .flush e => entries.get? e.dest = some e
  | .modify old new => old.dest = new.dest ∧ entries.get? old.dest = some old

/-- The fault is one of the machine or of the channel, and says nothing of the entries. -/
def KernelError.IsOutage : KernelError → Prop
  | .os _ | .io _ => True
  | .alreadyExists | .notFound => False

/-- The entry for its destination that the operation leads to. -/
def KernelOp.outcome : KernelOp → Option KernelEntry
  | .add e => some e
  | .flush _ => none
  | .modify _ new => some new

namespace Kernel

variable {k : Kernel} {op : KernelOp}

/-! ### The forwarding table after an operation -/

theorem get?_entries_after_of_accepted (h : k.answer op = none) :
    (k.after op).entries.get? op.dest = op.outcome := by
  rw [entries_after_of_accepted h]
  cases op with
  | add e => exact OrderedMap.get?_insert_self k.entries e.dest e
  | flush e => exact OrderedMap.get?_erase_self k.entries e.dest
  | modify old new => exact OrderedMap.get?_insert_self k.entries new.dest new

/-- An operation leaves the entries of the other destinations alone. -/
theorem get?_entries_after_of_ne {dest : Prefix} (hne : dest ≠ op.dest) :
    (k.after op).entries.get? dest = k.entries.get? dest := by
  cases ha : k.answer op with
  | some error => rw [entries_after_of_refused ha]
  | none =>
      rw [entries_after_of_accepted ha]
      cases op with
      | add e => exact (OrderedMap.get?_insert k.entries e.dest e dest).trans (if_neg hne)
      | flush e => exact (OrderedMap.get?_erase k.entries e.dest dest).trans (if_neg hne)
      | modify old new =>
          exact (OrderedMap.get?_insert k.entries new.dest new dest).trans (if_neg hne)

/-! ### The list of calls and what it leads to -/

/-- The forwarding table after one more call: changed unless the call was refused. -/
def replayCall (entries : OrderedMap Prefix KernelEntry) (call : KernelCall) :
    OrderedMap Prefix KernelEntry :=
  if call.answer.isNone then call.op.applyTo entries else entries

/-- The forwarding table that a list of calls leads to from an empty one. -/
def replay (calls : List KernelCall) : OrderedMap Prefix KernelEntry :=
  calls.foldl replayCall .empty

theorem replay_append (calls : List KernelCall) (call : KernelCall) :
    replay (calls ++ [call]) = replayCall (replay calls) call := by
  rw [replay, List.foldl_append]
  rfl

/-- The faults that await the coming operations are outages. -/
def OnlyOutages (k : Kernel) : Prop :=
  ∀ dest error, some error ∈ k.faultsFor dest → error.IsOutage

/-! ### The answer to an operation that fits -/

theorem conflict?_of_fits (hf : op.Fits k.entries) : k.conflict? op = none := by
  cases op with
  | add e =>
      have hnone : k.entries.get? e.dest = none := hf
      simp [conflict?, OrderedMap.contains, hnone]
  | flush e =>
      have hsome : k.entries.get? e.dest = some e := hf
      simp [conflict?, OrderedMap.contains, hsome]
  | modify old new => rfl

/-- The forwarding table contradicts no operation that fits: if it is refused, then for an
outage. -/
theorem answer_of_fits (hf : op.Fits k.entries) (hk : k.OnlyOutages) {error : KernelError}
    (he : k.answer op = some error) : error.IsOutage := by
  rw [answer, conflict?_of_fits hf, Option.or_none, Option.join_eq_some_iff] at he
  exact hk op.dest error (List.mem_of_mem_head? he)

/-- If a flush is refused for anything but that there is no entry, then for the next fault
planned. -/
theorem head?_faultsFor_of_flush_refused {entry : KernelEntry} {error : KernelError}
    (he : k.answer (.flush entry) = some error) (hne : error ≠ .notFound) :
    (k.faultsFor entry.dest).head? = some (some error) := by
  have hanswer : (k.faultsFor entry.dest).head?.join.or (k.conflict? (.flush entry)) =
      some error := he
  rcases Option.or_eq_some_iff.1 hanswer with hjoin | ⟨-, hconflict⟩
  · exact Option.join_eq_some_iff.1 hjoin
  · -- without a fault a flush is refused only because there is no entry
    simp only [conflict?] at hconflict
    split at hconflict
    · cases hconflict
    · exact absurd (Option.some.inj hconflict).symm hne

theorem OnlyOutages.after (hk : k.OnlyOutages) (op : KernelOp) : (k.after op).OnlyOutages := by
  intro dest error he
  refine hk dest error ?_
  -- an operation uses up a fault for its own destination, and what is left was planned before
  simp only [faultsFor, Kernel.after, OrderedMap.get?_modify] at he ⊢
  split at he
  · cases hfaults : k.faults.get? dest with
    | none => rwa [hfaults] at he
    | some faults =>
        rw [hfaults] at he
        exact List.mem_of_mem_tail he
  · exact he

/-- To plan outages plans nothing else. -/
theorem OnlyOutages.plan (hk : k.OnlyOutages) {dest : Prefix} {faults : List (Option KernelError)}
    (hf : ∀ error, some error ∈ faults → error.IsOutage) : (k.plan dest faults).OnlyOutages := by
  intro dest' error he
  simp only [faultsFor, Kernel.plan, OrderedMap.get?_insert] at he
  split at he
  · next heq =>
    rcases List.mem_append.1 he with he | he
    · exact hk dest error he
    · exact hf error he
  · exact hk dest' error he

/-! ### Exact lists -/

/-- **Every operation so far fitted the forwarding table of its time**, and the kernel never said
that an entry is there already or is not there. -/
structure Exact (k : Kernel) : Prop where
  outages : k.OnlyOutages
  replayed : k.entries = replay k.calls
  fits : ∀ before call after, k.calls = before ++ call :: after → call.op.Fits (replay before)
  answers : ∀ call ∈ k.calls, ∀ error, call.answer = some error → error.IsOutage

theorem exact_empty : ({} : Kernel).Exact := by
  refine ⟨?_, rfl, ?_, ?_⟩
  · intro dest error h
    cases h
  · intro before call after h
    simp at h
  · intro call h
    cases h

theorem replayed_after (h : k.Exact) (op : KernelOp) :
    (k.after op).entries = replay (k.after op).calls := by
  have hcalls : (k.after op).calls = k.calls ++ [⟨op, k.answer op⟩] := rfl
  rw [hcalls, replay_append, ← h.replayed]
  rfl

/-- A further operation that fits keeps the whole list exact. -/
theorem Exact.after (h : k.Exact) (hf : op.Fits k.entries) : (k.after op).Exact := by
  refine ⟨h.outages.after op, replayed_after h op, ?_, ?_⟩
  · intro before call after hsplit
    have hsplit : k.calls ++ [⟨op, k.answer op⟩] = before ++ call :: after := hsplit
    -- the call is the new one, or one of those before it
    rcases List.eq_nil_or_concat after with rfl | ⟨rest, last, rfl⟩
    · obtain ⟨rfl, hlast⟩ := List.append_inj' hsplit rfl
      cases hlast
      exact h.replayed ▸ hf
    · rw [List.concat_eq_append, ← List.cons_append, ← List.append_assoc] at hsplit
      obtain ⟨hinit, -⟩ := List.append_inj' hsplit rfl
      exact h.fits before call rest hinit
  · intro call hmem error he
    rcases List.mem_append.1 hmem with hmem | hmem
    · exact h.answers call hmem error he
    · rw [List.mem_singleton] at hmem
      subst hmem
      exact answer_of_fits hf h.outages he

end Kernel

end DistanceVector
