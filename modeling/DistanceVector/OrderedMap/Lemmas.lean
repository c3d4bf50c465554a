import DistanceVector.OrderedMap.Basic

/-!
# Laws of finite maps

What each operation on a map does to what is looked up in it.

Main results:

* `OrderedMap.get?_eq_some_iff` — looking a key up finds its entry;
* `OrderedMap.get?_insert`, `OrderedMap.get?_erase`, `OrderedMap.get?_modify` — looking a key up
  after the map was changed;
* `OrderedMap.ext_get?` — **maps in which every key has the same value are equal**;
* `OrderedMap.ofList_toList` — a map is that of its entries.
-/

set_option relaxedAutoImplicit false
set_option autoImplicit false

namespace DistanceVector.OrderedMap

variable {κ ν : Type} [Ord κ]

/-! ### Keys -/

/-- The keys ascend strictly. -/
theorem pairwise_keys (m : OrderedMap κ ν) : m.keys.Pairwise fun a b => compare a b = .lt :=
  List.pairwise_map.2 m.ascending

/-- A key is not below itself. -/
theorem ne_of_lt [Std.ReflOrd κ] {a b : κ} (h : compare a b = .lt) : a ≠ b := by
  rintro rfl
  simp at h

/-! ### Ascending entries -/

/-- Among ascending entries, those with the same key are the same. -/
theorem AscendingKeys.eq_of_key_eq [Std.ReflOrd κ] {l : List (κ × ν)} (h : AscendingKeys l)
    {a b : κ × ν} (ha : a ∈ l) (hb : b ∈ l) (hkey : a.1 = b.1) : a = b := by
  induction l with
  | nil => cases ha
  | cons e rest ih =>
    obtain ⟨he, hrest⟩ := List.pairwise_cons.1 h
    cases ha with
    | head =>
      cases hb with
      | head => rfl
      | tail _ hb => exact absurd hkey (ne_of_lt (he b hb))
    | tail _ ha =>
      cases hb with
      | head => exact absurd hkey.symm (ne_of_lt (he a ha))
      | tail _ hb => exact ih hrest ha hb

/-- A new entry takes one place at most. -/
theorem length_insertEntry_le (k : κ) (v : ν) (l : List (κ × ν)) :
    (insertEntry k v l).length ≤ l.length + 1 := by
  induction l with
  | nil => exact Nat.le_refl _
  | cons d rest ih =>
    unfold insertEntry
    split
    · exact Nat.le_refl _
    · exact Nat.le_succ _
    · exact Nat.succ_le_succ ih

variable [Std.LawfulEqOrd κ]

/-- The entries after a new one was put in are the new one and those with other keys. -/
theorem mem_insertEntry [Std.TransOrd κ] {k : κ} {v : ν} {l : List (κ × ν)}
    (h : AscendingKeys l) {e : κ × ν} :
    e ∈ insertEntry k v l ↔ e = (k, v) ∨ e ∈ l ∧ e.1 ≠ k := by
  induction l with
  | nil => simp [insertEntry]
  | cons d rest ih =>
    obtain ⟨hd, hrest⟩ := List.pairwise_cons.1 h
    unfold insertEntry
    split
    · next hlt =>
      have hfirst : d.1 ≠ k := (ne_of_lt hlt).symm
      have hlater : ∀ x ∈ rest, x.1 ≠ k := fun x hx =>
        (ne_of_lt (Std.TransCmp.lt_trans hlt (hd x hx))).symm
      grind
    · next heq =>
      have hkey : k = d.1 := Std.LawfulEqCmp.eq_of_compare heq
      have hlater : ∀ x ∈ rest, x.1 ≠ k := fun x hx => hkey ▸ (ne_of_lt (hd x hx)).symm
      grind
    · next hgt =>
      have hfirst : d.1 ≠ k := ne_of_lt (Std.OrientedCmp.lt_of_gt hgt)
      have hrest := ih hrest
      grind

/-! ### Looking up -/

/-- Looking a key up finds its entry. -/
theorem get?_eq_some_iff {m : OrderedMap κ ν} {k : κ} {v : ν} :
    m.get? k = some v ↔ (k, v) ∈ m.toList := by
  simp only [get?, Option.map_eq_some_iff, Prod.exists]
  constructor
  · rintro ⟨k', v', hfind, rfl⟩
    have hkey : k' = k := by simpa using List.find?_some hfind
    exact hkey ▸ List.mem_of_find?_eq_some hfind
  · intro hmem
    have hsome : (m.toList.find? fun e => compare e.1 k == .eq).isSome := by
      rw [List.find?_isSome]
      exact ⟨(k, v), hmem, by simp⟩
    obtain ⟨e, he⟩ := Option.isSome_iff_exists.1 hsome
    have hkey : e.1 = k := by simpa using List.find?_some he
    have heq : e = (k, v) :=
      AscendingKeys.eq_of_key_eq m.ascending (List.mem_of_find?_eq_some he) hmem hkey
    exact ⟨k, v, heq ▸ he, rfl⟩

/-- A key has a value exactly if it is among the keys. -/
theorem mem_keys_iff {m : OrderedMap κ ν} {k : κ} : k ∈ m.keys ↔ ∃ v, m.get? k = some v := by
  simp [keys, get?_eq_some_iff]

/-- After a key was given a value, it has that one, and all other keys have their old ones. -/
@[grind =] theorem get?_insert [Std.TransOrd κ] [DecidableEq κ] (m : OrderedMap κ ν) (k : κ)
    (v : ν) (k' : κ) : (m.insert k v).get? k' = if k' = k then some v else m.get? k' := by
  refine Option.ext fun w => ?_
  rw [get?_eq_some_iff, insert, mem_insertEntry m.ascending, ← get?_eq_some_iff]
  grind

@[simp] theorem get?_insert_self [Std.TransOrd κ] (m : OrderedMap κ ν) (k : κ) (v : ν) :
    (m.insert k v).get? k = some v := by
  rw [get?_eq_some_iff, insert, mem_insertEntry m.ascending]
  exact .inl rfl

/-- After a key was erased, it has no value, and all other keys have their old ones. -/
@[grind =] theorem get?_erase [DecidableEq κ] (m : OrderedMap κ ν) (k k' : κ) :
    (m.erase k).get? k' = if k' = k then none else m.get? k' := by
  refine Option.ext fun w => ?_
  rw [get?_eq_some_iff, erase, List.mem_filter, ← get?_eq_some_iff]
  by_cases h : k' = k <;> simp [h]

@[simp] theorem get?_erase_self (m : OrderedMap κ ν) (k : κ) : (m.erase k).get? k = none := by
  refine Option.eq_none_iff_forall_ne_some.2 fun w h => ?_
  rw [get?_eq_some_iff, erase, List.mem_filter] at h
  simp at h

/-- After the value of a key was changed in place, it has the changed one, and all other keys have
their old ones. -/
theorem get?_modify [DecidableEq κ] (m : OrderedMap κ ν) (k : κ) (f : ν → ν) (k' : κ) :
    (m.modify k f).get? k' = if k' = k then (m.get? k').map f else m.get? k' := by
  have hmem : ∀ w, (m.modify k f).get? k' = some w ↔
      ∃ e ∈ m.toList, (if compare e.1 k == .eq then (e.1, f e.2) else e) = (k', w) := fun w => by
    rw [get?_eq_some_iff, modify, List.mem_map]
  refine Option.ext fun w => ?_
  rw [hmem]
  by_cases h : k' = k
  · subst h
    simp only [if_true, Option.map_eq_some_iff, get?_eq_some_iff]
    constructor
    · rintro ⟨⟨x, v⟩, he, heq⟩
      split at heq
      · cases heq
        exact ⟨v, he, rfl⟩
      · next hne =>
        cases heq
        simp at hne
    · rintro ⟨v, he, rfl⟩
      exact ⟨(k', v), he, by simp⟩
  · simp only [h, if_false, get?_eq_some_iff]
    constructor
    · rintro ⟨⟨x, v⟩, he, heq⟩
      split at heq
      · next hkey =>
        cases heq
        exact absurd (by simpa using hkey) h
      · exact heq ▸ he
    · intro he
      exact ⟨(k', w), he, by simp [h]⟩

/-! ### Equal maps -/

/-- Ascending lists with the same entries are equal. -/
theorem AscendingKeys.eq_of_mem_iff [Std.TransOrd κ] {l₁ l₂ : List (κ × ν)}
    (h₁ : AscendingKeys l₁) (h₂ : AscendingKeys l₂) (h : ∀ e, e ∈ l₁ ↔ e ∈ l₂) : l₁ = l₂ := by
  induction l₁ generalizing l₂ with
  | nil => exact (List.eq_nil_iff_forall_not_mem.2 fun e he => by simpa using (h e).2 he).symm
  | cons a rest₁ ih =>
    cases l₂ with
    | nil => simpa using (h a).1 List.mem_cons_self
    | cons b rest₂ =>
      obtain ⟨ha, hrest₁⟩ := List.pairwise_cons.1 h₁
      obtain ⟨hb, hrest₂⟩ := List.pairwise_cons.1 h₂
      have hab : a = b := by
        rcases List.mem_cons.1 ((h a).1 List.mem_cons_self) with hab | hab
        · exact hab
        · rcases List.mem_cons.1 ((h b).2 List.mem_cons_self) with hba | hba
          · exact hba.symm
          · have := Std.TransCmp.lt_trans (ha b hba) (hb a hab)
            exact absurd rfl (ne_of_lt this)
      subst hab
      refine congrArg (a :: ·) (ih hrest₁ hrest₂ fun e => ⟨fun he => ?_, fun he => ?_⟩)
      · rcases List.mem_cons.1 ((h e).1 (List.mem_cons_of_mem _ he)) with rfl | he'
        · exact absurd rfl (ne_of_lt (ha e he))
        · exact he'
      · rcases List.mem_cons.1 ((h e).2 (List.mem_cons_of_mem _ he)) with rfl | he'
        · exact absurd rfl (ne_of_lt (hb e he))
        · exact he'

/-- **Maps in which every key has the same value are equal.** -/
theorem ext_get? [Std.TransOrd κ] {m n : OrderedMap κ ν} (h : ∀ k, m.get? k = n.get? k) :
    m = n := by
  refine ext_toList (AscendingKeys.eq_of_mem_iff m.ascending n.ascending fun e => ?_)
  rw [← get?_eq_some_iff, ← get?_eq_some_iff, h]

/-- To give a key the value that it has changes nothing. -/
theorem insert_eq_self [Std.TransOrd κ] [DecidableEq κ] {m : OrderedMap κ ν} {k : κ} {v : ν}
    (h : m.get? k = some v) : m.insert k v = m := by
  refine ext_get? fun k' => ?_
  rw [get?_insert]
  split
  · next heq => rw [heq, h]
  · rfl

/-- To erase a key that has no value changes nothing. -/
theorem erase_eq_self [Std.TransOrd κ] [DecidableEq κ] {m : OrderedMap κ ν} {k : κ}
    (h : m.get? k = none) : m.erase k = m := by
  refine ext_get? fun k' => ?_
  rw [get?_erase]
  split
  · next heq => rw [heq, h]
  · rfl

/-- Keys may be erased in either order. -/
theorem erase_erase [Std.TransOrd κ] [DecidableEq κ] (m : OrderedMap κ ν) (k k' : κ) :
    (m.erase k).erase k' = (m.erase k').erase k := by
  refine ext_get? fun other => ?_
  simp only [get?_erase]
  split <;> split <;> rfl

/-- To change a value in place to itself changes nothing. -/
theorem modify_eq_self [Std.TransOrd κ] [DecidableEq κ] {m : OrderedMap κ ν} {k : κ} {v : ν}
    {f : ν → ν} (h : m.get? k = some v) (hf : f v = v) : m.modify k f = m := by
  refine ext_get? fun k' => ?_
  rw [get?_modify]
  split
  · next heq => rw [heq, h, Option.map_some, hf]
  · rfl

/-! ### Maps of entries -/

/-- A key that does not occur among the entries put in keeps its value. -/
theorem get?_foldl_insert_of_not_mem [Std.TransOrd κ] {l : List (κ × ν)} {k : κ}
    (h : ∀ e ∈ l, e.1 ≠ k) (m : OrderedMap κ ν) :
    (l.foldl (fun m e => m.insert e.1 e.2) m).get? k = m.get? k := by
  induction l generalizing m with
  | nil => rfl
  | cons a rest ih =>
    have hne : k ≠ a.1 := (h a List.mem_cons_self).symm
    rw [List.foldl_cons, ih (fun e he => h e (List.mem_cons_of_mem _ he))]
    refine Option.ext fun w => ?_
    rw [get?_eq_some_iff, insert, mem_insertEntry m.ascending, ← get?_eq_some_iff]
    refine ⟨fun hw => ?_, fun hw => .inr ⟨hw, hne⟩⟩
    rcases hw with heq | ⟨hw, _⟩
    · exact absurd (congrArg Prod.fst heq) hne
    · exact hw

/-- A key that occurs among ascending entries gets its value there. -/
theorem get?_foldl_insert_of_mem [Std.TransOrd κ] {l : List (κ × ν)} (hl : AscendingKeys l)
    {e : κ × ν} (h : e ∈ l) (m : OrderedMap κ ν) :
    (l.foldl (fun m e => m.insert e.1 e.2) m).get? e.1 = some e.2 := by
  induction l generalizing m with
  | nil => cases h
  | cons a rest ih =>
    obtain ⟨ha, hrest⟩ := List.pairwise_cons.1 hl
    cases h with
    | head =>
      have hlater : ∀ x ∈ rest, x.1 ≠ e.1 := fun x hx => (ne_of_lt (ha x hx)).symm
      rw [List.foldl_cons, get?_foldl_insert_of_not_mem hlater, get?_insert_self]
    | tail _ h => exact ih hrest h _

/-- A map is that of its entries. -/
@[simp] theorem ofList_toList [Std.TransOrd κ] (m : OrderedMap κ ν) : ofList m.toList = m := by
  refine ext_get? fun k => ?_
  cases hk : m.get? k with
  | some v => exact get?_foldl_insert_of_mem m.ascending (get?_eq_some_iff.1 hk) empty
  | none =>
    refine get?_foldl_insert_of_not_mem (fun e he hkey => ?_) empty
    have hsome : m.get? e.1 = some e.2 := get?_eq_some_iff.2 he
    rw [hkey, hk] at hsome
    cases hsome

end DistanceVector.OrderedMap
