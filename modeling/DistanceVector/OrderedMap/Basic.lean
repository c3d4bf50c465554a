/-!
# Finite maps with ordered keys

A map is the list of its entries, strictly ascending by key.  The order is part of the type, so
equal maps are equal lists, and going through a map in order is going through the list.

Main definitions:

* `OrderedMap.get?`, `OrderedMap.insert`, `OrderedMap.erase`, `OrderedMap.modify` — looking an
  entry up, setting it, removing it, changing it in place;
* `OrderedMap.keys`, `OrderedMap.values`, `OrderedMap.size` — views of the entries.

The equations between these operations are in `OrderedMap.Lemmas`.
-/

set_option relaxedAutoImplicit false
set_option autoImplicit false

namespace DistanceVector

/-- Entries in strictly ascending order of their keys. -/
def AscendingKeys {κ ν : Type} [Ord κ] (entries : List (κ × ν)) : Prop :=
  entries.Pairwise fun a b => compare a.1 b.1 = .lt

/-- A finite map from `κ` to `ν`: its entries, strictly ascending by key. -/
structure OrderedMap (κ ν : Type) [Ord κ] where
  /-- The entries of the map, by ascending key. -/
  toList : List (κ × ν)
  /-- Keys ascend strictly, hence no key occurs twice. -/
  ascending : AscendingKeys toList := by exact List.Pairwise.nil

namespace OrderedMap

variable {κ ν : Type} [Ord κ]

/-! ### Changing a list of entries -/

/-- Puts an entry in its place among ascending entries, instead of the one with the same key. -/
def insertEntry (k : κ) (v : ν) : List (κ × ν) → List (κ × ν)
  | [] => [(k, v)]
  | e :: rest =>
    match compare k e.1 with
    | .lt => (k, v) :: e :: rest
    | .eq => (k, v) :: rest
    | .gt => e :: insertEntry k v rest

/-- A new entry list holds the new entry and old ones only. -/
theorem mem_of_mem_insertEntry {k : κ} {v : ν} {l : List (κ × ν)} {e : κ × ν}
    (h : e ∈ insertEntry k v l) : e = (k, v) ∨ e ∈ l := by
  induction l with
  | nil => simpa [insertEntry] using h
  | cons d rest ih =>
    unfold insertEntry at h
    split at h
    · simpa using h
    · rcases List.mem_cons.1 h with h | h
      · exact .inl h
      · exact .inr (List.mem_cons_of_mem _ h)
    · rcases List.mem_cons.1 h with rfl | h
      · exact .inr List.mem_cons_self
      · exact (ih h).imp_right (List.mem_cons_of_mem _)

theorem AscendingKeys.insertEntry [Std.TransOrd κ] [Std.LawfulEqOrd κ] {l : List (κ × ν)}
    (h : AscendingKeys l) (k : κ) (v : ν) : AscendingKeys (insertEntry k v l) := by
  induction l with
  | nil => exact List.pairwise_singleton _ _
  | cons d rest ih =>
    obtain ⟨hd, hrest⟩ := List.pairwise_cons.1 h
    unfold OrderedMap.insertEntry
    split
    · next hlt =>
      refine List.pairwise_cons.2 ⟨fun e he => ?_, h⟩
      rcases List.mem_cons.1 he with rfl | he
      · exact hlt
      · exact Std.TransCmp.lt_trans hlt (hd e he)
    · next heq =>
      have hkey : k = d.1 := Std.LawfulEqCmp.eq_of_compare heq
      exact List.pairwise_cons.2 ⟨fun e he => hkey ▸ hd e he, hrest⟩
    · next hgt =>
      refine List.pairwise_cons.2 ⟨fun e he => ?_, ih hrest⟩
      rcases mem_of_mem_insertEntry he with rfl | he
      · exact Std.OrientedCmp.lt_of_gt hgt
      · exact hd e he

/-! ### The operations -/

/-- The map without entries. -/
def empty : OrderedMap κ ν := { toList := [] }

instance : Inhabited (OrderedMap κ ν) := ⟨empty⟩

/-- The value of a key, if it has one. -/
def get? (m : OrderedMap κ ν) (k : κ) : Option ν :=
  (m.toList.find? fun e => compare e.1 k == .eq).map (·.2)

/-- Whether a key has a value. -/
def contains (m : OrderedMap κ ν) (k : κ) : Bool := (m.get? k).isSome

/-- The number of entries. -/
def size (m : OrderedMap κ ν) : Nat := m.toList.length

/-- The keys, ascending. -/
def keys (m : OrderedMap κ ν) : List κ := m.toList.map (·.1)

/-- The values, by ascending key. -/
def values (m : OrderedMap κ ν) : List ν := m.toList.map (·.2)

/-- The map with `v` as the value of `k`. -/
def insert [Std.TransOrd κ] [Std.LawfulEqOrd κ] (m : OrderedMap κ ν) (k : κ) (v : ν) :
    OrderedMap κ ν where
  toList := insertEntry k v m.toList
  ascending := AscendingKeys.insertEntry m.ascending k v

/-- The map without a value for `k`. -/
def erase (m : OrderedMap κ ν) (k : κ) : OrderedMap κ ν where
  toList := m.toList.filter fun e => compare e.1 k != .eq
  ascending := m.ascending.filter _

/-- The map with the value of `k`, if it has one, replaced by its image under `f`. -/
def modify (m : OrderedMap κ ν) (k : κ) (f : ν → ν) : OrderedMap κ ν where
  toList := m.toList.map fun e => if compare e.1 k == .eq then (e.1, f e.2) else e
  ascending := by
    refine List.pairwise_map.2 (m.ascending.imp fun {a b} h => ?_)
    split <;> split <;> exact h

/-- The map of the given entries; of two with the same key the later one counts. -/
def ofList [Std.TransOrd κ] [Std.LawfulEqOrd κ] (entries : List (κ × ν)) : OrderedMap κ ν :=
  entries.foldl (fun m e => m.insert e.1 e.2) empty

/-- Two maps with the same entries are the same. -/
@[ext] theorem ext_toList {m n : OrderedMap κ ν} (h : m.toList = n.toList) : m = n := by
  cases m; cases n; cases h; rfl

instance [DecidableEq κ] [DecidableEq ν] : DecidableEq (OrderedMap κ ν) := fun m n =>
  decidable_of_iff (m.toList = n.toList) ⟨ext_toList, fun h => h ▸ rfl⟩

end OrderedMap

end DistanceVector
