import DistanceVector.Json.Tree

/-!
# Records

A record is written as an object with one member for each of its fields.  It is read from an
object, in which the order of the members does not matter and members with other names are passed
over, or from an array of the fields in order, whose last ones may be left out.

Main definitions:

* `Json.record` — the value written for a record;
* `Json.record?` — the values of the fields of a record, where they are given.

Main results:

* `Json.record?_record`, `Json.record?_zip` — **the fields of a record are read back**;
* `Json.record?_of_twice` — **a field that is given twice is refused**.
-/

set_option relaxedAutoImplicit false
set_option autoImplicit false

namespace DistanceVector.Json

/-- The value written for a record: its fields with their names. -/
def record (fields : List (String × Json)) : Json :=
  .object (fields.map fun f => (encode f.1.toList, f.2))

/-- The members of an object under the names that their keys stand for. -/
def named? (members : List (List Piece × Json)) : Option (List (String × Json)) :=
  members.mapM fun m => (decode? m.1).map fun cs => (String.ofList cs, m.2)

/-- The values of the named fields among the members of an object; a name that occurs twice is
refused. -/
def select? (names : List String) (members : List (String × Json)) : Option (List (Option Json)) :=
  let known := members.filter fun m => names.contains m.1
  if (known.map (·.1)).Nodup then some (names.map fun name => known.lookup name) else none

/-- The values of the fields of a record with these names, where they are given. -/
def record? (names : List String) : Json → Option (List (Option Json))
  | .object members => (named? members).bind (select? names)
  | .array items =>
    if items.length ≤ names.length then
      some (items.map some ++ List.replicate (names.length - items.length) none)
    else none
  | _ => none

/-! ### Members and their names -/

variable {members : List (List Piece × Json)}

theorem named?_cons {key : List Piece} {name : String} (h : decode? key = some name.toList)
    (j : Json) (members : List (List Piece × Json)) :
    named? ((key, j) :: members) = (named? members).map ((name, j) :: ·) := by
  simp only [named?, List.mapM_cons, h, Option.map_some, String.ofList_toList,
    Option.bind_eq_bind, Option.bind_some]
  cases members.mapM fun m => (decode? m.1).map fun cs => (String.ofList cs, m.2) <;> rfl

theorem exists_of_named?_cons {m : List Piece × Json} {fields : List (String × Json)}
    (h : named? (m :: members) = some fields) :
    ∃ name tail, decode? m.1 = some name.toList ∧ named? members = some tail ∧
      fields = (name, m.2) :: tail := by
  cases hkey : decode? m.1 with
  | none => simp [named?, hkey] at h
  | some cs =>
    have hname : decode? m.1 = some (String.ofList cs).toList := by
      rw [hkey, String.toList_ofList]
    rw [named?_cons hname, Option.map_eq_some_iff] at h
    obtain ⟨tail, htail, rfl⟩ := h
    exact ⟨String.ofList cs, tail, by rw [String.toList_ofList], htail, rfl⟩

/-- If all members have names, then so have any of them. -/
theorem exists_named?_of_sublist {few : List (List Piece × Json)} {fields : List (String × Json)}
    (hsub : few.Sublist members) (h : named? members = some fields) :
    ∃ fewFields, named? few = some fewFields ∧ fewFields.Sublist fields := by
  induction hsub generalizing fields with
  | slnil => exact ⟨fields, h, List.Sublist.refl _⟩
  | cons m _ ih =>
    obtain ⟨name, tail, -, htail, rfl⟩ := exists_of_named?_cons h
    obtain ⟨fewFields, hfew, hsub⟩ := ih htail
    exact ⟨fewFields, hfew, hsub.cons (name, m.2)⟩
  | cons_cons m _ ih =>
    obtain ⟨name, tail, hname, htail, rfl⟩ := exists_of_named?_cons h
    obtain ⟨fewFields, hfew, hsub⟩ := ih htail
    exact ⟨(name, m.2) :: fewFields, by rw [named?_cons hname, hfew]; rfl, hsub.cons_cons _⟩

theorem named?_encode (fields : List (String × Json)) :
    named? (fields.map fun f => (encode f.1.toList, f.2)) = some fields := by
  induction fields with
  | nil => rfl
  | cons f rest ih =>
    rw [List.map_cons, named?_cons (decode?_encode _), ih]
    rfl

/-- **A field that is given twice is refused**, whatever its values and the other members are. -/
theorem record?_of_twice {names : List String} {name : String} (hname : name ∈ names)
    {first second : List Piece × Json} (hfirst : decode? first.1 = some name.toList)
    (hsecond : decode? second.1 = some name.toList) (hsub : [first, second].Sublist members) :
    (Json.object members).record? names = none := by
  rw [record?]
  cases hnamed : named? members with
  | none => rfl
  | some fields =>
    obtain ⟨few, hfew, hsub⟩ := exists_named?_of_sublist hsub hnamed
    have hboth : named? [first, second] = some [(name, first.2), (name, second.2)] := by
      rw [named?_cons hfirst, named?_cons hsecond]
      rfl
    rw [hboth] at hfew
    cases hfew
    -- both are known, so that the known names are not all different
    have hknown := (hsub.filter fun m => names.contains m.1).map (·.1)
    have hcontains : names.contains name = true := by simpa using hname
    simp only [List.filter_cons, hcontains, if_true, List.filter_nil, List.map_cons,
      List.map_nil] at hknown
    have htwice : ¬ ((fields.filter fun m => names.contains m.1).map (·.1)).Nodup :=
      fun hnodup => by simpa using hnodup.sublist hknown
    rw [Option.bind_some, select?]
    exact if_neg htwice

/-! ### Reading back -/

theorem map_lookup_of_nodup {fields : List (String × Json)}
    (h : (fields.map (·.1)).Nodup) :
    ((fields.map (·.1)).map fun name => fields.lookup name) = fields.map fun f => some f.2 := by
  rw [List.map_map]
  refine List.map_congr_left fun f hf => ?_
  change fields.lookup f.1 = some f.2
  induction fields with
  | nil => cases hf
  | cons g rest ih =>
    rw [List.map_cons, List.nodup_cons] at h
    rcases List.mem_cons.1 hf with rfl | hf
    · exact List.lookup_cons_self
    · have hne : (f.1 == g.1) = false := by
        refine beq_false_of_ne fun heq => h.1 ?_
        exact heq ▸ List.mem_map_of_mem hf
      rw [List.lookup_cons, hne]
      exact ih h.2 hf

/-- **The fields of a record are read back.** -/
theorem record?_record {fields : List (String × Json)} (h : (fields.map (·.1)).Nodup) :
    (record fields).record? (fields.map (·.1)) = some (fields.map fun f => some f.2) := by
  have hknown : (fields.filter fun m => (fields.map (·.1)).contains m.1) = fields := by
    refine List.filter_eq_self.2 fun m hm => ?_
    simpa using ⟨m.2, hm⟩
  simp only [record, record?, named?_encode, Option.bind_some, select?, hknown, h, if_true,
    map_lookup_of_nodup h]

/-- The fields of a record are read back, names and values given apart. -/
theorem record?_zip {names : List String} {values : List Json} (h : names.Nodup)
    (hlength : names.length = values.length) :
    (record (names.zip values)).record? names = some (values.map some) := by
  have hnames : (names.zip values).map (·.1) = names := List.map_fst_zip (by omega)
  have hvalues : (names.zip values).map (·.2) = values := List.map_snd_zip (by omega)
  have hrecord := record?_record (hnames.symm ▸ h : ((names.zip values).map (·.1)).Nodup)
  rw [hnames] at hrecord
  rw [hrecord, ← hvalues, List.map_map, hvalues]
  rfl

end DistanceVector.Json
