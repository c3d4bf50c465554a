import DistanceVector.Encoding.Packet
import DistanceVector.Encoding.Params
import DistanceVector.Json.Spelling
import DistanceVector.Router.Snapshot

/-!
# What is written is read back

A value becomes a text in two steps, by way of its JSON form, and a text becomes a value again in
two.  The inner steps undo each other for every type; the outer ones do because what is written for
a value is well-formed: its numbers are numbers, and its strings hold what may stand in a string.

Main definitions:

* `Json.recode?` — a text read and written again;
* `Json.Faithful` — all values of a type are read back, and a text that was recoded recodes to
  itself.

Main results:

* `Json.wellFormed_record`, `Json.wellFormed_ofNat`, `Json.wellFormed_text` — **what is written for
  records, numbers and texts is well-formed**;
* `Router.recoding_faithful` — **all records, packets, parameters and route tables are read back as
  they were, and so is the snapshot of a router**.
-/

set_option relaxedAutoImplicit false
set_option autoImplicit false

namespace DistanceVector

namespace Json

/-! ### Numbers -/

/-- The digits of a number are read as its whole part, which is a single zero or starts with
another digit. -/
theorem foldlM_step_encode (n : Nat) :
    (Decimal.encode n).foldlM NumberState.step .start =
      some (if n = 0 then NumberState.zero else NumberState.whole) := by
  have hdigit : ∀ d < 10, [d.digitChar].foldlM NumberState.step .start =
      some (if d = 0 then NumberState.zero else NumberState.whole) := by decide
  induction n using Nat.strongRecOn with
  | ind n ih =>
    by_cases hsmall : n < 10
    · rw [Decimal.encode, Nat.toDigits_of_lt_base hsmall, hdigit n hsmall]
    · -- all digits but the last are those of a smaller number, which is not zero
      have hfront := ih (n / 10) (by omega)
      rw [if_neg (by omega : ¬ n / 10 = 0), Decimal.encode] at hfront
      have hlast : (n % 10).digitChar.isDigit = true := by
        rw [Nat.isDigit_digitChar, decide_eq_true_eq]
        omega
      rw [Decimal.encode, Nat.toDigits_of_base_le (by omega) (by omega), List.foldlM_append, hfront,
        if_neg (by omega : ¬ n = 0)]
      simp [NumberState.step, hlast]

theorem isNumber_encode (n : Nat) : isNumber (Decimal.encode n) = true := by
  rw [isNumber, foldlM_step_encode]
  split <;> rfl

/-! ### Texts -/

/-- The digits of the escape of a control character are hexadecimal. -/
theorem isHex_hexDigit {n : Nat} (h : n < 16) : isHex (hexDigit n) = true := by
  rw [isHex, hexValue?_hexDigit n h]
  rfl

/-- However a character is written, that is well-formed. -/
theorem WrittenAs.wellFormed {c : Char} {p : Piece} (h : WrittenAs c p) : p.WellFormed := by
  cases h with
  | short h => exact Option.isSome_of_eq_some h
  | control h => exact ⟨rfl, rfl, isHex_hexDigit (by omega), isHex_hexDigit (by omega)⟩
  | plain h => exact h

theorem wellFormed_encode {cs : List Char} {p : Piece} (h : p ∈ encode cs) : p.WellFormed := by
  obtain ⟨c, -, rfl⟩ := List.mem_map.1 h
  exact (writtenAs_pieceOf c).wellFormed

/-! ### Values -/

theorem wellFormed_null : WellFormed .null := by simp [WellFormed, tokens, Token.WellFormed]

theorem wellFormed_bool (b : Bool) : WellFormed (.bool b) := by
  simp [WellFormed, tokens, Token.WellFormed]

theorem wellFormed_ofNat (n : Nat) : WellFormed (ofNat n) := by
  simp [WellFormed, ofNat, tokens, Token.WellFormed, isNumber_encode]

theorem wellFormed_text (s : String) : WellFormed (toJson s) := by
  intro t ht
  rw [show (toJson s : Json) = .string (encode s.toList) from rfl, tokens, List.mem_singleton] at ht
  subst ht
  exact fun p hp => wellFormed_encode hp

/-- The members of an object after the first are well-formed if their keys and values are. -/
theorem wellFormed_moreMembers {members : List (List Piece × Json)}
    (hkeys : ∀ m ∈ members, ∀ p ∈ m.1, p.WellFormed) (hvalues : ∀ m ∈ members, m.2.WellFormed) :
    ∀ t ∈ moreMembers members, t.WellFormed := by
  induction members with
  | nil => simp [moreMembers]
  | cons m rest ih =>
    simp only [List.forall_mem_cons] at hkeys hvalues
    intro t ht
    simp only [moreMembers, List.mem_cons, List.mem_append] at ht
    rcases ht with rfl | rfl | rfl | hvalue | hmore
    · trivial
    · exact hkeys.1
    · trivial
    · exact hvalues.1 t hvalue
    · exact ih hkeys.2 hvalues.2 t hmore

/-- An object is well-formed if its keys and values are. -/
theorem wellFormed_object {members : List (List Piece × Json)}
    (hkeys : ∀ m ∈ members, ∀ p ∈ m.1, p.WellFormed) (hvalues : ∀ m ∈ members, m.2.WellFormed) :
    WellFormed (.object members) := by
  cases members with
  | nil => simp [WellFormed, tokens, Token.WellFormed]
  | cons m rest =>
    simp only [List.forall_mem_cons] at hkeys hvalues
    intro t ht
    simp only [tokens, List.mem_cons, List.mem_append, List.not_mem_nil, or_false] at ht
    rcases ht with rfl | rfl | rfl | hvalue | hmore | rfl
    · trivial
    · exact hkeys.1
    · trivial
    · exact hvalues.1 t hvalue
    · exact wellFormed_moreMembers hkeys.2 hvalues.2 t hmore
    · trivial

/-- **A record is well-formed if its fields are.** -/
theorem wellFormed_record {fields : List (String × Json)} (h : ∀ f ∈ fields, f.2.WellFormed) :
    WellFormed (record fields) := by
  refine wellFormed_object ?_ ?_
  · intro m hm p hp
    obtain ⟨f, -, rfl⟩ := List.mem_map.1 hm
    exact wellFormed_encode hp
  · intro m hm
    obtain ⟨f, hf, rfl⟩ := List.mem_map.1 hm
    exact h f hf

/-- The record of some names with values is well-formed if the values are. -/
theorem wellFormed_record_zip {names : List String} {values : List Json}
    (h : ∀ j ∈ values, j.WellFormed) : WellFormed (record (names.zip values)) :=
  wellFormed_record fun f hf => h f.2 (List.of_mem_zip hf).2

/-! ### Recoding -/

/-- A text of a type, read and written again. -/
def recode? (α : Type) [Coded α] (text : String) : Option String :=
  (read? text : Option α).map write

/-- Every value of the type is read back from what is written for it, and a text that a text was
recoded to recodes to itself. -/
def Faithful (α : Type) [Coded α] : Prop :=
  (∀ a : α, read? (write a) = some a) ∧
    ∀ text text' : String, recode? α text = some text' → recode? α text' = some text'

section Lawful

variable {α : Type} [Coded α] [LawfulCoded α]

/-- A value is read back from what is written for it if that is well-formed. -/
theorem read?_write {a : α} (h : (toJson a).WellFormed) : read? (write a) = some a := by
  rw [read?, write, parse?_render h, Option.bind_some, ofJson?_toJson]

/-- Of a type that reads back all that it writes, nothing but well-formedness is asked. -/
theorem faithful_of_wellFormed (h : ∀ a : α, (toJson a).WellFormed) : Faithful α := by
  refine ⟨fun a => read?_write (h a), ?_⟩
  intro text text' hrecode
  obtain ⟨a, -, rfl⟩ := Option.map_eq_some_iff.1 hrecode
  rw [recode?, read?_write (h a), Option.map_some]

end Lawful

end Json

/-! ### The types -/

open Json

theorem Source.wellFormed_form (s : Source) : s.form.WellFormed := by
  refine wellFormed_record_zip ?_
  simp only [List.forall_mem_cons]
  exact ⟨wellFormed_text _, wellFormed_text _, wellFormed_ofNat _, wellFormed_ofNat _,
    wellFormed_ofNat _, by simp⟩

theorem Neighbour.wellFormed_form (n : Neighbour) : n.form.WellFormed := by
  refine wellFormed_record_zip ?_
  simp only [List.forall_mem_cons]
  exact ⟨wellFormed_ofNat _, wellFormed_ofNat _, by simp⟩

theorem Route.wellFormed_form (route : Route) : route.form.WellFormed := by
  refine wellFormed_record_zip ?_
  simp only [List.forall_mem_cons]
  exact ⟨wellFormed_text _, wellFormed_text _, wellFormed_text _, wellFormed_text _,
    wellFormed_ofNat _, wellFormed_ofNat _, wellFormed_ofNat _, wellFormed_ofNat _,
    wellFormed_ofNat _, wellFormed_ofNat _, wellFormed_bool _, by simp⟩

theorem Params.wellFormed_form (p : Params) : p.form.WellFormed := by
  refine wellFormed_record_zip ?_
  simp only [List.forall_mem_cons]
  exact ⟨wellFormed_ofNat _, wellFormed_ofNat _, wellFormed_ofNat _, wellFormed_ofNat _,
    wellFormed_ofNat _, wellFormed_ofNat _, wellFormed_ofNat _, wellFormed_ofNat _, by simp⟩

theorem Packet.wellFormed_form (p : Packet) : p.form.WellFormed := by
  -- the contents of every kind are a record of texts, truth values and numbers
  have htagged : ∀ (kind : String) (names : List String) (values : List Json),
      (∀ j ∈ values, j.WellFormed) → (tagged kind (record (names.zip values))).WellFormed := by
    intro kind names values h
    refine wellFormed_record fun f hf => ?_
    rw [List.mem_singleton] at hf
    subst hf
    exact wellFormed_record_zip h
  cases p with
  | routeUpdate dest urgent =>
    refine htagged _ _ _ ?_
    simp only [List.forall_mem_cons]
    exact ⟨wellFormed_text _, wellFormed_bool _, by simp⟩
  | routeRequest dest =>
    refine htagged _ _ _ ?_
    simp only [List.forall_mem_cons]
    exact ⟨wellFormed_text _, by simp⟩
  | seqnoRequest dest origin seqno =>
    refine htagged _ _ _ ?_
    simp only [List.forall_mem_cons]
    exact ⟨wellFormed_text _, wellFormed_text _, wellFormed_ofNat _, by simp⟩

theorem OutboundPacket.wellFormed_form (p : OutboundPacket) : p.form.WellFormed := by
  have hneigh : (toJson p.neigh).WellFormed := by
    cases p.neigh with
    | none => exact wellFormed_null
    | some neigh => exact wellFormed_text neigh
  refine wellFormed_record_zip ?_
  simp only [List.forall_mem_cons]
  exact ⟨hneigh, p.packet.wellFormed_form, by simp⟩

/-! ### Route tables -/

namespace RouteTable

theorem wellFormed_form (t : RouteTable) : t.form.WellFormed := by
  have hroutes : (routesForm t.routes).WellFormed := by
    refine wellFormed_object ?_ ?_
    · intro m hm p hp
      obtain ⟨e, -, rfl⟩ := List.mem_map.1 hm
      -- the digits of a name stand for themselves
      obtain ⟨c, hc, rfl⟩ := List.mem_map.1 hp
      have hdigit := Nat.isDigit_of_mem_toDigits (by decide) (by decide) hc
      simp only [Char.isDigit, Bool.and_eq_true, decide_eq_true_eq, UInt32.le_iff_toNat_le]
        at hdigit
      have hrange : 48 ≤ c.toNat ∧ c.toNat ≤ 57 := hdigit
      simp only [Piece.WellFormed, isPlain, Bool.and_eq_true, bne_iff_ne, decide_eq_true_eq]
      refine ⟨⟨?_, ?_⟩, by omega⟩
      · rintro rfl
        exact absurd hrange.1 (by decide)
      · rintro rfl
        exact absurd hrange.2 (by decide)
    · intro m hm
      obtain ⟨e, -, rfl⟩ := List.mem_map.1 hm
      exact e.2.wellFormed_form
  refine wellFormed_record_zip ?_
  simp only [List.forall_mem_cons]
  exact ⟨hroutes, wellFormed_ofNat _, wellFormed_ofNat _, by simp⟩

end RouteTable

/-! ### Everything that is written -/

namespace Router

/-- **What is written is read back.**  Every route, name, source, neighbour, packet, set of
parameters and route table is read back from the text that is written for it; whatever text is
accepted, it is recoded to one that recodes to itself.  A router that loads its own snapshot is the
router that it was; and it loads the texts that can be recoded as a route table, by which nothing
but its table changes, and its snapshot is then the recoded text. -/
theorem recoding_faithful :
    Faithful Route ∧ Faithful RouteId ∧ Faithful Source ∧ Faithful Neighbour ∧ Faithful Packet ∧
    Faithful OutboundPacket ∧ Faithful Params ∧ Faithful RouteTable ∧
    ∀ r : Router, r.load? r.snapshot = some r ∧
      ∀ text, (r.load? text).map snapshot = recode? RouteTable text ∧
        ∀ r', r.load? text = some r' → r' = { r with table := r'.table } := by
  refine ⟨faithful_of_wellFormed Route.wellFormed_form,
    faithful_of_wellFormed fun id => wellFormed_ofNat id.toNat,
    faithful_of_wellFormed Source.wellFormed_form, faithful_of_wellFormed Neighbour.wellFormed_form,
    faithful_of_wellFormed Packet.wellFormed_form,
    faithful_of_wellFormed OutboundPacket.wellFormed_form,
    faithful_of_wellFormed Params.wellFormed_form,
    faithful_of_wellFormed RouteTable.wellFormed_form, fun r => ⟨?_, fun text => ⟨?_, ?_⟩⟩⟩
  · rw [load?, snapshot, read?_write r.table.wellFormed_form, Option.map_some]
  · rw [load?, Option.map_map]
    rfl
  · intro r' hload
    obtain ⟨table, -, rfl⟩ := Option.map_eq_some_iff.1 hload
    rfl

/-- A router whose table has unusual names: the largest route name, next to a small one, and a
destination with a quote, a backslash, control characters and letters beyond ASCII. -/
def oddlyNamed : Router :=
  { ofParams {} with
    table := {
      routes := .ofList [
        (18446744073709551615, ⟨"\"\\\n\x01é𝄞", "O1", "N1", "H1", 7, 65535, 0, 65535, 0,
          18446744073709551615, true⟩),
        (9, ⟨"", "O1", "N1", "H1", 1, 10, 104, 200, 1000, 1000, false⟩)]
      nextId := 10
      capacity := 1 } }

/-- Its snapshot is read back, names, escapes and all, although the next name is not above all
others and there are more routes than there is room for. -/
theorem snapshot_oddlyNamed :
    oddlyNamed.table.nextId < 18446744073709551615 ∧ oddlyNamed.table.size = 2 ∧
      oddlyNamed.load? oddlyNamed.snapshot = some oddlyNamed := by
  have hload := (recoding_faithful.2.2.2.2.2.2.2.2 oddlyNamed).1
  exact ⟨by decide, by decide +kernel, hload⟩

end Router

end DistanceVector
