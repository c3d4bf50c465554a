import DistanceVector.Json.Tree

/-!
# Values with a JSON form

A type with a JSON form has a value of type `Json` for each of its own, and reads some of them
back.  The form is lawful if it reads back all that it writes.

Main definitions:

* `Decimal.encode`, `Decimal.decode?` — writing a number in decimal digits and reading it;
* `Json.Coded`, `Json.LawfulCoded` — types with a JSON form, and lawful ones;
* the forms of texts, truth values, words and options.
-/

set_option relaxedAutoImplicit false
set_option autoImplicit false

namespace DistanceVector

/-! ### Decimal numbers -/

namespace Decimal

/-- The decimal digits of a number. -/
def encode (n : Nat) : List Char := Nat.toDigits 10 n

/-- The number with these decimal digits; leading zeros are refused. -/
def decode? (digits : List Char) : Option Nat :=
  let n := Nat.ofDigitChars 10 digits 0
  if encode n = digits then some n else none

@[simp] theorem decode?_encode (n : Nat) : decode? (encode n) = some n := by
  simp [decode?, encode, Nat.ofDigitChars_ten_toDigits]

end Decimal

/-! ### Forms -/

namespace Json

/-- A type with a JSON form. -/
class Coded (α : Type) where
  /-- The JSON form of a value. -/
  toJson : α → Json
  /-- The value of a JSON form, if it is that of one. -/
  ofJson? : Json → Option α

export Coded (toJson ofJson?)

/-- A type with a JSON form that reads back all that it writes. -/
class LawfulCoded (α : Type) [Coded α] : Prop where
  ofJson?_toJson (a : α) : ofJson? (toJson a) = some a

export LawfulCoded (ofJson?_toJson)

attribute [simp] ofJson?_toJson

/-- The text written for a value. -/
def write {α : Type} [Coded α] (a : α) : String := (toJson a).render

/-- The value written in a text. -/
def read? {α : Type} [Coded α] (text : String) : Option α := (parse? text).bind ofJson?

/-! ### Texts and truth values -/

instance : Coded String where
  toJson s := .string (encode s.toList)
  ofJson?
    | .string pieces => (decode? pieces).map String.ofList
    | _ => none

instance : LawfulCoded String where
  ofJson?_toJson s := by simp [toJson, ofJson?]

instance : Coded Bool where
  toJson := .bool
  ofJson?
    | .bool b => some b
    | _ => none

instance : LawfulCoded Bool where
  ofJson?_toJson _ := rfl

/-! ### Numbers -/

/-- The JSON form of a natural number. -/
def ofNat (n : Nat) : Json := .number (Decimal.encode n)

/-- The natural number below a bound that a JSON form is of. -/
def below? (bound : Nat) : Json → Option Nat
  | .number text => (Decimal.decode? text).filter (· < bound)
  | _ => none

theorem below?_ofNat {bound n : Nat} (h : n < bound) : below? bound (ofNat n) = some n := by
  simp [below?, ofNat, h]

instance : Coded UInt16 where
  toJson n := ofNat n.toNat
  ofJson? j := (below? UInt16.size j).map UInt16.ofNat

instance : LawfulCoded UInt16 where
  ofJson?_toJson n := by simp [toJson, ofJson?, below?_ofNat n.toNat_lt_size]

instance : Coded UInt32 where
  toJson n := ofNat n.toNat
  ofJson? j := (below? UInt32.size j).map UInt32.ofNat

instance : LawfulCoded UInt32 where
  ofJson?_toJson n := by simp [toJson, ofJson?, below?_ofNat n.toNat_lt_size]

instance : Coded UInt64 where
  toJson n := ofNat n.toNat
  ofJson? j := (below? UInt64.size j).map UInt64.ofNat

instance : LawfulCoded UInt64 where
  ofJson?_toJson n := by simp [toJson, ofJson?, below?_ofNat n.toNat_lt_size]

/-! ### Options -/

/-- The JSON form of a text that may be missing. -/
instance : Coded (Option String) where
  toJson o := o.elim .null toJson
  ofJson?
    | .null => some none
    | j => (ofJson? j).map some

instance : LawfulCoded (Option String) where
  ofJson?_toJson o := by
    cases o with
    | none => rfl
    | some s =>
      simp [toJson, ofJson?]

end Json

end DistanceVector
