import DistanceVector.Json.Token

/-!
# JSON values

A value is read from its tokens by a machine that keeps the containers that are still open, so
that values may be nested to any depth.

Main definitions:

* `Json` — a value;
* `Json.tokens` — the tokens that a value is written with;
* `Json.Parser` — the machine, with `Parser.step` for one token and `Parser.finish` for the end;
* `Json.parse?`, `Json.render` — reading a value and writing it.

Main results:

* `Json.ofTokens?_tokens` — **every value is read back from its tokens**.
-/

set_option relaxedAutoImplicit false
set_option autoImplicit false

namespace DistanceVector

/-- A JSON value, strings and numbers as they are written. -/
inductive Json where
  | null
  | bool (b : Bool)
  | number (text : List Char)
  | string (pieces : List Json.Piece)
  | array (items : List Json)
  | object (members : List (List Json.Piece × Json))

namespace Json

/-! ### The tokens of a value -/

mutual

/-- The tokens that a value is written with. -/
def tokens : Json → List Token
  | .null => [.null]
  | .bool b => [.bool b]
  | .number text => [.number text]
  | .string pieces => [.string pieces]
  | .array [] => [.openArray, .closeArray]
  | .array (j :: rest) => .openArray :: (tokens j ++ (moreItems rest ++ [.closeArray]))
  | .object [] => [.openObject, .closeObject]
  | .object ((key, j) :: rest) =>
    .openObject :: .string key :: .colon :: (tokens j ++ (moreMembers rest ++ [.closeObject]))

/-- The tokens of the items after the first. -/
def moreItems : List Json → List Token
  | [] => []
  | j :: rest => .comma :: (tokens j ++ moreItems rest)

/-- The tokens of the members after the first. -/
def moreMembers : List (List Piece × Json) → List Token
  | [] => []
  | (key, j) :: rest => .comma :: .string key :: .colon :: (tokens j ++ moreMembers rest)

end

/-- The written form of a value. -/
def render (j : Json) : String := String.ofList (textOf j.tokens)

/-! ### The machine -/

/-- A container that is still open; what it holds already is kept in reverse. -/
inductive Frame where
  /-- An array. -/
  | items (done : List Json)
  /-- An object, and the key whose value is due. -/
  | member (done : List (List Piece × Json)) (key : List Piece)

/-- The machine that reads a value: what may come next, and the open containers. -/
inductive Parser where
  /-- A value is due. -/
  | value (stack : List Frame)
  /-- A key of an object is due. -/
  | key (done : List (List Piece × Json)) (stack : List Frame)
  /-- The colon after a key is due. -/
  | colon (done : List (List Piece × Json)) (key : List Piece) (stack : List Frame)
  /-- A value was read. -/
  | after (j : Json) (stack : List Frame)

namespace Parser

/-- One more token. -/
def step : Parser → Token → Option Parser
  | .value stack, .null => some (.after .null stack)
  | .value stack, .bool b => some (.after (.bool b) stack)
  | .value stack, .number text => some (.after (.number text) stack)
  | .value stack, .string pieces => some (.after (.string pieces) stack)
  | .value stack, .openArray => some (.value (.items [] :: stack))
  | .value stack, .openObject => some (.key [] stack)
  | .value (.items [] :: stack), .closeArray => some (.after (.array []) stack)
  | .key done stack, .string name => some (.colon done name stack)
  | .key [] stack, .closeObject => some (.after (.object []) stack)
  | .colon done name stack, .colon => some (.value (.member done name :: stack))
  | .after j (.items done :: stack), .comma => some (.value (.items (j :: done) :: stack))
  | .after j (.items done :: stack), .closeArray =>
    some (.after (.array (j :: done).reverse) stack)
  | .after j (.member done name :: stack), .comma => some (.key ((name, j) :: done) stack)
  | .after j (.member done name :: stack), .closeObject =>
    some (.after (.object ((name, j) :: done).reverse) stack)
  | _, _ => none

/-- All given tokens, one after the other. -/
def run (p : Parser) (ts : List Token) : Option Parser := ts.foldlM step p

theorem run_cons {p q : Parser} {t : Token} (h : p.step t = some q) (ts : List Token) :
    p.run (t :: ts) = q.run ts := by
  simp [run, h]

theorem run_append {p q : Parser} {ts : List Token} (h : p.run ts = some q) (more : List Token) :
    p.run (ts ++ more) = q.run more := by
  simp only [run] at h ⊢
  simp [h]

/-- The value, if the text may end here. -/
def finish : Parser → Option Json
  | .after j [] => some j
  | _ => none

end Parser

/-- The value that is written with the given tokens. -/
def ofTokens? (ts : List Token) : Option Json :=
  ((Parser.value []).run ts).bind Parser.finish

/-- The value that is written in a text. -/
def parse? (text : String) : Option Json := (Token.ofText? text.toList).bind ofTokens?

/-! ### Reading back -/

mutual

/-- Where a value is due, its tokens lead to where it was read. -/
theorem run_tokens (j : Json) (stack : List Frame) :
    (Parser.value stack).run j.tokens = some (.after j stack) := by
  match j with
  | .null => rfl
  | .bool _ => rfl
  | .number _ => rfl
  | .string _ => rfl
  | .array [] => rfl
  | .array (j :: rest) =>
    rw [tokens, Parser.run_cons rfl, Parser.run_append (run_tokens j _)]
    exact run_moreItems rest j [] stack
  | .object [] => rfl
  | .object ((name, j) :: rest) =>
    rw [tokens, Parser.run_cons rfl, Parser.run_cons rfl, Parser.run_cons rfl,
      Parser.run_append (run_tokens j _)]
    exact run_moreMembers rest name j [] stack

/-- After an item, the tokens of the other ones and the bracket lead to the whole array. -/
theorem run_moreItems (rest : List Json) (j : Json) (done : List Json) (stack : List Frame) :
    (Parser.after j (.items done :: stack)).run (moreItems rest ++ [.closeArray]) =
      some (.after (.array (done.reverse ++ j :: rest)) stack) := by
  match rest with
  | [] => simp [moreItems, Parser.run, Parser.step]
  | k :: rest =>
    rw [moreItems, List.cons_append, List.append_assoc, Parser.run_cons rfl,
      Parser.run_append (run_tokens k _), run_moreItems rest k (j :: done) stack]
    simp

/-- After a member, the tokens of the other ones and the brace lead to the whole object. -/
theorem run_moreMembers (rest : List (List Piece × Json)) (name : List Piece) (j : Json)
    (done : List (List Piece × Json)) (stack : List Frame) :
    (Parser.after j (.member done name :: stack)).run (moreMembers rest ++ [.closeObject]) =
      some (.after (.object (done.reverse ++ (name, j) :: rest)) stack) := by
  match rest with
  | [] => simp [moreMembers, Parser.run, Parser.step]
  | (other, k) :: rest =>
    rw [moreMembers, List.cons_append, List.cons_append, List.cons_append, List.append_assoc,
      Parser.run_cons rfl, Parser.run_cons rfl, Parser.run_cons rfl,
      Parser.run_append (run_tokens k _),
      run_moreMembers rest other k ((name, j) :: done) stack]
    simp

end

/-- **Every value is read back from its tokens.** -/
@[simp] theorem ofTokens?_tokens (j : Json) : ofTokens? j.tokens = some j := by
  simp [ofTokens?, run_tokens, Parser.finish]

end Json

end DistanceVector
