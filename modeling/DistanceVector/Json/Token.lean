import DistanceVector.Json.Literal

/-!
# Tokens

A JSON text is a sequence of tokens with blanks between them.  The tokens are found by a machine
that reads one character at a time.

Main definitions:

* `Json.Token` — a token, and its written form `Token.text`;
* `Json.Lexer` — the machine, with `Lexer.step` for one character and `Lexer.finish` for the end;
* `Json.Token.ofText?` — the tokens of a text.
-/

set_option relaxedAutoImplicit false
set_option autoImplicit false

namespace DistanceVector.Json

/-- A token. -/
inductive Token where
  | openObject
  | closeObject
  | openArray
  | closeArray
  | colon
  | comma
  | null
  | bool (b : Bool)
  /-- A number, as it is written. -/
  | number (text : List Char)
  /-- A string, as it is written between its quotes. -/
  | string (pieces : List Piece)
  deriving DecidableEq

/-- The written form of a token. -/
def Token.text : Token → List Char
  | .openObject => ['\x7b']
  | .closeObject => ['\x7d']
  | .openArray => ['[']
  | .closeArray => [']']
  | .colon => [':']
  | .comma => [',']
  | .null => ['n', 'u', 'l', 'l']
  | .bool true => ['t', 'r', 'u', 'e']
  | .bool false => ['f', 'a', 'l', 's', 'e']
  | .number text => text
  | .string pieces => '"' :: (pieces.flatMap Piece.text ++ ['"'])

/-- The written form of tokens, without blanks between them. -/
def textOf (ts : List Token) : List Char := ts.flatMap Token.text

@[simp] theorem textOf_nil : textOf [] = [] := rfl

@[simp] theorem textOf_cons (t : Token) (ts : List Token) :
    textOf (t :: ts) = t.text ++ textOf ts := by
  simp [textOf]

@[simp] theorem textOf_append (ts us : List Token) :
    textOf (ts ++ us) = textOf ts ++ textOf us := by
  simp [textOf]

/-! ### Characters -/

/-- Blanks: space, tab, line feed and carriage return. -/
def isBlank (c : Char) : Bool := c == ' ' || c == '\t' || c == '\n' || c == '\r'

/-- The token that a punctuation character is. -/
def punctuation? : Char → Option Token
  | '\x7b' => some .openObject
  | '\x7d' => some .closeObject
  | '[' => some .openArray
  | ']' => some .closeArray
  | ':' => some .colon
  | ',' => some .comma
  | _ => none

/-- The characters that words and numbers are made of. -/
def isBare (c : Char) : Bool := c.isAlphanum || c == '+' || c == '-' || c == '.'

/-- The token that a run of such characters is, if it is one. -/
def bareToken? (text : List Char) : Option Token :=
  if text = Token.null.text then some .null
  else if text = (Token.bool true).text then some (.bool true)
  else if text = (Token.bool false).text then some (.bool false)
  else if isNumber text then some (.number text)
  else none

/-! ### The machine -/

/-- What the machine is in the middle of; what was read of it is kept in reverse. -/
inductive Mode where
  /-- Nothing. -/
  | between
  /-- A word or a number. -/
  | bare (seen : List Char)
  /-- A string. -/
  | inString (seen : List Piece)
  /-- An escape of a string, after the backslash. -/
  | escape (seen : List Piece)
  /-- A code unit of a string, after the `u` and some of its digits. -/
  | unit (seen : List Piece) (digits : List Char)
  deriving DecidableEq

/-- The machine that finds tokens. -/
structure Lexer where
  mode : Mode := .between
  /-- The tokens found, the last one first. -/
  tokens : List Token := []
  deriving DecidableEq

namespace Lexer

/-- The machine with one more token found. -/
def push (l : Lexer) (t : Token) : Lexer := { mode := .between, tokens := t :: l.tokens }

/-- A character that does not go on with anything. -/
def startToken (l : Lexer) (c : Char) : Option Lexer :=
  if isBlank c then some { l with mode := .between }
  else if c = '"' then some { l with mode := .inString [] }
  else if isBare c then some { l with mode := .bare [c] }
  else (punctuation? c).map l.push

/-- The end of a word or a number. -/
def endBare (l : Lexer) (seen : List Char) : Option Lexer := (bareToken? seen.reverse).map l.push

/-- One more digit of a code unit. -/
def unitDigit (l : Lexer) (seen : List Piece) (digits : List Char) (c : Char) : Option Lexer :=
  if !isHex c then none
  else
    match digits with
    | [z, y, x] => some { l with mode := .inString (.unit x y z c :: seen) }
    | _ => some { l with mode := .unit seen (c :: digits) }

/-- One more character. -/
def step (l : Lexer) (c : Char) : Option Lexer :=
  match l.mode with
  | .between => l.startToken c
  | .bare seen =>
    if isBare c then some { l with mode := .bare (c :: seen) }
    else (l.endBare seen).bind (·.startToken c)
  | .inString seen =>
    if c = '"' then some (l.push (.string seen.reverse))
    else if c = '\\' then some { l with mode := .escape seen }
    else if isPlain c then some { l with mode := .inString (.plain c :: seen) }
    else none
  | .escape seen =>
    if c = 'u' then some { l with mode := .unit seen [] }
    else if (shortMeaning? c).isSome then some { l with mode := .inString (.short c :: seen) }
    else none
  | .unit seen digits => l.unitDigit seen digits c

/-- All given characters, one after the other. -/
def run (l : Lexer) (cs : List Char) : Option Lexer := cs.foldlM step l

/-- The tokens, if the text may end here. -/
def finish (l : Lexer) : Option (List Token) :=
  match l.mode with
  | .between => some l.tokens.reverse
  | .bare seen => (l.endBare seen).map (·.tokens.reverse)
  | .inString _ | .escape _ | .unit _ _ => none

end Lexer

/-- The tokens of a text. -/
def Token.ofText? (text : List Char) : Option (List Token) :=
  (Lexer.run {} text).bind Lexer.finish

end DistanceVector.Json
