/-!
# Strings and numbers as they are written

A JSON string is a sequence of pieces: characters that stand for themselves and escapes.  Keeping
the pieces keeps what was written; what they stand for is a second question, to which some
strings, those with half a surrogate pair, have no answer.  A number is kept as it is written.

Main definitions:

* `Json.Piece` — a piece of a string, and its written form `Piece.text`;
* `Json.decode?`, `Json.encode` — the characters that pieces stand for, and the pieces written for
  characters;
* `Json.WrittenAs` — the ways to write a character;
* `Json.isNumber` — the shape of numbers.

Main results:

* `Json.writtenAs_pieceOf` — every character is written in one of these ways;
* `Json.decode?_encode` — **what is written for a text stands for it**.
-/

set_option relaxedAutoImplicit false
set_option autoImplicit false

namespace DistanceVector.Json

/-! ### Pieces of strings -/

/-- A piece of a string as it is written. -/
inductive Piece where
  /-- A character that stands for itself. -/
  | plain (c : Char)
  /-- A backslash and a letter. -/
  | short (letter : Char)
  /-- A backslash, a `u` and the four hexadecimal digits of a UTF-16 code unit. -/
  | unit (a b c d : Char)
  deriving DecidableEq

/-- The written form of a piece. -/
def Piece.text : Piece → List Char
  | .plain c => [c]
  | .short letter => ['\\', letter]
  | .unit a b c d => ['\\', 'u', a, b, c, d]

/-- Whether a character may stand for itself: it is no quote, no backslash and no control
character. -/
def isPlain (c : Char) : Bool := c != '"' && c != '\\' && 32 ≤ c.toNat

/-- The character that a backslash and a letter stand for. -/
def shortMeaning? : Char → Option Char
  | '"' => some '"'
  | '\\' => some '\\'
  | '/' => some '/'
  | 'b' => some '\x08'
  | 'f' => some '\x0c'
  | 'n' => some '\n'
  | 'r' => some '\r'
  | 't' => some '\t'
  | _ => none

/-- The value of a hexadecimal digit, in either case. -/
def hexValue? (c : Char) : Option Nat :=
  if '0' ≤ c ∧ c ≤ '9' then some (c.toNat - '0'.toNat)
  else if 'a' ≤ c ∧ c ≤ 'f' then some (c.toNat - 'a'.toNat + 10)
  else if 'A' ≤ c ∧ c ≤ 'F' then some (c.toNat - 'A'.toNat + 10)
  else none

/-- Whether a character is a hexadecimal digit. -/
def isHex (c : Char) : Bool := (hexValue? c).isSome

/-! ### What pieces stand for -/

/-- What a piece stands for: a character, or the first or second half of a surrogate pair. -/
inductive Meaning where
  | char (c : Char)
  | high (unit : Nat)
  | low (unit : Nat)
  deriving DecidableEq

/-- What a UTF-16 code unit stands for. -/
def Meaning.ofUnit (unit : Nat) : Meaning :=
  if 0xD800 ≤ unit ∧ unit < 0xDC00 then .high unit
  else if 0xDC00 ≤ unit ∧ unit < 0xE000 then .low unit
  else .char (Char.ofNat unit)

/-- What a piece stands for. -/
def Piece.meaning? : Piece → Option Meaning
  | .plain c => some (.char c)
  | .short letter => (shortMeaning? letter).map .char
  | .unit a b c d => do
    let unit := ((← hexValue? a) * 16 + (← hexValue? b)) * 256 + (← hexValue? c) * 16
      + (← hexValue? d)
    return .ofUnit unit

/-- The character of a surrogate pair. -/
def pairChar (high low : Nat) : Char :=
  Char.ofNat (0x10000 + (high - 0xD800) * 0x400 + (low - 0xDC00))

/-- Puts surrogate pairs together; a half on its own is refused. -/
def joinPairs : List Meaning → Option (List Char)
  | [] => some []
  | .char c :: rest => (joinPairs rest).map (c :: ·)
  | .high h :: .low l :: rest => (joinPairs rest).map (pairChar h l :: ·)
  | _ => none

/-- The characters that the pieces of a string stand for. -/
def decode? (pieces : List Piece) : Option (List Char) :=
  (pieces.mapM Piece.meaning?).bind joinPairs

/-! ### How characters are written -/

/-- The hexadecimal digit of a value below sixteen, in lower case. -/
def hexDigit (n : Nat) : Char := Nat.digitChar n

/-- The piece written for a character: the short escapes for the quote, the backslash and five
control characters, four digits for the other ones, and the character itself for all else. -/
def pieceOf (c : Char) : Piece :=
  if c = '"' then .short '"'
  else if c = '\\' then .short '\\'
  else if c = '\x08' then .short 'b'
  else if c = '\x0c' then .short 'f'
  else if c = '\n' then .short 'n'
  else if c = '\r' then .short 'r'
  else if c = '\t' then .short 't'
  else if c.toNat < 32 then .unit '0' '0' (hexDigit (c.toNat / 16)) (hexDigit (c.toNat % 16))
  else .plain c

/-- The ways to write a character: an escape that stands for it, the digits of the code of a control
character, and the character itself. -/
inductive WrittenAs (c : Char) : Piece → Prop
  | short {letter : Char} (h : shortMeaning? letter = some c) : WrittenAs c (.short letter)
  | control (h : c.toNat < 32) :
      WrittenAs c (.unit '0' '0' (hexDigit (c.toNat / 16)) (hexDigit (c.toNat % 16)))
  | plain (h : isPlain c = true) : WrittenAs c (.plain c)

theorem writtenAs_pieceOf (c : Char) : WrittenAs c (pieceOf c) := by
  unfold pieceOf
  split
  · next h => exact .short (by rw [h]; rfl)
  split
  · next h => exact .short (by rw [h]; rfl)
  split
  · next h => exact .short (by rw [h]; rfl)
  split
  · next h => exact .short (by rw [h]; rfl)
  split
  · next h => exact .short (by rw [h]; rfl)
  split
  · next h => exact .short (by rw [h]; rfl)
  split
  · next h => exact .short (by rw [h]; rfl)
  split
  · next h => exact .control h
  · -- what has no escape stands for itself
    next hquote hbackslash _ _ _ _ _ hcontrol =>
    refine .plain ?_
    simp only [isPlain, Bool.and_eq_true, bne_iff_ne, decide_eq_true_eq]
    exact ⟨⟨hquote, hbackslash⟩, Nat.le_of_not_lt hcontrol⟩

/-- The pieces written for a text. -/
def encode (cs : List Char) : List Piece := cs.map pieceOf

theorem hexValue?_hexDigit : ∀ n < 16, hexValue? (hexDigit n) = some n := by decide

/-- The two digits of a number below 256 give it back. -/
theorem meaning?_unit_of_lt {n : Nat} (h : n < 256) :
    (Piece.unit '0' '0' (hexDigit (n / 16)) (hexDigit (n % 16))).meaning? =
      some (.char (Char.ofNat n)) := by
  have hzero : hexValue? '0' = some 0 := by decide
  have hsum : (0 * 16 + 0) * 256 + n / 16 * 16 + n % 16 = n := by omega
  have hunit : Meaning.ofUnit n = .char (Char.ofNat n) := by
    unfold Meaning.ofUnit
    rw [if_neg (by omega), if_neg (by omega)]
  simp only [Piece.meaning?, hzero, hexValue?_hexDigit (n / 16) (by omega),
    hexValue?_hexDigit (n % 16) (by omega), Option.bind_eq_bind, Option.bind_some, hsum, hunit]
  rfl

/-- However a character is written, that stands for it. -/
theorem WrittenAs.meaning? {c : Char} {p : Piece} (h : WrittenAs c p) :
    p.meaning? = some (.char c) := by
  cases h with
  | short h => rw [Piece.meaning?, h, Option.map_some]
  | control h => rw [meaning?_unit_of_lt (by omega), Char.ofNat_toNat]
  | plain h => rfl

@[simp] theorem meaning?_pieceOf (c : Char) : (pieceOf c).meaning? = some (.char c) :=
  (writtenAs_pieceOf c).meaning?

theorem joinPairs_map_char (cs : List Char) : joinPairs (cs.map .char) = some cs := by
  induction cs with
  | nil => rfl
  | cons c rest ih => simp [joinPairs, ih]

/-- **What is written for a text stands for it.** -/
@[simp] theorem decode?_encode (cs : List Char) : decode? (encode cs) = some cs := by
  have h : (encode cs).mapM Piece.meaning? = some (cs.map .char) := by
    induction cs with
    | nil => rfl
    | cons c rest ih =>
      simp only [encode, List.map_cons, List.mapM_cons, meaning?_pieceOf] at ih ⊢
      simp [ih]
  simp [decode?, h, joinPairs_map_char]

/-! ### Numbers -/

/-- How far the reading of a number has come. -/
inductive NumberState where
  /-- Nothing was read. -/
  | start
  /-- The minus sign was read. -/
  | minus
  /-- The whole part is a zero. -/
  | zero
  /-- The whole part is being read. -/
  | whole
  /-- The point was read. -/
  | point
  /-- The fraction is being read. -/
  | fraction
  /-- The mark of the exponent was read. -/
  | mark
  /-- The sign of the exponent was read. -/
  | sign
  /-- The exponent is being read. -/
  | exponent
  deriving DecidableEq

namespace NumberState

/-- One more character of a number. -/
def step (s : NumberState) (c : Char) : Option NumberState :=
  match s with
  | start => if c = '-' then some minus else if c = '0' then some zero else
      if c.isDigit then some whole else none
  | minus => if c = '0' then some zero else if c.isDigit then some whole else none
  | zero => if c = '.' then some point else if c = 'e' ∨ c = 'E' then some mark else none
  | whole => if c.isDigit then some whole else if c = '.' then some point else
      if c = 'e' ∨ c = 'E' then some mark else none
  | point => if c.isDigit then some fraction else none
  | fraction => if c.isDigit then some fraction else
      if c = 'e' ∨ c = 'E' then some mark else none
  | mark => if c = '+' ∨ c = '-' then some sign else if c.isDigit then some exponent else none
  | sign => if c.isDigit then some exponent else none
  | exponent => if c.isDigit then some exponent else none

/-- Whether what was read is a whole number's text. -/
def complete : NumberState → Bool
  | zero | whole | fraction | exponent => true
  | start | minus | point | mark | sign => false

end NumberState

/-- Whether a text has the shape of a number: a minus sign or not, a whole part without leading
zeros, a fraction or not, an exponent or not. -/
def isNumber (text : List Char) : Bool :=
  (text.foldlM NumberState.step .start).any NumberState.complete

end DistanceVector.Json
