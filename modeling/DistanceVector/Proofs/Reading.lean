import DistanceVector.Json.Spelling

/-!
# Only what is written is read

A text is read in two passes, and neither is lenient.  The tokens that are found in a text are
those that it spells, and the value that is found in tokens is the one that is written with them.
Both are shown by what the machine has read already: for the one that finds tokens, how the text
it is in the middle of goes on; for the one that finds a value, the tokens of its open containers.

Main definitions:

* `Json.Mode.text`, `Json.Lexer.Explains` — the text read of an unfinished token, and what the
  tokens found in the end say of the text to come;
* `Json.Parser.history` — the tokens that lead to where the machine is.

Main results:

* `Json.Token.ofText?_eq_some_iff` — **a text has exactly the tokens that it spells**;
* `Json.ofTokens?_eq_some_iff` — **tokens give exactly the value that is written with them**;
* `Json.parse?_eq_some_iff` — **a text is read as a value exactly if it spells its tokens**.
-/

set_option relaxedAutoImplicit false
set_option autoImplicit false

namespace DistanceVector.Json

/-! ### Single tokens -/

/-- A punctuation character is all that there is of its token. -/
theorem text_of_punctuation? {c : Char} {t : Token} (h : punctuation? c = some t) :
    t.text = [c] ∧ t.WellFormed ∧ t.isWord = false := by
  unfold punctuation? at h
  split at h <;> cases h <;> exact ⟨rfl, trivial, rfl⟩

/-- A run of bare characters is the text of the token that it is recognised as. -/
theorem text_of_bareToken? {text : List Char} {t : Token} (h : bareToken? text = some t) :
    t.text = text ∧ t.WellFormed := by
  unfold bareToken? at h
  split at h
  · next heq => cases h; exact ⟨heq.symm, trivial⟩
  split at h
  · next heq => cases h; exact ⟨heq.symm, trivial⟩
  split at h
  · next heq => cases h; exact ⟨heq.symm, trivial⟩
  split at h
  · next hnumber => cases h; exact ⟨rfl, hnumber⟩
  · cases h

/-- One more blank in front changes nothing. -/
theorem Spells.blank {ts : List Token} {text : List Char} {c : Char} (hc : isBlank c = true)
    (h : Spells ts text) : Spells ts (c :: text) := by
  cases h with
  | blanks hblanks => exact .blanks (List.forall_mem_cons.2 ⟨hc, hblanks⟩)
  | @token blanks rest t ts hblanks ht hend hrest =>
    have hmore : ∀ x ∈ c :: blanks, isBlank x = true := List.forall_mem_cons.2 ⟨hc, hblanks⟩
    exact .token hmore ht hend hrest

/-! ### The machine that finds tokens -/

/-- The text that was read of an unfinished token. -/
def Mode.text : Mode → List Char
  | .between => []
  | .bare seen => seen.reverse
  | .inString seen => '"' :: seen.reverse.flatMap Piece.text
  | .escape seen => '"' :: (seen.reverse.flatMap Piece.text ++ ['\\'])
  | .unit seen digits =>
    '"' :: (seen.reverse.flatMap Piece.text ++ '\\' :: 'u' :: digits.reverse)

/-- An unfinished token is well-formed as far as it was read. -/
def Mode.WellFormed : Mode → Prop
  | .between | .bare _ => True
  | .inString seen | .escape seen => ∀ p ∈ seen, p.WellFormed
  | .unit seen digits =>
    (∀ p ∈ seen, p.WellFormed) ∧ (∀ c ∈ digits, isHex c = true) ∧ digits.length < 4

namespace Lexer

variable {l l' : Lexer} {c : Char}

/-- The tokens found in the end are explained by the text to come: it spells those that were not
found yet, if what was read of the first one is put before it. -/
def Explains (l : Lexer) (found : List Token) (text : List Char) : Prop :=
  ∃ ts, found = l.tokens.reverse ++ ts ∧ Spells ts (l.mode.text ++ text)

/-- A character that goes on with the unfinished token is itself part of what explains it. -/
theorem Explains.longer {mode mode' : Mode} {done found : List Token} {text : List Char}
    (hmode : mode'.text = mode.text ++ [c]) (h : Explains ⟨mode', done⟩ found text) :
    Explains ⟨mode, done⟩ found (c :: text) := by
  obtain ⟨ts, hfound, hts⟩ := h
  refine ⟨ts, hfound, ?_⟩
  simpa [hmode] using hts

/-- A token that was found is the first one of those that explain what was found in the end. -/
theorem Explains.of_push {t : Token} {found : List Token} {text rest : List Char}
    (h : (l.push t).Explains found rest)
    (hspells : ∀ ts, Spells ts rest → Spells (t :: ts) (l.mode.text ++ text)) :
    l.Explains found text := by
  obtain ⟨ts, hfound, hts⟩ := h
  exact ⟨t :: ts, by simpa [push] using hfound, hspells ts hts⟩

/-- What explains the tokens after a character that starts something does so before it. -/
theorem explains_of_startToken (h : l.startToken c = some l') (found : List Token)
    (text : List Char) : l'.mode.WellFormed ∧
      (l'.Explains found text → Explains { l with mode := .between } found (c :: text)) := by
  unfold startToken at h
  split at h
  · next hblank =>
    cases h
    exact ⟨trivial, fun ⟨ts, hfound, hts⟩ => ⟨ts, hfound, hts.blank hblank⟩⟩
  split at h
  · next hquote =>
    cases h
    subst hquote
    exact ⟨fun p hp => absurd hp List.not_mem_nil, .longer rfl⟩
  split at h
  · cases h
    exact ⟨trivial, .longer rfl⟩
  · obtain ⟨t, ht, rfl⟩ := Option.map_eq_some_iff.1 h
    obtain ⟨htext, hwf, hword⟩ := text_of_punctuation? ht
    refine ⟨trivial, fun hl' => Explains.of_push (l := { l with mode := .between }) hl'
      fun ts hts => ?_⟩
    have hmark := hts.cons_mark hwf hword
    rw [htext] at hmark
    exact hmark

/-- The end of a word or a number is the end of a token whose text was read. -/
theorem push_of_endBare {seen : List Char} (h : l.endBare seen = some l') :
    ∃ t, l' = l.push t ∧ t.text = seen.reverse ∧ t.WellFormed := by
  obtain ⟨t, ht, rfl⟩ := Option.map_eq_some_iff.1 h
  exact ⟨t, rfl, text_of_bareToken? ht⟩

/-- What explains the tokens after one more digit of a code unit does so before it. -/
theorem explains_of_unitDigit {seen : List Piece} {digits : List Char} {done : List Token}
    (hmode : (Mode.unit seen digits).WellFormed)
    (h : unitDigit ⟨.unit seen digits, done⟩ seen digits c = some l') (found : List Token)
    (text : List Char) : l'.mode.WellFormed ∧
      (l'.Explains found text → Explains ⟨.unit seen digits, done⟩ found (c :: text)) := by
  obtain ⟨hseen, hdigits, hlength⟩ := hmode
  unfold unitDigit at h
  split at h
  · cases h
  · next hhex =>
    have hhex : isHex c = true := by simpa using hhex
    split at h
    · next z y x =>
      -- the fourth digit completes the piece
      cases h
      simp only [List.forall_mem_cons] at hdigits
      refine ⟨List.forall_mem_cons.2 ⟨⟨hdigits.2.2.1, hdigits.2.1, hdigits.1, hhex⟩, hseen⟩,
        .longer ?_⟩
      simp [Mode.text, Piece.text]
    · next hmore =>
      cases h
      have hne : digits.length ≠ 3 := by
        intro hthree
        obtain _ | ⟨z, _ | ⟨y, _ | ⟨x, rest⟩⟩⟩ := digits
        · cases hthree
        · cases hthree
        · cases hthree
        · obtain rfl : rest = [] := by simpa using hthree
          exact hmore z y x rfl
      refine ⟨⟨hseen, List.forall_mem_cons.2 ⟨hhex, hdigits⟩, ?_⟩, .longer ?_⟩
      · rw [List.length_cons]
        omega
      · simp [Mode.text]

/-- **One character**: what explains the tokens after it does so before it. -/
theorem explains_of_step (hl : l.mode.WellFormed) (h : l.step c = some l') (found : List Token)
    (text : List Char) :
    l'.mode.WellFormed ∧ (l'.Explains found text → l.Explains found (c :: text)) := by
  obtain ⟨mode, done⟩ := l
  cases mode with
  | between => exact explains_of_startToken h found text
  | bare seen =>
    simp only [step] at h
    split at h
    · cases h
      exact ⟨trivial, .longer (by simp [Mode.text])⟩
    · next hbare =>
      -- the character ends a word or a number and starts something else
      obtain ⟨ended, hended, hstart⟩ := Option.bind_eq_some_iff.1 h
      obtain ⟨t, rfl, htext, hwf⟩ := push_of_endBare hended
      obtain ⟨hmode, hexplains⟩ := explains_of_startToken hstart found text
      refine ⟨hmode, fun hl' => (hexplains hl').of_push fun ts hts => ?_⟩
      have hword := hts.cons hwf (noRunOn_cons (Bool.not_eq_true _ ▸ hbare) text)
      rw [htext] at hword
      exact hword
  | inString seen =>
    simp only [step] at h
    split at h
    · next hquote =>
      cases h
      subst hquote
      refine ⟨trivial, fun hl' => hl'.of_push fun ts hts => ?_⟩
      have hstring : (Token.string seen.reverse).WellFormed := fun p hp =>
        hl p (List.mem_reverse.1 hp)
      simpa [Mode.text, Token.text, push] using hts.cons_mark hstring rfl
    split at h
    · next hbackslash =>
      cases h
      subst hbackslash
      exact ⟨hl, .longer (by simp [Mode.text])⟩
    split at h
    · next hplain =>
      cases h
      exact ⟨List.forall_mem_cons.2 ⟨hplain, hl⟩, .longer (by simp [Mode.text, Piece.text])⟩
    · cases h
  | escape seen =>
    simp only [step] at h
    split at h
    · next hu =>
      cases h
      subst hu
      exact ⟨⟨hl, fun x hx => absurd hx List.not_mem_nil, by decide⟩,
        .longer (by simp [Mode.text])⟩
    split at h
    · next hshort =>
      cases h
      exact ⟨List.forall_mem_cons.2 ⟨hshort, hl⟩, .longer (by simp [Mode.text, Piece.text])⟩
    · cases h
  | unit seen digits => exact explains_of_unitDigit hl h found text

/-- **All characters**: the tokens that are found in the end are explained. -/
theorem explains_of_finish (hl : l.mode.WellFormed) {found : List Token} {text : List Char}
    (h : (l.run text).bind finish = some found) : l.Explains found text := by
  induction text generalizing l with
  | nil =>
    obtain ⟨mode, done⟩ := l
    cases mode with
    | between =>
      cases h
      exact ⟨[], by simp, .nil⟩
    | bare seen =>
      obtain ⟨ended, hended, rfl⟩ := Option.map_eq_some_iff.1 h
      obtain ⟨t, rfl, htext, hwf⟩ := push_of_endBare hended
      have hword := Spells.nil.cons hwf noRunOn_nil
      rw [htext] at hword
      exact ⟨[t], by simp [push], hword⟩
    | _ => cases h
  | cons c rest ih =>
    cases hstep : l.step c with
    | none => simp [run, hstep] at h
    | some l' =>
      rw [run_cons hstep] at h
      obtain ⟨hl', hexplains⟩ := explains_of_step hl hstep found rest
      exact hexplains (ih hl' h)

end Lexer

/-- **A text has exactly the tokens that it spells.** -/
theorem Token.ofText?_eq_some_iff {text : List Char} {ts : List Token} :
    Token.ofText? text = some ts ↔ Spells ts text := by
  refine ⟨fun h => ?_, Token.ofText?_of_spells⟩
  obtain ⟨found, rfl, hspells⟩ := Lexer.explains_of_finish (l := {}) trivial h
  exact hspells

/-! ### The machine that finds a value -/

/-- The tokens of items that another one follows. -/
def itemsBefore (items : List Json) : List Token := items.flatMap fun j => j.tokens ++ [.comma]

/-- The tokens of members that another one follows. -/
def membersBefore (members : List (List Piece × Json)) : List Token :=
  members.flatMap fun m => .string m.1 :: .colon :: (m.2.tokens ++ [.comma])

/-- The commas of an array may be counted to the items before them. -/
theorem tokens_append_moreItems (j : Json) (items : List Json) (last : Json) :
    j.tokens ++ moreItems (items ++ [last]) = itemsBefore (j :: items) ++ last.tokens := by
  induction items generalizing j with
  | nil => simp [moreItems, itemsBefore]
  | cons k rest ih =>
    rw [List.cons_append, moreItems, ih k]
    simp [itemsBefore]

theorem tokens_array_append (items : List Json) (last : Json) :
    (Json.array (items ++ [last])).tokens =
      .openArray :: (itemsBefore items ++ (last.tokens ++ [.closeArray])) := by
  cases items with
  | nil => simp [tokens, moreItems, itemsBefore]
  | cons j rest =>
    rw [List.cons_append, tokens, ← List.append_assoc, tokens_append_moreItems]
    simp

/-- The commas of an object may be counted to the members before them. -/
theorem tokens_append_moreMembers (m : List Piece × Json) (members : List (List Piece × Json))
    (last : List Piece × Json) :
    m.2.tokens ++ moreMembers (members ++ [last]) =
      m.2.tokens ++ .comma :: (membersBefore members ++ .string last.1 :: .colon ::
        last.2.tokens) := by
  induction members generalizing m with
  | nil => simp [moreMembers, membersBefore]
  | cons k rest ih =>
    rw [List.cons_append, moreMembers, ih k]
    simp [membersBefore]

theorem tokens_object_append (members : List (List Piece × Json)) (last : List Piece × Json) :
    (Json.object (members ++ [last])).tokens = .openObject :: (membersBefore members ++
      .string last.1 :: .colon :: (last.2.tokens ++ [.closeObject])) := by
  cases members with
  | nil => simp [tokens, moreMembers, membersBefore]
  | cons m rest =>
    rw [List.cons_append, tokens, ← List.append_assoc, tokens_append_moreMembers]
    simp [membersBefore]

/-- The tokens of an open container, up to where the next item or value is due. -/
def Frame.opening : Frame → List Token
  | .items done => .openArray :: itemsBefore done.reverse
  | .member done name => .openObject :: (membersBefore done.reverse ++ [.string name, .colon])

namespace Parser

/-- The tokens of the open containers, the outermost first. -/
def openings (stack : List Frame) : List Token := stack.reverse.flatMap Frame.opening

@[simp] theorem openings_cons (frame : Frame) (stack : List Frame) :
    openings (frame :: stack) = openings stack ++ frame.opening := by
  simp [openings]

/-- The tokens that lead to where the machine is. -/
def history : Parser → List Token
  | .value stack => openings stack
  | .key done stack => openings stack ++ .openObject :: membersBefore done.reverse
  | .colon done name stack =>
    openings stack ++ .openObject :: (membersBefore done.reverse ++ [.string name])
  | .after j stack => openings stack ++ j.tokens

/-- **One token**: it is the last of those that lead to where the machine is then. -/
theorem history_of_step {p q : Parser} {t : Token} (h : p.step t = some q) :
    q.history = p.history ++ [t] := by
  unfold step at h
  split at h
  -- a value of one token
  · cases h; rfl
  · cases h; rfl
  · cases h; rfl
  · cases h; rfl
  -- an array or an object is opened, and an array closed at once
  · cases h; simp [history, Frame.opening, itemsBefore]
  · cases h; simp [history, membersBefore]
  · cases h; simp [history, Frame.opening, itemsBefore, tokens]
  -- a key, or an object closed at once; the colon
  · cases h; simp [history]
  · cases h; simp [history, membersBefore, tokens]
  · cases h; simp [history, Frame.opening]
  -- an item is followed by another one, or was the last
  · cases h; simp [history, Frame.opening, itemsBefore]
  · cases h; simp [history, Frame.opening, tokens_array_append]
  -- a member is followed by another one, or was the last
  · cases h; simp [history, Frame.opening, membersBefore]
  · cases h; simp [history, Frame.opening, tokens_object_append]
  · cases h

/-- **All tokens**: they are those that lead to where the machine is in the end. -/
theorem history_of_run {p q : Parser} {ts : List Token} (h : p.run ts = some q) :
    q.history = p.history ++ ts := by
  induction ts generalizing p with
  | nil =>
    cases h
    simp
  | cons t rest ih =>
    cases hstep : p.step t with
    | none => simp [run, hstep] at h
    | some next =>
      rw [run_cons hstep] at h
      rw [ih h, history_of_step hstep]
      simp

end Parser

/-- **Tokens give exactly the value that is written with them.** -/
theorem ofTokens?_eq_some_iff {ts : List Token} {j : Json} :
    ofTokens? ts = some j ↔ ts = j.tokens := by
  refine ⟨fun h => ?_, fun h => h ▸ ofTokens?_tokens j⟩
  obtain ⟨last, hrun, hfinish⟩ := Option.bind_eq_some_iff.1 h
  have hlast : last = .after j [] := by
    unfold Parser.finish at hfinish
    split at hfinish
    · cases hfinish; rfl
    · cases hfinish
  subst hlast
  have hhistory := Parser.history_of_run hrun
  simpa [Parser.history, Parser.openings] using hhistory.symm

/-- **A text is read as a value exactly if it spells its tokens.** -/
theorem parse?_eq_some_iff {text : String} {j : Json} :
    parse? text = some j ↔ Spells j.tokens text.toList := by
  simp [parse?, Option.bind_eq_some_iff, Token.ofText?_eq_some_iff, ofTokens?_eq_some_iff]

/-- A text that spells no value is not read. -/
theorem parse?_eq_none_iff {text : String} :
    parse? text = none ↔ ∀ j : Json, ¬ Spells j.tokens text.toList := by
  simp [Option.eq_none_iff_forall_ne_some, parse?_eq_some_iff]

end DistanceVector.Json
