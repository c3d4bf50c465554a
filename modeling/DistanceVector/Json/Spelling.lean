import DistanceVector.Json.Tree

/-!
# How tokens and values may be spelled

The same tokens may be written with more or fewer blanks between them.  This module says which
texts spell which tokens, apart from the machine that reads them, and shows that the machine reads
every spelling.

Main definitions:

* `Json.Piece.WellFormed`, `Json.Token.WellFormed`, `Json.WellFormed` — what can be written at all;
* `Json.Spells` — the texts that spell given tokens.

Main results:

* `Json.Token.ofText?_of_spells` — **every spelling is read as the tokens that it spells**;
* `Json.spells_render` — the written form of a value spells its tokens;
* `Json.parse?_render` — **every well-formed value is read back from its written form**.
-/

set_option relaxedAutoImplicit false
set_option autoImplicit false

namespace DistanceVector.Json

/-! ### What can be written -/

/-- A piece is well-formed if it has the characters of its kind. -/
def Piece.WellFormed : Piece → Prop
  | .plain c => isPlain c = true
  | .short letter => (shortMeaning? letter).isSome = true
  | .unit a b c d => isHex a = true ∧ isHex b = true ∧ isHex c = true ∧ isHex d = true

/-- A token is well-formed if its number is one and its pieces are well-formed. -/
def Token.WellFormed : Token → Prop
  | .number text => isNumber text = true
  | .string pieces => ∀ p ∈ pieces, p.WellFormed
  | _ => True

/-- A value is well-formed if all its tokens are. -/
def WellFormed (j : Json) : Prop := ∀ t ∈ j.tokens, t.WellFormed

/-- Whether a token is a word or a number, so that it must not be followed by more of the kind. -/
def Token.isWord : Token → Bool
  | .null | .bool _ | .number _ => true
  | _ => false

/-- A text spells tokens: they stand in it one after the other, with blanks before, between and
after them, and no word or number runs on. -/
inductive Spells : List Token → List Char → Prop where
  /-- Blanks spell no tokens. -/
  | blanks {blanks : List Char} (h : ∀ c ∈ blanks, isBlank c = true) : Spells [] blanks
  /-- Blanks and a token, before what spells the other tokens. -/
  | token {blanks rest : List Char} {t : Token} {ts : List Token}
      (h : ∀ c ∈ blanks, isBlank c = true) (ht : t.WellFormed)
      (hend : t.isWord = true → ∀ c ∈ rest.head?, isBare c = false) (hrest : Spells ts rest) :
      Spells (t :: ts) (blanks ++ (t.text ++ rest))

/-! ### Words and numbers -/

theorem isBare_of_isBlank {c : Char} (h : isBlank c = true) : isBare c = false := by
  simp only [isBlank, Bool.or_eq_true, beq_iff_eq] at h
  rcases h with ((rfl | rfl) | rfl) | rfl <;> decide

/-- A number is made of digits, signs, points and letters. -/
theorem isBare_of_step {s s' : NumberState} {c : Char} (h : s.step c = some s') :
    isBare c = true := by
  have hdigit : c.isDigit = true → isBare c = true := fun hd => by
    simp [isBare, Char.isAlphanum, hd]
  have hminus : isBare '-' = true := by decide
  have hplus : isBare '+' = true := by decide
  have hpoint : isBare '.' = true := by decide
  have hzero : isBare '0' = true := by decide
  have hlower : isBare 'e' = true := by decide
  have hupper : isBare 'E' = true := by decide
  cases s <;> simp only [NumberState.step] at h <;> grind

theorem isBare_of_foldlM {text : List Char} {s s' : NumberState}
    (h : text.foldlM NumberState.step s = some s') : ∀ c ∈ text, isBare c = true := by
  induction text generalizing s with
  | nil => simp
  | cons a rest ih =>
    rw [List.foldlM_cons] at h
    cases hs : s.step a with
    | none => rw [hs] at h; cases h
    | some s₁ =>
      rw [hs] at h
      intro c hc
      rcases List.mem_cons.1 hc with rfl | hc
      · exact isBare_of_step hs
      · exact ih h c hc

theorem isBare_of_isNumber {text : List Char} (h : isNumber text = true) :
    ∀ c ∈ text, isBare c = true := by
  unfold isNumber at h
  cases hs : text.foldlM NumberState.step .start with
  | none => rw [hs] at h; cases h
  | some s => exact isBare_of_foldlM hs

/-- A word or a number is a run of the characters of that kind. -/
theorem Token.isBare_of_mem_text {t : Token} (ht : t.WellFormed) (hword : t.isWord = true) :
    ∀ c ∈ t.text, isBare c = true := by
  cases t with
  | null => exact List.all_eq_true.1 (by decide : Token.null.text.all isBare = true)
  | bool b =>
    cases b with
    | true => exact List.all_eq_true.1 (by decide : (Token.bool true).text.all isBare = true)
    | false => exact List.all_eq_true.1 (by decide : (Token.bool false).text.all isBare = true)
  | number text => exact isBare_of_isNumber ht
  | _ => cases hword

/-- A word or a number is not empty. -/
theorem Token.text_ne_nil {t : Token} (ht : t.WellFormed) (hword : t.isWord = true) :
    t.text ≠ [] := by
  cases t with
  | null => decide
  | bool b => cases b <;> decide
  | number text =>
    rintro rfl
    cases ht
  | _ => cases hword

/-- A word or a number is recognised by its text. -/
theorem bareToken?_text {t : Token} (ht : t.WellFormed) (hword : t.isWord = true) :
    bareToken? t.text = some t := by
  cases t with
  | null => rfl
  | bool b => cases b <;> rfl
  | number text =>
    have hnull : text ≠ Token.null.text := by rintro rfl; cases ht
    have htrue : text ≠ (Token.bool true).text := by rintro rfl; cases ht
    have hfalse : text ≠ (Token.bool false).text := by rintro rfl; cases ht
    have hnumber : isNumber text = true := ht
    simp only [bareToken?, Token.text, hnumber, if_true] at hnull htrue hfalse ⊢
    rw [if_neg hnull, if_neg htrue, if_neg hfalse]
  | _ => cases hword

/-! ### Running the machine -/

namespace Lexer

theorem run_cons {l l' : Lexer} {c : Char} (h : l.step c = some l') (cs : List Char) :
    l.run (c :: cs) = l'.run cs := by
  simp [run, h]

theorem run_append {l l' : Lexer} {cs : List Char} (h : l.run cs = some l') (more : List Char) :
    l.run (cs ++ more) = l'.run more := by
  simp only [run] at h ⊢
  simp [h]

/-- Blanks between tokens change nothing. -/
theorem run_blanks {blanks : List Char} (h : ∀ c ∈ blanks, isBlank c = true) (done : List Token) :
    run ⟨.between, done⟩ blanks = some ⟨.between, done⟩ := by
  induction blanks with
  | nil => rfl
  | cons c rest ih =>
    have hstep : step ⟨.between, done⟩ c = some ⟨.between, done⟩ := by
      simp [step, startToken, h c List.mem_cons_self]
    rw [run_cons hstep]
    exact ih fun x hx => h x (List.mem_cons_of_mem _ hx)

/-- A run of bare characters is collected. -/
theorem run_bare {cs : List Char} (h : ∀ c ∈ cs, isBare c = true) (seen : List Char)
    (done : List Token) : run ⟨.bare seen, done⟩ cs = some ⟨.bare (cs.reverse ++ seen), done⟩ := by
  induction cs generalizing seen with
  | nil => rfl
  | cons c rest ih =>
    have hstep : step ⟨.bare seen, done⟩ c = some ⟨.bare (c :: seen), done⟩ := by
      simp [step, h c List.mem_cons_self]
    rw [run_cons hstep, ih fun x hx => h x (List.mem_cons_of_mem _ hx)]
    simp

/-- A word or a number is collected. -/
theorem run_word {t : Token} (ht : t.WellFormed) (hword : t.isWord = true) (done : List Token) :
    run ⟨.between, done⟩ t.text = some ⟨.bare t.text.reverse, done⟩ := by
  have hbare := t.isBare_of_mem_text ht hword
  cases htext : t.text with
  | nil => exact absurd htext (t.text_ne_nil ht hword)
  | cons c rest =>
    rw [htext] at hbare
    have hc := hbare c List.mem_cons_self
    have hblank : isBlank c = false := by
      cases hb : isBlank c with
      | false => rfl
      | true => rw [isBare_of_isBlank hb] at hc; cases hc
    have hquote : c ≠ '"' := by rintro rfl; cases hc
    have hstep : step ⟨.between, done⟩ c = some ⟨.bare [c], done⟩ := by
      simp [step, startToken, hblank, hquote, hc]
    rw [run_cons hstep, run_bare fun x hx => hbare x (List.mem_cons_of_mem _ hx)]
    simp

/-- After a word or a number that does not run on, the machine goes on as if it had found the
token. -/
theorem finish_run_word {t : Token} (ht : t.WellFormed) (hword : t.isWord = true)
    (done : List Token) {rest : List Char} (hend : ∀ c ∈ rest.head?, isBare c = false) :
    (run ⟨.bare t.text.reverse, done⟩ rest).bind finish =
      (run ⟨.between, t :: done⟩ rest).bind finish := by
  have hfound : endBare ⟨.bare t.text.reverse, done⟩ t.text.reverse =
      some ⟨.between, t :: done⟩ := by
    simp [endBare, bareToken?_text ht hword, push]
  cases rest with
  | nil => simp [run, finish, hfound]
  | cons c rest =>
    have hc : isBare c = false := hend c rfl
    have hstep : step ⟨.bare t.text.reverse, done⟩ c = step ⟨.between, t :: done⟩ c := by
      simp [step, hc, hfound]
    simp only [run, List.foldlM_cons, hstep]

/-- The text of a piece is collected as that piece. -/
theorem run_piece {p : Piece} (hp : p.WellFormed) (seen : List Piece) (done : List Token) :
    run ⟨.inString seen, done⟩ p.text = some ⟨.inString (p :: seen), done⟩ := by
  cases p with
  | plain c =>
    have hc : isPlain c = true := hp
    have hne : c ≠ '"' ∧ c ≠ '\\' := by
      constructor <;> rintro rfl <;> cases hc
    simp [run, Piece.text, step, hne, hc]
  | short letter =>
    have hletter : (shortMeaning? letter).isSome = true := hp
    have hne : letter ≠ 'u' := by rintro rfl; cases hletter
    simp [run, Piece.text, step, hne, hletter]
  | unit a b c d =>
    obtain ⟨ha, hb, hc, hd⟩ := hp
    simp [run, Piece.text, step, unitDigit, ha, hb, hc, hd]

theorem run_pieces {pieces : List Piece} (h : ∀ p ∈ pieces, p.WellFormed) (seen : List Piece)
    (done : List Token) : run ⟨.inString seen, done⟩ (pieces.flatMap Piece.text) =
      some ⟨.inString (pieces.reverse ++ seen), done⟩ := by
  induction pieces generalizing seen with
  | nil => rfl
  | cons p rest ih =>
    rw [List.flatMap_cons, run_append (run_piece (h p List.mem_cons_self) seen done),
      ih fun x hx => h x (List.mem_cons_of_mem _ hx)]
    simp

/-- The text of a token that is no word and no number leads to that token. -/
theorem run_text {t : Token} (ht : t.WellFormed) (hword : t.isWord = false) (done : List Token) :
    run ⟨.between, done⟩ t.text = some ⟨.between, t :: done⟩ := by
  cases t with
  | null => cases hword
  | bool _ => cases hword
  | number _ => cases hword
  | string pieces =>
    have hopen : step ⟨.between, done⟩ '"' = some ⟨.inString [], done⟩ := rfl
    have hclose : step ⟨.inString pieces.reverse, done⟩ '"' =
        some ⟨.between, .string pieces :: done⟩ := by
      simp [step, push]
    rw [Token.text, run_cons hopen, run_append (run_pieces ht [] done), List.append_nil,
      run_cons hclose]
    rfl
  | _ => rfl

end Lexer

/-! ### Reading spellings -/

theorem Lexer.finish_run_of_spells {ts : List Token} {text : List Char} (h : Spells ts text)
    (done : List Token) :
    (Lexer.run ⟨.between, done⟩ text).bind Lexer.finish = some (done.reverse ++ ts) := by
  induction h generalizing done with
  | blanks h => simp [Lexer.run_blanks h, Lexer.finish]
  | @token blanks rest t ts h ht hend _ ih =>
    rw [Lexer.run_append (Lexer.run_blanks h done)]
    cases hword : t.isWord with
    | true =>
      rw [Lexer.run_append (Lexer.run_word ht hword done),
        Lexer.finish_run_word ht hword done (hend hword), ih]
      simp
    | false =>
      rw [Lexer.run_append (Lexer.run_text ht hword done), ih]
      simp

/-- **Every spelling is read as the tokens that it spells.** -/
theorem Token.ofText?_of_spells {ts : List Token} {text : List Char} (h : Spells ts text) :
    Token.ofText? text = some ts :=
  Lexer.finish_run_of_spells h []

/-! ### Written values -/

/-- A text that does not go on with a word or a number. -/
def NoRunOn (text : List Char) : Prop := ∀ c ∈ text.head?, isBare c = false

theorem noRunOn_nil : NoRunOn [] := by simp [NoRunOn]

theorem noRunOn_cons {c : Char} (h : isBare c = false) (rest : List Char) :
    NoRunOn (c :: rest) := by
  simpa [NoRunOn] using h

/-- The empty text spells no tokens. -/
theorem Spells.nil : Spells [] [] := .blanks fun _ h => absurd h List.not_mem_nil

/-- A token before what spells the other ones, without blanks. -/
theorem Spells.cons {t : Token} {ts : List Token} {rest : List Char} (ht : t.WellFormed)
    (hend : NoRunOn rest) (hrest : Spells ts rest) : Spells (t :: ts) (t.text ++ rest) :=
  .token (fun _ h => absurd h List.not_mem_nil) ht (fun _ => hend) hrest

/-- A token that is no word and no number, before what spells the other ones. -/
theorem Spells.cons_mark {t : Token} {ts : List Token} {rest : List Char} (ht : t.WellFormed)
    (hword : t.isWord = false) (hrest : Spells ts rest) : Spells (t :: ts) (t.text ++ rest) :=
  .token (fun _ h => absurd h List.not_mem_nil) ht (fun h => by rw [hword] at h; cases h) hrest

theorem noRunOn_moreItems (items : List Json) {rest : List Char} (h : NoRunOn rest) :
    NoRunOn (textOf (moreItems items) ++ rest) := by
  cases items with
  | nil => simpa [moreItems] using h
  | cons j items =>
    simp only [moreItems, textOf_cons, Token.text, List.cons_append, List.nil_append]
    exact noRunOn_cons (by decide) _

theorem noRunOn_moreMembers (members : List (List Piece × Json)) {rest : List Char}
    (h : NoRunOn rest) : NoRunOn (textOf (moreMembers members) ++ rest) := by
  cases members with
  | nil => simpa [moreMembers] using h
  | cons m members =>
    simp only [moreMembers, textOf_cons, Token.text, List.cons_append, List.nil_append]
    exact noRunOn_cons (by decide) _

mutual

/-- The text of a value's tokens spells them, before what spells other tokens. -/
theorem spells_tokens (j : Json) (hj : ∀ t ∈ j.tokens, t.WellFormed) {ts : List Token}
    {rest : List Char} (hend : NoRunOn rest) (hrest : Spells ts rest) :
    Spells (j.tokens ++ ts) (textOf j.tokens ++ rest) := by
  match j with
  | .null =>
    have ht : Token.null.WellFormed := trivial
    simpa [tokens] using hrest.cons ht hend
  | .bool b =>
    have ht : (Token.bool b).WellFormed := trivial
    simpa [tokens] using hrest.cons ht hend
  | .number text => simpa [tokens] using hrest.cons (hj _ List.mem_cons_self) hend
  | .string pieces => simpa [tokens] using hrest.cons (hj _ List.mem_cons_self) hend
  | .array [] =>
    have hclose : Spells (.closeArray :: ts) (Token.closeArray.text ++ rest) :=
      hrest.cons_mark trivial rfl
    exact hclose.cons_mark trivial rfl
  | .array (j :: items) =>
    simp only [tokens, List.forall_mem_cons, List.forall_mem_append] at hj
    simp only [tokens, List.cons_append, List.append_assoc, textOf_cons, textOf_append,
      textOf_nil, List.nil_append]
    have hclose : Spells (.closeArray :: ts) (Token.closeArray.text ++ rest) :=
      hrest.cons_mark trivial rfl
    have hmore := spells_moreItems items hj.2.2.1 (noRunOn_cons rfl _) hclose
    have hhead := noRunOn_moreItems items (noRunOn_cons rfl _ : NoRunOn (']' :: rest))
    exact (spells_tokens j hj.2.1 hhead hmore).cons_mark trivial rfl
  | .object [] =>
    have hclose : Spells (.closeObject :: ts) (Token.closeObject.text ++ rest) :=
      hrest.cons_mark trivial rfl
    exact hclose.cons_mark trivial rfl
  | .object ((name, j) :: members) =>
    simp only [tokens, List.forall_mem_cons, List.forall_mem_append] at hj
    simp only [tokens, List.cons_append, List.append_assoc, textOf_cons, textOf_append,
      textOf_nil, List.nil_append]
    have hclose : Spells (.closeObject :: ts) (Token.closeObject.text ++ rest) :=
      hrest.cons_mark trivial rfl
    have hmore := spells_moreMembers members hj.2.2.2.2.1 (noRunOn_cons rfl _) hclose
    have hhead := noRunOn_moreMembers members (noRunOn_cons rfl _ : NoRunOn ('\x7d' :: rest))
    have hvalue := spells_tokens j hj.2.2.2.1 hhead hmore
    exact ((hvalue.cons_mark hj.2.2.1 rfl).cons_mark hj.2.1 rfl).cons_mark trivial rfl

/-- The text of further items spells their tokens. -/
theorem spells_moreItems (items : List Json) (h : ∀ t ∈ moreItems items, t.WellFormed)
    {ts : List Token} {rest : List Char} (hend : NoRunOn rest) (hrest : Spells ts rest) :
    Spells (moreItems items ++ ts) (textOf (moreItems items) ++ rest) := by
  match items with
  | [] => exact hrest
  | j :: items =>
    simp only [moreItems, List.forall_mem_cons, List.forall_mem_append] at h
    simp only [moreItems, List.cons_append, List.append_assoc, textOf_cons, textOf_append]
    have hmore := spells_moreItems items h.2.2 hend hrest
    exact (spells_tokens j h.2.1 (noRunOn_moreItems items hend) hmore).cons_mark trivial rfl

/-- The text of further members spells their tokens. -/
theorem spells_moreMembers (members : List (List Piece × Json))
    (h : ∀ t ∈ moreMembers members, t.WellFormed) {ts : List Token} {rest : List Char}
    (hend : NoRunOn rest) (hrest : Spells ts rest) :
    Spells (moreMembers members ++ ts) (textOf (moreMembers members) ++ rest) := by
  match members with
  | [] => exact hrest
  | (name, j) :: members =>
    simp only [moreMembers, List.forall_mem_cons, List.forall_mem_append] at h
    simp only [moreMembers, List.cons_append, List.append_assoc, textOf_cons, textOf_append]
    have hmore := spells_moreMembers members h.2.2.2.2 hend hrest
    have hvalue := spells_tokens j h.2.2.2.1 (noRunOn_moreMembers members hend) hmore
    exact ((hvalue.cons_mark h.2.2.1 rfl).cons_mark h.2.1 rfl).cons_mark trivial rfl

end

/-- **The written form of a well-formed value spells its tokens.** -/
theorem spells_render {j : Json} (hj : j.WellFormed) : Spells j.tokens j.render.toList := by
  have h := spells_tokens j hj noRunOn_nil .nil
  rw [List.append_nil, List.append_nil] at h
  simpa [render] using h

/-- **Every text that spells a value's tokens is read as that value.** -/
theorem parse?_of_spells {j : Json} {text : String} (h : Spells j.tokens text.toList) :
    parse? text = some j := by
  simp [parse?, Token.ofText?_of_spells h]

/-- **Every well-formed value is read back from its written form.** -/
theorem parse?_render {j : Json} (hj : j.WellFormed) : parse? j.render = some j :=
  parse?_of_spells (spells_render hj)

end DistanceVector.Json
