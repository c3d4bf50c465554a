import DistanceVector.Encoding.Params
import DistanceVector.Proofs.Reading

/-!
# What parameter documents mean

A parameter document is an object that states some of the settings, in any order and among members
with other names, or an array that states the first settings in their order.  How it is spelled
does not matter: there may be blanks between its tokens, names may be written with escapes, and a
member with another name may hold any value at all.  The document means the settings that it
states, and the usual values of the others; whether these make sense is judged when they have been
put together.

Main definitions:

* `Params.Setting` — a setting, with its name and the JSON form of its value;
* `Params.States` — the members of an object state parameters in some settings;
* `Params.only` — the parameters that are as given in some settings and usual in the others;
* `Params.FailsWith`, `Params.Verdict` — the texts of an error, and what becomes of parameters that
  were read.

Main results:

* `Params.record?_of_states`, `Params.record?_of_first` — an object and an array give the settings
  that they state;
* `Params.ofForm?_of_given` — the others have their usual values;
* `Params.documents_mean_settings` — **documents mean the settings that they state**.
-/

set_option relaxedAutoImplicit false
set_option autoImplicit false

namespace DistanceVector.Params

open Json

/-! ### Settings -/

/-- A setting. -/
inductive Setting where
  | maxRoutes
  | timeoutDelay
  | gcDelay
  | staleDelay
  | dropDelay
  | refreshMargin
  | kernelBias
  | kernelInfinity
  deriving DecidableEq

namespace Setting

/-- The settings, in the order in which they are written. -/
def all : List Setting :=
  [.maxRoutes, .timeoutDelay, .gcDelay, .staleDelay, .dropDelay, .refreshMargin, .kernelBias,
    .kernelInfinity]

/-- The name of a setting in a document. -/
def name : Setting → String
  | .maxRoutes => "max_routes"
  | .timeoutDelay => "route_timeout_delay"
  | .gcDelay => "route_gc_delay"
  | .staleDelay => "source_stale_delay"
  | .dropDelay => "route_drop_delay"
  | .refreshMargin => "route_refresh_margin"
  | .kernelBias => "kernel_metric"
  | .kernelInfinity => "kernel_infinity"

/-- The JSON form of the value that parameters have in a setting. -/
def form (p : Params) : Setting → Json
  | .maxRoutes => toJson p.maxRoutes
  | .timeoutDelay => toJson p.timeoutDelay
  | .gcDelay => toJson p.gcDelay
  | .staleDelay => toJson p.staleDelay
  | .dropDelay => toJson p.dropDelay
  | .refreshMargin => toJson p.refreshMargin
  | .kernelBias => toJson p.kernelBias
  | .kernelInfinity => toJson p.kernelInfinity

theorem map_name_all : all.map name = fieldNames := rfl

theorem nodup_all : all.Nodup := by decide

theorem mem_all (s : Setting) : s ∈ all := by
  cases s <;> decide

theorem name_mem_fieldNames (s : Setting) : s.name ∈ fieldNames :=
  map_name_all ▸ List.mem_map_of_mem s.mem_all

theorem name_injective {s t : Setting} (h : s.name = t.name) : s = t := by
  have hall : ∀ s ∈ all, ∀ t ∈ all, s.name = t.name → s = t := by decide
  exact hall s s.mem_all t t.mem_all h

end Setting

variable {p q : Params} {F G : List Setting} {members : List (List Piece × Json)} {text : String}

/-- The parameters that are as given in some settings and as usual in the others. -/
def only (p : Params) (F : List Setting) : Params :=
  let usual : Params := {}
  { maxRoutes := if .maxRoutes ∈ F then p.maxRoutes else usual.maxRoutes
    timeoutDelay := if .timeoutDelay ∈ F then p.timeoutDelay else usual.timeoutDelay
    gcDelay := if .gcDelay ∈ F then p.gcDelay else usual.gcDelay
    staleDelay := if .staleDelay ∈ F then p.staleDelay else usual.staleDelay
    dropDelay := if .dropDelay ∈ F then p.dropDelay else usual.dropDelay
    refreshMargin := if .refreshMargin ∈ F then p.refreshMargin else usual.refreshMargin
    kernelBias := if .kernelBias ∈ F then p.kernelBias else usual.kernelBias
    kernelInfinity := if .kernelInfinity ∈ F then p.kernelInfinity else usual.kernelInfinity }

/-- The order of the settings does not matter. -/
theorem only_congr (h : ∀ s, s ∈ F ↔ s ∈ G) : p.only F = p.only G := by
  simp only [only, h]

/-- What is given of parameters if only some settings are. -/
def given (p : Params) (F : List Setting) : List (Option Json) :=
  Setting.all.map fun s => if s ∈ F then some (s.form p) else none

/-- A setting that may be left out has the given value, or else the usual one. -/
theorem setting?_ite {α : Type} [Coded α] [LawfulCoded α] (c : Prop) [Decidable c]
    (usual value : α) :
    setting? usual (if c then some (toJson value) else none) =
      some (if c then value else usual) := by
  split <;> simp [setting?]

/-- **A form that gives some settings has the usual values of the others.** -/
theorem ofForm?_of_given {j : Json} (h : j.record? fieldNames = some (p.given F)) :
    ofForm? j = some (p.only F) := by
  simp only [ofForm?, h, given, Setting.all, List.map_cons, List.map_nil, Setting.form,
    setting?_ite, Option.bind_eq_bind, Option.bind_some]
  rfl

/-! ### Objects -/

/-- The members of an object state parameters in the given settings, in their order; there may be
members with other names between them. -/
inductive States (p : Params) : List Setting → List (List Piece × Json) → Prop where
  | nothing : States p [] []
  /-- A setting with its value, its name written with or without escapes. -/
  | setting {F : List Setting} {members : List (List Piece × Json)} {key : List Piece}
      (s : Setting) (hkey : decode? key = some s.name.toList) (hrest : States p F members) :
      States p (s :: F) ((key, s.form p) :: members)
  /-- Any value under another name. -/
  | other {F : List Setting} {members : List (List Piece × Json)} {key : List Piece}
      (name : String) (j : Json) (hkey : decode? key = some name.toList)
      (hname : name ∉ fieldNames) (hrest : States p F members) :
      States p F ((key, j) :: members)

/-- Of the members with their names, those that are known are the stated settings. -/
theorem States.exists_named? (h : States p F members) : ∃ fields, named? members = some fields ∧
    fields.filter (fun m => fieldNames.contains m.1) = F.map fun s => (s.name, s.form p) := by
  induction h with
  | nothing => exact ⟨[], rfl, rfl⟩
  | setting s hkey _ ih =>
    obtain ⟨fields, hnamed, hknown⟩ := ih
    refine ⟨(s.name, s.form p) :: fields, by rw [named?_cons hkey, hnamed]; rfl, ?_⟩
    rw [List.filter_cons_of_pos (by simpa using s.name_mem_fieldNames), hknown, List.map_cons]
  | other name j hkey hname _ ih =>
    obtain ⟨fields, hnamed, hknown⟩ := ih
    refine ⟨(name, j) :: fields, by rw [named?_cons hkey, hnamed]; rfl, ?_⟩
    rw [List.filter_cons_of_neg (by simpa using hname), hknown]

/-- Among stated settings one is found by its name. -/
theorem lookup_stated (p : Params) (F : List Setting) (t : Setting) :
    (F.map fun s => (s.name, s.form p)).lookup t.name =
      if t ∈ F then some (t.form p) else none := by
  induction F with
  | nil => rfl
  | cons s rest ih =>
    rw [List.map_cons, List.lookup_cons]
    by_cases hst : t = s
    · subst hst
      simp
    · have hne : (t.name == s.name) = false := beq_false_of_ne fun h =>
        hst (Setting.name_injective h)
      rw [hne, ih]
      simp [hst]

/-- **An object gives the settings that it states**, whatever else it holds. -/
theorem record?_of_states (hF : F.Nodup) (h : States p F members) :
    (Json.object members).record? fieldNames = some (p.given F) := by
  obtain ⟨fields, hnamed, hknown⟩ := h.exists_named?
  have hnodup : (F.map Setting.name).Nodup :=
    List.Pairwise.map _ (fun _ _ hne heq => hne (Setting.name_injective heq)) hF
  have hnames : (F.map fun s => (s.name, s.form p)).map (·.1) = F.map Setting.name := by
    rw [List.map_map]
    rfl
  rw [record?, hnamed, Option.bind_some, select?]
  simp only [hknown, hnames, hnodup, if_true]
  rw [← Setting.map_name_all, List.map_map]
  exact congrArg some (List.map_congr_left fun t _ => lookup_stated p F t)

/-- A setting occurs twice among the members of an object, with whatever values. -/
def Setting.Twice (s : Setting) (members : List (List Piece × Json)) : Prop :=
  ∃ first second : List Piece × Json, decode? first.1 = some s.name.toList ∧
    decode? second.1 = some s.name.toList ∧ [first, second].Sublist members

/-! ### Arrays -/

/-- What is given of the first settings is given in their order, and nothing of the last ones. -/
theorem given_take (p : Params) (k : Nat) :
    p.given (Setting.all.take k) =
      ((Setting.all.take k).map (Setting.form p)).map some ++
        List.replicate (Setting.all.length - k) none := by
  have hsplit := List.take_append_drop k Setting.all
  have hnodup := Setting.nodup_all
  rw [← hsplit, List.nodup_append] at hnodup
  have hfirst : (Setting.all.take k).map (fun s =>
      if s ∈ Setting.all.take k then some (s.form p) else none) =
        ((Setting.all.take k).map (Setting.form p)).map some := by
    rw [List.map_map]
    exact List.map_congr_left fun s hs => if_pos hs
  have hlast : (Setting.all.drop k).map (fun s =>
      if s ∈ Setting.all.take k then some (s.form p) else none) =
        List.replicate (Setting.all.length - k) none := by
    rw [← List.length_drop, ← List.map_const']
    exact List.map_congr_left fun s hs => if_neg fun htake => hnodup.2.2 s htake s hs rfl
  rw [given, ← hfirst, ← hlast, ← List.map_append, hsplit]

/-- **An array gives the settings that it states**, which are the first ones. -/
theorem record?_of_first {k : Nat} (hk : k ≤ 8) :
    (Json.array ((Setting.all.take k).map (Setting.form p))).record? fieldNames =
      some (p.given (Setting.all.take k)) := by
  have hlength : ((Setting.all.take k).map (Setting.form p)).length = k := by
    rw [List.length_map, List.length_take]
    exact Nat.min_eq_left hk
  have hnames : fieldNames.length = Setting.all.length := rfl
  rw [record?, hlength, if_pos (by exact hk), given_take, hnames]

/-! ### Outcomes -/

/-- An outcome is an error with these texts: its own, and the one of the defect behind it if there
is one. -/
def FailsWith (outcome : Except DocumentError Params) (message : String) (cause : Option String) :
    Prop :=
  ∃ e, outcome = .error e ∧ e.message = message ∧ e.defect?.map Defect.message = cause

/-- What becomes of parameters that were read: they are accepted exactly if they meet all three
conditions, and else the error names the first one that they do not meet. -/
structure Verdict (q : Params) (outcome : Except DocumentError Params) : Prop where
  accepted_iff : outcome = .ok q ↔
    0 < q.maxRoutes ∧ q.timeoutDelay ≤ q.gcDelay ∧ 0 < q.kernelInfinity
  noRoutes : q.maxRoutes = 0 →
    FailsWith outcome "Invalid protocol parameters" (some "max_routes must be at least 1")
  gcBeforeTimeout : 0 < q.maxRoutes → q.gcDelay < q.timeoutDelay →
    FailsWith outcome "Invalid protocol parameters"
      (some ("route_gc_delay (" ++ q.gcDelay.toNat.repr ++
        ") is shorter than route_timeout_delay (" ++ q.timeoutDelay.toNat.repr ++ ")"))
  zeroInfinity : 0 < q.maxRoutes → q.timeoutDelay ≤ q.gcDelay → q.kernelInfinity = 0 →
    FailsWith outcome "Invalid protocol parameters" (some "kernel_infinity must be non-zero")

theorem ofDocument_of_defect {d : Defect} (h : read? text = some q) (hd : q.defect? = some d) :
    ofDocument text = .error (.defective d) := by
  simp only [ofDocument, h, hd]

theorem ofDocument_of_no_defect (h : read? text = some q) (hd : q.defect? = none) :
    ofDocument text = .ok q := by
  simp only [ofDocument, h, hd]

/-- **Parameters that were read are judged as they are.** -/
theorem verdict_of_read? (h : read? text = some q) : Verdict q (ofDocument text) where
  accepted_iff := by
    rw [UInt64.pos_iff_ne_zero, UInt32.pos_iff_ne_zero, ← defect?_eq_none_iff]
    cases hd : q.defect? with
    | none => simp [ofDocument_of_no_defect h hd]
    | some d => simp [ofDocument_of_defect h hd]
  noRoutes hzero := by
    have hd : q.defect? = some .noRoutes := by simp [defect?, hzero]
    exact ⟨_, ofDocument_of_defect h hd, rfl, rfl⟩
  gcBeforeTimeout hroutes hlt := by
    have hd : q.defect? = some (.gcBeforeTimeout q.gcDelay q.timeoutDelay) := by
      simp [defect?, UInt64.pos_iff_ne_zero.1 hroutes, hlt]
    exact ⟨_, ofDocument_of_defect h hd, rfl, rfl⟩
  zeroInfinity hroutes hle hzero := by
    have hd : q.defect? = some .zeroInfinity := by
      simp [defect?, UInt64.pos_iff_ne_zero.1 hroutes, UInt64.not_lt.2 hle, hzero]
    exact ⟨_, ofDocument_of_defect h hd, rfl, rfl⟩

/-- What gives no parameters cannot be read. -/
theorem failsWith_of_read? (h : (read? text : Option Params) = none) :
    FailsWith (ofDocument text) "Failed to parse protocol parameters" none :=
  ⟨.unreadable, by simp only [ofDocument, h], rfl, rfl⟩

/-! ### Documents -/

/-- What a text spells is the form that is read from it. -/
theorem read?_of_spells {j : Json} (h : Spells j.tokens text.toList) :
    (read? text : Option Params) = ofForm? j := by
  rw [read?, parse?_of_spells h, Option.bind_some]
  rfl

/-- A text is an object that states parameters in the given settings. -/
def IsObject (p : Params) (F : List Setting) (text : String) : Prop :=
  ∃ members, States p F members ∧ Spells (Json.object members).tokens text.toList

/-- A text is an array that states parameters in the first settings. -/
def IsArray (p : Params) (k : Nat) (text : String) : Prop :=
  Spells (Json.array ((Setting.all.take k).map (Setting.form p))).tokens text.toList

theorem IsObject.read? (hF : F.Nodup) (h : IsObject p F text) :
    read? text = some (p.only F) := by
  obtain ⟨members, hstates, hspells⟩ := h
  rw [read?_of_spells hspells, ofForm?_of_given (record?_of_states hF hstates)]

theorem IsArray.read? {k : Nat} (hk : k ≤ 8) (h : IsArray p k text) :
    read? text = some (p.only (Setting.all.take k)) := by
  rw [read?_of_spells h, ofForm?_of_given (record?_of_first hk)]

/-- **Parameter documents mean the settings that they state.**  An object that states parameters in
some settings, in any order, however it is spelled and whatever members with other names there are,
is read as the parameters with these settings and the usual values of the others; so is an array
of the first settings, and it has the outcome of an object that states the same ones.  The
parameters are accepted exactly if they make sense as a whole, and else the error names the first
condition that they do not meet.  An object in which a setting occurs twice cannot be read, and
neither can a text that spells no value. -/
theorem documents_mean_settings :
    (∀ (p : Params) (F : List Setting) (text : String), F.Nodup → IsObject p F text →
      read? text = some (p.only F) ∧ Verdict (p.only F) (ofDocument text)) ∧
    (∀ (p : Params) (k : Nat) (text : String), k ≤ 8 → IsArray p k text →
      read? text = some (p.only (Setting.all.take k)) ∧
      Verdict (p.only (Setting.all.take k)) (ofDocument text) ∧
      ∀ (F : List Setting) (other : String), F.Perm (Setting.all.take k) → IsObject p F other →
        ofDocument text = ofDocument other) ∧
    (∀ (s : Setting) (members : List (List Piece × Json)) (text : String), s.Twice members →
      Spells (Json.object members).tokens text.toList →
      FailsWith (ofDocument text) "Failed to parse protocol parameters" none) ∧
    ∀ text : String, (∀ j : Json, ¬ Spells j.tokens text.toList) →
      FailsWith (ofDocument text) "Failed to parse protocol parameters" none := by
  refine ⟨?_, ?_, ?_, ?_⟩
  · intro p F text hF h
    have hread := h.read? hF
    exact ⟨hread, verdict_of_read? hread⟩
  · intro p k text hk h
    have hread := h.read? hk
    refine ⟨hread, verdict_of_read? hread, fun F other hperm hother => ?_⟩
    -- the object states the same settings, so that both are read as the same parameters
    have hF : F.Nodup := hperm.nodup_iff.2 (Setting.nodup_all.sublist (List.take_sublist k _))
    have hsame := only_congr (p := p) fun s => hperm.mem_iff (a := s)
    have hotherRead := hother.read? hF
    rw [hsame] at hotherRead
    rw [ofDocument, ofDocument, hread, hotherRead]
  · intro s members text htwice hspells
    refine failsWith_of_read? ?_
    obtain ⟨first, second, hfirst, hsecond, hsub⟩ := htwice
    rw [read?_of_spells hspells, ofForm?,
      record?_of_twice s.name_mem_fieldNames hfirst hsecond hsub]
    rfl
  · intro text hnone
    refine failsWith_of_read? ?_
    rw [read?, parse?_eq_none_iff.2 hnone, Option.bind_none]

/-- Parameters that make no sense, since routes would be removed before they are retracted. -/
def hasty : Params := { maxRoutes := 16, timeoutDelay := 250, gcDelay := 200 }

/-- Two settings of `hasty` in an object with an odd spelling: one name is written with an escape,
and another member holds a number out of every range and half a surrogate pair. -/
def oddlySpelled : String :=
  "\t\x7b \"x\" : [[\x7b\"a\":1e999\x7d, \"\\uD800\"]],\r\n" ++
    "\"route_gc_delay\":200, \"\\u006dax_routes\" : 16 \x7d "

/-- These two settings make sense with the usual values of the others.  The first three do not, be
they stated by an array or by an object. -/
theorem documents_of_hasty :
    ofDocument oddlySpelled = .ok { maxRoutes := 16, gcDelay := 200 } ∧
    FailsWith (ofDocument " [16 ,250, 200]\n") "Invalid protocol parameters"
      (some "route_gc_delay (200) is shorter than route_timeout_delay (250)") ∧
    ofDocument " [16 ,250, 200]\n" = ofDocument
      "\x7b\"route_gc_delay\":200,\"max_routes\":16,\"route_timeout_delay\":250\x7d" ∧
    FailsWith (ofDocument "\x7b\"kernel_metric\":1,\"max\":2,\"kernel_metric\":[]\x7d")
      "Failed to parse protocol parameters" none ∧
    FailsWith (ofDocument "not json") "Failed to parse protocol parameters" none := by
  obtain ⟨hobject, harray, htwice, hillegible⟩ := documents_mean_settings
  have hodd : IsObject hasty [.gcDelay, .maxRoutes] oddlySpelled :=
    ⟨[([.plain 'x'], .array [.array [.object [([.plain 'a'], .number ['1', 'e', '9', '9', '9'])],
        .string [.unit 'D' '8' '0' '0']]]),
      (encode Setting.gcDelay.name.toList, Setting.gcDelay.form hasty),
      (.unit '0' '0' '6' 'd' :: encode ['a', 'x', '_', 'r', 'o', 'u', 't', 'e', 's'],
        Setting.maxRoutes.form hasty)],
      .other "x" _ (by decide +kernel) (by decide) (.setting .gcDelay (by decide +kernel)
        (.setting .maxRoutes (by decide +kernel) .nothing)),
      Token.ofText?_eq_some_iff.1 (by decide +kernel)⟩
  have hfirst : IsArray hasty 3 " [16 ,250, 200]\n" :=
    Token.ofText?_eq_some_iff.1 (by decide +kernel)
  have hsame : IsObject hasty [.gcDelay, .maxRoutes, .timeoutDelay]
      "\x7b\"route_gc_delay\":200,\"max_routes\":16,\"route_timeout_delay\":250\x7d" :=
    ⟨_, .setting .gcDelay (decode?_encode _) (.setting .maxRoutes (decode?_encode _)
        (.setting .timeoutDelay (decode?_encode _) .nothing)),
      Token.ofText?_eq_some_iff.1 (by decide +kernel)⟩
  obtain ⟨-, hverdict⟩ := hobject _ _ _ (by decide) hodd
  obtain ⟨-, hrefused, hequal⟩ := harray _ _ _ (by decide) hfirst
  refine ⟨hverdict.accepted_iff.2 (by decide), hrefused.gcBeforeTimeout (by decide) (by decide),
    hequal _ _ (by decide) hsame, ?_, ?_⟩
  · refine htwice .kernelBias [(encode Setting.kernelBias.name.toList, .number ['1']),
      (encode ['m', 'a', 'x'], .number ['2']),
      (encode Setting.kernelBias.name.toList, .array [])] _
      ⟨_, _, decode?_encode _, decode?_encode _, .cons_cons _ (.cons _ (.refl _))⟩
      (Token.ofText?_eq_some_iff.1 (by decide +kernel))
  · have hunread : parse? "not json" = none := by
      have htokens : Token.ofText? "not json".toList = none := by decide +kernel
      rw [parse?, htokens, Option.bind_none]
    exact hillegible _ (parse?_eq_none_iff.1 hunread)

end DistanceVector.Params
