import Marathon.Api.LabelSelector

/-!
# Texts of label selectors

A text of selectors, with white space before its tokens, is read as these selectors. A line
terminator cannot be escaped: the parser stops before the backslash.
-/

namespace Marathon.LabelSelectorParsers

open Lib Lib.Parser

/-! ## Selectors and their texts -/

/-- Keys and values are not empty. -/
abbrev Label := {s : String // s ≠ ""}

inductive Selector
  | existence (key : Label)
  | equal (key value : Label)
  | notEqual (key value : Label)
  | isIn (key : Label) (values : List Label)
  | notIn (key : Label) (values : List Label)

namespace Selector

/-- The key and the values. -/
def labels : Selector → List Label
  | existence key => [key]
  | equal key value => [key, value]
  | notEqual key value => [key, value]
  | isIn key values => key :: values
  | notIn key values => key :: values

def key : Selector → Label
  | existence key => key
  | equal key _ => key
  | notEqual key _ => key
  | isIn key _ => key
  | notIn key _ => key

/-- What is written about the value of the label. -/
def Condition (value : String) : Selector → Prop
  | existence _ => True
  | equal _ expected => value = expected.val
  | notEqual _ unwanted => value ≠ unwanted.val
  | isIn _ values => ∃ v ∈ values, value = v.val
  | notIn _ values => ∀ v ∈ values, value ≠ v.val

/-- The app carries the key, and its value is as written. -/
def Holds (s : Selector) (app : AppDefinition) : Prop :=
  ∃ value, app.labels.lookup s.key.val = some value ∧ s.Condition value

end Selector

/-- A backslash stands before every character that is not allowed. -/
def escape (label : List Char) : List Char :=
  label.flatMap fun c => if isAllowed c then [c] else ['\\', c]

def Gap (s : List Char) : Prop := ∀ c ∈ s, isWhiteSpace c = true

/-- A token, and white space before it. -/
def TokenText (w text : List Char) : Prop := ∃ gap, Gap gap ∧ text = gap ++ w

def TermText (label : Label) (text : List Char) : Prop := TokenText (escape label.val.toList) text

/-- After a term, a word needs white space before it. -/
def WordText (w text : List Char) : Prop := ∃ gap, gap ≠ [] ∧ Gap gap ∧ text = gap ++ w

def SetText (values : List Label) (text : List Char) : Prop :=
  ∃ opening inner closing, TokenText ['('] opening ∧
    Separated TermText (TokenText [',']) values inner ∧ TokenText [')'] closing ∧
      text = opening ++ inner ++ closing

/-- The texts of a selector in the grammar. -/
inductive SelectorText : Selector → List Char → Prop
  | existence {key : Label} {text : List Char} (hkey : TermText key text) :
      SelectorText (.existence key) text
  | equal {key value : Label} {text op text' : List Char} (hkey : TermText key text)
      (hop : TokenText ['=', '='] op) (hvalue : TermText value text') :
      SelectorText (.equal key value) (text ++ op ++ text')
  | notEqual {key value : Label} {text op text' : List Char} (hkey : TermText key text)
      (hop : TokenText ['!', '='] op) (hvalue : TermText value text') :
      SelectorText (.notEqual key value) (text ++ op ++ text')
  | isIn {key : Label} {values : List Label} {text op text' : List Char} (hkey : TermText key text)
      (hop : WordText ['i', 'n'] op) (hset : SetText values text') :
      SelectorText (.isIn key values) (text ++ op ++ text')
  | notIn {key : Label} {values : List Label} {text op text' : List Char} (hkey : TermText key text)
      (hop : WordText ['n', 'o', 't', 'i', 'n'] op) (hset : SetText values text') :
      SelectorText (.notIn key values) (text ++ op ++ text')

/-- The texts of a query; white space may stand at the end too. -/
def QueryText (query : List Selector) (text : List Char) : Prop :=
  ∃ body gap, Separated SelectorText (TokenText [',']) query body ∧ Gap gap ∧ text = body ++ gap

/-- The text is parsed, and the apps are selected for which all selectors hold. -/
def MeansWhatItSays (query : List Selector) (text : String) : Prop :=
  ∃ result, parsed text = some result ∧
    ∀ app, result.matches app = true ↔ ∀ s ∈ query, s.Holds app

def HasLineTerminator (label : Label) : Prop := ∃ c ∈ label.val.toList, isLineTerminator c = true

/-! ## Tokens -/

variable {c : Char} {w s rest text gap op text' : List Char} {label key : Label}
  {values : List Label}

section Tokens

variable {α : Type} {F : List Char → Prop} {p : Parser Char α} {a : α} {gap text : List Char}

theorem skipWhiteSpace_append (hgap : Gap gap) (s : List Char) :
    skipWhiteSpace (gap ++ s) = skipWhiteSpace s :=
  List.dropWhile_append_of_pos hgap

theorem skipWhiteSpace_cons (hc : isWhiteSpace c = false) (s : List Char) :
    skipWhiteSpace (c :: s) = c :: s := List.dropWhile_cons_of_neg (by rw [hc]; decide)

theorem skipWhiteSpace_gap (hgap : Gap gap) : skipWhiteSpace gap = [] := by
  have h := skipWhiteSpace_append hgap []
  rwa [List.append_nil] at h

theorem reads_token (hgap : Gap gap) (hc : isWhiteSpace c = false)
    (h : Reads p F (c :: text) a) : Reads (token p) F (gap ++ c :: text) a := by
  intro rest hrest
  rw [token, List.append_assoc, skipWhiteSpace_append hgap, List.cons_append,
    skipWhiteSpace_cons hc]
  exact h rest hrest

theorem word_eq_some {b : List Char} : word w s = some (b, rest) ↔ b = w ∧ s = w ++ rest := by
  rw [word, Option.map_eq_some_iff]
  constructor
  · rintro ⟨rest', hdrop, heq⟩
    cases heq
    obtain ⟨start, rfl, hstart⟩ := List.dropPrefix?_eq_some_iff.mp hdrop
    rw [eq_of_beq hstart]
    exact ⟨rfl, rfl⟩
  · rintro ⟨rfl, rfl⟩
    exact ⟨rest, List.dropPrefix?_eq_some_iff.mpr ⟨b, rfl, BEq.rfl⟩, rfl⟩

theorem reads_word (w : List Char) : Reads (word w) (fun _ => True) w w :=
  fun _ _ => word_eq_some.mpr ⟨rfl, rfl⟩

theorem word_eq_none (h : ¬w <+: s) : word w s = none := by
  rw [Option.eq_none_iff_forall_ne_some]
  rintro ⟨b, rest⟩ heq
  obtain ⟨-, rfl⟩ := word_eq_some.mp heq
  exact h (List.prefix_append w rest)

theorem reads_literal (hc : isWhiteSpace c = false)
    (h : TokenText (c :: w) text) : Reads (literal (c :: w)) (fun _ => True) text (c :: w) := by
  obtain ⟨gap, hgap, rfl⟩ := h
  exact reads_token hgap hc (reads_word _)

end Tokens

/-! ## Terms -/

section Terms

/-- No term goes on here. -/
def Stops (s : List Char) : Prop := takeTerm s = ([], s)

theorem takeTerm_allowed (hc : isAllowed c = true) (s : List Char) :
    takeTerm (c :: s) = (c :: (takeTerm s).1, (takeTerm s).2) := by
  have hne : c ≠ '\\' := by
    rintro rfl
    revert hc
    decide
  rw [takeTerm]
  · exact if_pos hc
  · exact fun _ _ h _ => hne h

theorem takeTerm_escaped (hc : isLineTerminator c = false) (s : List Char) :
    takeTerm ('\\' :: c :: s) = ('\\' :: c :: (takeTerm s).1, (takeTerm s).2) := by
  rw [takeTerm, hc]
  rfl

theorem stops_nil : Stops [] := rfl

theorem stops_cons (hc : isAllowed c = false) (hne : c ≠ '\\') (s : List Char) :
    Stops (c :: s) := by
  rw [Stops, takeTerm]
  · rw [hc]
    rfl
  · exact fun _ _ h _ => hne h

theorem isAllowed_of_isWhiteSpace (hc : isWhiteSpace c = true) :
    isAllowed c = false ∧ c ≠ '\\' := by
  simp only [isWhiteSpace, Bool.or_eq_true, decide_eq_true_eq] at hc
  obtain ((((rfl | rfl) | rfl) | rfl) | rfl) | rfl := hc <;> decide

theorem stops_of_isWhiteSpace (hc : isWhiteSpace c = true) (s : List Char) :
    Stops (c :: s) := stops_cons (isAllowed_of_isWhiteSpace hc).1 (isAllowed_of_isWhiteSpace hc).2 s

theorem isAllowed_of_isLineTerminator (hc : isLineTerminator c = true) : isAllowed c = false := by
  simp only [isLineTerminator, Bool.or_eq_true, decide_eq_true_eq] at hc
  obtain (((rfl | rfl) | rfl) | rfl) | rfl := hc <;> decide

theorem exists_escape_eq {label : List Char} (h : label ≠ []) :
    ∃ c s, escape label = c :: s ∧ isWhiteSpace c = false := by
  cases label with
  | nil => exact absurd rfl h
  | cons c label =>
    rw [escape, List.flatMap_cons]
    cases hc : isAllowed c with
    | true =>
      refine ⟨c, escape label, rfl, ?_⟩
      by_contra hspace
      rw [(isAllowed_of_isWhiteSpace (Bool.eq_true_of_not_eq_false hspace)).1] at hc
      cases hc
    | false => exact ⟨'\\', c :: escape label, rfl, rfl⟩

theorem takeTerm_escape {label : List Char} (h : ∀ c ∈ label, isLineTerminator c = false)
    (hs : Stops s) : takeTerm (escape label ++ s) = (escape label, s) := by
  induction label with
  | nil => exact hs
  | cons c label ih =>
    obtain ⟨hc, hlabel⟩ := List.forall_mem_cons.mp h
    rw [escape, List.flatMap_cons, ← escape]
    cases hallowed : isAllowed c with
    | true =>
      rw [if_pos rfl, List.append_assoc, List.singleton_append, takeTerm_allowed hallowed,
        ih hlabel]
      rfl
    | false =>
      rw [if_neg Bool.false_ne_true, List.append_assoc]
      change takeTerm ('\\' :: c :: (escape label ++ s)) = _
      rw [takeTerm_escaped hc, ih hlabel]
      rfl

theorem unescape_escape {label : List Char} (h : ∀ c ∈ label, isLineTerminator c = false) :
    unescape (escape label) = label := by
  induction label with
  | nil => rfl
  | cons c label ih =>
    obtain ⟨hc, hlabel⟩ := List.forall_mem_cons.mp h
    rw [escape, List.flatMap_cons, ← escape]
    cases hallowed : isAllowed c with
    | true =>
      have hne : c ≠ '\\' := by
        rintro rfl
        revert hallowed
        decide
      rw [if_pos rfl, List.singleton_append, unescape, ih hlabel]
      exact fun _ _ h => absurd h hne
    | false =>
      rw [if_neg Bool.false_ne_true]
      change unescape ('\\' :: c :: escape label) = _
      rw [unescape, hc, ih hlabel]
      rfl

theorem reads_term (h : ¬HasLineTerminator label)
    (htext : TermText label text) : Reads term Stops text label.val := by
  have hlabel : ∀ c ∈ label.val.toList, isLineTerminator c = false := by
    intro c hc
    by_contra hterminator
    exact h ⟨c, hc, Bool.eq_true_of_not_eq_false hterminator⟩
  have hne : label.val.toList ≠ [] := fun hnil => label.2 (String.toList_eq_nil_iff.mp hnil)
  obtain ⟨gap, hgap, rfl⟩ := htext
  obtain ⟨c, s, hescape, hc⟩ := exists_escape_eq hne
  rw [hescape]
  refine reads_token hgap hc ?_
  intro rest hrest
  dsimp only
  rw [← hescape, takeTerm_escape hlabel hrest, unescape_escape hlabel, hescape,
    if_neg (List.cons_ne_nil _ _), String.ofList_toList]

theorem term_eq_none (h : Stops (skipWhiteSpace s)) : term s = none := by
  rw [term, token, h]
  rfl

end Terms

/-! ## What the parser reads -/

section Reading

/-- After white space there is a comma, a closing bracket, or nothing. -/
def Delimited (s : List Char) : Prop :=
  ∀ c rest, skipWhiteSpace s = c :: rest → c = ',' ∨ c = ')'

theorem delimited_gap (hgap : Gap gap) : Delimited gap := by
  intro c rest h
  rw [skipWhiteSpace_gap hgap] at h
  cases h

theorem delimited_comma (h : TokenText [','] text) (rest : List Char) :
    Delimited (text ++ rest) := by
  obtain ⟨gap, hgap, rfl⟩ := h
  intro c s hs
  rw [List.append_assoc, skipWhiteSpace_append hgap] at hs
  exact .inl (List.cons.inj hs).1.symm

theorem delimited_closing {text : List Char} (h : TokenText [')'] text) (rest : List Char) :
    Delimited (text ++ rest) := by
  obtain ⟨gap, hgap, rfl⟩ := h
  intro c s hs
  rw [List.append_assoc, skipWhiteSpace_append hgap] at hs
  exact .inr (List.cons.inj hs).1.symm

namespace Delimited

variable {s : List Char} (h : Delimited s)

include h

theorem word_eq_none (hcomma : c ≠ ',') (hclosing : c ≠ ')') :
    word (c :: w) (skipWhiteSpace s) = none := by
  refine LabelSelectorParsers.word_eq_none ?_
  rintro ⟨rest, hrest⟩
  rcases h c (w ++ rest) hrest.symm with rfl | rfl
  · exact hcomma rfl
  · exact hclosing rfl

theorem stops_skipWhiteSpace : Stops (skipWhiteSpace s) := by
  cases hs : skipWhiteSpace s with
  | nil => exact stops_nil
  | cons c rest =>
    rcases h c rest hs with rfl | rfl
    · exact stops_cons (by decide) (by decide) rest
    · exact stops_cons (by decide) (by decide) rest

theorem stops : Stops s := by
  cases s with
  | nil => exact stops_nil
  | cons c s =>
    cases hc : isWhiteSpace c with
    | true => exact stops_of_isWhiteSpace hc s
    | false =>
      have hstops := h.stops_skipWhiteSpace
      rwa [skipWhiteSpace_cons hc] at hstops

theorem setOp_eq_none : setOp s = none := by
  rw [setOp, token, orElse, h.word_eq_none (by decide) (by decide),
    h.word_eq_none (by decide) (by decide), Option.none_or]

theorem equalityOp_eq_none : equalityOp s = none := by
  rw [equalityOp, token, orElse, h.word_eq_none (by decide) (by decide),
    h.word_eq_none (by decide) (by decide), Option.none_or]

end Delimited

theorem stops_token (hc : isAllowed c = false) (hne : c ≠ '\\')
    (h : TokenText (c :: w) text) (rest : List Char) : Stops (text ++ rest) := by
  obtain ⟨gap, hgap, rfl⟩ := h
  cases gap with
  | nil => exact stops_cons hc hne (w ++ rest)
  | cons d gap => exact stops_of_isWhiteSpace (hgap d List.mem_cons_self) _

theorem stops_word (h : WordText w text) (rest : List Char) : Stops (text ++ rest) := by
  obtain ⟨gap, hne, hgap, rfl⟩ := h
  cases gap with
  | nil => exact absurd rfl hne
  | cons d gap => exact stops_of_isWhiteSpace (hgap d List.mem_cons_self) _

theorem reads_comma (h : TokenText [','] text) :
    text ≠ [] ∧ ∃ b, Reads (literal [',']) (fun _ => True) text b := by
  refine ⟨?_, _, reads_literal (by decide) h⟩
  obtain ⟨gap, -, rfl⟩ := h
  exact List.append_ne_nil_of_right_ne_nil _ (List.cons_ne_nil _ _)

theorem literal_eq_none (hgap : Gap gap) (h : ¬[c] <+: skipWhiteSpace w) :
    literal [c] (gap ++ w) = none := by
  rw [literal, token, skipWhiteSpace_append hgap]
  exact word_eq_none h

theorem reads_set (hgood : ∀ v ∈ values, ¬HasLineTerminator v) (h : SetText values text) :
    Reads set (fun _ => True) text (values.map Subtype.val) := by
  obtain ⟨opening, inner, closing, hopening, hinner, hclosing, rfl⟩ := h
  have hterms : Reads (repsep term (literal [','])) _ inner (values.map Subtype.val) :=
    hinner.reads (fun v hv text htext => (reads_term (hgood v hv) htext).mono fun _ h => h.stops)
      (fun _ => reads_comma) (fun _ => delimited_comma)
  refine (((reads_literal (by decide) hopening).seq hterms ?_).seq
    (reads_literal (by decide) hclosing) ?_).map _
  · exact fun _ _ => trivial
  · intro rest _
    have hdelimited := delimited_closing hclosing rest
    refine ⟨hdelimited, ?_, term_eq_none hdelimited.stops_skipWhiteSpace⟩
    obtain ⟨gap, hgap, rfl⟩ := hclosing
    rw [List.append_assoc]
    refine literal_eq_none hgap ?_
    rw [List.singleton_append, skipWhiteSpace_cons (by decide)]
    simp

/-- The selector that comes of parsing. -/
def compiled : Selector → LabelSelector
  | .existence key => ⟨key.val, fun _ => true, []⟩
  | .equal key value => ⟨key.val, fun v => value.val == v, [value.val]⟩
  | .notEqual key value => ⟨key.val, fun v => value.val != v, [value.val]⟩
  | .isIn key values =>
    ⟨key.val, fun v => (values.map Subtype.val).contains v, values.map Subtype.val⟩
  | .notIn key values =>
    ⟨key.val, fun v => !(values.map Subtype.val).contains v, values.map Subtype.val⟩

theorem fn_compiled (s : Selector) (value : String) :
    (compiled s).fn value = true ↔ s.Condition value := by
  cases s with
  | existence key => exact iff_of_true rfl trivial
  | equal key expected => exact beq_iff_eq.trans eq_comm
  | notEqual key unwanted => exact bne_iff_ne.trans ne_comm
  | isIn key values =>
    rw [compiled, List.contains_iff_mem, List.mem_map]
    exact exists_congr fun v => and_congr_right fun _ => eq_comm
  | notIn key values =>
    rw [compiled, Bool.not_eq_true', ← Bool.not_eq_true, List.contains_iff_mem, List.mem_map]
    constructor
    · exact fun h v hv heq => h ⟨v, hv, heq.symm⟩
    · rintro h ⟨v, hv, rfl⟩
      exact h v hv rfl

theorem matches_compiled (s : Selector) (app : AppDefinition) :
    (compiled s).matches app = true ↔ s.Holds app := by
  have hkey : (compiled s).key = s.key.val := by cases s <;> rfl
  rw [LabelSelector.matches, Selector.Holds, Option.any_eq_true, hkey]
  exact exists_congr fun value => and_congr_right fun _ => fn_compiled s value

theorem setSelector_eq_none (hgood : ¬HasLineTerminator key)
    (hkey : TermText key text) (hstops : Stops rest) (hop : setOp rest = none) :
    setSelector (text ++ rest) = none := by
  rw [setSelector, map, seq, seq, reads_term hgood hkey rest hstops]
  dsimp only [Option.bind_some]
  rw [hop]
  rfl

theorem equalitySelector_eq_none
    (hgood : ¬HasLineTerminator key) (hkey : TermText key text) (hstops : Stops rest)
    (hop : equalityOp rest = none) : equalitySelector (text ++ rest) = none := by
  rw [equalitySelector, map, seq, seq, reads_term hgood hkey rest hstops]
  dsimp only [Option.bind_some]
  rw [hop]
  rfl

theorem setOp_token_eq_none (hspace : isWhiteSpace c = false)
    (hi : c ≠ 'i') (hn : c ≠ 'n') (h : TokenText (c :: w) text) (rest : List Char) :
    setOp (text ++ rest) = none := by
  obtain ⟨gap, hgap, rfl⟩ := h
  rw [setOp, token, List.append_assoc, skipWhiteSpace_append hgap, List.cons_append,
    skipWhiteSpace_cons hspace, orElse, word_eq_none, word_eq_none, Option.none_or]
  · exact fun hle => hn (List.cons_prefix_cons.mp hle).1.symm
  · exact fun hle => hi (List.cons_prefix_cons.mp hle).1.symm

theorem reads_equality {value : Label}
    (hkeyGood : ¬HasLineTerminator key) (hvalueGood : ¬HasLineTerminator value)
    (hc : c = '=' ∨ c = '!') (hkey : TermText key text) (hop : TokenText [c, '='] op)
    (hvalue : TermText value text') :
    Reads selector Delimited (text ++ op ++ text') (equality ((key.val, [c, '=']), value.val)) := by
  have hspace : isWhiteSpace c = false := by rcases hc with rfl | rfl <;> decide
  have hstops : ∀ rest, Stops (op ++ rest) := by
    intro rest
    rcases hc with rfl | rfl
    · exact stops_token (by decide) (by decide) hop rest
    · exact stops_token (by decide) (by decide) hop rest
  have hset : ∀ rest, setOp (op ++ rest) = none := by
    intro rest
    refine setOp_token_eq_none hspace ?_ ?_ hop rest
    · rcases hc with rfl | rfl <;> decide
    · rcases hc with rfl | rfl <;> decide
  have hopRead : Reads equalityOp (fun _ => True) op [c, '='] := by
    obtain ⟨gap, hgap, rfl⟩ := hop
    refine reads_token hgap hspace ?_
    rcases hc with rfl | rfl
    · exact .orElse_left (reads_word _)
    · refine .orElse_right ?_ (reads_word _)
      exact fun rest _ => word_eq_none fun hle => by cases (List.cons_prefix_cons.mp hle).1
  refine .orElse_left (.orElse_right ?_ ?_)
  · intro rest _
    rw [List.append_assoc, List.append_assoc]
    exact setSelector_eq_none hkeyGood hkey (hstops _) (hset _)
  · have hvalueRead : Reads term Delimited text' value.val :=
      (reads_term hvalueGood hvalue).mono fun _ h => h.stops
    exact (((reads_term hkeyGood hkey).seq hopRead fun rest _ => hstops rest).seq hvalueRead
      fun _ _ => trivial).map equality

theorem reads_membership
    (hkeyGood : ¬HasLineTerminator key) (hvaluesGood : ∀ v ∈ values, ¬HasLineTerminator v)
    (hw : w = ['i', 'n'] ∨ w = ['n', 'o', 't', 'i', 'n']) (hkey : TermText key text)
    (hop : WordText w op) (hset : SetText values text') :
    Reads selector Delimited (text ++ op ++ text')
      (membership ((key.val, w), values.map Subtype.val)) := by
  have hopRead : Reads setOp (fun _ => True) op w := by
    obtain ⟨gap, -, hgap, rfl⟩ := hop
    rcases hw with rfl | rfl
    · exact reads_token hgap (by decide) (.orElse_left (reads_word _))
    · refine reads_token hgap (by decide) (.orElse_right ?_ (reads_word _))
      exact fun rest _ => word_eq_none fun hle => by cases (List.cons_prefix_cons.mp hle).1
  have hsetRead : Reads set Delimited text' (values.map Subtype.val) :=
    (reads_set hvaluesGood hset).mono fun _ _ => trivial
  exact .orElse_left (.orElse_left ((((reads_term hkeyGood hkey).seq hopRead
    fun rest _ => stops_word hop rest).seq hsetRead fun _ _ => trivial).map membership))

theorem reads_selector {s : Selector}
    (hgood : ∀ label ∈ s.labels, ¬HasLineTerminator label) (h : SelectorText s text) :
    Reads selector Delimited text (compiled s) := by
  cases h with
  | @existence key text hkey =>
    have hkeyGood := hgood key (List.mem_singleton_self key)
    refine .orElse_right ?_ (((reads_term hkeyGood hkey).map _).mono fun _ h => h.stops)
    intro rest hrest
    rw [orElse, setSelector_eq_none hkeyGood hkey hrest.stops hrest.setOp_eq_none,
      equalitySelector_eq_none hkeyGood hkey hrest.stops hrest.equalityOp_eq_none, Option.none_or]
  | equal hkey hop hvalue =>
    obtain ⟨hkeyGood, hvalueGood⟩ := List.forall_mem_cons.mp hgood
    exact reads_equality hkeyGood (hvalueGood _ (List.mem_singleton_self _)) (.inl rfl) hkey hop
      hvalue
  | notEqual hkey hop hvalue =>
    obtain ⟨hkeyGood, hvalueGood⟩ := List.forall_mem_cons.mp hgood
    exact reads_equality hkeyGood (hvalueGood _ (List.mem_singleton_self _)) (.inr rfl) hkey hop
      hvalue
  | isIn hkey hop hset =>
    obtain ⟨hkeyGood, hvaluesGood⟩ := List.forall_mem_cons.mp hgood
    exact reads_membership hkeyGood hvaluesGood (.inl rfl) hkey hop hset
  | notIn hkey hop hset =>
    obtain ⟨hkeyGood, hvaluesGood⟩ := List.forall_mem_cons.mp hgood
    exact reads_membership hkeyGood hvaluesGood (.inr rfl) hkey hop hset

theorem selector_eq_none (h : Stops (skipWhiteSpace s)) : selector s = none := by
  have hterm := term_eq_none h
  rw [selector, orElse, orElse, setSelector, equalitySelector, existenceSelector, map, map, map, seq,
    seq, seq, seq, hterm]
  rfl

theorem parsed_eq_some {query : List Selector} {text : String}
    (hgood : ∀ s ∈ query, ∀ label ∈ s.labels, ¬HasLineTerminator label)
    (h : QueryText query text.toList) : parsed text = some ⟨query.map compiled⟩ := by
  obtain ⟨body, gap, hbody, hgap, htext⟩ := h
  have hselectors : Reads selectors _ body (query.map compiled) :=
    hbody.reads (fun s hs _ htext => reads_selector (hgood s hs) htext) (fun _ => reads_comma)
      fun _ => delimited_comma
  have hdelimited := delimited_gap hgap
  have hread := hselectors gap ⟨hdelimited, ?_, selector_eq_none hdelimited.stops_skipWhiteSpace⟩
  · rw [parsed, htext, phrase, map, seq, hread]
    dsimp only [Option.bind_some]
    rw [token, skipWhiteSpace_gap hgap]
    rfl
  · rw [← List.append_nil gap]
    exact literal_eq_none hgap (by decide)

end Reading

/-! ## Line terminators -/

/-- Cut into escaped and single characters, a line terminator is escaped. -/
inductive Stuck : List Char → Prop
  | here {c : Char} (hc : isLineTerminator c = true) (s : List Char) : Stuck ('\\' :: c :: s)
  | escaped {s : List Char} (c : Char) (hs : Stuck s) : Stuck ('\\' :: c :: s)
  | single {c : Char} {s : List Char} (hc : c ≠ '\\') (hs : Stuck s) : Stuck (c :: s)

namespace Stuck

variable {s : List Char}

theorem of_cons (hc : c ≠ '\\') (h : Stuck (c :: s)) : Stuck s := by
  cases h with
  | here => exact absurd rfl hc
  | escaped => exact absurd rfl hc
  | single _ hs => exact hs

theorem of_append (hw : '\\' ∉ w) (h : Stuck (w ++ s)) : Stuck s := by
  induction w with
  | nil => exact h
  | cons c w ih =>
    obtain ⟨hc, hw⟩ := not_or.mp (List.mem_cons.not.mp hw)
    exact ih hw (of_cons (Ne.symm hc) h)

theorem append (hw : '\\' ∉ w) (h : Stuck s) : Stuck (w ++ s) := by
  induction w with
  | nil => exact h
  | cons c w ih =>
    obtain ⟨hc, hw⟩ := not_or.mp (List.mem_cons.not.mp hw)
    exact .single (Ne.symm hc) (ih hw)

theorem of_skipWhiteSpace (h : Stuck s) : Stuck (skipWhiteSpace s) := by
  induction s with
  | nil => exact h
  | cons c s ih =>
    cases hc : isWhiteSpace c with
    | true =>
      rw [skipWhiteSpace, List.dropWhile_cons_of_pos hc]
      exact ih (of_cons (isAllowed_of_isWhiteSpace hc).2 h)
    | false =>
      rw [skipWhiteSpace_cons hc]
      exact h

theorem of_takeTerm (h : Stuck s) : Stuck (takeTerm s).2 := by
  fun_induction takeTerm s with
  | case1 => exact h
  | case2 => exact h
  | case3 c rest hc ih =>
    cases h with
    | here hterminator => exact absurd hterminator hc
    | escaped _ hs => exact ih hs
    | single hne => exact absurd rfl hne
  | case4 c rest hnot hc ih =>
    refine ih (of_cons ?_ h)
    rintro rfl
    revert hc
    decide
  | case5 => exact h

end Stuck

section Terminators

variable {α : Type} {p : Parser Char α}

theorem keeps_token (hp : Keeps Stuck p) : Keeps Stuck (token p) :=
  fun _ a rest h hs => hp _ a rest h hs.of_skipWhiteSpace

theorem keeps_word (hw : '\\' ∉ w) : Keeps Stuck (word w) := by
  intro s b rest h hs
  obtain ⟨-, rfl⟩ := word_eq_some.mp h
  exact hs.of_append hw

theorem keeps_term : Keeps Stuck term := by
  refine keeps_token fun s a rest h hs => ?_
  split_ifs at h
  cases Option.some.inj h
  exact hs.of_takeTerm

theorem keeps_selectors : Keeps Stuck selectors := by
  have hcomma : Keeps Stuck (literal [',']) := keeps_token (keeps_word (by decide))
  have hopening : Keeps Stuck (literal ['(']) := keeps_token (keeps_word (by decide))
  have hclosing : Keeps Stuck (literal [')']) := keeps_token (keeps_word (by decide))
  have hequalityOp : Keeps Stuck equalityOp :=
    keeps_token ((keeps_word (by decide)).orElse (keeps_word (by decide)))
  have hsetOp : Keeps Stuck setOp :=
    keeps_token ((keeps_word (by decide)).orElse (keeps_word (by decide)))
  have hset : Keeps Stuck set := ((hopening.seq (keeps_term.repsep hcomma)).seq hclosing).map _
  have hsetSelector : Keeps Stuck setSelector := ((keeps_term.seq hsetOp).seq hset).map _
  have hequalitySelector : Keeps Stuck equalitySelector :=
    ((keeps_term.seq hequalityOp).seq keeps_term).map _
  exact ((hsetSelector.orElse hequalitySelector).orElse (keeps_term.map _)).repsep hcomma

theorem parsed_eq_none {text : String} (h : Stuck text.toList) : parsed text = none := by
  have hkeeps : Keeps Stuck (map Prod.fst (seq selectors (token (success ())))) :=
    (keeps_selectors.seq (keeps_token (.success ()))).map _
  rw [parsed, hkeeps.phrase_eq_none (fun hnil => by cases hnil) h]
  rfl

/-- Text of whole characters, escaped or not. -/
def Whole (text : List Char) : Prop := ∀ rest, Stuck rest → Stuck (text ++ rest)

theorem Whole.append (h : Whole text) (h' : Whole text') : Whole (text ++ text') := by
  intro rest hrest
  rw [List.append_assoc]
  exact h _ (h' rest hrest)

theorem whole_gap (hgap : Gap gap) : Whole gap := by
  intro rest hrest
  refine hrest.append fun hmem => ?_
  have hspace := hgap _ hmem
  revert hspace
  decide

theorem whole_escape (label : List Char) : Whole (escape label) := by
  induction label with
  | nil => exact fun rest hrest => hrest
  | cons c label ih =>
    intro rest hrest
    rw [escape, List.flatMap_cons, ← escape, List.append_assoc]
    cases hc : isAllowed c with
    | true =>
      refine .single ?_ (ih rest hrest)
      rintro rfl
      revert hc
      decide
    | false => exact .escaped c (ih rest hrest)

theorem whole_token (hw : '\\' ∉ w) (h : TokenText w text) : Whole text := by
  obtain ⟨gap, hgap, rfl⟩ := h
  exact (whole_gap hgap).append fun _ hrest => hrest.append hw

theorem whole_term (h : TermText label text) : Whole text := by
  obtain ⟨gap, hgap, rfl⟩ := h
  exact (whole_gap hgap).append (whole_escape _)

theorem whole_word (hw : '\\' ∉ w) (h : WordText w text) : Whole text := by
  obtain ⟨gap, -, hgap, rfl⟩ := h
  exact whole_token hw ⟨gap, hgap, rfl⟩

/-- However it goes on, the text is stuck. -/
def Blocks (text : List Char) : Prop := ∀ rest, Stuck (text ++ rest)

theorem Blocks.append (h : Blocks text) (text' : List Char) : Blocks (text ++ text') := by
  intro rest
  rw [List.append_assoc]
  exact h _

theorem Whole.blocks_append (h : Whole text) (h' : Blocks text') : Blocks (text ++ text') := by
  intro rest
  rw [List.append_assoc]
  exact h _ (h' rest)

theorem blocks_escape {label : List Char} (h : ∃ c ∈ label, isLineTerminator c = true) :
    Blocks (escape label) := by
  intro rest
  induction label with
  | nil =>
    obtain ⟨c, hc, -⟩ := h
    cases hc
  | cons c label ih =>
    rw [escape, List.flatMap_cons, ← escape, List.append_assoc]
    cases hc : isLineTerminator c with
    | true =>
      rw [isAllowed_of_isLineTerminator hc]
      exact .here hc _
    | false =>
      obtain ⟨d, hd, hterminator⟩ := h
      rcases List.mem_cons.mp hd with rfl | hd
      · rw [hterminator] at hc
        cases hc
      · have hrest := ih ⟨d, hd, hterminator⟩
        cases hallowed : isAllowed c with
        | true =>
          refine .single ?_ hrest
          rintro rfl
          revert hallowed
          decide
        | false => exact .escaped c hrest

theorem blocks_term (hlabel : HasLineTerminator label) (h : TermText label text) : Blocks text := by
  obtain ⟨gap, hgap, rfl⟩ := h
  exact (whole_gap hgap).blocks_append (blocks_escape hlabel)

section Lists

variable {ι : Type} {R : ι → List Char → Prop} {is : List ι} {texts : List Char}

theorem whole_more (hR : ∀ i text, R i text → Whole text)
    (h : More R (TokenText [',']) is texts) : Whole texts := by
  induction h with
  | nil => exact fun _ hrest => hrest
  | cons hsep htext _ ih =>
    exact ((whole_token (by decide) hsep).append (hR _ _ htext)).append ih

theorem whole_separated (hR : ∀ i text, R i text → Whole text)
    (h : Separated R (TokenText [',']) is texts) : Whole texts := by
  cases h with
  | nil => exact fun _ hrest => hrest
  | cons htext hrest => exact (hR _ _ htext).append (whole_more hR hrest)

theorem blocks_more (h : More R (TokenText [',']) is texts) (hR : ∀ i text, R i text → Whole text)
    {i : ι} (hi : i ∈ is) (hblocks : ∀ text, R i text → Blocks text) : Blocks texts := by
  induction h with
  | nil => cases hi
  | cons hsep htext hrest ih =>
    rcases List.mem_cons.mp hi with rfl | hi
    · exact ((whole_token (by decide) hsep).blocks_append (hblocks _ htext)).append _
    · exact ((whole_token (by decide) hsep).append (hR _ _ htext)).blocks_append (ih hi)

theorem blocks_separated (h : Separated R (TokenText [',']) is texts)
    (hR : ∀ i text, R i text → Whole text) {i : ι} (hi : i ∈ is)
    (hblocks : ∀ text, R i text → Blocks text) : Blocks texts := by
  cases h with
  | nil => cases hi
  | cons htext hrest =>
    rcases List.mem_cons.mp hi with rfl | hi
    · exact (hblocks _ htext).append _
    · exact (hR _ _ htext).blocks_append (blocks_more hrest hR hi hblocks)

end Lists

theorem whole_set (h : SetText values text) : Whole text := by
  obtain ⟨opening, inner, closing, hopening, hinner, hclosing, rfl⟩ := h
  exact ((whole_token (by decide) hopening).append
    (whole_separated (fun _ _ => whole_term) hinner)).append (whole_token (by decide) hclosing)

theorem blocks_set {v : Label} (hv : v ∈ values)
    (hbad : HasLineTerminator v) (h : SetText values text) : Blocks text := by
  obtain ⟨opening, inner, closing, hopening, hinner, -, rfl⟩ := h
  exact ((whole_token (by decide) hopening).blocks_append
    (blocks_separated hinner (fun _ _ => whole_term) hv fun _ => blocks_term hbad)).append closing

theorem whole_selector {s : Selector} (h : SelectorText s text) : Whole text := by
  cases h with
  | existence hkey => exact whole_term hkey
  | equal hkey hop hvalue =>
    exact ((whole_term hkey).append (whole_token (by decide) hop)).append (whole_term hvalue)
  | notEqual hkey hop hvalue =>
    exact ((whole_term hkey).append (whole_token (by decide) hop)).append (whole_term hvalue)
  | isIn hkey hop hset =>
    exact ((whole_term hkey).append (whole_word (by decide) hop)).append (whole_set hset)
  | notIn hkey hop hset =>
    exact ((whole_term hkey).append (whole_word (by decide) hop)).append (whole_set hset)

theorem blocks_selector {s : Selector} (hlabel : label ∈ s.labels)
    (hbad : HasLineTerminator label) (h : SelectorText s text) : Blocks text := by
  cases h with
  | existence hkey =>
    obtain rfl := List.mem_singleton.mp hlabel
    exact blocks_term hbad hkey
  | equal hkey hop hvalue =>
    rcases List.mem_cons.mp hlabel with rfl | hlabel
    · exact ((blocks_term hbad hkey).append _).append _
    · obtain rfl := List.mem_singleton.mp hlabel
      exact ((whole_term hkey).append (whole_token (by decide) hop)).blocks_append
        (blocks_term hbad hvalue)
  | notEqual hkey hop hvalue =>
    rcases List.mem_cons.mp hlabel with rfl | hlabel
    · exact ((blocks_term hbad hkey).append _).append _
    · obtain rfl := List.mem_singleton.mp hlabel
      exact ((whole_term hkey).append (whole_token (by decide) hop)).blocks_append
        (blocks_term hbad hvalue)
  | isIn hkey hop hset =>
    rcases List.mem_cons.mp hlabel with rfl | hlabel
    · exact ((blocks_term hbad hkey).append _).append _
    · exact ((whole_term hkey).append (whole_word (by decide) hop)).blocks_append
        (blocks_set hlabel hbad hset)
  | notIn hkey hop hset =>
    rcases List.mem_cons.mp hlabel with rfl | hlabel
    · exact ((blocks_term hbad hkey).append _).append _
    · exact ((whole_term hkey).append (whole_word (by decide) hop)).blocks_append
        (blocks_set hlabel hbad hset)

theorem stuck_query {query : List Selector} {s : Selector}
    (hs : s ∈ query) (hlabel : label ∈ s.labels) (hbad : HasLineTerminator label)
    (h : QueryText query text) : Stuck text := by
  obtain ⟨body, gap, hbody, -, rfl⟩ := h
  exact blocks_separated hbody (fun _ _ => whole_selector) hs
    (fun _ => blocks_selector hlabel hbad) gap

end Terminators

/-- A query means what it says if and only if no key and no value has a line terminator. -/
theorem meansWhatItSays_iff {query : List Selector} {text : String}
    (h : QueryText query text.toList) : MeansWhatItSays query text ↔
      ∀ s ∈ query, ∀ label ∈ s.labels, ¬HasLineTerminator label := by
  constructor
  · rintro ⟨result, hresult, -⟩ s hs label hlabel hbad
    rw [parsed_eq_none (stuck_query hs hlabel hbad h)] at hresult
    cases hresult
  · intro hgood
    refine ⟨_, parsed_eq_some hgood h, fun app => ?_⟩
    rw [LabelSelectors.matches, List.all_map, List.all_eq_true]
    exact forall₂_congr fun s _ => matches_compiled s app

/-! ## Two queries -/

def tier : Label := ⟨"tier", by decide⟩

/-- A value of two lines. -/
def twoLines : Label := ⟨"a\nb", by decide⟩

theorem gap_nil : Gap [] := fun _ h => absurd h List.not_mem_nil

theorem gap_space : Gap [' '] := by
  intro c hc
  rw [List.mem_singleton.mp hc]
  rfl

theorem queryText_tier : QueryText [.existence tier] "tier".toList :=
  ⟨_, [], .cons (.existence ⟨[], gap_nil, rfl⟩) .nil, gap_nil, rfl⟩

theorem meansWhatItSays_tier : MeansWhatItSays [.existence tier] "tier" ↔
    ∀ s ∈ [Selector.existence tier], ∀ label ∈ s.labels, ¬HasLineTerminator label :=
  meansWhatItSays_iff queryText_tier

/-- The text `tier == a\`, a line break and `b`. -/
theorem not_forall_meansWhatItSays : ¬∀ (query : List Selector) (text : String),
    QueryText query text.toList → MeansWhatItSays query text := by
  intro hall
  have htext : QueryText [.equal tier twoLines] "tier == a\\\nb".toList :=
    ⟨_, [], .cons (.equal ⟨[], gap_nil, rfl⟩ ⟨[' '], gap_space, rfl⟩ ⟨[' '], gap_space, rfl⟩) .nil,
      gap_nil, rfl⟩
  obtain ⟨result, hresult, -⟩ := hall _ _ htext
  rw [parsed_eq_none (stuck_query (List.mem_singleton_self _) (List.mem_cons_of_mem _
    (List.mem_singleton_self _)) ⟨'\n', by decide, rfl⟩ htext)] at hresult
  cases hresult

end Marathon.LabelSelectorParsers
