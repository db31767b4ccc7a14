import Marathon.Lib.Parsing
import Marathon.State.AppDefinition

/-!
# Label selectors

A query for the labels of apps, and the parser for it. The parser skips white space before every
token. A term is a run of allowed characters and of others after a backslash.
-/

namespace Marathon

open Lib Lib.Parser

structure LabelSelector where
  key : String
  fn : String → Bool
  value : List String

namespace LabelSelector

def «matches» (selector : LabelSelector) (app : AppDefinition) : Bool :=
  (app.labels.lookup selector.key).any selector.fn

end LabelSelector

structure LabelSelectors where
  selectors : List LabelSelector

def LabelSelectors.matches (s : LabelSelectors) (app : AppDefinition) : Bool :=
  s.selectors.all fun selector => selector.matches app

namespace LabelSelectorParsers

/-! ## Regular expressions -/

/-- The characters of `\s`. -/
def isWhiteSpace (c : Char) : Bool :=
  c = ' ' || c = '\t' || c = '\n' || c = '\x0b' || c = '\x0c' || c = '\r'

/-- The characters that a dot does not match. -/
def isLineTerminator (c : Char) : Bool :=
  c = '\n' || c = '\r' || c = '\u0085' || c = '\u2028' || c = '\u2029'

/-- The characters of `[-A-Za-z0-9_.]`. -/
def isAllowed (c : Char) : Bool :=
  c = '-' || ('A' ≤ c && c ≤ 'Z') || ('a' ≤ c && c ≤ 'z') || ('0' ≤ c && c ≤ '9') || c = '_' ||
    c = '.'

def skipWhiteSpace (s : List Char) : List Char := s.dropWhile isWhiteSpace

/-- White space is skipped before a token. -/
def token {α : Type} (p : Parser Char α) : Parser Char α := fun s => p (skipWhiteSpace s)

def word (w : List Char) : Parser Char (List Char) :=
  fun s => (s.dropPrefix? w).map fun rest => (w, rest)

def literal (w : List Char) : Parser Char (List Char) := token (word w)

/-- The longest prefix of escaped and of allowed characters. An allowed character is no backslash,
so that there is one way to match only. -/
def takeTerm : List Char → List Char × List Char
  | [] => ([], [])
  | '\\' :: c :: rest =>
    if isLineTerminator c then ([], '\\' :: c :: rest)
    else ('\\' :: c :: (takeTerm rest).1, (takeTerm rest).2)
  | c :: rest => if isAllowed c then (c :: (takeTerm rest).1, (takeTerm rest).2) else ([], c :: rest)

/-- Every backslash before a character that a dot matches is taken away. -/
def unescape : List Char → List Char
  | [] => []
  | '\\' :: c :: rest =>
    if isLineTerminator c then '\\' :: unescape (c :: rest) else c :: unescape rest
  | c :: rest => c :: unescape rest

/-! ## The grammar -/

def term : Parser Char String := token fun s =>
  if (takeTerm s).1 = [] then none
  else some (String.ofList (unescape (takeTerm s).1), (takeTerm s).2)

def existenceSelector : Parser Char LabelSelector :=
  map (fun existence => ⟨existence, fun _ => true, []⟩) term

def equalityOp : Parser Char (List Char) :=
  token (orElse (word ['=', '=']) (word ['!', '=']))

def equality : (String × List Char) × String → LabelSelector
  | ((label, op), value) =>
    if op = ['=', '='] then ⟨label, fun v => value == v, [value]⟩
    else ⟨label, fun v => value != v, [value]⟩

def equalitySelector : Parser Char LabelSelector :=
  map equality (seq (seq term equalityOp) term)

def set : Parser Char (List String) :=
  map (fun r => r.1.2) (seq (seq (literal ['(']) (repsep term (literal [',']))) (literal [')']))

def setOp : Parser Char (List Char) :=
  token (orElse (word ['i', 'n']) (word ['n', 'o', 't', 'i', 'n']))

def membership : (String × List Char) × List String → LabelSelector
  | ((label, op), set) =>
    if op = ['i', 'n'] then ⟨label, fun v => set.contains v, set⟩
    else ⟨label, fun v => !set.contains v, set⟩

def setSelector : Parser Char LabelSelector :=
  map membership (seq (seq term setOp) set)

def selector : Parser Char LabelSelector :=
  orElse (orElse setSelector equalitySelector) existenceSelector

def selectors : Parser Char (List LabelSelector) := repsep selector (literal [','])

/-- White space may stand at the end as well. What is not parsed is an exception. -/
def parsed (text : String) : Option LabelSelectors :=
  (phrase (map Prod.fst (seq selectors (token (success ())))) text.toList).map LabelSelectors.mk

end LabelSelectorParsers

end Marathon
