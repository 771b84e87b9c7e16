import BracketCss.Json.Basic
import BracketCss.Text.Pieces
import BracketCss.Threat.Report

/-!
# Sheet options

How a sheet is written. Options come as named values; each option but the scope has two
spellings, and of several mentions of one option the last one counts.

## Main definitions

* `SheetOptions`: the options
* `OptionFault`, `OptionFault.message`: why options are refused
* `isScope s`: a selector under which a whole sheet may be placed
* `SheetOptions.ofFields`, `SheetOptions.ofJson`: options from named values
* `SheetOptions.merge`: options with some of them changed

## Main results

* `ofFields_nil`: no mention leaves the defaults
-/

namespace BracketCss

open Text

/-- How a sheet is written. -/
structure SheetOptions where
  /-- Without any space that can be spared. -/
  minify : Bool
  /-- Rules with the same declarations are written as one. -/
  group : Bool
  /-- With comments that name the classes. -/
  comments : Bool
  /-- Every declaration is important. -/
  important : Bool
  /-- The selector under which all rules are placed. -/
  scope : Option String
  deriving DecidableEq, Repr

/-- The names of the options. -/
inductive OptionName where
  /-- The option `minify`. -/
  | minify
  /-- The option `group`. -/
  | group
  /-- The option `comments`. -/
  | comments
  /-- The option `important`. -/
  | important
  /-- The option `scope`. -/
  | scope
  deriving DecidableEq, Repr

namespace OptionName

/-- The spelling of an option in listings and messages. -/
def name : OptionName → String
  | minify => "minify"
  | group => "group_selectors"
  | comments => "include_comments"
  | important => "important"
  | scope => "scope"

/-- The spellings of options. -/
def spellings : List (String × OptionName) :=
  [("minify", minify), ("groupSelectors", group), ("group_selectors", group),
    ("includeComments", comments), ("include_comments", comments), ("important", important),
    ("scope", scope)]

/-- The option with a spelling. -/
def ofSpelling? (s : String) : Option OptionName := spellings.lookup s

end OptionName

/-- Why options are refused. -/
inductive OptionFault where
  /-- The options are not named values. -/
  | notMapping (kind : String)
  /-- An option that does not exist. -/
  | unknown (name : String)
  /-- An option that is no truth value. -/
  | notBoolean (option : OptionName) (kind : String)
  /-- A scope that is no text, or blank. -/
  | emptyScope
  /-- A scope of another form. -/
  | refusedScope (shown : String)
  deriving DecidableEq, Repr

namespace OptionFault

/-- The text of a fault. -/
def message : OptionFault → String
  | notMapping kind => "options must be a mapping, got " ++ kind
  | unknown name => "Unknown option: " ++ quoted name
  | notBoolean option kind => option.name ++ " must be a boolean, got " ++ kind
  | emptyScope => "scope must be a non-empty string or None"
  | refusedScope shown =>
    "scope must be simple selectors like '.app' or '#root main', got " ++ quoted shown

/-- The option at fault. -/
def option? : OptionFault → Option String
  | notMapping _ => none
  | unknown name => some name
  | notBoolean option _ => some option.name
  | emptyScope | refusedScope _ => some OptionName.scope.name

end OptionFault

/-- A tag, class or id selector. -/
def isSimpleSelector (cs : List Char) : Bool :=
  let name := if cs.head? = some '.' ∨ cs.head? = some '#' then cs.tail else cs
  match name with
  | [] => false
  | c :: rest => (isAsciiLetter c || c == '_') && rest.all isNameChar

/-- Simple selectors separated by spaces. -/
def isSelectorChain (cs : List Char) : Bool :=
  let words := pieces ' ' cs
  words.head? != some [] && words.getLast? != some [] &&
    words.all fun word => word.isEmpty || isSimpleSelector word

/-- The greatest length of a scope. -/
def scopeLimit : Nat := 200

/-- How much of a refused scope is shown. -/
def shownScopeLength : Nat := 40

/-- A selector under which a whole sheet may be placed: simple selectors separated by spaces, not
too long and without a threat. -/
def isScope (s : String) : Bool :=
  decide (s.length ≤ scopeLimit) && isSelectorChain s.toList && isSafe s

/-- The scope that a value gives. -/
def checkScope : Json → Except OptionFault (Option String)
  | .null => .ok none
  | .string s =>
    if s.toList.all isBlank then .error .emptyScope
    else if isScope s then .ok (some s)
    else .error (.refusedScope (.ofList (s.toList.take shownScopeLength)))
  | _ => .error .emptyScope

/-- The truth value that an option gives. -/
def checkBoolean (option : OptionName) : Json → Except OptionFault Bool
  | .bool b => .ok b
  | v => .error (.notBoolean option v.kindName)

namespace SheetOptions

/-- The options that hold unless others are given. -/
def default : SheetOptions := ⟨false, true, false, false, none⟩

/-- The options by name, in their order. -/
def fields (options : SheetOptions) : List (String × Json) :=
  [(OptionName.minify.name, .bool options.minify), (OptionName.group.name, .bool options.group),
    (OptionName.comments.name, .bool options.comments),
    (OptionName.important.name, .bool options.important),
    (OptionName.scope.name, .stringOrNull options.scope)]

/-- The options as a JSON value. -/
def toJson (options : SheetOptions) : Json := .object options.fields

/-- The options that named values mention, in order. -/
def mentions : List (String × Json) → Except OptionFault (List (OptionName × Json))
  | [] => .ok []
  | (name, v) :: rest =>
    match OptionName.ofSpelling? name with
    | none => .error (.unknown name)
    | some option => (mentions rest).map ((option, v) :: ·)

/-- The value that the last mention gives an option. -/
def lastMention? (given : List (OptionName × Json)) (option : OptionName) : Option Json :=
  given.reverse.lookup option

/-- The options from mentions, which are checked in the order of the options. -/
def ofMentions (given : List (OptionName × Json)) : Except OptionFault SheetOptions := do
  let boolean (option : OptionName) (standard : Bool) : Except OptionFault Bool :=
    match lastMention? given option with
    | none => .ok standard
    | some v => checkBoolean option v
  let minify ← boolean .minify default.minify
  let group ← boolean .group default.group
  let comments ← boolean .comments default.comments
  let important ← boolean .important default.important
  let scope ← checkScope ((lastMention? given .scope).getD .null)
  return ⟨minify, group, comments, important, scope⟩

/-- The options from named values; an option without a mention has its default. -/
def ofFields (fields : List (String × Json)) : Except OptionFault SheetOptions := do
  ofMentions (← mentions fields)

/-- The options from a value: the defaults from a missing one. -/
def ofJson : Json → Except OptionFault SheetOptions
  | .null => .ok default
  | .object fields => ofFields fields
  | v => .error (.notMapping v.kindName)

/-- The options with some of them changed. A change in the listed spelling replaces the present
value; one in the other spelling is mentioned after all of them. -/
def merge (options : SheetOptions) (changes : List (String × Json)) :
    Except OptionFault SheetOptions :=
  ofFields (changes.foldl (fun fields change => Json.setField fields change.1 change.2)
    options.fields)

theorem ofFields_nil : ofFields [] = .ok default := rfl

end SheetOptions

end BracketCss
