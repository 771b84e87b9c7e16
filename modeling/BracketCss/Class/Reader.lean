import BracketCss.Class.Basic
import BracketCss.Clean
import BracketCss.Failure
import BracketCss.Text.Pieces
import BracketCss.Value.Validate

/-!
# Reading class names

A class name has the form `variant:utility-[value]`, with at most one breakpoint and one
pseudo-class before the utility. A token is cleaned, searched for threats, taken apart, and its
value is checked against the property that the utility sets.

## Main definitions

* `InputLimits`: the limits on input
* `splitVariants name`: the variants and the rest of a name
* `bracketParts? body`: the utility and the raw value
* `formFaults table body`: what is wrong with a name of another form
* `UtilityClass.read table limits token`: the class of a token

## Main results

* `append_bracketParts?`: a name is its utility and its raw value put together
-/

namespace BracketCss

open Text

/-- The limits on input. -/
structure InputLimits where
  /-- The greatest length of a class name. -/
  classLength : Int
  /-- The greatest length of a value. -/
  valueLength : Int
  /-- The greatest number of classes in one request. -/
  requestSize : Int
  /-- The time that matching a class should take at most, in milliseconds. No time is counted, so
  that only a negative one is overrun. -/
  budget : Rat

/-- The standard limits. -/
def InputLimits.standard : InputLimits := ⟨Clean.classLimit, Clean.valueLimit, 10000, 100⟩

/-- The variants with one more, given by name. -/
def Variants.add (variants : Variants) (name : String) : Except Rejection Variants :=
  match Breakpoint.ofName? name, PseudoClass.ofName? name with
  | some breakpoint, _ =>
    if variants.breakpoint.isNone then .ok { variants with breakpoint := some breakpoint }
    else .error (.conflictingVariant name)
  | none, some pseudo =>
    if variants.pseudo.isNone then .ok { variants with pseudo := some pseudo }
    else .error (.conflictingVariant name)
  | none, none => .error (.unknownVariant name)

/-- The variants of a list of names. -/
def Variants.ofNames (names : List String) : Except Rejection Variants :=
  names.foldlM Variants.add Variants.plain

/-- How many variants are suggested for an unknown one. -/
def variantSuggestionCount : Nat := 3

/-- The classes that may be meant by one with an unknown variant. -/
def variantSuggestions (body : String) : Rejection → List String
  | .unknownVariant name =>
    ((closest name Variants.names suggestionDistance).take variantSuggestionCount).map
      fun known => known ++ ":" ++ body
  | _ => []

/-- The variants of a name, each ended by a colon, and the rest; colons in brackets do not
count. -/
def splitVariants (name : String) : Except Failure (Variants × List Char) :=
  let cs := name.toList
  let head := cs.takeWhile (· != '[')
  let segments := pieces ':' head
  let body := segments.getLastD [] ++ cs.dropWhile (· != '[')
  match Variants.ofNames (segments.dropLast.map String.ofList) with
  | .ok variants => .ok (variants, body)
  | .error cause =>
    .error (cause.failure (some name) (variantSuggestions (.ofList body) cause))

/-- A utility name: a letter, then letters, digits and hyphens. -/
def isUtilityName : List Char → Bool
  | [] => false
  | c :: cs => isAsciiLetter c && cs.all isAsciiNameChar

/-- The utility and the raw value of a name of the form `utility-[value]`. -/
def bracketParts? (body : List Char) : Option (List Char × List Char) :=
  let head := body.takeWhile (· != '[')
  match body.dropWhile (· != '[') with
  | '[' :: inside =>
    let utility := head.dropLast
    let raw := inside.dropLast
    if head.getLast? = some '-' ∧ inside.getLast? = some ']' ∧ isUtilityName utility ∧
        raw ≠ [] ∧ ']' ∉ raw then
      some (utility, raw)
    else none
  | _ => none

theorem append_bracketParts? {body utility raw : List Char}
    (h : bracketParts? body = some (utility, raw)) :
    body = utility ++ ['-', '['] ++ raw ++ [']'] := by
  have cut := (List.takeWhile_append_dropWhile (p := (· != '[')) (l := body)).symm
  simp only [bracketParts?] at h
  split at h
  · next inside rest =>
    split at h
    · next good =>
      simp only [Option.some.injEq, Prod.mk.injEq] at h
      obtain ⟨rfl, rfl⟩ := h
      obtain ⟨x, hx⟩ := List.getLast?_eq_some_iff.1 good.1
      obtain ⟨y, hy⟩ := List.getLast?_eq_some_iff.1 good.2.1
      rw [rest] at cut
      rw [hx] at cut ⊢
      rw [hy] at cut ⊢
      simpa using cut
    · cases h
  · cases h

/-- A hyphen before an opening bracket. -/
def hasOpening : List Char → Bool
  | [] => false
  | c :: cs => (c == '-' && cs.head? == some '[') || hasOpening cs

/-- A name without brackets written with them: what follows the last hyphen behind a known utility
becomes the value. -/
def bracketed? (table : PropertyTable) (body : List Char) : Option String :=
  (List.range body.length).reverse.findSome? fun n =>
    let utility := String.ofList (body.take n)
    if n ≠ 0 ∧ body[n]? = some '-' ∧ (table.property? utility).any (· ≠ "") then
      some (utility ++ "-[" ++ .ofList (body.drop (n + 1)) ++ "]")
    else none

/-- What is wrong with the brackets of a name, and how it may be meant. -/
def bracketFault? (table : PropertyTable) (body : List Char) :
    Option (FormFault × Option String) :=
  if '[' ∉ body then some (.unbracketed, bracketed? table body)
  else if !hasOpening body then
    some (.missingHyphen,
      some (.ofList (body.takeWhile (· != '[') ++ '-' :: body.dropWhile (· != '['))))
  else if body.count ']' = 1 ∧ body.getLast? ≠ some ']' then
    some (.trailing, some (.ofList (body.takeWhile (· != ']') ++ [']'])))
  else none

/-- What is wrong with a name that is not of the form `utility-[value]`, and how it may be
meant. -/
def formFaults (table : PropertyTable) (body : List Char) : List (FormFault × Option String) :=
  (if body.head?.any isDigit then [(.startsWithDigit, none)] else []) ++
  (if body.count '[' ≠ body.count ']' then
    [(.unbalanced,
      if '[' ∈ body ∧ body.getLast? ≠ some ']' then some (.ofList (body ++ [']'])) else none)]
  else []) ++
  (if ' ' ∈ body then [(.space, some (.ofList (body.filter (· != ' '))))] else []) ++
  (bracketFault? table body).toList

namespace UtilityClass

variable (table : PropertyTable) (limits : InputLimits)

/-- The class with a utility and a raw value. -/
def ofParts (name : String) (variants : Variants) (utility raw : List Char) :
    Except Failure UtilityClass := do
  let rawText := String.ofList raw
  let utilityText := String.ofList utility
  let refuse {α : Type} (cause : Rejection) (suggestions : List String) : Except Failure α :=
    throw (cause.failure (some name) suggestions)
  if (Clean.clean? limits.valueLength rawText).isNone then
    refuse (.longValue limits.valueLength) []
  let some own := table.property? utilityText
    | refuse (.unknownUtility utilityText)
        (table.suggestions utilityText PropertyTable.suggestionLimit)
  let property := propertyFor utilityText raw own
  let rule := (table.rule? property).getD (.ofKind .complex)
  match Components.ofText rule.shorthand rule.separator rawText with
  | .error fault => refuse (.unsplittable rawText fault.message) []
  | .ok components =>
    match validateValue table property components.normalized with
    | .rejected fault suggestions _ =>
      refuse (.refusedValue property components.normalized fault.message) suggestions
    | .accepted value type detail =>
      return ⟨name, utilityText, property, value, rawText, components.parts, components.isCall,
        type, detail, variants⟩

/-- The class of a name that was cleaned. -/
def ofClean (name : String) : Except Failure UtilityClass := do
  let report := ThreatReport.ofText name
  if report.isBlocking then
    throw ((Rejection.dangerous report.risk report.names).failure (some name) [])
  let (variants, body) ← splitVariants name
  if limits.budget < 0 then throw (Rejection.slow.failure (some name) [])
  match bracketParts? body with
  | some (utility, raw) => ofParts table limits name variants utility raw
  | none =>
    let faults := formFaults table body
    throw ((Rejection.malformed (faults.map (·.1))).failure (some name)
      (faults.filterMap (·.2)))

/-- The length to which a class that cannot be cleaned is cut in its failure. -/
def shownLength : Nat := 80

/-- The class of a text. -/
def ofText (s : String) : Except Failure UtilityClass :=
  let refusal := Rejection.uncleanable.failure (some (.ofList (s.toList.take shownLength))) []
  match Clean.clean? limits.classLength s with
  | none => .error refusal
  | some name => if name.isEmpty then .error refusal else ofClean table limits name

/-- The class of a token, which must be a text. -/
def read : Json → Except Failure UtilityClass
  | .string s => ofText table limits s
  | token => .error ((Rejection.notText token.kindName).failure none [])

end UtilityClass

end BracketCss
