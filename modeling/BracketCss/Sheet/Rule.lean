import BracketCss.Class.Basic
import BracketCss.Failure

/-!
# Style rules

The rule of one class: its selector with the state it is limited to, its declaration, and the
media prelude of its breakpoint.

## Main definitions

* `declarationText declarations`: declarations in one line, sorted by property
* `specificity`: the weight of a rule by what it is limited to
* `StyleRule`, `StyleRule.make`, `UtilityClass.rule`: the rule of a class
* `breaksOut value`: a value that would end its rule

## Main results

* `UtilityClass.rule_eq_ok`: what it takes to have a rule, and which one it is
-/

namespace BracketCss

/-- Declarations sorted by property. -/
def sortDeclarations (declarations : List (String × String)) : List (String × String) :=
  declarations.mergeSort fun a b => decide (a.1 ≤ b.1)

theorem sortDeclarations_singleton (declaration : String × String) :
    sortDeclarations [declaration] = [declaration] := by
  rw [sortDeclarations, List.mergeSort_singleton]

/-- Declarations in one line, sorted by property. -/
def declarationText (declarations : List (String × String)) : String :=
  "; ".intercalate ((sortDeclarations declarations).map fun entry => entry.1 ++ ": " ++ entry.2)

/-- A rule in one line. -/
def ruleText (selector declarations : String) : String :=
  selector ++ " \x7b " ++ declarations ++ "; \x7d"

/-- Declarations as a JSON value. -/
def declarationsJson (declarations : List (String × String)) : Json :=
  .object (declarations.map fun entry => (entry.1, .string entry.2))

/-- The weight of a rule: that of a class, as much again for a pseudo-class, and one for a media
prelude. -/
def specificity (pseudo media : Bool) : Nat :=
  10 + (if pseudo then 10 else 0) + (if media then 1 else 0)

/-- The rule of one class. -/
structure StyleRule where
  /-- The selector with its state. -/
  selector : String
  /-- The class. -/
  className : String
  /-- The property. -/
  property : String
  /-- The value as declared. -/
  value : String
  /-- The weight. -/
  priority : Nat
  /-- The media prelude. -/
  media : Option String
  deriving DecidableEq, Repr

namespace StyleRule

/-- The declarations of a rule. -/
def declarations (rule : StyleRule) : List (String × String) := [(rule.property, rule.value)]

/-- The declarations in one line. -/
def declarationText (rule : StyleRule) : String := BracketCss.declarationText rule.declarations

/-- The rule as a JSON value. -/
def toJson (rule : StyleRule) : Json :=
  .object
    [("selector", .string rule.selector), ("declarations", declarationsJson rule.declarations),
      ("class_name", .string rule.className), ("property", .string rule.property),
      ("value", .string rule.value), ("priority", .nat rule.priority),
      ("declaration_string", .string rule.declarationText),
      ("media", .stringOrNull rule.media),
      ("css", .string (ruleText rule.selector rule.declarationText))]

end StyleRule

/-- The value holds a brace or a semicolon and would end its rule. -/
def breaksOut (value : String) : Bool :=
  value.toList.any fun c => c == '\x7b' || c == '\x7d' || c == ';'

/-- A value as declared. -/
def declaredValue (important : Bool) (value : String) : String :=
  if important then value ++ " !important" else value

/-- The rule that declares a value for a class with a selector. -/
def StyleRule.make (className selector property value : String) (variants : Variants)
    (important : Bool) : Except Failure StyleRule :=
  if property.isEmpty ∨ value.isEmpty then
    .error (Rejection.noDeclaration.failure (some className) [])
  else if breaksOut value then
    .error ((Rejection.breaksOut value).failure (some className) [])
  else
    .ok ⟨variants.applyTo selector, className, property, declaredValue important value,
      specificity variants.pseudo.isSome variants.breakpoint.isSome, variants.media⟩

/-- The rule of a class. -/
def UtilityClass.rule (c : UtilityClass) (important : Bool) : Except Failure StyleRule :=
  StyleRule.make c.name c.selector c.property c.value c.variants important

/-- A class has a rule if it declares something, and its value ends no rule. -/
theorem UtilityClass.rule_eq_ok {c : UtilityClass} {important : Bool} {rule : StyleRule}
    (h : c.rule important = .ok rule) :
    c.property ≠ "" ∧ c.value ≠ "" ∧ breaksOut c.value = false ∧
      rule = ⟨c.fullSelector, c.name, c.property, declaredValue important c.value,
        specificity c.variants.pseudo.isSome c.variants.breakpoint.isSome, c.variants.media⟩ := by
  simp only [UtilityClass.rule, StyleRule.make] at h
  split at h
  · cases h
  · next some_ =>
    split at h
    · cases h
    · next closed =>
      simp only [String.isEmpty_iff, not_or] at some_
      exact ⟨some_.1, some_.2, Bool.not_eq_true _ |>.mp closed, (Except.ok.inj h).symm⟩

end BracketCss
