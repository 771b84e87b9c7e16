import BracketCss.Sheet.Rule

/-!
# Groups of rules

Rules with the same media prelude and the same declarations may be written as one rule with
several selectors. A group keeps its selectors in the order in which they come.

## Main definitions

* `StyleGroup`: selectors that share their declarations
* `groupRules rules`: the rules as groups, one for each prelude and declaration text
* `singleGroups rules`: every rule as a group of its own

## Main results

* `length_singleGroups`: as many groups as rules
-/

namespace BracketCss

/-- Selectors that share their declarations and their media prelude. -/
structure StyleGroup where
  /-- The declarations. -/
  declarations : List (String × String)
  /-- The media prelude. -/
  media : Option String
  /-- The selectors. -/
  selectors : List String
  /-- The classes. -/
  classNames : List String
  /-- The greatest weight of a rule. -/
  priority : Nat
  deriving DecidableEq, Repr

namespace StyleGroup

/-- The declarations in one line. -/
def declarationText (group : StyleGroup) : String := BracketCss.declarationText group.declarations

/-- The selectors as one list. -/
def selector (group : StyleGroup) : String := ", ".intercalate group.selectors

/-- The group of a single rule. -/
def ofRule (rule : StyleRule) : StyleGroup :=
  ⟨rule.declarations, rule.media, [rule.selector], [rule.className], rule.priority⟩

/-- A rule belongs into a group: it has its prelude and its declarations. -/
def admits (group : StyleGroup) (rule : StyleRule) : Bool :=
  group.media == rule.media && group.declarationText == rule.declarationText

/-- The items with one more at the end, unless it is there already. -/
def addOnce (items : List String) (item : String) : List String :=
  if items.contains item then items else items ++ [item]

/-- The group with one more rule. -/
def add (group : StyleGroup) (rule : StyleRule) : StyleGroup :=
  { group with
    selectors := addOnce group.selectors rule.selector
    classNames := addOnce group.classNames rule.className
    priority := max group.priority rule.priority }

/-- The group as a JSON value. -/
def toJson (group : StyleGroup) : Json :=
  .object
    [("declaration_string", .string group.declarationText),
      ("declarations", declarationsJson group.declarations),
      ("media", .stringOrNull group.media), ("selectors", .strings group.selectors),
      ("class_names", .strings group.classNames), ("priority", .nat group.priority),
      ("selector", .string group.selector),
      ("css", .string (ruleText group.selector group.declarationText))]

end StyleGroup

/-- The groups with one more rule: in the group that admits it, or in a new one at the end. -/
def addToGroups : List StyleGroup → StyleRule → List StyleGroup
  | [], rule => [.ofRule rule]
  | group :: groups, rule =>
    if group.admits rule then group.add rule :: groups else group :: addToGroups groups rule

/-- The rules as groups, in the order of their first rules. -/
def groupRules (rules : List StyleRule) : List StyleGroup := rules.foldl addToGroups []

/-- Every rule as a group of its own. -/
def singleGroups (rules : List StyleRule) : List StyleGroup := rules.map .ofRule

@[simp] theorem groupRules_nil : groupRules [] = [] := rfl

theorem groupRules_append_singleton (rules : List StyleRule) (rule : StyleRule) :
    groupRules (rules ++ [rule]) = addToGroups (groupRules rules) rule := by
  simp [groupRules]

theorem length_singleGroups (rules : List StyleRule) :
    (singleGroups rules).length = rules.length := by simp [singleGroups]

end BracketCss
