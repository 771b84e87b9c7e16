import BracketCss.Class.Reader
import BracketCss.Sheet.Render

/-!
# Batches and compilations

What a list of tokens comes to: the classes read and the tokens refused, and further the rules,
groups and sheet of the classes.

## Main definitions

* `InvalidClass`: a refused token as it is reported
* `Batch`, `Batch.ofResults`: what reading a list of tokens yields
* `Compilation`: what compiling it yields
* `distinctTokens tokens`: the tokens that are read
-/

namespace BracketCss

/-- A refused token as it is reported. -/
structure InvalidClass where
  /-- The token, or the notation of one that is no text. -/
  className : String
  /-- What is wrong. -/
  reason : String
  /-- The category. -/
  code : FailureCode
  /-- What may have been meant. -/
  suggestions : List String
  deriving DecidableEq, Repr

namespace InvalidClass

/-- The report on a failure of a class. -/
def ofClass (name : String) (failure : Failure) : InvalidClass :=
  ⟨name, failure.message, failure.code, failure.suggestions⟩

/-- The text by which a token is reported. -/
def tokenName : Json → String
  | .string s => s
  | token => token.literal

/-- The report on a failure of a token. -/
def ofToken (token : Json) (failure : Failure) : InvalidClass := ofClass (tokenName token) failure

/-- The report as a JSON value. -/
def toJson (c : InvalidClass) : Json :=
  .object
    [("class_name", .string c.className), ("reason", .string c.reason),
      ("code", .string c.code.name), ("suggestions", .strings c.suggestions)]

end InvalidClass

/-- What reading a list of tokens yields. -/
structure Batch where
  /-- The classes in order, each once. -/
  parsed : List UtilityClass
  /-- The refused tokens in order. -/
  invalid : List InvalidClass
  /-- The number of tokens given. -/
  total : Nat
  /-- Reading ended before the last token. -/
  isCancelled : Bool

/-- What reading a token yields. -/
abbrev TokenResult := Json × Except Failure UtilityClass

namespace Batch

/-- The class of a token that was read. -/
def class? : TokenResult → Option UtilityClass
  | (_, .ok c) => some c
  | (_, .error _) => none

/-- The report on a token that was refused. -/
def invalid? : TokenResult → Option InvalidClass
  | (_, .ok _) => none
  | (token, .error failure) => some (.ofToken token failure)

/-- The batch of the results for its tokens. -/
def ofResults (total : Nat) (isCancelled : Bool) (results : List TokenResult) : Batch :=
  ⟨distinctBy (·.name) (results.filterMap class?), results.filterMap invalid?, total, isCancelled⟩

/-- The names of the classes. -/
def valid (batch : Batch) : List String := batch.parsed.map (·.name)

end Batch

/-- The tokens without those texts that are among the seen ones or occur before. -/
def distinctTokensFrom (seen : List String) : List Json → List Json
  | [] => []
  | .string s :: tokens =>
    if seen.contains s then distinctTokensFrom seen tokens
    else .string s :: distinctTokensFrom (s :: seen) tokens
  | token :: tokens => token :: distinctTokensFrom seen tokens

/-- The tokens that are read: of equal texts only the first, and all that are no texts. -/
def distinctTokens (tokens : List Json) : List Json := distinctTokensFrom [] tokens

/-- What compiling a list of tokens yields. -/
structure Compilation where
  /-- The sheet. -/
  css : String
  /-- The rules in the order of their classes. -/
  rules : List StyleRule
  /-- The groups of rules. -/
  groups : List StyleGroup
  /-- The refused tokens and classes. -/
  invalid : List InvalidClass
  /-- The number of tokens given. -/
  total : Nat
  /-- Reading ended before the last token. -/
  isCancelled : Bool
  /-- The result was kept from before. -/
  isCached : Bool

namespace Compilation

/-- The groups per rule, with four places; one if there are no rules. -/
def compressionRatio (c : Compilation) : Decimal :=
  if c.rules.isEmpty then (Ratio.mk 1 1).rounded 4
  else (Ratio.mk c.groups.length c.rules.length).rounded 4

/-- The counts as a JSON value. -/
def statsJson (c : Compilation) : Json :=
  .object
    [("total_input", .nat c.total), ("valid_classes", .nat c.rules.length),
      ("invalid_classes", .nat c.invalid.length), ("generated_rules", .nat c.rules.length),
      ("grouped_rules", .nat c.groups.length), ("compression_ratio", .real c.compressionRatio),
      ("processing_time", .real (.ofNat 0)), ("from_cache", .bool c.isCached)]

/-- The compilation as a JSON value. -/
def toJson (c : Compilation) : Json :=
  .object
    [("css", .string c.css), ("invalid", .array (c.invalid.map (·.toJson))),
      ("stats", c.statsJson), ("cancelled", .bool c.isCancelled)]

/-- The compilation as it is served when it was kept. -/
def fromCache (c : Compilation) : Compilation := { c with isCached := true }

/-- The rules of classes and the reports on those without one. -/
def ofRules (options : SheetOptions) (batch : Batch) (rules : List StyleRule)
    (refused : List InvalidClass) : Compilation :=
  let groups := if options.group then groupRules rules else singleGroups rules
  ⟨renderSheet options groups, rules, groups, batch.invalid ++ refused, batch.total,
    batch.isCancelled, false⟩

end Compilation

end BracketCss
