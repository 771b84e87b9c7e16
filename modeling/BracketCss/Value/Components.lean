import BracketCss.Value.Function

/-!
# Components of values

A raw value is split at its top-level commas, and for some properties at blanks as well, and put
together again in one canonical way. A single call of a listed function is kept whole.

## Main definitions

* `ComponentFault`, `ComponentFault.message`: why a raw value cannot be split
* `Components`, `Components.ofText`: the parts of a value
-/

namespace BracketCss

open Text

/-- Why a raw value cannot be split. -/
inductive ComponentFault where
  /-- The value is no text. -/
  | notText
  /-- There is nothing. -/
  | empty
  /-- The structure of the value is at fault. -/
  | malformed (fault : Scan.Fault)
  /-- Nothing between two commas. -/
  | emptyComponent
  /-- Blanks inside a part, where they are not allowed. -/
  | spaces (part : String)
  deriving DecidableEq, Repr

/-- The text of a fault. -/
def ComponentFault.message : ComponentFault → String
  | notText => "value must be a string"
  | empty => "empty value"
  | malformed fault => fault.message
  | emptyComponent => "empty component between commas"
  | spaces part => "space-separated values are not allowed here: " ++ quoted part

/-- The offset at which a fault shows, if it is at one place. -/
def ComponentFault.position? : ComponentFault → Option Nat
  | malformed fault => fault.position?
  | _ => none

/-- A value taken apart. -/
structure Components where
  /-- The value put together again. -/
  normalized : String
  /-- The parts. -/
  parts : List String
  /-- The value is one call of a listed function. -/
  isCall : Bool
  deriving DecidableEq, Repr

namespace Components

/-- The parts that one part between commas contributes. -/
def partsOf (allowSpaces : Bool) (part : List Char) : List (List Char) :=
  if allowSpaces then Scan.topWords part else [part]

/-- The first part between commas that holds blanks. -/
def firstSpaced? (parts : List (List Char)) : Option (List Char) :=
  parts.find? fun part => 1 < (Scan.topWords part).length

/-- A part between commas with single spaces between its words. -/
def respaced (part : List Char) : String :=
  " ".intercalate ((Scan.topWords part).map String.ofList)

/-- Takes a raw value apart. With `allowSpaces` blanks separate parts too; `joiner` stands between
the parts that commas separate when they are put together again. -/
def ofText (allowSpaces : Bool) (joiner : String) (raw : String) :
    Except ComponentFault Components := do
  let cs := trim raw.toList
  if cs.isEmpty then throw .empty
  (Scan.check cs).mapError .malformed
  if (Scan.callOf? safeFunctions cs).isSome then
    return ⟨.ofList cs, [.ofList cs], true⟩
  let parts := Scan.commaParts cs
  if parts.contains [] then throw .emptyComponent
  if !allowSpaces then
    if let some part := firstSpaced? parts then throw (.spaces (.ofList part))
  return ⟨joiner.intercalate (parts.map respaced),
    (parts.flatMap (partsOf allowSpaces)).map String.ofList, false⟩

end Components

end BracketCss
