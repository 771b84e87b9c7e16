import BracketCss.Number.Binary
import BracketCss.Text.Quoted

/-!
# JSON values

The values that callers hand in and answers are made of. An object keeps the order of its
fields. Messages name the kind of a value and may show it in the notation of a literal. A text is
made of characters, so that half of a surrogate pair alone is none.

## Main definitions

* `Json.Number`, `Json`: numbers and values
* `Json.field? v k`: the value of a field
* `Json.setField fields k v`: the fields with one set
* `Json.kindName v`: the kind of a value, as messages name it
* `Json.literal v`: the notation in which messages show a value
-/

namespace BracketCss

/-- A number: an integer, a decimal with a fraction or exponent, an infinity, or no number. -/
inductive Json.Number where
  /-- An integer. -/
  | whole (n : Int)
  /-- A number written with a fraction or an exponent. -/
  | real (d : Decimal)
  /-- An infinity. -/
  | infinite (negative : Bool)
  /-- The result of an undefined operation. -/
  | undefined
  deriving DecidableEq, Repr

namespace Json.Number

/-- The number as messages write it. -/
def toText : Number → String
  | whole n => toString n
  | real d => realText d
  | infinite negative => if negative then "-inf" else "inf"
  | undefined => "nan"

/-- The value of a finite number; the others count as zero. -/
def toRat : Number → Rat
  | whole n => n
  | real d => d.toRat
  | infinite _ | undefined => 0

/-- The number as a decimal; an infinity or an undefined number counts as zero. -/
def toDecimal : Number → Decimal
  | whole n => ⟨n < 0, n.natAbs, 0⟩
  | real d => d
  | infinite _ | undefined => Decimal.ofNat 0

/-- The sum of two numbers, an integer if both are; one that is not finite counts as zero. -/
def add : Number → Number → Number
  | whole a, whole b => whole (a + b)
  | a, b => real (a.toDecimal.add b.toDecimal)

end Json.Number

/-- A JSON value. -/
inductive Json where
  /-- The missing value. -/
  | null
  /-- A truth value. -/
  | bool (b : Bool)
  /-- A number. -/
  | number (n : Json.Number)
  /-- A text. -/
  | string (s : String)
  /-- A list of values. -/
  | array (items : List Json)
  /-- Named values, in the order in which they were given. -/
  | object (fields : List (String × Json))

namespace Json

instance : Inhabited Json := ⟨null⟩

/-- An integer. -/
def int (n : Int) : Json := number (.whole n)

/-- A count. -/
def nat (n : Nat) : Json := int n

/-- A number with a fraction. -/
def real (d : Decimal) : Json := number (.real d)

/-- A quotient of counts. -/
def ratio (r : Ratio) : Json := real r.value

/-- A list of texts. -/
def strings (items : List String) : Json := array (items.map string)

/-- A text, or the missing value. -/
def stringOrNull : Option String → Json
  | some s => string s
  | none => null

/-- The value of a field of an object. -/
def field? : Json → String → Option Json
  | object fields, name => fields.lookup name
  | _, _ => none

/-- The fields with one more at the end, or with the value of an earlier one replaced. -/
def setField (fields : List (String × Json)) (name : String) (v : Json) :
    List (String × Json) :=
  if fields.any (·.1 == name) then
    fields.map fun entry => if entry.1 == name then (name, v) else entry
  else fields ++ [(name, v)]

/-- The text of a string value. -/
def string? : Json → Option String
  | string s => some s
  | _ => none

/-- The items of an array. -/
def array? : Json → Option (List Json)
  | array items => some items
  | _ => none

/-- The fields of an object. -/
def object? : Json → Option (List (String × Json))
  | object fields => some fields
  | _ => none

/-- What running through a value meets: the items of an array, the characters of a text, or the
names of an object's fields. -/
def items? : Json → Option (List Json)
  | array items => some items
  | string s => some (s.toList.map fun c => string (.singleton c))
  | object fields => some (fields.map fun entry => string entry.1)
  | _ => none

/-- The kind of a value, as messages name it. -/
def kindName : Json → String
  | null => "NoneType"
  | bool _ => "bool"
  | number (.whole _) => "int"
  | number _ => "float"
  | string _ => "str"
  | array _ => "list"
  | object _ => "dict"

mutual

/-- The notation in which messages show a value. -/
def literal : Json → String
  | null => "None"
  | bool b => if b then "True" else "False"
  | number n => n.toText
  | string s => Text.quoted s
  | array items => "[" ++ ", ".intercalate (literals items) ++ "]"
  | object fields => "\x7b" ++ ", ".intercalate (fieldLiterals fields) ++ "\x7d"

/-- The notations of the items of an array. -/
def literals : List Json → List String
  | [] => []
  | v :: rest => literal v :: literals rest

/-- The notations of the fields of an object. -/
def fieldLiterals : List (String × Json) → List String
  | [] => []
  | (name, v) :: rest => (Text.quoted name ++ ": " ++ literal v) :: fieldLiterals rest

end

end Json

end BracketCss
