import BracketCss.Number.Decimal
import BracketCss.Text.Case

/-!
# Arithmetic expressions

The expressions inside `calc()`, `min()`, `max()` and `clamp()` as trees, and the rules that a
tree has to obey: which functions may be called with how many arguments, where a custom property
may stand, and that no divisor is a literal zero. Units are not checked against each other.

## Main definitions

* `MathExpr`: the trees
* `MathFault`, `MathFault.message`: why an expression is refused
* `MathExpr.operand e`: what a tree amounts to, if it obeys the rules
* `mathFunctions`: the functions that may be called

## Main results

* `operand_parens`, `operand_negated`: what parentheses and a minus sign amount to
-/

namespace BracketCss

open Text

/-- An arithmetic operator. -/
inductive MathOperator where
  /-- Addition. -/
  | plus
  /-- Subtraction. -/
  | minus
  /-- Multiplication. -/
  | times
  /-- Division. -/
  | over
  deriving DecidableEq, Repr

/-- An arithmetic expression. Leaves keep their text. -/
inductive MathExpr where
  /-- A number. -/
  | number (text : List Char)
  /-- A number with a unit. -/
  | dimension (text : List Char)
  /-- An identifier. -/
  | identifier (text : List Char)
  /-- The name of a custom property, as an argument. -/
  | customProperty (text : List Char)
  /-- A minus sign in front. -/
  | negated (e : MathExpr)
  /-- A plus sign in front. -/
  | signed (e : MathExpr)
  /-- Two expressions with an operator between them. -/
  | binary (op : MathOperator) (left right : MathExpr)
  /-- Parentheses. -/
  | parens (e : MathExpr)
  /-- A function call. -/
  | call (name : List Char) (arguments : List MathExpr)

/-- Why an arithmetic expression is refused. -/
inductive MathFault where
  /-- There is no expression. -/
  | empty
  /-- A character that no expression holds. -/
  | disallowedCharacters
  /-- Unequal numbers of opening and closing parentheses. -/
  | unbalanced
  /-- A token that cannot stand where it does, or an early end. -/
  | unexpectedToken
  /-- Text that is no token. -/
  | unexpectedCharacters
  /-- A divisor that is a literal zero. -/
  | divisionByZero
  /-- A function that may not be called. -/
  | disallowedFunction (name : String)
  /-- The wrong number of arguments. -/
  | wrongCount (name expected : String) (given : Nat)
  /-- A reference that does not start with the name of a custom property. -/
  | missingCustomProperty
  /-- The name of a custom property outside a reference. -/
  | strayCustomProperty (name : String)
  deriving DecidableEq, Repr

/-- The text of a fault. -/
def MathFault.message : MathFault → String
  | empty => "empty expression"
  | disallowedCharacters => "expression contains characters that are not allowed"
  | unbalanced => "unbalanced parentheses"
  | unexpectedToken => "malformed expression: UnexpectedToken"
  | unexpectedCharacters => "malformed expression: UnexpectedCharacters"
  | divisionByZero => "division by zero"
  | disallowedFunction name => name ++ "() is not allowed in a math expression"
  | wrongCount name expected given => s!"{name}() takes {expected} argument(s), got {given}"
  | missingCustomProperty => "var() must start with a --custom-property name"
  | strayCustomProperty name => name ++ " must be wrapped in var()"

/-- How many arguments a function takes. -/
structure Arity where
  /-- The least number. -/
  least : Nat
  /-- The greatest number, if there is one. -/
  greatest : Option Nat
  deriving DecidableEq, Repr

/-- A number of arguments is among those taken. -/
def Arity.allows (arity : Arity) (n : Nat) : Bool :=
  arity.least ≤ n && arity.greatest.all (n ≤ ·)

/-- The numbers of arguments in words. -/
def Arity.toText (arity : Arity) : String :=
  match arity.greatest with
  | none => s!"{arity.least}+"
  | some n => if n = arity.least then s!"{n}" else s!"{arity.least}-{n}"

/-- The functions that an expression may call, with their numbers of arguments. -/
def mathArities : List (String × Arity) :=
  [("calc", ⟨1, some 1⟩), ("min", ⟨1, none⟩), ("max", ⟨1, none⟩), ("clamp", ⟨3, some 3⟩),
    ("var", ⟨1, some 2⟩), ("env", ⟨1, some 2⟩)]

/-- The names of the functions that an expression may call. -/
def mathFunctions : List String := mathArities.map (·.1)

/-- What an expression amounts to, as far as the expression around it minds. -/
inductive MathOperand where
  /-- A literal with its value, its unit aside. -/
  | literal (value : Decimal)
  /-- The name of a custom property. -/
  | customProperty (name : String)
  /-- Anything else. -/
  | other
  deriving DecidableEq, Repr

/-- The value of the number that starts a text. -/
def literalValue (text : List Char) : MathOperand :=
  match Decimal.ofUnsigned? text with
  | some (value, _) => .literal value
  | none => .other

/-- What a sign change makes of an operand. -/
def MathOperand.neg : MathOperand → MathOperand
  | literal value => literal value.neg
  | _ => other

/-- The operand is a literal zero. -/
def MathOperand.isZero : MathOperand → Bool
  | literal value => value.isZero
  | _ => false

/-- The fault of an argument, given its place: a custom property stands first in a reference, and
nowhere else. -/
def checkArgument (name : String) (index : Nat) : MathOperand → Except MathFault Unit
  | .customProperty property =>
    if name == "var" && index == 0 then .ok () else .error (.strayCustomProperty property)
  | _ => if name == "var" && index == 0 then .error .missingCustomProperty else .ok ()

/-- The first fault among the arguments from a place on. -/
def checkArguments (name : String) (index : Nat) : List MathOperand → Except MathFault Unit
  | [] => .ok ()
  | operand :: rest => do
    checkArgument name index operand
    checkArguments name (index + 1) rest

/-- The fault of a call, given what its arguments amount to. -/
def checkCall (name : String) (operands : List MathOperand) : Except MathFault Unit :=
  match mathArities.lookup name with
  | none => .error (.disallowedFunction name)
  | some arity =>
    if arity.allows operands.length then checkArguments name 0 operands
    else .error (.wrongCount name arity.toText operands.length)

mutual

/-- What an expression amounts to; an expression that breaks a rule amounts to its first fault,
in the order in which a reader meets the closed parts. -/
def MathExpr.operand : MathExpr → Except MathFault MathOperand
  | number text | dimension text => .ok (literalValue text)
  | identifier _ => .ok .other
  | customProperty text => .ok (.customProperty (.ofList text))
  | negated e => e.operand.map MathOperand.neg
  | signed e => e.operand
  | binary op left right => do
    let _ ← left.operand
    let divisor ← right.operand
    if op = .over ∧ divisor.isZero then .error .divisionByZero else .ok .other
  | parens e => e.operand
  | call name arguments => do
    let operands ← MathExpr.operands arguments
    checkCall (.ofList (lower name)) operands
    .ok .other

/-- What the arguments of a call amount to. -/
def MathExpr.operands : List MathExpr → Except MathFault (List MathOperand)
  | [] => .ok []
  | e :: rest => do
    let operand ← e.operand
    let others ← MathExpr.operands rest
    .ok (operand :: others)

end

theorem MathExpr.operand_parens (e : MathExpr) : (parens e).operand = e.operand := by
  simp [operand]

theorem MathExpr.operand_negated (e : MathExpr) :
    (negated e).operand = e.operand.map MathOperand.neg := by simp [operand]

end BracketCss
