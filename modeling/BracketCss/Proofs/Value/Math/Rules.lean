import BracketCss.Proofs.Value.Math.Tree

/-!
# The rules of arithmetic expressions

What an expression may say: which functions it may call with how many arguments, where the names of
custom properties stand, and what it may divide by. The walk over a tree that finds its first fault
finds none exactly if every part of the tree obeys the rules.

## Main definitions

* `MathExpr.Takes name n`: a function that takes `n` arguments
* `MathExpr.IsZeroLiteral e`: a literal zero, under any signs and parentheses
* `MathExpr.Obeys e`: every part of an expression obeys the rules

## Main results

* `MathExpr.IsTree.isZero_iff`, `MathExpr.IsTree.isName_iff`: what a tree amounts to
* `MathExpr.IsTree.operand_eq_ok_iff`: a tree amounts to something if and only if it obeys the rules
-/

namespace BracketCss

open Text

/-- The operand is the name of a custom property. -/
def MathOperand.IsName (o : MathOperand) : Prop := ∃ name, o = customProperty name

namespace MathExpr

/-- A function that may be called, and a number of arguments that it takes. -/
def Takes (name : String) (n : Nat) : Prop :=
  name = "calc" ∧ n = 1 ∨ (name = "min" ∨ name = "max") ∧ 1 ≤ n ∨ name = "clamp" ∧ n = 3 ∨
    (name = "var" ∨ name = "env") ∧ 1 ≤ n ∧ n ≤ 2

/-- A number or dimension equal to zero, under any parentheses and signs. -/
inductive IsZeroLiteral : MathExpr → Prop
  | number {cs : List Char} : IsZeroNumeral cs → IsZeroLiteral (number cs)
  | dimension {cs : List Char} : IsZeroNumeral cs → IsZeroLiteral (dimension cs)
  | negated {e : MathExpr} : IsZeroLiteral e → IsZeroLiteral (negated e)
  | signed {e : MathExpr} : IsZeroLiteral e → IsZeroLiteral (signed e)
  | parens {e : MathExpr} : IsZeroLiteral e → IsZeroLiteral (parens e)

/-- What the rules ask at the root of a tree: a call is to a function that takes so many arguments,
and it is given the name of a custom property as the first argument of `var` and nowhere else; a
division is not by a literal zero. -/
def ObeysHere : MathExpr → Prop
  | call name args => Takes (.ofList (lower name)) args.length ∧
    ∀ index arg, args[index]? = some arg →
      (arg.IsName ↔ String.ofList (lower name) = "var" ∧ index = 0)
  | binary .over _ divisor => ¬ divisor.IsZeroLiteral
  | _ => True

/-- Every part of an expression obeys the rules. -/
def Obeys (e : MathExpr) : Prop := ∀ part, IsPart part e → part.ObeysHere

theorem obeys_iff {e : MathExpr} :
    e.Obeys ↔ e.ObeysHere ∧ ∀ child ∈ e.children, child.Obeys :=
  forall_isPart_iff

/-- Where the root is neither a call nor a division, only the child counts. -/
theorem obeys_iff_child {e child : MathExpr} (here : e.ObeysHere) (single : e.children = [child]) :
    e.Obeys ↔ child.Obeys := by
  rw [obeys_iff, and_iff_right here, single, List.forall_mem_singleton]

/-! ## Calls -/

section Calls

variable {name : String} {operands : List MathOperand}

theorem mem_of_lookup {table : List (String × Arity)} {arity : Arity}
    (h : table.lookup name = some arity) : (name, arity) ∈ table := by
  induction table with
  | nil => cases h
  | cons entry table ih =>
    rw [List.lookup_cons] at h
    split at h
    · next same =>
      cases h
      rw [eq_of_beq same]
      exact List.mem_cons_self
    · exact List.mem_cons_of_mem _ (ih h)

/-- The functions that may be called, with their numbers of arguments, are those of the table. -/
theorem takes_iff {n : Nat} :
    Takes name n ↔ ∃ arity, mathArities.lookup name = some arity ∧ arity.allows n := by
  constructor
  · rintro (⟨rfl, rfl⟩ | ⟨rfl | rfl, least⟩ | ⟨rfl, rfl⟩ | ⟨rfl | rfl, least, greatest⟩)
    · exact ⟨_, rfl, rfl⟩
    · exact ⟨_, rfl, by simp [Arity.allows, least]⟩
    · exact ⟨_, rfl, by simp [Arity.allows, least]⟩
    · exact ⟨_, rfl, rfl⟩
    · exact ⟨_, rfl, by simp [Arity.allows, least, greatest]⟩
    · exact ⟨_, rfl, by simp [Arity.allows, least, greatest]⟩
  · rintro ⟨arity, found, allowed⟩
    have entry := mem_of_lookup found
    simp only [mathArities, List.mem_cons, Prod.mk.injEq, List.not_mem_nil, or_false] at entry
    rcases entry with ⟨rfl, rfl⟩ | ⟨rfl, rfl⟩ | ⟨rfl, rfl⟩ | ⟨rfl, rfl⟩ | ⟨rfl, rfl⟩ |
        ⟨rfl, rfl⟩ <;>
      simp only [Arity.allows, Option.all_some, Option.all_none, Bool.and_true, Bool.and_eq_true,
        decide_eq_true_eq] at allowed <;>
      simp [Takes] <;> omega

theorem checkArgument_eq_ok_iff {index : Nat} {o : MathOperand} :
    checkArgument name index o = .ok () ↔ (o.IsName ↔ name = "var" ∧ index = 0) := by
  have place : (name == "var" && index == 0) = true ↔ name = "var" ∧ index = 0 := by simp
  have named : ∀ property, (MathOperand.customProperty property).IsName := fun _ => ⟨_, rfl⟩
  have literal : ∀ value, ¬ (MathOperand.literal value).IsName := fun value => nofun
  have other : ¬ MathOperand.other.IsName := nofun
  cases o with
  | customProperty property => simp [checkArgument, place, named property]
  | literal value => simp [checkArgument, place, literal value]
  | other => simp [checkArgument, place, other]

theorem checkArguments_eq_ok_iff {first : Nat} :
    checkArguments name first operands = .ok () ↔
      ∀ index o, operands[index]? = some o → (o.IsName ↔ name = "var" ∧ first + index = 0) := by
  induction operands generalizing first with
  | nil => simp [checkArguments]
  | cons o rest ih =>
    have step : checkArguments name first (o :: rest) = .ok () ↔
        checkArgument name first o = .ok () ∧ checkArguments name (first + 1) rest = .ok () := by
      rw [checkArguments, bind_eq_ok_iff]
      exact ⟨fun ⟨(), here, later⟩ => ⟨here, later⟩, fun ⟨here, later⟩ => ⟨(), here, later⟩⟩
    rw [step, checkArgument_eq_ok_iff, ih]
    constructor
    · rintro ⟨here, later⟩ (_ | index) o' at_
      · obtain rfl := Option.some.inj at_
        exact here
      · rw [← Nat.succ_add_eq_add_succ]
        exact later index o' at_
    · intro all
      refine ⟨all 0 o rfl, fun index o' at_ => ?_⟩
      rw [Nat.succ_add_eq_add_succ]
      exact all (index + 1) o' at_

/-- A call is fine if its function takes so many arguments and each argument suits its place. -/
theorem checkCall_eq_ok_iff : checkCall name operands = .ok () ↔ Takes name operands.length ∧
    ∀ index o, operands[index]? = some o → (o.IsName ↔ name = "var" ∧ index = 0) := by
  have places := @checkArguments_eq_ok_iff name operands 0
  simp only [Nat.zero_add] at places
  rw [takes_iff, checkCall, ← places]
  cases mathArities.lookup name with
  | none => simp
  | some arity =>
    by_cases allowed : arity.allows operands.length
    · simp [allowed]
    · simp [allowed]

end Calls

/-! ## Trees -/

section Trees

variable {b : Bool} {e : MathExpr} {o : MathOperand}

theorem operands_eq_ok_iff {args : List MathExpr} {os : List MathOperand} :
    operands args = .ok os ↔ List.Forall₂ (fun e o => e.operand = .ok o) args os := by
  induction args generalizing os with
  | nil => rw [List.forall₂_nil_left_iff, operands, Except.ok.injEq, eq_comm]
  | cons e rest ih =>
    rw [operands, bind_eq_ok_iff, List.forall₂_cons_left_iff]
    simp only [bind_eq_ok_iff, ih, Except.ok.injEq]
    constructor
    · rintro ⟨o, first, others, later, rfl⟩
      exact ⟨o, others, first, later, rfl⟩
    · rintro ⟨o, others, first, later, rfl⟩
      exact ⟨o, first, others, later, rfl⟩

theorem operand_binary_eq_ok_iff {op : MathOperator} {l r : MathExpr} :
    (binary op l r).operand = .ok o ↔ o = .other ∧ (∃ dividend, l.operand = .ok dividend) ∧
      ∃ divisor, r.operand = .ok divisor ∧ ¬ (op = .over ∧ divisor.isZero) := by
  simp only [operand, bind_eq_ok_iff]
  constructor
  · rintro ⟨dividend, left, divisor, right, last⟩
    split at last
    · cases last
    · next fine => exact ⟨(Except.ok.inj last).symm, ⟨dividend, left⟩, divisor, right, fine⟩
  · rintro ⟨rfl, ⟨dividend, left⟩, divisor, right, fine⟩
    exact ⟨dividend, left, divisor, right, if_neg fine⟩

theorem operand_call_eq_ok_iff {name : List Char} {args : List MathExpr} :
    (call name args).operand = .ok o ↔ o = .other ∧ ∃ os, operands args = .ok os ∧
      checkCall (.ofList (lower name)) os = .ok () := by
  simp only [operand, bind_eq_ok_iff]
  constructor
  · rintro ⟨os, known, ⟨⟩, fine, last⟩
    exact ⟨(Except.ok.inj last).symm, os, known, fine⟩
  · rintro ⟨rfl, os, known, fine⟩
    exact ⟨os, known, (), fine, rfl⟩

theorem isZero_neg (o : MathOperand) : o.neg.isZero = o.isZero := by
  cases o <;> rfl

theorem literalValue_numeral {n rest : List Char} (h : IsNumeral n)
    (stop : ∀ c ∈ rest.head?, startsNumber c = false) :
    ∃ value, literalValue (n ++ rest) = .literal value ∧ (value.isZero ↔ IsZeroNumeral n) := by
  have read := ofUnsigned?_numeral h fun c hc => by
    have other := stop c hc
    rwa [startsNumber, Bool.or_eq_false_iff, beq_eq_false_iff_ne] at other
  exact ⟨.ofNumeral n, by rw [literalValue, read], isZero_ofNumeral n⟩

/-- The unit of a dimension holds no digits. -/
theorem isZeroNumeral_append {n unit : List Char} (h : IsUnitText unit) :
    IsZeroNumeral (n ++ unit) ↔ IsZeroNumeral n := by
  have digitless : ∀ c ∈ unit, isDecimal c = false := by
    rcases h with ⟨-, letters⟩ | rfl
    · exact fun c hc => not_isDecimal_of_isAsciiLetter (letters c hc)
    · exact List.forall_mem_singleton.2 (by decide)
  refine ⟨fun zero c hc => zero c (List.mem_append_left unit hc), fun zero => ?_⟩
  refine List.forall_mem_append.2 ⟨zero, fun c hc digit => ?_⟩
  rw [digitless c hc] at digit
  cases digit

/-- A tree amounts to a zero if and only if it is a literal zero. -/
theorem IsTree.isZero_iff (h : e.IsTree b) (ok : e.operand = .ok o) :
    o.isZero ↔ e.IsZeroLiteral := by
  induction h generalizing o with
  | @number _ cs numeral =>
    obtain ⟨value, same, zero⟩ := literalValue_numeral numeral (show ∀ c ∈ [].head?, _ from nofun)
    rw [List.append_nil] at same
    rw [operand, same] at ok
    obtain rfl := Except.ok.inj ok
    refine zero.trans ⟨.number, ?_⟩
    rintro (known | _)
    exact known
  | @dimension _ n unit numeral isUnit =>
    have stop : ∀ c ∈ unit.head?, startsNumber c = false := by
      simpa using @not_startsNumber_of_unit unit [] isUnit
    obtain ⟨value, same, zero⟩ := literalValue_numeral numeral stop
    rw [operand, same] at ok
    obtain rfl := Except.ok.inj ok
    refine (zero.trans (isZeroNumeral_append isUnit).symm).trans ⟨.dimension, ?_⟩
    rintro (known | known)
    exact known
  | identifier | customProperty =>
    rw [operand] at ok
    obtain rfl := Except.ok.inj ok
    constructor <;> rintro ⟨⟩
  | negated _ ih =>
    rw [operand_negated, map_eq_ok_iff] at ok
    obtain ⟨inner, known, rfl⟩ := ok
    rw [isZero_neg, ih known]
    refine ⟨.negated, ?_⟩
    rintro (_ | _ | zero)
    exact zero
  | signed _ ih =>
    rw [operand] at ok
    refine (ih ok).trans ⟨.signed, ?_⟩
    rintro (_ | _ | _ | zero)
    exact zero
  | parens _ ih =>
    rw [operand_parens] at ok
    refine (ih ok).trans ⟨.parens, ?_⟩
    rintro (_ | _ | _ | _ | zero)
    exact zero
  | binary op _ _ =>
    obtain ⟨rfl, -⟩ := operand_binary_eq_ok_iff.1 ok
    constructor <;> rintro ⟨⟩
  | call =>
    obtain ⟨rfl, -⟩ := operand_call_eq_ok_iff.1 ok
    constructor <;> rintro ⟨⟩

/-- A tree amounts to the name of a custom property only if it is one. -/
theorem IsTree.isName_iff (h : e.IsTree b) (ok : e.operand = .ok o) : o.IsName ↔ e.IsName := by
  have literal : ∀ cs, ¬ (literalValue cs).IsName := by
    rintro cs ⟨name, same⟩
    unfold literalValue at same
    split at same <;> cases same
  induction h generalizing o with
  | number | dimension =>
    rw [operand] at ok
    obtain rfl := Except.ok.inj ok
    exact ⟨fun name => absurd name (literal _), by rintro ⟨_, ⟨⟩⟩⟩
  | identifier =>
    rw [operand] at ok
    obtain rfl := Except.ok.inj ok
    constructor <;> rintro ⟨_, ⟨⟩⟩
  | customProperty =>
    rw [operand] at ok
    obtain rfl := Except.ok.inj ok
    exact ⟨fun _ => ⟨_, rfl⟩, fun _ => ⟨_, rfl⟩⟩
  | negated _ ih =>
    rw [operand_negated, map_eq_ok_iff] at ok
    obtain ⟨inner, known, rfl⟩ := ok
    refine ⟨?_, by rintro ⟨_, ⟨⟩⟩⟩
    rintro ⟨name, same⟩
    cases inner <;> cases same
  | signed tree ih =>
    rw [operand] at ok
    exact (ih ok).trans ⟨fun name => absurd name tree.not_isName, by rintro ⟨_, ⟨⟩⟩⟩
  | parens tree ih =>
    rw [operand_parens] at ok
    exact (ih ok).trans ⟨fun name => absurd name tree.not_isName, by rintro ⟨_, ⟨⟩⟩⟩
  | binary op _ _ =>
    obtain ⟨rfl, -⟩ := operand_binary_eq_ok_iff.1 ok
    constructor <;> rintro ⟨_, ⟨⟩⟩
  | call =>
    obtain ⟨rfl, -⟩ := operand_call_eq_ok_iff.1 ok
    constructor <;> rintro ⟨_, ⟨⟩⟩

/-- A division obeys the rules unless its divisor is a literal zero. -/
theorem obeys_binary_iff {op : MathOperator} {l r : MathExpr} :
    (binary op l r).Obeys ↔ l.Obeys ∧ r.Obeys ∧ ¬ (op = .over ∧ r.IsZeroLiteral) := by
  have here : (binary op l r).ObeysHere ↔ ¬ (op = .over ∧ r.IsZeroLiteral) := by
    cases op <;> simp [ObeysHere]
  simp only [obeys_iff (e := binary op l r), here, children, List.forall_mem_cons,
    List.not_mem_nil, false_implies, implies_true, and_true]
  tauto

/-- What the rules ask of a call can be told from what its arguments amount to. -/
theorem checkCall_iff_obeysHere {name : List Char} {args : List MathExpr} {os : List MathOperand}
    (trees : ∀ e ∈ args, e.IsTree true)
    (known : List.Forall₂ (fun e o => e.operand = .ok o) args os) :
    checkCall (.ofList (lower name)) os = .ok () ↔ (call name args).ObeysHere := by
  have same : ∀ (index : Nat) (arg : MathExpr) (o : MathOperand), args[index]? = some arg →
      os[index]? = some o → (o.IsName ↔ arg.IsName) := by
    intro index arg o isArg isOperand
    obtain ⟨inArgs, rfl⟩ := List.getElem?_eq_some_iff.1 isArg
    obtain ⟨inOperands, rfl⟩ := List.getElem?_eq_some_iff.1 isOperand
    exact (trees _ (List.getElem_mem inArgs)).isName_iff (known.get inArgs inOperands)
  rw [checkCall_eq_ok_iff, ← known.length_eq, ObeysHere]
  refine and_congr_right fun _ => ⟨fun all index arg isArg => ?_, fun all index o isOperand => ?_⟩
  · have inOperands : index < os.length :=
      known.length_eq ▸ (List.getElem?_eq_some_iff.1 isArg).1
    have isOperand := List.getElem?_eq_getElem inOperands
    rw [← same index arg _ isArg isOperand]
    exact all index _ isOperand
  · have inArgs : index < args.length :=
      known.length_eq ▸ (List.getElem?_eq_some_iff.1 isOperand).1
    have isArg := List.getElem?_eq_getElem inArgs
    rw [same index _ o isArg isOperand]
    exact all index _ isArg

/-- The arguments amount to something if each of them does. -/
theorem operands_eq_ok_iff_forall {args : List MathExpr} :
    (∃ os, operands args = .ok os) ↔ ∀ arg ∈ args, ∃ o, arg.operand = .ok o := by
  simp only [operands_eq_ok_iff]
  induction args with
  | nil => simp
  | cons arg rest ih =>
    rw [List.forall_mem_cons, ← ih]
    constructor
    · rintro ⟨_, _ | ⟨first, others⟩⟩
      exact ⟨⟨_, first⟩, _, others⟩
    · rintro ⟨⟨o, first⟩, os, others⟩
      exact ⟨o :: os, .cons first others⟩

/-- **A tree amounts to something if and only if it obeys the rules.** -/
theorem IsTree.operand_eq_ok_iff (h : e.IsTree b) : (∃ o, e.operand = .ok o) ↔ e.Obeys := by
  induction h with
  | number | dimension | identifier | customProperty =>
    refine ⟨fun _ => obeys_iff.2 ⟨trivial, List.forall_mem_nil _⟩, fun _ => ?_⟩
    rw [operand]
    exact ⟨_, rfl⟩
  | negated _ ih =>
    rw [obeys_iff_child (e := .negated _) trivial rfl, ← ih, operand_negated]
    simp only [map_eq_ok_iff]
    constructor
    · rintro ⟨-, o, known, -⟩
      exact ⟨o, known⟩
    · rintro ⟨o, known⟩
      exact ⟨_, o, known, rfl⟩
  | signed _ ih => rw [obeys_iff_child (e := .signed _) trivial rfl, ← ih, operand]
  | parens _ ih => rw [obeys_iff_child (e := .parens _) trivial rfl, ← ih, operand_parens]
  | binary op _ tree left right =>
    rw [obeys_binary_iff, ← left, ← right]
    simp only [operand_binary_eq_ok_iff]
    constructor
    · rintro ⟨-, -, dividend, divisor, known, fine⟩
      rw [tree.isZero_iff known] at fine
      exact ⟨dividend, ⟨divisor, known⟩, fine⟩
    · rintro ⟨dividend, ⟨divisor, known⟩, fine⟩
      rw [← tree.isZero_iff known] at fine
      exact ⟨.other, rfl, dividend, divisor, known, fine⟩
  | call _ trees ih =>
    have inner := operands_eq_ok_iff_forall.trans (forall₂_congr ih)
    rw [obeys_iff, children, ← inner]
    simp only [operand_call_eq_ok_iff]
    constructor
    · rintro ⟨-, -, os, known, fine⟩
      exact ⟨(checkCall_iff_obeysHere trees (operands_eq_ok_iff.1 known)).1 fine, os, known⟩
    · rintro ⟨here, os, known⟩
      exact ⟨.other, rfl, os, known,
        (checkCall_iff_obeysHere trees (operands_eq_ok_iff.1 known)).2 here⟩

/-- An expression that obeys the rules has no empty calls. -/
theorem Obeys.isFull (h : e.Obeys) : e.IsFull := by
  rintro part within name rfl
  have takes := (h _ within).1
  simp [Takes] at takes

end Trees

end MathExpr

end BracketCss
