import BracketCss.Proofs.Value.Math.Token

/-!
# Expression trees and their printed form

An expression tree is printed with parentheses where precedence needs them and a space between two
tokens: signs bind tightest, then multiplication and division, then addition and subtraction, and
operators of one kind group to the left.

## Main definitions

* `MathExpr.IsTree argument e`: a tree whose leaves have texts of their kind
* `MathExpr.IsPart part e`: a tree within a tree
* `MathExpr.level e`: how tightly the outermost part of a tree binds
* `MathExpr.bracketed e`: a tree with the parentheses that precedence needs
* `MathExpr.flatten e`: the tokens of a tree as it stands
* `MathExpr.tokens e`, `MathExpr.printed e`: the tokens of the printed tree, and its text

## Main results

* `MathExpr.IsTree.flows_iff`: the tokens of a tree come where they may, unless a call is empty
* `MathExpr.IsTree.balanced`: a tree has as many opening as closing parentheses
-/

namespace BracketCss

open Text

/-- How tightly an operator binds. -/
def MathOperator.level : MathOperator → Nat
  | .plus | .minus => 0
  | .times | .over => 1

theorem MathOperator.level_cases (op : MathOperator) : op.level = 0 ∨ op.level = 1 := by
  cases op <;> decide

namespace MathExpr

/-- An expression tree. The name of a custom property is no expression by itself, but an argument
may be one. -/
inductive IsTree : (argument : Bool) → MathExpr → Prop
  | number {b : Bool} {cs : List Char} : IsNumeral cs → IsTree b (number cs)
  | dimension {b : Bool} {n unit : List Char} : IsNumeral n → IsUnitText unit →
      IsTree b (dimension (n ++ unit))
  | identifier {b : Bool} {cs : List Char} : IsIdentifierText cs → IsTree b (identifier cs)
  | customProperty {cs : List Char} : IsPropertyText cs → IsTree true (customProperty cs)
  | negated {b : Bool} {e : MathExpr} : IsTree false e → IsTree b (negated e)
  | signed {b : Bool} {e : MathExpr} : IsTree false e → IsTree b (signed e)
  | binary {b : Bool} {l r : MathExpr} (op : MathOperator) : IsTree false l → IsTree false r →
      IsTree b (binary op l r)
  | parens {b : Bool} {e : MathExpr} : IsTree false e → IsTree b (parens e)
  | call {b : Bool} {name : List Char} {args : List MathExpr} : IsIdentifierText name →
      (∀ e ∈ args, IsTree true e) → IsTree b (call name args)

/-- The tree is the name of a custom property. -/
def IsName (e : MathExpr) : Prop := ∃ cs, e = customProperty cs

/-- The trees right below the root of a tree. -/
def children : MathExpr → List MathExpr
  | negated e | signed e | parens e => [e]
  | binary _ l r => [l, r]
  | call _ args => args
  | _ => []

/-- A tree is the whole or a part of a tree. -/
inductive IsPart (part : MathExpr) : MathExpr → Prop
  | refl : IsPart part part
  | child {e child : MathExpr} : child ∈ e.children → IsPart part child → IsPart part e

/-- How tightly the outermost part of an expression binds: operators, signs, anything else. -/
def level : MathExpr → Nat
  | binary op _ _ => op.level
  | negated _ | signed _ => 2
  | _ => 3

/-- An expression in parentheses if it binds less tightly than it has to. -/
def enclosed (least : Nat) (e : MathExpr) : MathExpr := if e.level < least then parens e else e

mutual

/-- A tree with the parentheses that precedence needs. -/
def bracketed : MathExpr → MathExpr
  | number cs => number cs
  | dimension cs => dimension cs
  | identifier cs => identifier cs
  | customProperty cs => customProperty cs
  | negated e => negated (e.bracketed.enclosed 2)
  | signed e => signed (e.bracketed.enclosed 2)
  | binary op l r =>
    binary op (l.bracketed.enclosed op.level) (r.bracketed.enclosed (op.level + 1))
  | parens e => parens e.bracketed
  | call name args => call name (bracketedAll args)

/-- Trees with the parentheses that precedence needs. -/
def bracketedAll : List MathExpr → List MathExpr
  | [] => []
  | e :: rest => e.bracketed :: bracketedAll rest

end

mutual

/-- The tokens of a tree as it stands. -/
def flatten : MathExpr → List MathToken
  | number cs => [.number cs]
  | dimension cs => [.dimension cs]
  | identifier cs => [.identifier cs]
  | customProperty cs => [.customProperty cs]
  | negated e => .operator .minus :: e.flatten
  | signed e => .operator .plus :: e.flatten
  | binary op l r => l.flatten ++ .operator op :: r.flatten
  | parens e => .opening :: (e.flatten ++ [.closing])
  | call name args => .function name :: (flattenAll args ++ [.closing])

/-- The tokens of arguments, with commas between them. -/
def flattenAll : List MathExpr → List MathToken
  | [] => []
  | [e] => e.flatten
  | e :: next :: rest => e.flatten ++ .comma :: flattenAll (next :: rest)

end

/-- The tokens of a tree, with parentheses where precedence needs them. -/
def tokens (e : MathExpr) : List MathToken := e.bracketed.flatten

/-- The text of a tree: parentheses where precedence needs them, and a space between two tokens. -/
def printed (e : MathExpr) : List Char := MathToken.spaced e.tokens

/-! ## Parentheses -/

section Brackets

variable {b : Bool} {e : MathExpr}

theorem IsTree.not_isName (h : e.IsTree false) : ¬ e.IsName := by
  rintro ⟨cs, rfl⟩
  cases h

theorem IsTree.of_not_isName (h : e.IsTree b) (plain : ¬ e.IsName) : e.IsTree false := by
  cases h with
  | number numeral => exact .number numeral
  | dimension numeral unit => exact .dimension numeral unit
  | identifier name => exact .identifier name
  | customProperty name => exact absurd ⟨_, rfl⟩ plain
  | negated tree => exact .negated tree
  | signed tree => exact .signed tree
  | binary op left right => exact .binary op left right
  | parens tree => exact .parens tree
  | call name trees => exact .call name trees

theorem bracketedAll_eq_map (args : List MathExpr) : bracketedAll args = args.map bracketed := by
  induction args with
  | nil => rfl
  | cons e rest ih => rw [bracketedAll, ih, List.map_cons]

theorem enclosed_of_le {least : Nat} (h : least ≤ e.level) : e.enclosed least = e :=
  if_neg (Nat.not_lt.2 h)

theorem IsTree.enclosed (h : e.IsTree false) (least : Nat) : (e.enclosed least).IsTree false := by
  unfold MathExpr.enclosed
  split
  · exact .parens h
  · exact h

/-- Brackets leave a tree a tree. -/
theorem IsTree.bracketed (h : e.IsTree b) : e.bracketed.IsTree b := by
  induction h with
  | number numeral => exact .number numeral
  | dimension numeral unit => exact .dimension numeral unit
  | identifier name => exact .identifier name
  | customProperty name => exact .customProperty name
  | negated _ ih => exact .negated (ih.enclosed 2)
  | signed _ ih => exact .signed (ih.enclosed 2)
  | binary op _ _ left right => exact .binary op (left.enclosed _) (right.enclosed _)
  | parens _ ih => exact .parens ih
  | call name _ ih =>
    rw [MathExpr.bracketed, bracketedAll_eq_map]
    exact .call name (List.forall_mem_map.2 ih)

/-- The rules mind no parentheses. -/
theorem operand_enclosed (e : MathExpr) (least : Nat) : (e.enclosed least).operand = e.operand := by
  unfold MathExpr.enclosed
  split
  · exact operand_parens e
  · rfl

theorem operands_map {f : MathExpr → MathExpr} {args : List MathExpr}
    (h : ∀ e ∈ args, (f e).operand = e.operand) : operands (args.map f) = operands args := by
  induction args with
  | nil => rfl
  | cons e rest ih =>
    obtain ⟨first, others⟩ := List.forall_mem_cons.1 h
    rw [List.map_cons, operands, operands, first, ih others]

theorem IsTree.operand_bracketed (h : e.IsTree b) : e.bracketed.operand = e.operand := by
  induction h with
  | number | dimension | identifier | customProperty => rfl
  | negated _ ih => rw [MathExpr.bracketed, operand_negated, operand_enclosed, ih, operand_negated]
  | signed _ ih => rw [MathExpr.bracketed, operand, operand_enclosed, ih, operand]
  | binary op _ _ left right =>
    rw [MathExpr.bracketed, operand, operand_enclosed, operand_enclosed, left, right, operand]
  | parens _ ih => rw [MathExpr.bracketed, operand_parens, ih, operand_parens]
  | call name _ ih =>
    rw [MathExpr.bracketed, bracketedAll_eq_map, operand, operands_map ih, operand]

end Brackets

/-! ## Parts -/

/-- Something holds of all parts if it holds of the whole and of all parts of the children. -/
theorem forall_isPart_iff {p : MathExpr → Prop} {e : MathExpr} :
    (∀ part, IsPart part e → p part) ↔
      p e ∧ ∀ child ∈ e.children, ∀ part, IsPart part child → p part := by
  constructor
  · intro h
    exact ⟨h e .refl, fun child mem part within => h part (.child mem within)⟩
  · rintro ⟨whole, below⟩ part within
    cases within with
    | refl => exact whole
    | child mem within => exact below _ mem part within

/-- No call in an expression is empty. -/
def IsFull (e : MathExpr) : Prop := ∀ part, IsPart part e → ∀ name, part ≠ call name []

theorem isFull_iff {e : MathExpr} :
    e.IsFull ↔ (∀ name, e ≠ call name []) ∧ ∀ child ∈ e.children, child.IsFull :=
  forall_isPart_iff

theorem isFull_iff_children {e : MathExpr} (other : ∀ name args, e ≠ call name args) :
    e.IsFull ↔ ∀ child ∈ e.children, child.IsFull := by
  rw [isFull_iff, and_iff_right fun name => other name []]

theorem isFull_negated {e : MathExpr} : (negated e).IsFull ↔ e.IsFull :=
  (isFull_iff_children (by nofun)).trans List.forall_mem_singleton

theorem isFull_signed {e : MathExpr} : (signed e).IsFull ↔ e.IsFull :=
  (isFull_iff_children (by nofun)).trans List.forall_mem_singleton

theorem isFull_parens {e : MathExpr} : (parens e).IsFull ↔ e.IsFull :=
  (isFull_iff_children (by nofun)).trans List.forall_mem_singleton

theorem isFull_binary {op : MathOperator} {l r : MathExpr} :
    (binary op l r).IsFull ↔ l.IsFull ∧ r.IsFull := by
  simp only [isFull_iff_children (e := binary op l r) nofun, children, List.forall_mem_cons,
    List.not_mem_nil, false_implies, implies_true, and_true]

theorem isFull_call {name : List Char} {args : List MathExpr} :
    (call name args).IsFull ↔ args ≠ [] ∧ ∀ e ∈ args, e.IsFull := by
  simp [isFull_iff (e := call name args), children]

/-- Brackets leave no call empty that was not. -/
theorem IsTree.isFull_bracketed {b : Bool} {e : MathExpr} (h : e.IsTree b) :
    e.bracketed.IsFull ↔ e.IsFull := by
  have enclosed : ∀ (e : MathExpr) (least : Nat), (e.enclosed least).IsFull ↔ e.IsFull := by
    intro e least
    unfold MathExpr.enclosed
    split
    · exact isFull_parens
    · exact Iff.rfl
  induction h with
  | number | dimension | identifier | customProperty => exact Iff.rfl
  | negated _ ih =>
    rw [MathExpr.bracketed, isFull_negated, enclosed, isFull_negated]
    exact ih
  | signed _ ih =>
    rw [MathExpr.bracketed, isFull_signed, enclosed, isFull_signed]
    exact ih
  | binary op _ _ left right =>
    rw [MathExpr.bracketed, isFull_binary, enclosed, enclosed, isFull_binary]
    exact and_congr left right
  | parens _ ih =>
    rw [MathExpr.bracketed, isFull_parens, isFull_parens]
    exact ih
  | call name _ ih =>
    rw [MathExpr.bracketed, bracketedAll_eq_map, isFull_call, isFull_call, List.forall_mem_map,
      forall₂_congr ih, ne_eq, List.map_eq_nil_iff]

/-! ## Tokens -/

section Tokens

open MathToken (Along)

variable {b : Bool} {e : MathExpr} {args : List MathExpr}

theorem flattenAll_append (args : List MathExpr) (e : MathExpr) :
    flattenAll (args ++ [e]) = args.flatMap (fun e => e.flatten ++ [.comma]) ++ e.flatten := by
  induction args with
  | nil => rfl
  | cons first rest ih =>
    have some_ : rest ++ [e] ≠ [] := by simp
    obtain ⟨next, others, same⟩ := List.exists_cons_of_ne_nil some_
    rw [List.cons_append, same, flattenAll, ← same, ih, List.flatMap_cons]
    simp only [List.append_assoc, List.cons_append, List.nil_append]

/-- What is shared by commas and all arguments, and kept by putting one after the other, holds of
the arguments as a whole. -/
theorem flattenAll_of_append {p : List MathToken → Prop} (nil : p []) (comma : p [.comma])
    (append : ∀ {a b}, p a → p b → p (a ++ b)) (each : ∀ e ∈ args, p e.flatten) :
    p (flattenAll args) := by
  induction args with
  | nil => exact nil
  | cons e rest ih =>
    obtain ⟨first, others⟩ := List.forall_mem_cons.1 each
    cases rest with
    | nil => exact first
    | cons next rest => exact append first (append comma (ih others))

/-- The tokens of a tree are tokens. -/
theorem IsTree.isLexeme (h : e.IsTree b) : ∀ token ∈ e.flatten, token.IsLexeme := by
  induction h with
  | number numeral => exact List.forall_mem_singleton.2 numeral
  | dimension numeral unit => exact List.forall_mem_singleton.2 ⟨_, _, numeral, unit, rfl⟩
  | identifier name => exact List.forall_mem_singleton.2 name
  | customProperty name => exact List.forall_mem_singleton.2 name
  | negated _ ih | signed _ ih => exact List.forall_mem_cons.2 ⟨trivial, ih⟩
  | binary op _ _ left right =>
    exact List.forall_mem_append.2 ⟨left, List.forall_mem_cons.2 ⟨trivial, right⟩⟩
  | parens _ ih =>
    exact List.forall_mem_cons.2
      ⟨trivial, List.forall_mem_append.2 ⟨ih, List.forall_mem_singleton.2 trivial⟩⟩
  | call name _ ih =>
    refine List.forall_mem_cons.2
      ⟨name, List.forall_mem_append.2 ⟨?_, List.forall_mem_singleton.2 trivial⟩⟩
    exact flattenAll_of_append (p := fun tokens => ∀ token ∈ tokens, token.IsLexeme)
      (List.forall_mem_nil _) (List.forall_mem_singleton.2 trivial)
      (fun first others => List.forall_mem_append.2 ⟨first, others⟩) ih

theorem flatten_ne_nil (e : MathExpr) : e.flatten ≠ [] := by
  cases e <;> simp [flatten]

section Places

variable {placed : MathToken.Place → MathToken → Prop}

theorem along_flattenAll_iff (comes : ∀ place token, token.comesAt place → placed place token)
    (each : ∀ e ∈ args, ∀ rest, Along placed .argument (e.flatten ++ rest) ↔
      (placed .argument .closing ∨ e.IsFull) ∧ Along placed .operator rest)
    (rest : List MathToken) : Along placed .argument (flattenAll args ++ .closing :: rest) ↔
      (placed .argument .closing ∨ args ≠ [] ∧ ∀ e ∈ args, e.IsFull) ∧
        Along placed .operator rest := by
  have closing : placed .operator .closing := comes _ _ rfl
  have comma : placed .operator .comma := comes _ _ rfl
  induction args with
  | nil => simp [flattenAll, Along, MathToken.place]
  | cons e others ih =>
    obtain ⟨first, later⟩ := List.forall_mem_cons.1 each
    cases others with
    | nil => simp [flattenAll, first, Along, MathToken.place, closing]
    | cons next others =>
      have inner := ih later
      rw [and_iff_right (List.cons_ne_nil next others)] at inner
      rw [flattenAll, List.append_assoc, List.cons_append, first, Along, and_iff_right comma,
        MathToken.place, and_iff_right (List.cons_ne_nil e (next :: others)),
        List.forall_mem_cons (l := next :: others), or_and_left, and_assoc]
      exact and_congr_right fun _ => inner

theorem comesAt_of_operand {place : MathToken.Place} {token : MathToken}
    (h : token.comesAt .operand) (operand : place ≠ .operator) : token.comesAt place := by
  cases place with
  | operand => exact h
  | argument =>
    cases token with
    | operator op => cases op <;> first | rfl | cases h
    | customProperty | closing | comma => cases h
    | number | dimension | identifier | function | opening => rfl
  | operator => exact absurd rfl operand

theorem along_leaf_iff {token : MathToken} (bare : e.children = [])
    (other : ∀ name args, e ≠ call name args) (flat : e.flatten = [token])
    (after : token.place = .operator) {place : MathToken.Place} (here : placed place token)
    (rest : List MathToken) : Along placed place (e.flatten ++ rest) ↔
      (placed .argument .closing ∨ e.IsFull) ∧ Along placed .operator rest := by
  have full : e.IsFull := by
    rw [isFull_iff_children other, bare]
    exact List.forall_mem_nil _
  rw [flat, List.singleton_append, Along, after, and_iff_right here, and_iff_right (.inr full)]

/-- The tokens of a tree are well placed as the first tokens of a list if each comes where it may,
save that an empty call closes where an argument may come. -/
theorem IsTree.along_iff (comes : ∀ place token, token.comesAt place → placed place token)
    (h : e.IsTree b) {place : MathToken.Place} (operand : place ≠ .operator)
    (argument : b → place = .argument) (rest : List MathToken) :
    Along placed place (e.flatten ++ rest) ↔
      (placed .argument .closing ∨ e.IsFull) ∧ Along placed .operator rest := by
  have first : ∀ {place} token, token.comesAt .operand → place ≠ .operator → placed place token :=
    fun token here operand => comes _ token (comesAt_of_operand here operand)
  induction h generalizing place rest with
  | number => exact along_leaf_iff rfl (by nofun) rfl rfl (first _ rfl operand) rest
  | dimension => exact along_leaf_iff rfl (by nofun) rfl rfl (first _ rfl operand) rest
  | identifier => exact along_leaf_iff rfl (by nofun) rfl rfl (first _ rfl operand) rest
  | customProperty =>
    rw [argument rfl]
    exact along_leaf_iff rfl (by nofun) rfl rfl (comes _ _ rfl) rest
  | negated _ ih =>
    rw [MathExpr.flatten, List.cons_append, Along, and_iff_right (first _ rfl operand),
      isFull_negated]
    exact ih (by nofun) nofun rest
  | signed _ ih =>
    rw [MathExpr.flatten, List.cons_append, Along, and_iff_right (first _ rfl operand),
      isFull_signed]
    exact ih (by nofun) nofun rest
  | @binary _ l r op _ _ left right =>
    have mark : placed .operator (.operator op) := comes _ _ rfl
    have later : Along placed .operand (r.flatten ++ rest) ↔ _ := right (by nofun) nofun rest
    have whole := left operand nofun (.operator op :: (r.flatten ++ rest))
    rw [Along, and_iff_right mark, MathToken.place, later] at whole
    rw [MathExpr.flatten, List.append_assoc, List.cons_append, isFull_binary, or_and_left,
      and_assoc]
    exact whole
  | @parens _ e _ ih =>
    have inner : Along placed .operand (e.flatten ++ .closing :: rest) ↔ _ := ih (by nofun) nofun _
    rw [Along, and_iff_right (comes _ _ rfl), MathToken.place] at inner
    rw [MathExpr.flatten, List.cons_append, List.append_assoc, Along,
      and_iff_right (first _ rfl operand), isFull_parens]
    exact inner
  | call name _ ih =>
    have inner := along_flattenAll_iff comes
      (fun e mem => ih e mem (by nofun) fun _ => rfl) rest
    rw [MathExpr.flatten, List.cons_append, List.append_assoc, Along,
      and_iff_right (first _ rfl operand), isFull_call]
    exact inner

end Places

/-- **The tokens of an expression come where they may** if no call is empty. -/
theorem IsTree.flows_iff (h : e.IsTree false) : MathToken.Flows .operand e.flatten ↔ e.IsFull := by
  have whole : MathToken.Flows .operand (e.flatten ++ []) ↔ _ :=
    h.along_iff (fun _ _ => id) (by nofun) nofun []
  rw [List.append_nil] at whole
  refine whole.trans ⟨?_, fun full => ⟨.inr full, trivial⟩⟩
  rintro ⟨closing | full, -⟩
  · cases closing
  · exact full

theorem IsTree.hasPlacedNames (h : e.IsTree false) :
    MathToken.HasPlacedNames .operand e.flatten := by
  have whole : MathToken.HasPlacedNames .operand (e.flatten ++ []) :=
    (h.along_iff (fun _ _ => MathToken.placedName_of_comesAt) (by nofun) nofun []).2
      ⟨.inl nofun, trivial⟩
  rwa [List.append_nil] at whole

/-- **An expression has as many opening as closing parentheses.** -/
theorem IsTree.balanced (h : e.IsTree b) : MathToken.Balanced e.flatten := by
  have sign : ∀ op : MathOperator, MathToken.Balanced [.operator op] := by
    intro op
    cases op <;> exact MathToken.balanced_plain (by decide)
  induction h with
  | number numeral => exact MathToken.balanced_plain (MathToken.isPlainChar_of_isNumeral numeral)
  | dimension numeral unit =>
    exact MathToken.balanced_plain (List.forall_mem_append.2
      ⟨MathToken.isPlainChar_of_isNumeral numeral, MathToken.isPlainChar_of_isUnitText unit⟩)
  | identifier name =>
    exact MathToken.balanced_plain (MathToken.isPlainChar_of_isIdentifierText name)
  | customProperty name =>
    exact MathToken.balanced_plain (MathToken.isPlainChar_of_isPropertyText name)
  | negated _ ih | signed _ ih => exact (sign _).append ih
  | binary op _ _ left right => exact left.append ((sign op).append right)
  | parens _ ih => exact ih.enclosed (List.nil_append _).symm (List.forall_mem_nil _)
  | call name _ ih =>
    have inner := flattenAll_of_append (p := MathToken.Balanced) rfl
      (MathToken.balanced_plain (by decide)) .append ih
    exact inner.enclosed rfl (MathToken.isPlainChar_of_isIdentifierText name)

end Tokens

end MathExpr

end BracketCss
