import BracketCss.Proofs.Text.LetterCase
import BracketCss.Proofs.Value.Math.Lexed

/-!
# Arithmetic expressions and the case of letters

An arithmetic expression in lower case is read as the tree in lower case: its tokens end at the same
places, and only their texts are put into lower case. The rules look at the names of functions in
lower case and at digits alone, so a text and its lower case are both accepted or both refused.

## Main definitions

* `MathToken.lowered`, `MathExpr.lowered`, `MathFrame.lowered`: tokens, trees and open parts in
  lower case

## Main results

* `MathToken.next?_map_toLower`, `MathToken.lexUpTo_map_toLower`: the tokens
* `readTokens_lowered`, `MathExpr.ofChars_map_toLower`: the tree
* `MathExpr.IsTree.obeys_lowered_iff`: the rules
* `checkMath_map_toLower_iff`: what is accepted
-/

namespace BracketCss

open Text

/-! ## Numbers -/

namespace Decimal

theorem takeWhile_isDecimal_map_toLower (cs : List Char) :
    (cs.map Char.toLower).takeWhile isDecimal = cs.takeWhile isDecimal := by
  have letters : ∀ n < 26, isDecimal (Char.ofNat (65 + n)) = false := by decide
  have stays : ∀ c ∈ cs.takeWhile isDecimal, c.toLower = id c := fun c hc =>
    toLower_eq_self letters (List.all_eq_true.1 List.all_takeWhile c hc)
  rw [isCaseBlind_isDecimal.takeWhile, List.map_congr_left stays, List.map_id]

/-- The number that starts a text starts its lower case. -/
theorem ofUnsigned?_map_toLower (cs : List Char) :
    ofUnsigned? (cs.map Char.toLower) =
      (ofUnsigned? cs).map fun found => (found.1, found.2.map Char.toLower) := by
  by_cases point : (cs.drop (cs.takeWhile isDecimal).length).head? = some '.'
  · obtain ⟨others, same⟩ := List.head?_eq_some_iff.1 point
    have low : ('.' :: others).map Char.toLower = '.' :: others.map Char.toLower := rfl
    simp only [ofUnsigned?, takeWhile_isDecimal_map_toLower, ← List.map_drop, same, low,
      Nat.add_comm 1, List.drop_succ_cons]
    split
    · rfl
    · split <;> simp
  · have point' : ((cs.map Char.toLower).drop
        ((cs.map Char.toLower).takeWhile isDecimal).length).head? ≠ some '.' := by
      rw [takeWhile_isDecimal_map_toLower, ← List.map_drop, ne_eq,
        head?_map_iff_of_mark (by decide)]
      exact point
    rw [MathToken.ofUnsigned?_whole point, MathToken.ofUnsigned?_whole point',
      takeWhile_isDecimal_map_toLower, ← List.map_drop]
    split <;> rfl

end Decimal

/-! ## Tokens -/

namespace MathToken

/-- A token in lower case. -/
def lowered : MathToken → MathToken
  | number cs => number (cs.map Char.toLower)
  | dimension cs => dimension (cs.map Char.toLower)
  | identifier cs => identifier (cs.map Char.toLower)
  | customProperty cs => customProperty (cs.map Char.toLower)
  | function name => function (name.map Char.toLower)
  | operator op => operator op
  | opening => opening
  | closing => closing
  | comma => comma

@[simp] theorem place_lowered (token : MathToken) : token.lowered.place = token.place := by
  cases token <;> rfl

/-- What is read off the front of a text, in lower case. -/
def lowerFound (found : MathToken × List Char) : MathToken × List Char :=
  (found.1.lowered, found.2.map Char.toLower)

theorem unitLength_map_toLower (cs : List Char) :
    unitLength (cs.map Char.toLower) = unitLength cs := by
  by_cases percent : cs.head? = some '%'
  · obtain ⟨rest, rfl⟩ := List.head?_eq_some_iff.1 percent
    rfl
  · rw [unitLength_of_ne percent,
      unitLength_of_ne (mt (head?_map_iff_of_mark (by decide)).1 percent),
      isCaseBlind_isAsciiLetter.takeWhile, List.length_map]

theorem numeral?_map_toLower (cs : List Char) :
    numeral? (cs.map Char.toLower) = (numeral? cs).map lowerFound := by
  rw [numeral?, numeral?, Decimal.ofUnsigned?_map_toLower]
  cases Decimal.ofUnsigned? cs with
  | none => rfl
  | some found =>
    obtain ⟨value, rest⟩ := found
    simp only [Option.map_some, unitLength_map_toLower, List.length_map, ← List.map_take]
    generalize unitLength rest = unit
    cases unit with
    | zero => rfl
    | succ unit =>
      simp only [lowerFound, lowered, ← List.map_drop]

theorem name?_map_toLower (cs : List Char) :
    name? (cs.map Char.toLower) = (name? cs).map lowerFound := by
  simp only [name?, isCaseBlind_isAsciiNameChar.takeWhile, isCaseBlind_isAsciiLetter.any_head?,
    List.length_map, ← List.map_drop]
  split
  · rfl
  · generalize cs.drop (cs.takeWhile isAsciiNameChar).length = after
    split
    · next _ rest same =>
      obtain ⟨rest, rfl, rfl⟩ := (map_eq_cons_iff_of_mark (by decide)).1 same
      rfl
    · next noOpening =>
      split
      · exact absurd rfl (noOpening _)
      · rfl

theorem customProperty?_map_toLower (cs : List Char) :
    customProperty? (cs.map Char.toLower) = (customProperty? cs).map lowerFound := by
  have chars : IsCaseBlind fun c => isAsciiNameChar c || c == '_' := .of_table (by decide)
  by_cases hyphens : ['-', '-'] <+: cs
  · obtain ⟨name, rfl⟩ := hyphens
    have here : (['-', '-'] ++ name).map Char.toLower = '-' :: '-' :: name.map Char.toLower := rfl
    rw [here]
    simp only [customProperty?, chars.takeWhile, List.length_map, ← List.map_drop,
      List.isEmpty_map, List.cons_append, List.nil_append]
    split <;> rfl
  · have hyphens' : ¬ ['-', '-'] <+: cs.map Char.toLower := by
      rintro ⟨name, same⟩
      obtain ⟨rest, rfl, later⟩ := (map_eq_cons_iff_of_mark (by decide)).1 same.symm
      obtain ⟨name, rfl, -⟩ := (map_eq_cons_iff_of_mark (by decide)).1 later
      exact hyphens ⟨name, rfl⟩
    rw [customProperty?_eq_none hyphens, customProperty?_eq_none hyphens', Option.map_none]

theorem sign?_map_toLower (cs : List Char) :
    sign? (cs.map Char.toLower) = (sign? cs).map lowerFound := by
  unfold sign?
  split
  · next rest same =>
    obtain ⟨others, rfl, rfl⟩ := (map_eq_cons_iff_of_mark (by decide)).1 same
    rfl
  · next rest same =>
    obtain ⟨others, rfl, rfl⟩ := (map_eq_cons_iff_of_mark (by decide)).1 same
    rfl
  · next rest same =>
    obtain ⟨others, rfl, rfl⟩ := (map_eq_cons_iff_of_mark (by decide)).1 same
    rfl
  · next noOpening noMinus noPlus =>
    split
    · exact absurd rfl (noOpening _)
    · exact absurd rfl (noMinus _)
    · exact absurd rfl (noPlus _)
    · rfl

theorem mark?_map_toLower (cs : List Char) :
    mark? (cs.map Char.toLower) = (mark? cs).map lowerFound := by
  unfold mark?
  split
  all_goals
    try next rest same =>
      obtain ⟨others, rfl, rfl⟩ := (map_eq_cons_iff_of_mark (by decide)).1 same
      rfl
  next h₁ h₂ h₃ h₄ h₅ h₆ =>
    split
    · exact absurd rfl (h₁ _)
    · exact absurd rfl (h₂ _)
    · exact absurd rfl (h₃ _)
    · exact absurd rfl (h₄ _)
    · exact absurd rfl (h₅ _)
    · exact absurd rfl (h₆ _)
    · rfl

theorem map_orElse {x y x' y' : Option (MathToken × List Char)} (first : x' = x.map lowerFound)
    (second : y' = y.map lowerFound) : (x' <|> y') = (x <|> y).map lowerFound := by
  subst first second
  cases x <;> rfl

/-- **The token that starts a text in lower case** is the one that starts the text, in lower
case. -/
theorem next?_map_toLower (place : Place) (cs : List Char) :
    next? place (cs.map Char.toLower) = (next? place cs).map lowerFound := by
  have operand := map_orElse (numeral?_map_toLower cs) (name?_map_toLower cs)
  cases place with
  | operand => exact map_orElse operand (sign?_map_toLower cs)
  | argument =>
    exact map_orElse operand (map_orElse (customProperty?_map_toLower cs) (sign?_map_toLower cs))
  | operator => exact mark?_map_toLower cs

theorem startsToken_map_toLower (cs : List Char) :
    startsToken (cs.map Char.toLower) = startsToken cs := by
  rw [startsToken, next?_map_toLower, next?_map_toLower, Option.isSome_map, Option.isSome_map,
    startsToken]

/-- **The tokens of a text in lower case** are its tokens in lower case. -/
theorem lexUpTo_map_toLower (bound : Nat) (place : Place) (cs : List Char) :
    lexUpTo bound place (cs.map Char.toLower) =
      ((lexUpTo bound place cs).1.map lowered, (lexUpTo bound place cs).2) := by
  have space : IsCaseBlind isSpace := .of_table (by decide)
  induction bound generalizing place cs with
  | zero => rfl
  | succ bound ih =>
    rw [lexUpTo, lexUpTo, space.dropWhile]
    cases cs.dropWhile isSpace with
    | nil => rfl
    | cons c rest =>
      simp only [List.map_cons]
      rw [← List.map_cons, next?_map_toLower, startsToken_map_toLower]
      cases next? place (c :: rest) with
      | none => rfl
      | some found =>
        simp only [Option.map_some, lowerFound, place_lowered, ih, List.map_cons]

end MathToken

/-! ## Trees -/

namespace MathExpr

mutual

/-- A tree in lower case. -/
def lowered : MathExpr → MathExpr
  | number cs => number (cs.map Char.toLower)
  | dimension cs => dimension (cs.map Char.toLower)
  | identifier cs => identifier (cs.map Char.toLower)
  | customProperty cs => customProperty (cs.map Char.toLower)
  | negated e => negated e.lowered
  | signed e => signed e.lowered
  | binary op l r => binary op l.lowered r.lowered
  | parens e => parens e.lowered
  | call name args => call (name.map Char.toLower) (loweredAll args)

/-- Trees in lower case. -/
def loweredAll : List MathExpr → List MathExpr
  | [] => []
  | e :: rest => e.lowered :: loweredAll rest

end

theorem loweredAll_eq_map (args : List MathExpr) : loweredAll args = args.map lowered := by
  induction args with
  | nil => rfl
  | cons e rest ih => rw [loweredAll, ih, List.map_cons]

theorem isName_lowered_iff (e : MathExpr) : e.lowered.IsName ↔ e.IsName := by
  cases e <;> simp [IsName, lowered]

end MathExpr

/-- An open part of an expression in lower case. -/
def MathFrame.lowered : MathFrame → MathFrame
  | negated => negated
  | signed => signed
  | product left op => product left.lowered op
  | sum left op => sum left.lowered op
  | parens => parens
  | call name args => call (name.map Char.toLower) (args.map MathExpr.lowered)

section Reader

variable {ending : MathToken.End}

/-- An operand with the open parts before it, in lower case. -/
def lowerClosed (closed : MathExpr × List MathFrame) : MathExpr × List MathFrame :=
  (closed.1.lowered, closed.2.map MathFrame.lowered)

theorem closeSigns_lowered (e : MathExpr) (stack : List MathFrame) :
    closeSigns e.lowered (stack.map MathFrame.lowered) = lowerClosed (closeSigns e stack) := by
  induction stack generalizing e with
  | nil => rfl
  | cons frame stack ih =>
    cases frame with
    | negated => exact ih (.negated e)
    | signed => exact ih (.signed e)
    | product | sum | parens | call => rfl

theorem closeProduct_lowered (e : MathExpr) (stack : List MathFrame) :
    closeProduct e.lowered (stack.map MathFrame.lowered) = lowerClosed (closeProduct e stack) := by
  rw [closeProduct, closeSigns_lowered, closeProduct]
  obtain ⟨e, stack⟩ := closeSigns e stack
  cases stack with
  | nil => rfl
  | cons frame stack => cases frame <;> rfl

theorem closeSum_lowered (e : MathExpr) (stack : List MathFrame) :
    closeSum e.lowered (stack.map MathFrame.lowered) = lowerClosed (closeSum e stack) := by
  rw [closeSum, closeProduct_lowered, closeSum]
  obtain ⟨e, stack⟩ := closeProduct e stack
  cases stack with
  | nil => rfl
  | cons frame stack => cases frame <;> rfl

theorem openOperator_lowered (op : MathOperator) (e : MathExpr) (stack : List MathFrame) :
    openOperator op e.lowered (stack.map MathFrame.lowered) =
      (openOperator op e stack).map MathFrame.lowered := by
  rcases op.level_cases with level | level
  · rw [openOperator_sum level, openOperator_sum level, closeSum_lowered]
    rfl
  · rw [openOperator_product level, openOperator_product level, closeProduct_lowered]
    rfl

/-- A call in lower case, of which the arguments were held in reverse. -/
theorem lowered_call (name : List Char) (args : List MathExpr) :
    (MathExpr.call name args.reverse).lowered =
      .call (name.map Char.toLower) (args.map MathExpr.lowered).reverse := by
  rw [MathExpr.lowered, MathExpr.loweredAll_eq_map, List.map_reverse]

/-- A token behind an operand in lower case, given that those behind it are read in lower case. -/
theorem readTokens_held_lowered {tokens : List MathToken}
    (later : ∀ (stack : List MathFrame) (held : Option MathExpr),
      readTokens ending (stack.map MathFrame.lowered) (held.map MathExpr.lowered)
          (tokens.map MathToken.lowered) =
        (readTokens ending stack held tokens).map MathExpr.lowered)
    (stack : List MathFrame) (e : MathExpr) (token : MathToken) :
    readTokens ending (stack.map MathFrame.lowered) (some e.lowered)
        (token.lowered :: tokens.map MathToken.lowered) =
      (readTokens ending stack (some e) (token :: tokens)).map MathExpr.lowered := by
  cases token with
  | operator op =>
    by_cases name : e.IsName
    · obtain ⟨cs, rfl⟩ := name
      rfl
    · have name' : ¬ e.lowered.IsName := mt (MathExpr.isName_lowered_iff e).1 name
      rw [MathToken.lowered, readTokens_operator name, readTokens_operator name',
        openOperator_lowered]
      exact later _ none
  | closing =>
    rw [MathToken.lowered]
    simp only [readTokens, closeSum_lowered]
    obtain ⟨e, stack⟩ := closeSum e stack
    cases stack with
    | nil => rfl
    | cons frame stack =>
      cases frame with
      | parens => exact later stack (some (.parens e))
      | call name args =>
        have read := later stack (some (.call name (e :: args).reverse))
        rw [Option.map_some, lowered_call] at read
        exact read
      | negated | signed | product | sum => rfl
  | comma =>
    rw [MathToken.lowered]
    simp only [readTokens, closeSum_lowered]
    obtain ⟨e, stack⟩ := closeSum e stack
    cases stack with
    | nil => rfl
    | cons frame stack =>
      cases frame with
      | call name args => exact later (.call name (e :: args) :: stack) none
      | negated | signed | product | sum | parens => rfl
  | number | dimension | identifier | customProperty | function | opening => rfl

/-- **Tokens in lower case** are read as the tree in lower case. -/
theorem readTokens_lowered (stack : List MathFrame) (held : Option MathExpr)
    (tokens : List MathToken) :
    readTokens ending (stack.map MathFrame.lowered) (held.map MathExpr.lowered)
        (tokens.map MathToken.lowered) =
      (readTokens ending stack held tokens).map MathExpr.lowered := by
  induction tokens generalizing stack held with
  | nil =>
    cases held with
    | none => rfl
    | some e =>
      rw [Option.map_some, List.map_nil, readTokens, readTokens, closeSum_lowered]
      split
      · obtain ⟨e, stack⟩ := closeSum e stack
        cases stack <;> rfl
      · rfl
  | cons token tokens ih =>
    cases held with
    | none =>
      cases token with
      | number cs => exact ih stack (some (.number cs))
      | dimension cs => exact ih stack (some (.dimension cs))
      | identifier cs => exact ih stack (some (.identifier cs))
      | customProperty cs => exact ih stack (some (.customProperty cs))
      | function name => exact ih (.call name [] :: stack) none
      | opening => exact ih (.parens :: stack) none
      | operator op =>
        cases op with
        | minus => exact ih (.negated :: stack) none
        | plus => exact ih (.signed :: stack) none
        | _ => rfl
      | closing | comma => rfl
    | some e => exact readTokens_held_lowered ih stack e token

end Reader

theorem MathExpr.ofChars_map_toLower (cs : List Char) :
    ofChars (cs.map Char.toLower) = (ofChars cs).map lowered := by
  rw [ofChars, MathToken.lex, List.length_map, MathToken.lexUpTo_map_toLower]
  exact readTokens_lowered [] none _

/-! ## The rules -/

namespace MathExpr

theorem isZeroNumeral_map_toLower_iff {cs : List Char} :
    IsZeroNumeral (cs.map Char.toLower) ↔ IsZeroNumeral cs := by
  have blind : IsCaseBlind decimalValue? := .of_table (by decide)
  rw [IsZeroNumeral, IsZeroNumeral, List.forall_mem_map]
  exact forall₂_congr fun c _ => by rw [isCaseBlind_isDecimal c, blind c]

theorem IsTree.isZeroLiteral_lowered_iff {b : Bool} {e : MathExpr} (h : e.IsTree b) :
    e.lowered.IsZeroLiteral ↔ e.IsZeroLiteral := by
  induction h with
  | number =>
    constructor
    · rintro (zero | _)
      exact .number (isZeroNumeral_map_toLower_iff.1 zero)
    · rintro (zero | _)
      exact .number (isZeroNumeral_map_toLower_iff.2 zero)
  | dimension =>
    constructor
    · rintro (_ | zero)
      exact .dimension (isZeroNumeral_map_toLower_iff.1 zero)
    · rintro (_ | zero)
      exact .dimension (isZeroNumeral_map_toLower_iff.2 zero)
  | negated _ ih =>
    constructor
    · rintro (_ | _ | zero)
      exact .negated (ih.1 zero)
    · rintro (_ | _ | zero)
      exact .negated (ih.2 zero)
  | signed _ ih =>
    constructor
    · rintro (_ | _ | _ | zero)
      exact .signed (ih.1 zero)
    · rintro (_ | _ | _ | zero)
      exact .signed (ih.2 zero)
  | parens _ ih =>
    constructor
    · rintro (_ | _ | _ | _ | zero)
      exact .parens (ih.1 zero)
    · rintro (_ | _ | _ | _ | zero)
      exact .parens (ih.2 zero)
  | identifier | customProperty | binary | call => constructor <;> rintro ⟨⟩

/-- A tree obeys the rules if and only if its lower case does. -/
theorem IsTree.obeys_lowered_iff {b : Bool} {e : MathExpr} (h : e.IsTree b) :
    e.lowered.Obeys ↔ e.Obeys := by
  have leaf : ∀ e : MathExpr, e.ObeysHere → e.children = [] → e.Obeys := by
    intro e here none_
    rw [obeys_iff, none_]
    exact ⟨here, List.forall_mem_nil _⟩
  have single : ∀ {e child : MathExpr}, e.ObeysHere → e.children = [child] →
      e.lowered.ObeysHere → e.lowered.children = [child.lowered] →
      (child.lowered.Obeys ↔ child.Obeys) → (e.lowered.Obeys ↔ e.Obeys) := by
    intro e child here children here' children' same
    rw [obeys_iff_child here' children', same, obeys_iff_child here children]
  induction h with
  | number | dimension | identifier | customProperty =>
    exact iff_of_true (leaf _ trivial rfl) (leaf _ trivial rfl)
  | negated _ ih | signed _ ih | parens _ ih => exact single trivial rfl trivial rfl ih
  | binary op _ right ihl ihr =>
    rw [lowered, obeys_binary_iff, obeys_binary_iff, right.isZeroLiteral_lowered_iff]
    exact and_congr ihl (and_congr_left fun _ => ihr)
  | @call _ name args _ _ ih =>
    rw [lowered, loweredAll_eq_map, obeys_iff, obeys_iff, ObeysHere, ObeysHere,
      lower_map_toLower, List.length_map]
    refine and_congr (and_congr_right fun _ => ?_) ?_
    · constructor
      · intro all index arg isArg
        have here := all index arg.lowered (by rw [List.getElem?_map, isArg, Option.map_some])
        rwa [isName_lowered_iff] at here
      · intro all index arg' isArg'
        rw [List.getElem?_map, Option.map_eq_some_iff] at isArg'
        obtain ⟨arg, isArg, rfl⟩ := isArg'
        rw [isName_lowered_iff]
        exact all index arg isArg
    · rw [children, children, List.forall_mem_map]
      exact forall₂_congr ih

end MathExpr

/-- **An expression and its lower case** are both accepted or both refused. -/
theorem checkMath_map_toLower_iff (cs : List Char) :
    checkMath (cs.map Char.toLower) = .ok () ↔ checkMath cs = .ok () := by
  have chars : IsCaseBlind isMathChar := .of_table (by decide)
  rw [checkMath_eq_ok_iff, checkMath_eq_ok_iff, trim_map_toLower, chars.forall_iff,
    count_map_of_mark (by decide), count_map_of_mark (by decide), ne_eq, List.map_eq_nil_iff]
  refine and_congr_right fun _ => and_congr_right fun _ => and_congr_right fun _ => ?_
  constructor
  · rintro ⟨e', read', amounts⟩
    have tree' := (MathExpr.isBracketed_of_ofChars read').2.1.tree
    rw [MathExpr.ofChars_map_toLower, map_eq_ok_iff] at read'
    obtain ⟨e, read, rfl⟩ := read'
    have tree := (MathExpr.isBracketed_of_ofChars read).2.1.tree
    rw [tree'.operand_eq_ok_iff, tree.obeys_lowered_iff, ← tree.operand_eq_ok_iff] at amounts
    exact ⟨e, read, amounts⟩
  · rintro ⟨e, read, amounts⟩
    have tree := (MathExpr.isBracketed_of_ofChars read).2.1.tree
    have read' : MathExpr.ofChars ((trim cs).map Char.toLower) = .ok e.lowered := by
      rw [MathExpr.ofChars_map_toLower, read]
      rfl
    have tree' := (MathExpr.isBracketed_of_ofChars read').2.1.tree
    rw [tree.operand_eq_ok_iff, ← tree.obeys_lowered_iff, ← tree'.operand_eq_ok_iff] at amounts
    exact ⟨_, read', amounts⟩

end BracketCss
