import BracketCss.Proofs.Value.Math.Rules
import BracketCss.Proofs.Value.Math.Stack

/-!
# Which expressions are accepted

A text is accepted as an arithmetic expression exactly if it is one and obeys the rules: of the
printed trees those that obey the rules are accepted, and every accepted text, its outer white space
aside, consists of the tokens of such a tree.

## Main results

* `checkMath_eq_ok_iff`: what the check of a text looks at
* `MathExpr.IsTree.ofChars_printed`: a printed tree is read again
* `checkMath_accepts`: which texts are accepted
-/

namespace BracketCss

open Text

/-- A check that throws is passed if its condition does not hold. -/
theorem throw_if_eq_ok_iff {ε α β : Type} {p : Prop} [Decidable p] {fault : ε} {f : α → Except ε β}
    {x : Except ε β} {b : β} : (if p then throw fault >>= f else x) = .ok b ↔ ¬ p ∧ x = .ok b := by
  by_cases h : p
  · simp [h, throw, throwThe, MonadExceptOf.throw, bind, Except.bind]
  · simp [h]

/-- A text is accepted if it holds something, only characters of expressions, as many opening as
closing parentheses, and can be read as an expression that amounts to something. -/
theorem checkMath_eq_ok_iff {cs : List Char} : checkMath cs = .ok () ↔
    trim cs ≠ [] ∧ (∀ c ∈ trim cs, isMathChar c) ∧ (trim cs).count '(' = (trim cs).count ')' ∧
      ∃ e, MathExpr.ofChars (trim cs) = .ok e ∧ ∃ o, e.operand = .ok o := by
  simp only [checkMath, throw_if_eq_ok_iff, bind_eq_ok_iff, List.isEmpty_iff, Bool.not_eq_true',
    Bool.not_eq_false, List.all_eq_true, ne_eq, not_not]
  refine and_congr_right fun _ => and_congr_right fun _ => and_congr_right fun _ => ?_
  exact exists_congr fun e => and_congr_right fun _ => exists_congr fun o => and_iff_left rfl

namespace MathExpr

/-- **What is read from a text** is a tree that has the parentheses that precedence needs, and its
tokens make up the text. -/
theorem isBracketed_of_ofChars {cs : List Char} {e : MathExpr} (h : ofChars cs = .ok e) :
    (MathToken.lex .operand cs).2 = .complete ∧ e.IsBracketed false ∧
      MathToken.IsWritten e.flatten cs := by
  rw [ofChars] at h
  have lexed : MathToken.lexUpTo (cs.length + 1) .operand cs = _ :=
    (Prod.eta (MathToken.lex .operand cs)).symm
  obtain ⟨lexemes, flows, written⟩ := MathToken.lexUpTo_spec (Nat.lt_succ_self _) lexed
  have start : IsReading .operand [] none := .waiting .nil nofun
  obtain ⟨complete, tree, flat⟩ := start.written lexemes flows.hasPlacedNames h
  refine ⟨complete, tree, ?_⟩
  rw [flat]
  exact written complete

section Printed

variable {e : MathExpr}

theorem IsTree.isBare_printed (h : e.IsTree false) : IsBare e.printed :=
  MathToken.isBare_spaced (flatten_ne_nil _) h.bracketed.isLexeme

theorem IsTree.isMathChar_printed (h : e.IsTree false) : ∀ c ∈ e.printed, isMathChar c :=
  MathToken.forall_mem_spaced (by decide) fun token mem c hc =>
    MathToken.isMathChar_of_isTokenChar
      (MathToken.isTokenChar_text (h.bracketed.isLexeme token mem) c hc)

theorem IsTree.count_printed (h : e.IsTree false) : e.printed.count '(' = e.printed.count ')' := by
  rw [printed, MathToken.count_spaced (by decide), MathToken.count_spaced (by decide)]
  exact h.bracketed.balanced

/-- **A printed tree is read again**, with the parentheses that precedence needs, unless a call in
it is empty. -/
theorem IsTree.ofChars_printed (h : e.IsTree false) :
    (e.IsFull → ofChars e.printed = .ok e.bracketed) ∧
      (¬ e.IsFull → ∀ t, ofChars e.printed ≠ .ok t) := by
  obtain ⟨whole, stopped⟩ := MathToken.lexUpTo_spaced (List.forall_mem_nil _) h.bracketed.isLexeme
    h.bracketed.hasPlacedNames (Nat.lt_succ_self _)
  rw [h.bracketed.flows_iff, h.isFull_bracketed] at whole stopped
  refine ⟨fun full => ?_, fun empty t read => ?_⟩
  · have lexed : MathToken.lex .operand e.printed = (e.tokens, .complete) := whole full
    have reads : Reads .complete e.bracketed := h.reads full
    have read := reads [] [] (Nat.zero_le _) fun _ => nofun
    rw [List.append_nil] at read
    rw [ofChars, lexed]
    exact read
  · exact stopped empty (isBracketed_of_ofChars read).1

end Printed

end MathExpr

/-- **Which texts are accepted.** A printed tree is accepted if and only if it obeys the rules; and
an accepted text consists, its outer white space aside, of the tokens of such a tree, with white
space between them or not. -/
theorem checkMath_accepts :
    (∀ e : MathExpr, e.IsTree false → (checkMath e.printed = .ok () ↔ e.Obeys)) ∧
      ∀ cs, checkMath cs = .ok () →
        ∃ e : MathExpr, e.IsTree false ∧ e.Obeys ∧ MathToken.IsWritten e.tokens (trim cs) := by
  constructor
  · intro e tree
    have bare := tree.isBare_printed
    rw [checkMath_eq_ok_iff, bare.trim_eq, and_iff_right bare.nonempty,
      and_iff_right tree.isMathChar_printed, and_iff_right tree.count_printed]
    obtain ⟨read, unread⟩ := tree.ofChars_printed
    constructor
    · rintro ⟨t, isTree, amounts⟩
      have full : e.IsFull := by
        by_contra empty
        exact unread empty t isTree
      obtain rfl := Except.ok.inj ((read full).symm.trans isTree)
      rw [tree.operand_bracketed, tree.operand_eq_ok_iff] at amounts
      exact amounts
    · intro obeys
      refine ⟨e.bracketed, read obeys.isFull, ?_⟩
      rw [tree.operand_bracketed]
      exact tree.operand_eq_ok_iff.2 obeys
  · intro cs accepted
    obtain ⟨-, -, -, e, read, amounts⟩ := checkMath_eq_ok_iff.1 accepted
    obtain ⟨-, ⟨tree, same⟩, written⟩ := MathExpr.isBracketed_of_ofChars read
    refine ⟨e, tree, tree.operand_eq_ok_iff.1 amounts, ?_⟩
    rw [MathExpr.tokens, same]
    exact written

/-- The double of a difference, which needs parentheses. -/
def doubledGap : MathExpr :=
  .call "calc".toList [.binary .times (.number "2".toList)
    (.binary .minus (.dimension "3em".toList) (.call "var".toList [.customProperty "--x".toList]))]

theorem isTree_doubledGap : doubledGap.IsTree false := by
  have digit : ∀ c : Char, isDecimal c → IsNumeral [c] := fun c h =>
    .whole (List.cons_ne_nil c []) (List.forall_mem_singleton.2 h)
  have gap : (MathExpr.dimension "3em".toList).IsTree false :=
    .dimension (digit '3' (by decide)) (.inl ⟨by decide, by decide⟩)
  have property : (MathExpr.call "var".toList [.customProperty "--x".toList]).IsTree false :=
    .call ⟨'v', "ar".toList, by decide, by decide, by decide⟩
      (List.forall_mem_singleton.2 (.customProperty ⟨"x".toList, by decide, by decide, by decide⟩))
  exact .call ⟨'c', "alc".toList, by decide, by decide, by decide⟩ (List.forall_mem_singleton.2
    (.binary .times (.number (digit '2' (by decide))) (.binary .minus gap property)))

theorem checkMath_accepts_doubledGap :
    (doubledGap.printed = "calc( 2 * ( 3em - var( --x ) ) )".toList ∧
      (checkMath doubledGap.printed = .ok () ↔ doubledGap.Obeys)) ∧
    checkMath " 1px+.5em/2 ".toList = .ok () ∧
      ∃ e : MathExpr, e.IsTree false ∧ e.Obeys ∧
        MathToken.IsWritten e.tokens (trim " 1px+.5em/2 ".toList) :=
  have accepted : checkMath " 1px+.5em/2 ".toList = .ok () := by rfl
  ⟨⟨by decide, checkMath_accepts.1 doubledGap isTree_doubledGap⟩, accepted,
    checkMath_accepts.2 _ accepted⟩

end BracketCss
