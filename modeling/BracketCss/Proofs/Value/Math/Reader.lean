import BracketCss.Proofs.Value.Math.Tree

/-!
# Reading a tree from its tokens

The reader gets back every tree from its tokens, with the parentheses that precedence needs: an
operand that binds as tightly as the open parts demand is read as a whole, whatever stands around.

## Main definitions

* `leastLevel stack`: how tightly the next operand has to bind
* `MathExpr.Reads ending e`: the tokens of a tree are read as that tree

## Main results

* `readTokens_congr`: operands that close alike are read on alike
* `MathExpr.IsTree.reads`: a tree with the parentheses that precedence needs is read again
-/

namespace BracketCss

open Text

/-- How tightly an operand in the place that a part leaves open has to bind. -/
def MathFrame.least : MathFrame → Nat
  | negated | signed | product _ _ => 2
  | sum _ _ => 1
  | parens | call _ _ => 0

/-- How tightly the next operand has to bind. -/
def leastLevel : List MathFrame → Nat
  | [] => 0
  | frame :: _ => frame.least

/-- The tokens do not go on with a multiplication or a division. -/
def EndsProduct (tokens : List MathToken) : Prop :=
  ∀ op, tokens.head? = some (.operator op) → op.level = 0

section Reader

variable {ending : MathToken.End} {stack stack' : List MathFrame} {e e' : MathExpr}
  {tokens : List MathToken}

/-! ## Closing -/

theorem closeSigns_eq (h : leastLevel stack ≤ 1) : closeSigns e stack = (e, stack) := by
  cases stack with
  | nil => rfl
  | cons frame stack =>
    cases frame with
    | negated | signed | product => exact absurd h (by simp [leastLevel, MathFrame.least])
    | sum | parens | call => rfl

theorem closeProduct_eq (h : leastLevel stack ≤ 1) : closeProduct e stack = (e, stack) := by
  rw [closeProduct, closeSigns_eq h]
  cases stack with
  | nil => rfl
  | cons frame stack =>
    cases frame with
    | product => exact absurd h (by simp [leastLevel, MathFrame.least])
    | negated | signed | sum | parens | call => rfl

theorem closeSum_eq (h : leastLevel stack = 0) : closeSum e stack = (e, stack) := by
  rw [closeSum, closeProduct_eq (h ▸ Nat.zero_le 1)]
  cases stack with
  | nil => rfl
  | cons frame stack =>
    cases frame with
    | sum => cases h
    | negated | signed | product | parens | call => rfl

theorem closeSum_congr (h : closeProduct e stack = closeProduct e' stack') :
    closeSum e stack = closeSum e' stack' := by
  rw [closeSum, closeSum, h]

/-- Before an addition or a subtraction, a sum is closed. -/
theorem openOperator_sum {op : MathOperator} (h : op.level = 0) : openOperator op e stack =
    .sum (closeSum e stack).1 op :: (closeSum e stack).2 := by
  cases op <;> first | rfl | cases h

/-- Before a multiplication or a division, a product is closed. -/
theorem openOperator_product {op : MathOperator} (h : op.level = 1) : openOperator op e stack =
    .product (closeProduct e stack).1 op :: (closeProduct e stack).2 := by
  cases op <;> first | rfl | cases h

/-! ## One token -/

theorem readTokens_operator (plain : ¬ e.IsName) (op : MathOperator) :
    readTokens ending stack (some e) (.operator op :: tokens) =
      readTokens ending (openOperator op e stack) none tokens := by
  cases e with
  | customProperty cs => exact absurd ⟨cs, rfl⟩ plain
  | _ => rfl

theorem readTokens_closing_parens (closed : closeSum e stack = (e', .parens :: stack')) :
    readTokens ending stack (some e) (.closing :: tokens) =
      readTokens ending stack' (some (.parens e')) tokens := by
  simp only [readTokens, closed]

theorem readTokens_closing_call {name : List Char} {args : List MathExpr}
    (closed : closeSum e stack = (e', .call name args :: stack')) :
    readTokens ending stack (some e) (.closing :: tokens) =
      readTokens ending stack' (some (.call name (e' :: args).reverse)) tokens := by
  simp only [readTokens, closed]

theorem readTokens_comma {name : List Char} {args : List MathExpr}
    (closed : closeSum e stack = (e', .call name args :: stack')) :
    readTokens ending stack (some e) (.comma :: tokens) =
      readTokens ending (.call name (e' :: args) :: stack') none tokens := by
  simp only [readTokens, closed]

/-- Operands that close alike are read on alike. Where no product can go on, the sums that they
close have to agree only. -/
theorem readTokens_congr (plain : ¬ e.IsName) (plain' : ¬ e'.IsName)
    (sum : closeSum e stack = closeSum e' stack')
    (product : closeProduct e stack = closeProduct e' stack' ∨ EndsProduct tokens) :
    readTokens ending stack (some e) tokens = readTokens ending stack' (some e') tokens := by
  cases tokens with
  | nil => simp only [readTokens, sum]
  | cons token tokens =>
    cases token with
    | operator op =>
      rw [readTokens_operator plain, readTokens_operator plain']
      rcases op.level_cases with level | level
      · rw [openOperator_sum level, openOperator_sum level, sum]
      · rcases product with same | ends
        · rw [openOperator_product level, openOperator_product level, same]
        · exact absurd ((ends op rfl).symm.trans level) Nat.zero_ne_one
    | closing => simp only [readTokens, sum]
    | comma => simp only [readTokens, sum]
    | _ => simp only [readTokens]

end Reader

/-! ## Reading a tree -/

namespace MathExpr

/-- The tokens of a tree are read as that tree, wherever it binds tightly enough for what stands
before it and after it. -/
def Reads (ending : MathToken.End) (e : MathExpr) : Prop :=
  ∀ (stack : List MathFrame) (tokens : List MathToken), leastLevel stack ≤ e.level →
    (e.level = 0 → EndsProduct tokens) →
      readTokens ending stack none (e.flatten ++ tokens) = readTokens ending stack (some e) tokens

section Reads

variable {ending : MathToken.End} {e l r : MathExpr} {b : Bool}

theorem Reads.negated (h : Reads ending e) (plain : ¬ e.IsName) (tight : 2 ≤ e.level) :
    Reads ending (.negated e) := by
  intro stack tokens _ _
  calc readTokens ending stack none ((MathExpr.negated e).flatten ++ tokens)
    _ = readTokens ending (.negated :: stack) none (e.flatten ++ tokens) := by
      rw [flatten]
      rfl
    _ = readTokens ending (.negated :: stack) (some e) tokens := h _ _ tight (by omega)
    _ = readTokens ending stack (some (.negated e)) tokens :=
      readTokens_congr plain nofun rfl (.inl rfl)

theorem Reads.signed (h : Reads ending e) (plain : ¬ e.IsName) (tight : 2 ≤ e.level) :
    Reads ending (.signed e) := by
  intro stack tokens _ _
  calc readTokens ending stack none ((MathExpr.signed e).flatten ++ tokens)
    _ = readTokens ending (.signed :: stack) none (e.flatten ++ tokens) := by
      rw [flatten]
      rfl
    _ = readTokens ending (.signed :: stack) (some e) tokens := h _ _ tight (by omega)
    _ = readTokens ending stack (some (.signed e)) tokens :=
      readTokens_congr plain nofun rfl (.inl rfl)

theorem endsProduct_closing (tokens : List MathToken) : EndsProduct (.closing :: tokens) := nofun

theorem endsProduct_comma (tokens : List MathToken) : EndsProduct (.comma :: tokens) := nofun

theorem Reads.parens (h : Reads ending e) : Reads ending (.parens e) := by
  intro stack tokens _ _
  have closed : closeSum e (.parens :: stack) = (e, .parens :: stack) := closeSum_eq rfl
  calc readTokens ending stack none ((MathExpr.parens e).flatten ++ tokens)
    _ = readTokens ending (.parens :: stack) none (e.flatten ++ .closing :: tokens) := by
      rw [flatten, List.cons_append, List.append_assoc]
      rfl
    _ = readTokens ending (.parens :: stack) (some e) (.closing :: tokens) :=
      h _ _ (Nat.zero_le _) fun _ => endsProduct_closing tokens
    _ = readTokens ending stack (some (.parens e)) tokens := readTokens_closing_parens closed

theorem Reads.enclosed (h : Reads ending e) (least : Nat) : Reads ending (e.enclosed least) := by
  unfold MathExpr.enclosed
  split
  · exact h.parens
  · exact h

theorem Reads.binary {op : MathOperator} (left : Reads ending l) (right : Reads ending r)
    (plain : ¬ l.IsName) (plain' : ¬ r.IsName) (tight : op.level ≤ l.level)
    (tight' : op.level + 1 ≤ r.level) : Reads ending (.binary op l r) := by
  intro stack tokens fits ends
  rw [level] at fits ends
  have start : readTokens ending stack none ((MathExpr.binary op l r).flatten ++ tokens) =
      readTokens ending (openOperator op l stack) none (r.flatten ++ tokens) := by
    rw [flatten, List.append_assoc, left _ _ (fits.trans tight) (by rintro zero op' ⟨⟩; omega),
      List.cons_append, readTokens_operator plain]
  rw [start]
  rcases op.level_cases with level | level
  · have opened : openOperator op l stack = .sum l op :: stack := by
      rw [openOperator_sum level, closeSum_eq (by omega)]
    have closed : closeSum r (.sum l op :: stack) = closeSum (.binary op l r) stack := by
      rw [closeSum_eq (e := .binary op l r) (by omega), closeSum, closeProduct_eq le_rfl]
    rw [opened, right _ _ (by simp only [leastLevel, MathFrame.least]; omega) (by omega)]
    exact readTokens_congr plain' (by rintro ⟨_, ⟨⟩⟩) closed (.inr (ends level))
  · have opened : openOperator op l stack = .product l op :: stack := by
      rw [openOperator_product level, closeProduct_eq (by omega)]
    have closed : closeProduct r (.product l op :: stack) =
        closeProduct (.binary op l r) stack := by
      rw [closeProduct_eq (e := .binary op l r) (by omega), closeProduct]
      rfl
    rw [opened, right _ _ (by simp only [leastLevel, MathFrame.least]; omega) (by omega)]
    exact readTokens_congr plain' (by rintro ⟨_, ⟨⟩⟩) (closeSum_congr closed) (.inl closed)

theorem readTokens_arguments {stack : List MathFrame} {name : List Char}
    {done args : List MathExpr} (some_ : args ≠ []) (h : ∀ e ∈ args, Reads ending e)
    (tokens : List MathToken) :
    readTokens ending (.call name done :: stack) none (flattenAll args ++ .closing :: tokens) =
      readTokens ending stack (some (.call name (done.reverse ++ args))) tokens := by
  induction args generalizing done with
  | nil => exact absurd rfl some_
  | cons e rest ih =>
    obtain ⟨first, others⟩ := List.forall_mem_cons.1 h
    have closed : closeSum e (.call name done :: stack) = (e, .call name done :: stack) :=
      closeSum_eq rfl
    cases rest with
    | nil =>
      rw [flattenAll, first _ _ (Nat.zero_le _) fun _ => endsProduct_closing tokens,
        readTokens_closing_call closed, List.reverse_cons]
    | cons next rest =>
      rw [flattenAll, List.append_assoc, List.cons_append,
        first _ _ (Nat.zero_le _) fun _ => endsProduct_comma _, readTokens_comma closed,
        ih (List.cons_ne_nil _ _) others, List.reverse_cons, List.append_assoc,
        List.singleton_append]

theorem Reads.call {name : List Char} {args : List MathExpr} (some_ : args ≠ [])
    (h : ∀ e ∈ args, Reads ending e) : Reads ending (.call name args) := by
  intro stack tokens _ _
  rw [flatten, List.cons_append, List.append_assoc]
  exact readTokens_arguments some_ h tokens

theorem le_level_enclosed {least : Nat} (h : least ≤ 3) (e : MathExpr) :
    least ≤ (e.enclosed least).level := by
  unfold MathExpr.enclosed
  split
  · exact h
  · next loose => exact Nat.not_lt.1 loose

/-- **A tree is read again** from its tokens, with the parentheses that precedence needs. -/
theorem IsTree.reads (h : e.IsTree b) (full : e.IsFull) : Reads ending e.bracketed := by
  have leaf : ∀ {e : MathExpr} {token : MathToken}, e.flatten = [token] →
      (∀ stack tokens, readTokens ending stack none (token :: tokens) =
        readTokens ending stack (some e) tokens) → Reads ending e := by
    intro e token flat read stack tokens _ _
    rw [flat]
    exact read stack tokens
  induction h with
  | number | dimension | identifier | customProperty => exact leaf rfl fun _ _ => rfl
  | negated tree ih =>
    exact ((ih (isFull_negated.1 full)).enclosed 2).negated (tree.bracketed.enclosed 2).not_isName
      (le_level_enclosed (by decide) _)
  | signed tree ih =>
    exact ((ih (isFull_signed.1 full)).enclosed 2).signed (tree.bracketed.enclosed 2).not_isName
      (le_level_enclosed (by decide) _)
  | parens tree ih => exact (ih (isFull_parens.1 full)).parens
  | binary op left right ihLeft ihRight =>
    obtain ⟨fullLeft, fullRight⟩ := isFull_binary.1 full
    have level : op.level + 1 ≤ 3 := by cases op <;> decide
    exact ((ihLeft fullLeft).enclosed _).binary ((ihRight fullRight).enclosed _)
      (left.bracketed.enclosed _).not_isName (right.bracketed.enclosed _).not_isName
      (le_level_enclosed (by omega) _) (le_level_enclosed level _)
  | call name _ ih =>
    obtain ⟨some_, fullArgs⟩ := isFull_call.1 full
    rw [MathExpr.bracketed, bracketedAll_eq_map]
    exact .call (mt List.map_eq_nil_iff.1 some_)
      (List.forall_mem_map.2 fun e mem => ih e mem (fullArgs e mem))

end Reads

end MathExpr

end BracketCss
