import BracketCss.Proofs.Value.Math.Reader

/-!
# What a reader of tokens has read

At any time the tokens read so far are those of the open parts and of the operand read last, and
each open part binds as tightly as the one around it demands. Closing parts changes none of this, so
whatever is read in the end are the tokens of a tree.

## Main definitions

* `MathExpr.IsBracketed argument e`: a tree that has the parentheses that precedence needs
* `IsStack stack`, `openTokens stack`: the open parts, and the tokens that opened them
* `Holds stack e`: an operand in the place that the open parts leave
* `IsReading place stack held`, `readSoFar stack held`: a reader, and the tokens that it has read

## Main results

* `closeSigns_closes`, `closeProduct_closes`, `closeSum_closes`: what closing parts leaves
* `IsReading.step`: one token on, the reader has read that token too
* `IsReading.written`: whatever is read are the tokens of a tree
-/

namespace BracketCss

open Text

namespace MathExpr

/-- A tree that has the parentheses that precedence needs. -/
structure IsBracketed (argument : Bool) (e : MathExpr) : Prop where
  tree : e.IsTree argument
  eq : e.bracketed = e

section IsBracketed

variable {b : Bool} {e l r : MathExpr}

theorem IsBracketed.negated (h : IsBracketed false e) (tight : 2 ≤ e.level) :
    IsBracketed b (.negated e) :=
  ⟨.negated h.tree, by rw [bracketed, h.eq, enclosed_of_le tight]⟩

theorem IsBracketed.signed (h : IsBracketed false e) (tight : 2 ≤ e.level) :
    IsBracketed b (.signed e) :=
  ⟨.signed h.tree, by rw [bracketed, h.eq, enclosed_of_le tight]⟩

theorem IsBracketed.binary {op : MathOperator} (left : IsBracketed false l)
    (right : IsBracketed false r) (tight : op.level ≤ l.level) (tight' : op.level + 1 ≤ r.level) :
    IsBracketed b (.binary op l r) :=
  ⟨.binary op left.tree right.tree,
    by rw [bracketed, left.eq, right.eq, enclosed_of_le tight, enclosed_of_le tight']⟩

theorem IsBracketed.parens (h : IsBracketed false e) : IsBracketed b (.parens e) :=
  ⟨.parens h.tree, by rw [bracketed, h.eq]⟩

theorem IsBracketed.call {name : List Char} {args : List MathExpr}
    (identifier : IsIdentifierText name) (h : ∀ e ∈ args, IsBracketed true e) :
    IsBracketed b (.call name args) := by
  refine ⟨.call identifier fun e mem => (h e mem).tree, ?_⟩
  have same : args.map bracketed = args :=
    (List.map_congr_left fun e mem => (h e mem).eq).trans (List.map_id _)
  rw [bracketed, bracketedAll_eq_map, same]

end IsBracketed

end MathExpr

/-- The tokens that opened a part of an expression. -/
def MathFrame.tokens : MathFrame → List MathToken
  | negated => [.operator .minus]
  | signed => [.operator .plus]
  | product left op | sum left op => left.flatten ++ [.operator op]
  | parens => [.opening]
  | call name args => .function name :: args.reverse.flatMap fun e => e.flatten ++ [.comma]

/-- The tokens that opened the open parts. -/
def openTokens : List MathFrame → List MathToken
  | [] => []
  | frame :: stack => openTokens stack ++ frame.tokens

/-- The innermost open part is a call, which may be given the name of a custom property. -/
def takesName : List MathFrame → Bool
  | .call _ _ :: _ => true
  | _ => false

/-- Open parts as they come about: each binds as tightly as the one around it demands. -/
inductive IsStack : List MathFrame → Prop
  | nil : IsStack []
  | negated {stack : List MathFrame} : IsStack stack → IsStack (.negated :: stack)
  | signed {stack : List MathFrame} : IsStack stack → IsStack (.signed :: stack)
  | product {stack : List MathFrame} {left : MathExpr} {op : MathOperator} : IsStack stack →
      leastLevel stack ≤ 1 → left.IsBracketed false → 1 ≤ left.level → op.level = 1 →
      IsStack (.product left op :: stack)
  | sum {stack : List MathFrame} {left : MathExpr} {op : MathOperator} : IsStack stack →
      leastLevel stack = 0 → left.IsBracketed false → op.level = 0 →
      IsStack (.sum left op :: stack)
  | parens {stack : List MathFrame} : IsStack stack → IsStack (.parens :: stack)
  | call {stack : List MathFrame} {name : List Char} {args : List MathExpr} : IsStack stack →
      IsIdentifierText name → (∀ e ∈ args, e.IsBracketed true) →
      IsStack (.call name args :: stack)

/-- An operand in the place that the open parts leave. -/
structure Holds (stack : List MathFrame) (e : MathExpr) : Prop where
  frames : IsStack stack
  tree : e.IsBracketed (takesName stack)
  fits : leastLevel stack ≤ e.level

/-- An operand and the open parts around it come about from others by closing parts. -/
structure Closes (e : MathExpr) (stack : List MathFrame) (e' : MathExpr)
    (stack' : List MathFrame) : Prop where
  holds : Holds stack' e'
  tokens : openTokens stack' ++ e'.flatten = openTokens stack ++ e.flatten
  name : e'.IsName → e.IsName

section Sound

variable {stack stack' : List MathFrame} {e e' : MathExpr}

theorem IsStack.tail {frame : MathFrame} (h : IsStack (frame :: stack)) : IsStack stack := by
  cases h <;> assumption

theorem IsStack.of_call {name : List Char} {args : List MathExpr}
    (h : IsStack (.call name args :: stack)) :
    IsIdentifierText name ∧ ∀ e ∈ args, e.IsBracketed true := by
  cases h with
  | call _ identifier trees => exact ⟨identifier, trees⟩

theorem leastLevel_le_two (stack : List MathFrame) : leastLevel stack ≤ 2 := by
  cases stack with
  | nil => exact Nat.zero_le 2
  | cons frame stack => cases frame <;> simp [leastLevel, MathFrame.least]

theorem Closes.refl (h : Holds stack e) : Closes e stack e stack := ⟨h, rfl, id⟩

theorem Closes.trans {e'' : MathExpr} {stack'' : List MathFrame} (h : Closes e stack e' stack')
    (h' : Closes e' stack' e'' stack'') : Closes e stack e'' stack'' :=
  ⟨h'.holds, h'.tokens.trans h.tokens, fun name => h.name (h'.name name)⟩

/-- Closing the signs in front of an operand leaves none. -/
theorem closeSigns_closes (h : Holds stack e) (tight : 2 ≤ e.level) :
    Closes e stack (closeSigns e stack).1 (closeSigns e stack).2 ∧
      2 ≤ (closeSigns e stack).1.level ∧
      ∀ frame ∈ (closeSigns e stack).2.head?, frame ≠ .negated ∧ frame ≠ .signed := by
  induction stack generalizing e with
  | nil => exact ⟨.refl h, tight, nofun⟩
  | cons frame stack ih =>
    cases frame with
    | negated =>
      obtain ⟨frames, tree, -⟩ := h
      have next : Holds stack (.negated e) :=
        ⟨frames.tail, tree.negated tight, leastLevel_le_two stack⟩
      have step : Closes e (.negated :: stack) (.negated e) stack :=
        ⟨next, by simp [openTokens, MathFrame.tokens, MathExpr.flatten], by rintro ⟨_, ⟨⟩⟩⟩
      obtain ⟨closes, tight', head⟩ := ih next le_rfl
      exact ⟨step.trans closes, tight', head⟩
    | signed =>
      obtain ⟨frames, tree, -⟩ := h
      have next : Holds stack (.signed e) :=
        ⟨frames.tail, tree.signed tight, leastLevel_le_two stack⟩
      have step : Closes e (.signed :: stack) (.signed e) stack :=
        ⟨next, by simp [openTokens, MathFrame.tokens, MathExpr.flatten], by rintro ⟨_, ⟨⟩⟩⟩
      obtain ⟨closes, tight', head⟩ := ih next le_rfl
      exact ⟨step.trans closes, tight', head⟩
    | product | sum | parens | call =>
      refine ⟨.refl h, tight, ?_⟩
      rintro frame ⟨⟩
      constructor <;> rintro ⟨⟩

/-- Closing a product leaves the operand of a sum. -/
theorem closeProduct_closes (h : Holds stack e) (tight : 2 ≤ e.level) :
    Closes e stack (closeProduct e stack).1 (closeProduct e stack).2 ∧
      1 ≤ (closeProduct e stack).1.level ∧ leastLevel (closeProduct e stack).2 ≤ 1 := by
  obtain ⟨closes, tight', head⟩ := closeSigns_closes h tight
  rw [closeProduct]
  generalize closeSigns e stack = closed at closes tight' head
  obtain ⟨e', stack'⟩ := closed
  cases stack' with
  | nil => exact ⟨closes, Nat.le_of_succ_le tight', Nat.zero_le 1⟩
  | cons frame stack' =>
    cases frame with
    | negated => exact absurd rfl (head _ rfl).1
    | signed => exact absurd rfl (head _ rfl).2
    | product left op =>
      obtain ⟨frames, tree, -⟩ := closes.holds
      cases frames with
      | product frames fits bracketed tightLeft level =>
        have next : Holds stack' (.binary op left e') :=
          ⟨frames, bracketed.binary tree (by omega) (by dsimp only at tight'; omega), by
            rw [MathExpr.level, level]
            exact fits⟩
        have step : Closes e' (.product left op :: stack') (.binary op left e') stack' :=
          ⟨next, by simp [openTokens, MathFrame.tokens, MathExpr.flatten], by rintro ⟨_, ⟨⟩⟩⟩
        exact ⟨closes.trans step, level.ge, fits⟩
    | sum | parens | call =>
      exact ⟨closes, Nat.le_of_succ_le tight', by simp [leastLevel, MathFrame.least]⟩

/-- Closing a sum leaves an operand that nothing but parentheses or a call stand around. -/
theorem closeSum_closes (h : Holds stack e) (tight : 2 ≤ e.level) :
    Closes e stack (closeSum e stack).1 (closeSum e stack).2 ∧
      leastLevel (closeSum e stack).2 = 0 := by
  obtain ⟨closes, tight', fits⟩ := closeProduct_closes h tight
  rw [closeSum]
  generalize closeProduct e stack = closed at closes tight' fits
  obtain ⟨e', stack'⟩ := closed
  cases stack' with
  | nil => exact ⟨closes, rfl⟩
  | cons frame stack' =>
    cases frame with
    | negated | signed | product => exact absurd fits (by simp [leastLevel, MathFrame.least])
    | sum left op =>
      obtain ⟨frames, tree, -⟩ := closes.holds
      cases frames with
      | sum frames fits' bracketed level =>
        have next : Holds stack' (.binary op left e') :=
          ⟨frames, bracketed.binary tree (by omega) (by dsimp only at tight'; omega), by omega⟩
        have step : Closes e' (.sum left op :: stack') (.binary op left e') stack' :=
          ⟨next, by simp [openTokens, MathFrame.tokens, MathExpr.flatten], by rintro ⟨_, ⟨⟩⟩⟩
        exact ⟨closes.trans step, fits'⟩
    | parens | call => exact ⟨closes, rfl⟩

/-- An operator opens a part with the operand before it. -/
theorem openOperator_isStack (h : Holds stack e) (tight : 2 ≤ e.level) (plain : ¬ e.IsName)
    (op : MathOperator) : IsStack (openOperator op e stack) ∧
      openTokens (openOperator op e stack) = openTokens stack ++ e.flatten ++ [.operator op] := by
  rcases op.level_cases with level | level
  · obtain ⟨closes, fits⟩ := closeSum_closes h tight
    have left : (closeSum e stack).1.IsBracketed false :=
      ⟨closes.holds.tree.tree.of_not_isName (mt closes.name plain), closes.holds.tree.eq⟩
    rw [openOperator_sum level]
    exact ⟨.sum closes.holds.frames fits left level,
      by rw [openTokens, MathFrame.tokens, ← List.append_assoc, closes.tokens]⟩
  · obtain ⟨closes, tight', fits⟩ := closeProduct_closes h tight
    have left : (closeProduct e stack).1.IsBracketed false :=
      ⟨closes.holds.tree.tree.of_not_isName (mt closes.name plain), closes.holds.tree.eq⟩
    rw [openOperator_product level]
    exact ⟨.product closes.holds.frames fits left tight' level,
      by rw [openTokens, MathFrame.tokens, ← List.append_assoc, closes.tokens]⟩

/-- A reader that waits for an operand, or that has just read one. -/
inductive IsReading : MathToken.Place → List MathFrame → Option MathExpr → Prop
  | waiting {place : MathToken.Place} {stack : List MathFrame} : IsStack stack →
      (place = .argument → takesName stack) → IsReading place stack none
  | holding {stack : List MathFrame} {e : MathExpr} : Holds stack e → 2 ≤ e.level →
      IsReading .operator stack (some e)

/-- The tokens that a reader has read. -/
def readSoFar (stack : List MathFrame) : Option MathExpr → List MathToken
  | none => openTokens stack
  | some e => openTokens stack ++ e.flatten

variable {ending : MathToken.End} {place : MathToken.Place} {held : Option MathExpr}
  {tokens : List MathToken}

/-- The reader goes on to a result after a token, and has read that token then. -/
def GoesOn (ending : MathToken.End) (stack : List MathFrame) (held : Option MathExpr)
    (token : MathToken) (tokens : List MathToken) (t : MathExpr) : Prop :=
  ∃ stack' held', IsReading token.place stack' held' ∧
    readSoFar stack' held' = readSoFar stack held ++ [token] ∧
    readTokens ending stack' held' tokens = .ok t

section Step

variable {token : MathToken} {t : MathExpr}

/-- What binds most tightly fits everywhere. -/
theorem IsStack.holding (frames : IsStack stack) (tree : e.IsBracketed (takesName stack))
    (level : e.level = 3) : IsReading .operator stack (some e) := by
  have tight : 2 ≤ e.level := by omega
  exact .holding ⟨frames, tree, (leastLevel_le_two stack).trans tight⟩ tight

/-- A reader that waits for an operand reads one, or opens a part. -/
theorem IsStack.goesOn (frames : IsStack stack) (takes : place = .argument → takesName stack)
    (lexeme : token.IsLexeme) (named : ∀ cs, token = .customProperty cs → place = .argument)
    (h : readTokens ending stack none (token :: tokens) = .ok t) :
    GoesOn ending stack none token tokens t := by
  cases token with
  | number cs => exact ⟨stack, _, frames.holding ⟨.number lexeme, rfl⟩ rfl, rfl, h⟩
  | dimension cs =>
    obtain ⟨n, unit, numeral, isUnit, rfl⟩ := lexeme
    exact ⟨stack, _, frames.holding ⟨.dimension numeral isUnit, rfl⟩ rfl, rfl, h⟩
  | identifier cs => exact ⟨stack, _, frames.holding ⟨.identifier lexeme, rfl⟩ rfl, rfl, h⟩
  | customProperty cs =>
    have tree : (MathExpr.customProperty cs).IsBracketed (takesName stack) := by
      rw [takes (named cs rfl)]
      exact ⟨.customProperty lexeme, rfl⟩
    exact ⟨stack, _, frames.holding tree rfl, rfl, h⟩
  | function name =>
    have opened : IsStack (.call name [] :: stack) := .call frames lexeme nofun
    exact ⟨.call name [] :: stack, none, .waiting opened fun _ => rfl, rfl, h⟩
  | opening => exact ⟨.parens :: stack, none, .waiting (.parens frames) nofun, rfl, h⟩
  | operator op =>
    cases op with
    | minus => exact ⟨.negated :: stack, none, .waiting (.negated frames) nofun, rfl, h⟩
    | plus => exact ⟨.signed :: stack, none, .waiting (.signed frames) nofun, rfl, h⟩
    | times | «over» => simp [readTokens] at h
  | closing | comma => simp [readTokens] at h

/-- A reader that has read an operand reads an operator, or what ends a part or an argument. -/
theorem Holds.goesOn (holds : Holds stack e) (tight : 2 ≤ e.level)
    (h : readTokens ending stack (some e) (token :: tokens) = .ok t) :
    GoesOn ending stack (some e) token tokens t := by
  obtain ⟨⟨⟨frames, tree, -⟩, written, -⟩, -⟩ := closeSum_closes holds tight
  cases token with
  | operator op =>
    by_cases name : e.IsName
    · obtain ⟨cs, rfl⟩ := name
      simp [readTokens] at h
    · obtain ⟨opened, read⟩ := openOperator_isStack holds tight name op
      rw [readTokens_operator name] at h
      exact ⟨_, none, .waiting opened (by rintro ⟨⟩), read, h⟩
  | closing =>
    simp only [readTokens] at h
    generalize closeSum e stack = closed at h frames tree written
    split at h
    · refine ⟨_, _, frames.tail.holding tree.parens rfl, ?_, h⟩
      rw [readSoFar, readSoFar, ← written]
      simp [openTokens, MathFrame.tokens, MathExpr.flatten]
    · obtain ⟨name, args⟩ := frames.of_call
      refine ⟨_, _, frames.tail.holding (.call name fun e mem => ?_) rfl, ?_, h⟩
      · exact List.forall_mem_cons.2 ⟨tree, args⟩ e (List.mem_reverse.1 mem)
      · rw [readSoFar, readSoFar, ← written, MathExpr.flatten, List.reverse_cons,
          MathExpr.flattenAll_append]
        simp [openTokens, MathFrame.tokens]
    · cases h
  | comma =>
    simp only [readTokens] at h
    generalize closeSum e stack = closed at h frames tree written
    split at h
    · obtain ⟨name, args⟩ := frames.of_call
      refine ⟨_, none, .waiting (.call frames.tail name ?_) fun _ => rfl, ?_, h⟩
      · exact List.forall_mem_cons.2 ⟨tree, args⟩
      · rw [readSoFar, readSoFar, ← written]
        simp [openTokens, MathFrame.tokens]
    · cases h
  | number | dimension | identifier | customProperty | function | opening =>
    simp [readTokens] at h

/-- One token on, the reader has read that token too. -/
theorem IsReading.step (reading : IsReading place stack held) (lexeme : token.IsLexeme)
    (named : ∀ cs, token = .customProperty cs → place = .argument)
    (h : readTokens ending stack held (token :: tokens) = .ok t) :
    GoesOn ending stack held token tokens t := by
  cases reading with
  | waiting frames takes => exact frames.goesOn takes lexeme named h
  | holding holds tight => exact holds.goesOn tight h

end Step

/-- **Whatever is read are the tokens of a tree** that has the parentheses that precedence needs. -/
theorem IsReading.written {t : MathExpr} (reading : IsReading place stack held)
    (lexemes : ∀ token ∈ tokens, token.IsLexeme) (named : MathToken.HasPlacedNames place tokens)
    (h : readTokens ending stack held tokens = .ok t) :
    ending = .complete ∧ t.IsBracketed false ∧ t.flatten = readSoFar stack held ++ tokens := by
  induction tokens generalizing place stack held with
  | nil =>
    cases reading with
    | waiting => simp [readTokens] at h
    | @holding _ e holds tight =>
      obtain ⟨⟨⟨-, tree, -⟩, written, -⟩, -⟩ := closeSum_closes holds tight
      simp only [readTokens] at h
      generalize closeSum e stack = closed at h tree written
      split at h
      · next complete =>
        split at h
        · obtain rfl := Except.ok.inj h
          exact ⟨complete, tree, by simpa [openTokens, readSoFar] using written⟩
        · cases h
      · cases h
  | cons token tokens ih =>
    obtain ⟨lexeme, others⟩ := List.forall_mem_cons.1 lexemes
    obtain ⟨stack', held', next, written, rest⟩ := reading.step lexeme named.1 h
    obtain ⟨complete, tree, flat⟩ := ih next others named.2 rest
    exact ⟨complete, tree, by rw [flat, written, List.append_assoc, List.singleton_append]⟩

end Sound

end BracketCss
