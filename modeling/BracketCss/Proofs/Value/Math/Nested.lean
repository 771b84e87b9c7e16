import BracketCss.Proofs.Value.Escape
import BracketCss.Proofs.Value.Math.Lexed

/-!
# Calls within arithmetic expressions

The parentheses of an expression open and close within it, so that a text whose last parenthesis
closes the one behind its leading name is a call of that name, and what stands between its top-level
commas are the arguments.

## Main definitions

* `MathToken.depth tokens`: opening less closing parentheses
* `MathToken.IsNested tokens`: every parenthesis is closed, and none before it was opened

## Main results

* `MathExpr.IsTree.isNested`, `MathExpr.IsTree.depth_pos_of_comma`: the parentheses of a tree, and
  the commas within them
* `isLexed_flattenAll_iff`: the arguments are the segments between top-level commas
* `checkMath_call_iff`: which calls are accepted
-/

namespace BracketCss

open Text

/-! ## Depth -/

namespace MathToken

/-- What a token adds to the depth. -/
def rise : MathToken → Int
  | function _ | opening => 1
  | closing => -1
  | _ => 0

/-- Opening less closing parentheses. -/
def depth (tokens : List MathToken) : Int := (tokens.map rise).sum

@[simp] theorem depth_nil : depth [] = 0 := rfl

@[simp] theorem depth_cons (token : MathToken) (tokens : List MathToken) :
    depth (token :: tokens) = token.rise + depth tokens := by simp [depth]

@[simp] theorem depth_append (tokens others : List MathToken) :
    depth (tokens ++ others) = depth tokens + depth others := by simp [depth]

/-- Every parenthesis is closed, and none before it was opened. -/
structure IsNested (tokens : List MathToken) : Prop where
  level : depth tokens = 0
  up : ∀ front, front <+: tokens → 0 ≤ depth front

section Nested

variable {tokens others : List MathToken}

theorem isNested_nil : IsNested [] := by
  refine ⟨rfl, fun front mem => ?_⟩
  rw [List.prefix_nil.1 mem, depth_nil]

theorem IsNested.append (h : IsNested tokens) (h' : IsNested others) :
    IsNested (tokens ++ others) := by
  refine ⟨by rw [depth_append, h.level, h'.level, Int.add_zero], ?_⟩
  rintro front ⟨back, whole⟩
  rcases List.append_eq_append_iff.1 whole with ⟨rest, same, -⟩ | ⟨rest, rfl, same⟩
  · exact h.up front ⟨rest, same.symm⟩
  · rw [depth_append, h.level, Int.zero_add]
    exact h'.up rest ⟨back, same.symm⟩

theorem isNested_singleton {token : MathToken} (flat : token.rise = 0) : IsNested [token] := by
  refine ⟨by simp [flat], fun front mem => ?_⟩
  rcases List.prefix_cons_iff.1 mem with rfl | ⟨rest, rfl, inside⟩
  · exact le_rfl
  · rw [List.prefix_nil.1 inside, depth_cons, flat]
    exact le_rfl

/-- Behind an opening parenthesis the depth is positive until the last one closes. -/
theorem depth_pos_of_enclosed {token : MathToken} (opens : token.rise = 1)
    (up : ∀ front, front <+: tokens → 0 ≤ depth front) {front back : List MathToken}
    (whole : token :: (tokens ++ [closing]) = front ++ back) (begun : front ≠ [])
    (unfinished : back ≠ []) : 0 < depth front := by
  cases front with
  | nil => exact absurd rfl begun
  | cons first front =>
    rw [List.cons_append, List.cons.injEq] at whole
    obtain ⟨rfl, whole⟩ := whole
    have inside : front <+: tokens := by
      rcases List.eq_nil_or_concat' back with rfl | ⟨back, last, rfl⟩
      · exact absurd rfl unfinished
      · rw [← List.append_assoc] at whole
        exact ⟨back, (List.append_inj' whole rfl).1.symm⟩
    have := up front inside
    rw [depth_cons, opens]
    omega

/-- A parenthesis around what is nested. -/
theorem IsNested.enclosed {token : MathToken} (opens : token.rise = 1) (h : IsNested tokens) :
    IsNested (token :: (tokens ++ [closing])) := by
  have level : depth (token :: (tokens ++ [closing])) = 0 := by
    rw [depth_cons, depth_append, opens, h.level]
    rfl
  refine ⟨level, ?_⟩
  rintro front ⟨back, whole⟩
  cases front with
  | nil => exact le_rfl
  | cons first front =>
    cases back with
    | nil =>
      rw [List.append_nil] at whole
      rw [whole, level]
    | cons next back =>
      exact (depth_pos_of_enclosed opens h.up whole.symm (List.cons_ne_nil _ _)
        (List.cons_ne_nil _ _)).le

/-- A comma stands behind an opening parenthesis that is not closed yet. -/
def HasInnerCommas (tokens : List MathToken) : Prop :=
  ∀ front back, tokens = front ++ comma :: back → 0 < depth front

theorem hasInnerCommas_singleton {token : MathToken} (other : token ≠ comma) :
    HasInnerCommas [token] := by
  intro front back whole
  have mem : comma ∈ [token] := whole ▸ List.mem_append_right front List.mem_cons_self
  exact absurd (List.mem_singleton.1 mem).symm other

theorem HasInnerCommas.append (h : HasInnerCommas tokens) (level : depth tokens = 0)
    (h' : HasInnerCommas others) : HasInnerCommas (tokens ++ others) := by
  intro front back whole
  rcases List.append_eq_append_iff.1 whole with ⟨rest, rfl, same⟩ | ⟨rest, rfl, same⟩
  · rw [depth_append, level, Int.zero_add]
    exact h' rest back same
  · cases rest with
    | nil =>
      have := h' [] back same.symm
      rw [List.append_nil] at level
      rwa [level]
    | cons next rest =>
      obtain ⟨rfl, -⟩ := List.cons.inj same
      exact h front rest rfl

theorem hasInnerCommas_enclosed {token : MathToken} (opens : token.rise = 1) (other : token ≠ comma)
    (up : ∀ front, front <+: tokens → 0 ≤ depth front) :
    HasInnerCommas (token :: (tokens ++ [closing])) := by
  intro front back whole
  refine depth_pos_of_enclosed opens up whole ?_ (List.cons_ne_nil _ _)
  rintro rfl
  exact other (List.cons.inj whole).1

end Nested

end MathToken

/-! ## Trees -/

namespace MathExpr

open MathToken (IsNested HasInnerCommas depth)

section Trees

variable {b : Bool} {e : MathExpr}

/-- **The parentheses of a tree are nested.** -/
theorem IsTree.isNested (h : e.IsTree b) : IsNested e.flatten := by
  have sign : ∀ op, IsNested [.operator op] := fun _ => MathToken.isNested_singleton rfl
  induction h with
  | number | dimension | identifier | customProperty => exact MathToken.isNested_singleton rfl
  | negated _ ih | signed _ ih => exact (sign _).append ih
  | binary op _ _ left right => exact left.append ((sign op).append right)
  | parens _ ih => exact ih.enclosed rfl
  | call _ _ ih =>
    have inner := flattenAll_of_append (p := IsNested) MathToken.isNested_nil
      (MathToken.isNested_singleton rfl) .append ih
    exact inner.enclosed rfl

theorem isNested_flattenAll {args : List MathExpr} (trees : ∀ e ∈ args, e.IsTree true) :
    IsNested (flattenAll args) :=
  flattenAll_of_append (p := IsNested) MathToken.isNested_nil
    (MathToken.isNested_singleton rfl) .append fun e mem => (trees e mem).isNested

/-- **The commas of a tree stand within its parentheses.** -/
theorem IsTree.hasInnerCommas (h : e.IsTree b) : HasInnerCommas e.flatten := by
  have sign : ∀ op, HasInnerCommas [.operator op] := fun _ =>
    MathToken.hasInnerCommas_singleton nofun
  have level : ∀ op, depth [.operator op] = 0 := fun _ => rfl
  induction h with
  | number | dimension | identifier | customProperty =>
    exact MathToken.hasInnerCommas_singleton nofun
  | negated _ ih | signed _ ih => exact (sign _).append (level _) ih
  | binary op tree _ left right =>
    exact left.append tree.isNested.level ((sign op).append (level op) right)
  | parens tree _ => exact MathToken.hasInnerCommas_enclosed rfl nofun tree.isNested.up
  | call _ trees _ =>
    exact MathToken.hasInnerCommas_enclosed rfl nofun (isNested_flattenAll trees).up

/-- **A tree that starts with a function and is done with its parenthesis** is a call. -/
theorem IsTree.eq_call (h : e.IsTree b) {name : List Char} {tokens : List MathToken}
    (up : ∀ front, front <+: tokens → 0 ≤ depth front)
    (flat : e.flatten = .function name :: (tokens ++ [.closing])) :
    ∃ args, e = .call name args ∧ flattenAll args = tokens := by
  cases h with
  | number | dimension | identifier | customProperty | negated | signed | parens => cases flat
  | binary op left right =>
    -- the left operand would be done before the parenthesis is
    have opens : (MathToken.function name).rise = 1 := rfl
    have inside := MathToken.depth_pos_of_enclosed opens up flat.symm
      (flatten_ne_nil _) (List.cons_ne_nil _ _)
    rw [left.isNested.level] at inside
    exact absurd inside (lt_irrefl _)
  | call =>
    obtain ⟨same, rest⟩ := List.cons.inj flat
    obtain rfl := MathToken.function.inj same
    exact ⟨_, rfl, List.append_cancel_right rest⟩

end Trees

end MathExpr

/-! ## Texts -/

namespace MathToken

open Scan (State)

section Texts

variable {place after : Place} {cs : List Char} {tokens : List MathToken}

theorem not_isStructural_of_isPlainChar {c : Char} (h : isPlainChar c) :
    Scan.isStructural c = false := by
  rw [Bool.eq_false_iff]
  intro structural
  have table : ∀ d ∈ "\"'()".toList, isPlainChar d = false := by decide
  have mem : c ∈ "\"'()".toList := by
    simp only [Scan.isStructural, Scan.isQuote, Bool.or_eq_true, beq_iff_eq] at structural
    rcases structural with ((rfl | rfl) | rfl) | rfl <;> decide
  rw [table c mem] at h
  cases h

theorem run_plain {d : Int} (plain : ∀ c ∈ cs, Scan.isStructural c = false) :
    State.run ⟨none, d⟩ cs = ⟨none, d⟩ :=
  State.IsSound.run_plain (by rintro q ⟨⟩) plain

/-- A token quotes nothing, and its parenthesis changes the depth. -/
theorem run_text {token : MathToken} (h : token.IsLexeme) (d : Int) :
    State.run ⟨none, d⟩ token.text = ⟨none, d + token.rise⟩ := by
  have plain : ∀ {cs : List Char}, (∀ c ∈ cs, isPlainChar c) →
      State.run ⟨none, d⟩ cs = ⟨none, d + 0⟩ := by
    intro cs chars
    rw [run_plain fun c hc => not_isStructural_of_isPlainChar (chars c hc), Int.add_zero]
  cases token with
  | number cs => exact plain (isPlainChar_of_isNumeral h)
  | dimension cs =>
    obtain ⟨n, unit, hn, hu, rfl⟩ := h
    exact plain (List.forall_mem_append.2
      ⟨isPlainChar_of_isNumeral hn, isPlainChar_of_isUnitText hu⟩)
  | identifier cs => exact plain (isPlainChar_of_isIdentifierText h)
  | customProperty cs => exact plain (isPlainChar_of_isPropertyText h)
  | function name =>
    rw [text, State.run_append, plain (isPlainChar_of_isIdentifierText h), Int.add_zero]
    rfl
  | operator op => cases op <;> exact plain (by decide)
  | comma => exact plain (by decide)
  | opening | closing => rfl

/-- The first tokens of a text make up its front. -/
theorem IsLexed.exists_front (h : IsLexed place cs tokens after) {front : List MathToken}
    (mem : front <+: tokens) (d : Int) :
    ∃ text, text <+: cs ∧ State.run ⟨none, d⟩ text = ⟨none, d + depth front⟩ := by
  induction h generalizing front d with
  | nil =>
    rw [List.prefix_nil.1 mem, depth_nil, Int.add_zero]
    exact ⟨[], List.nil_prefix, rfl⟩
  | @cons _ _ space cs rest token tokens blank found _ ih =>
    rcases List.prefix_cons_iff.1 mem with rfl | ⟨front, rfl, inside⟩
    · rw [depth_nil, Int.add_zero]
      exact ⟨[], List.nil_prefix, rfl⟩
    · obtain ⟨lexeme, rfl, -⟩ := next?_eq_some found
      obtain ⟨text, first, run⟩ := ih inside (d + token.rise)
      refine ⟨space ++ (token.text ++ text), ?_, ?_⟩
      · exact (List.prefix_append_right_inj _).2 ((List.prefix_append_right_inj _).2 first)
      · rw [State.run_append, run_plain fun c hc =>
            Scan.isBlank_structural (isBlank_of_isSpace (blank c hc)),
          State.run_append, run_text lexeme, run, depth_cons, Int.add_assoc]

/-- The tokens of a text open and close as many parentheses as the text. -/
theorem IsLexed.run (h : IsLexed place cs tokens after) (d : Int) :
    State.run ⟨none, d⟩ cs = ⟨none, d + depth tokens⟩ := by
  induction h generalizing d with
  | nil blank =>
    rw [run_plain fun c hc => Scan.isBlank_structural (isBlank_of_isSpace (blank c hc)), depth_nil,
      Int.add_zero]
  | @cons _ _ space cs rest token tokens blank found _ ih =>
    obtain ⟨lexeme, rfl, -⟩ := next?_eq_some found
    rw [State.run_append, run_plain fun c hc =>
        Scan.isBlank_structural (isBlank_of_isSpace (blank c hc)),
      State.run_append, run_text lexeme, ih, depth_cons, Int.add_assoc]

/-- The tokens of a balanced text never close a parenthesis that they did not open. -/
theorem IsLexed.depth_nonneg (h : IsLexed place cs tokens after) (balanced : Scan.IsBalanced cs)
    {front : List MathToken} (mem : front <+: tokens) : 0 ≤ depth front := by
  obtain ⟨text, first, run⟩ := h.exists_front mem 0
  have up := balanced.up text first
  rw [State.initial, run, Int.zero_add] at up
  exact up

theorem next?_function {name : List Char} (identifier : IsIdentifierText name)
    (operand : place ≠ .operator) (rest : List Char) :
    next? place (name ++ '(' :: rest) = some (function name, rest) := by
  have names : (numeral? (name ++ '(' :: rest) <|> name? (name ++ '(' :: rest)) =
      some (function name, rest) := by
    rw [numeral?_of_identifier identifier, name?_function identifier]
    rfl
  cases place with
  | operator => exact absurd rfl operand
  | operand | argument =>
    rw [next?, names]
    rfl

/-- **The tokens of a text that starts with a function name** and ends with a parenthesis. -/
theorem isLexed_call_iff {name args : List Char} (identifier : IsIdentifierText name)
    (operand : place ≠ .operator) :
    IsLexed place (name ++ '(' :: (args ++ [')'])) tokens after ↔
      after = .operator ∧ ∃ inner, tokens = function name :: (inner ++ [closing]) ∧
        IsLexed .argument args inner .operator := by
  have found := next?_function identifier operand (args ++ [')'])
  have stop : IsStop ')' := .inr rfl
  constructor
  · intro lexed
    obtain ⟨some_, solid⟩ := head_of_next? found
    obtain ⟨token, rest, others, found', rfl, later⟩ := lexed.of_solid some_ solid
    obtain ⟨rfl, rfl⟩ := Prod.mk.inj (Option.some.inj (found.symm.trans found'))
    obtain ⟨inner, back, rfl, inside, ending⟩ := (isLexed_stop_iff stop).1 later
    obtain ⟨rfl, rfl⟩ := ending.of_nil
    exact ⟨rfl, inner, rfl, inside⟩
  · rintro ⟨rfl, inner, rfl, inside⟩
    have ending : IsLexed (stopToken ')').place [] [] .operator := .nil (List.forall_mem_nil _)
    exact .first found ((isLexed_stop_iff stop).2 ⟨inner, [], rfl, inside, ending⟩)

end Texts

end MathToken

/-! ## Arguments -/

namespace MathExpr

open MathToken (IsLexed)

/-- **A text that is one call is read as one**: a tree whose text starts with a function name, and
that closes the parenthesis behind it at its end only, is a call with what is read between. -/
theorem IsTree.exists_args {b : Bool} {e : MathExpr} (h : e.IsTree b)
    {place after : MathToken.Place} (operand : place ≠ .operator) {name args : List Char}
    (identifier : IsIdentifierText name) (balanced : Scan.IsBalanced args)
    (lexed : IsLexed place (name ++ '(' :: (args ++ [')'])) e.flatten after) :
    ∃ es, e = .call name es ∧ IsLexed .argument args (flattenAll es) .operator := by
  obtain ⟨-, inner, flat, inside⟩ := (MathToken.isLexed_call_iff identifier operand).1 lexed
  obtain ⟨es, rfl, rfl⟩ := h.eq_call (fun front => inside.depth_nonneg balanced) flat
  exact ⟨es, rfl, inside⟩

/-- No comma of a tree stands at the top level of its text. -/
theorem IsTree.segments_eq_singleton {e : MathExpr} (h : e.IsTree true) {cs : List Char}
    (lexed : IsLexed .argument cs e.flatten .operator) : Scan.segments (· == ',') cs = [cs] := by
  rw [Scan.segments_eq_singleton_iff]
  rintro front c rest rfl comma - closed
  obtain rfl := eq_of_beq comma
  obtain ⟨before, back, flat, inside, -⟩ := (MathToken.isLexed_stop_iff (.inl rfl)).1 lexed
  have deep := h.hasInnerCommas before back flat
  have level := inside.run 0
  rw [← Scan.State.initial, closed, Scan.State.initial, Scan.State.mk.injEq] at level
  omega

theorem forall₂_segments_of_isLexed {es : List MathExpr} (trees : ∀ e ∈ es, e.IsTree true)
    (some_ : es ≠ []) {cs : List Char} (lexed : IsLexed .argument cs (flattenAll es) .operator) :
    List.Forall₂ (fun segment e => IsLexed .argument segment e.flatten .operator)
      (Scan.segments (· == ',') cs) es := by
  induction es generalizing cs with
  | nil => exact absurd rfl some_
  | cons e rest ih =>
    obtain ⟨first, others⟩ := List.forall_mem_cons.1 trees
    cases rest with
    | nil =>
      rw [first.segments_eq_singleton lexed]
      exact .cons lexed .nil
    | cons next rest =>
      obtain ⟨xs, ys, rfl, before, behind⟩ := lexed.exists_stop (.inl rfl)
      have closed : Scan.IsClosed xs := by
        rw [Scan.IsClosed, Scan.State.initial, before.run, first.isNested.level]
        rfl
      rw [Scan.segments_append closed rfl rfl, first.segments_eq_singleton before]
      exact .cons before (ih others (List.cons_ne_nil _ _) behind)

theorem isLexed_of_forall₂_cuts {cs : List Char} {segments : List (List Char)}
    (cuts : Scan.CutsInto (· == ',') cs segments) {es : List MathExpr}
    (lexed : List.Forall₂ (fun segment e => IsLexed .argument segment e.flatten .operator)
      segments es) : IsLexed .argument cs (flattenAll es) .operator := by
  induction cuts generalizing es with
  | whole =>
    cases lexed with
    | cons here later =>
      cases later
      exact here
  | first _ _ comma _ later ih =>
    obtain rfl := eq_of_beq comma
    cases lexed with
    | @cons _ e _ rest here others =>
      obtain ⟨next, rest, rfl⟩ : ∃ next others, rest = next :: others := by
        cases later <;> cases others <;> exact ⟨_, _, rfl⟩
      exact (MathToken.isLexed_stop_iff (.inl rfl)).2 ⟨_, _, rfl, here, ih others⟩

/-- **The arguments are the segments between top-level commas.** -/
theorem isLexed_flattenAll_iff {es : List MathExpr} (trees : ∀ e ∈ es, e.IsTree true)
    (some_ : es ≠ []) {cs : List Char} :
    IsLexed .argument cs (flattenAll es) .operator ↔
      List.Forall₂ (fun segment e => IsLexed .argument segment e.flatten .operator)
        (Scan.segments (· == ',') cs) es :=
  ⟨forall₂_segments_of_isLexed trees some_, isLexed_of_forall₂_cuts (Scan.segments_eq_iff.1 rfl)⟩

theorem IsBracketed.of_call {b : Bool} {name : List Char} {args : List MathExpr}
    (h : (MathExpr.call name args).IsBracketed b) : ∀ e ∈ args, e.IsBracketed true := by
  obtain ⟨tree, same⟩ := h
  have trees : ∀ e ∈ args, e.IsTree true := by
    cases tree with
    | call _ trees => exact trees
  rw [bracketed, bracketedAll_eq_map] at same
  have fixed : args.map bracketed = args.map id := by
    rw [List.map_id]
    exact (MathExpr.call.inj same).2
  exact fun e mem => ⟨trees e mem, List.map_inj_left.1 fixed e mem⟩

/-- Only a reference is given the name of a custom property. -/
theorem obeys_call_iff {name : List Char} {args : List MathExpr}
    (other : String.ofList (lower name) ≠ "var") : (call name args).Obeys ↔
      Takes (.ofList (lower name)) args.length ∧ ∀ e ∈ args, ¬ e.IsName ∧ e.Obeys := by
  rw [obeys_iff, ObeysHere, children, and_assoc, forall₂_and]
  refine and_congr_right fun _ => and_congr_left fun _ => ?_
  simp only [other, false_and, iff_false]
  constructor
  · intro none_ e mem
    obtain ⟨index, found⟩ := List.mem_iff_getElem?.1 mem
    exact none_ index e found
  · exact fun none_ index e found => none_ e (List.mem_of_getElem? found)

end MathExpr

/-- There are no blanks around a call. -/
theorem trim_call {name : List Char} (identifier : IsIdentifierText name) (args : List Char) :
    trim (name ++ '(' :: (args ++ [')'])) = name ++ '(' :: (args ++ [')']) := by
  have front : IsBare name := .of_forall (by obtain ⟨c, rest, rfl, -⟩ := identifier; simp)
    fun c hc => isBlank_of_isAsciiNameChar ((MathToken.name_of_identifier identifier).1 c hc)
  have last : IsBare [')'] := .of_forall (by simp) (List.forall_mem_singleton.2 (by decide))
  have whole := (front.between ('(' :: args) last).trim_eq
  rwa [List.append_assoc, List.cons_append] at whole

/-- **Which calls are accepted**: those whose arguments are trees that the rules of the function
allow. -/
theorem checkMath_call_iff {name args : List Char} (identifier : IsIdentifierText name)
    (balanced : Scan.IsBalanced args) :
    checkMath (name ++ '(' :: (args ++ [')'])) = .ok () ↔ ∃ es : List MathExpr,
      (∀ e ∈ es, e.IsBracketed true) ∧ (MathExpr.call name es).Obeys ∧
        MathToken.IsLexed .argument args (MathExpr.flattenAll es) .operator := by
  have operand : MathToken.Place.operand ≠ .operator := nofun
  rw [checkMath_iff_tree, trim_call identifier]
  constructor
  · rintro ⟨e, bracketed, obeys, after, lexed⟩
    obtain ⟨es, rfl, inside⟩ := bracketed.tree.exists_args operand identifier balanced lexed
    exact ⟨es, bracketed.of_call, obeys, inside⟩
  · rintro ⟨es, bracketed, obeys, inside⟩
    exact ⟨_, .call identifier bracketed, obeys, .operator,
      (MathToken.isLexed_call_iff identifier operand).2 ⟨rfl, _, rfl, inside⟩⟩

end BracketCss
