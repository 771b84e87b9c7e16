import BracketCss.Proofs.Value.Callee
import BracketCss.Proofs.Value.Math.Lexed

/-!
# The functions that an expression calls

Tokens are not set apart from each other: in `1px-calc(2px)` a dimension, a sign and a function
stand side by side, and their characters make up one word. What was read before a token is therefore
related to the place that says which token may come: where an operand may come, a word that was
begun is the dimension at its start up to a hyphen, and where an operator may come, a word that was
begun is either such a dimension or goes on with no hyphen.

## Main definitions

* `NameState.Fits place s cs`: what was read before `cs`, where the token at `place` comes next

## Main results

* `MathToken.fits_token`: one token
* `MathToken.IsLexed.callsFrom`: all tokens of a text
* `callsOnly_of_checkMath`: an expression calls arithmetic functions only
-/

namespace BracketCss

open Text

namespace NameState

/-- A name that was begun starts with the unit of a number, up to a hyphen. -/
def IsJoined : NameState → Prop
  | outside _ => True
  | inside afterDigit name => afterDigit ∧ StartsWithUnit name

/-- A name that was begun starts with the unit of a number, if a hyphen comes next. -/
def IsMeasured : NameState → Prop
  | outside _ => True
  | inside afterDigit name => afterDigit ∧ StartsWithUnit (name ++ ['-'])

/-- A digit was read last, or a name that starts with the unit of a number. -/
def IsCounted (s : NameState) : Prop :=
  s = outside true ∨ ∃ name, s = inside true name ∧ StartsWithUnit name

/-- An operand may come: nothing was read, or a number with its unit up to a hyphen. -/
def IsFresh (s : NameState) : Prop :=
  s = outside false ∨ ∃ name, s = inside true (name ++ ['-']) ∧ StartsWithUnit (name ++ ['-'])

/-- What was read before a text, of which the first token comes at `place`. -/
def Fits : MathToken.Place → NameState → List Char → Prop
  | .operator, s, cs => s.IsMeasured ∨ cs.head? ≠ some '-'
  | .operand, s, _ | .argument, s, _ => s.IsFresh

variable {s : NameState}

theorem IsJoined.isMeasured (h : s.IsJoined) : s.IsMeasured := by
  cases s with
  | outside => trivial
  | inside => exact ⟨h.1, h.2.append _⟩

theorem IsCounted.isJoined (h : s.IsCounted) : s.IsJoined := by
  rcases h with rfl | ⟨name, rfl, unit⟩
  · trivial
  · exact ⟨rfl, unit⟩

theorem IsFresh.isJoined (h : s.IsFresh) : s.IsJoined := by
  rcases h with rfl | ⟨name, rfl, unit⟩
  · trivial
  · exact ⟨rfl, unit⟩

theorem isFresh_outside : (outside false).IsFresh := .inl rfl

theorem fits_outside (place : MathToken.Place) (cs : List Char) :
    (outside false).Fits place cs := by
  cases place with
  | operator => exact .inl trivial
  | operand | argument => exact isFresh_outside

theorem fits_of_isFresh {place : MathToken.Place} (other : place ≠ .operator) {cs : List Char} :
    s.Fits place cs ↔ s.IsFresh := by
  cases place with
  | operator => exact absurd rfl other
  | operand | argument => exact Iff.rfl

/-! ## Numbers -/

theorem IsJoined.step_digit (h : s.IsJoined) {c : Char} (digit : isDecimal c) :
    (s.step c).IsCounted := by
  cases s with
  | outside afterDigit =>
    have noStart : startsName c = false := by
      rw [Bool.eq_false_iff, startsName]
      intro starts
      rw [Bool.or_eq_true, beq_iff_eq] at starts
      rcases starts with letter | rfl
      · rw [not_isDecimal_of_isAsciiLetter letter] at digit
        cases digit
      · cases digit
    rw [step, noStart, if_neg Bool.false_ne_true]
    exact .inl (congrArg outside digit)
  | inside afterDigit name =>
    obtain ⟨rfl, unit⟩ := h
    rw [step, if_pos (isNameChar_of_isDecimal digit)]
    exact .inr ⟨_, rfl, unit.append _⟩

theorem IsJoined.run_digits (h : s.IsJoined) {digits : List Char}
    (all : ∀ c ∈ digits, isDecimal c) : (s.run digits).IsJoined ∧
      (digits ≠ [] → (s.run digits).IsCounted) := by
  induction digits generalizing s with
  | nil => exact ⟨h, fun some_ => absurd rfl some_⟩
  | cons c digits ih =>
    obtain ⟨here, rest⟩ := List.forall_mem_cons.1 all
    have counted := h.step_digit here
    rw [run_cons]
    refine ⟨(ih counted.isJoined rest).1, fun _ => ?_⟩
    cases digits with
    | nil => exact counted
    | cons d digits => exact (ih counted.isJoined rest).2 (List.cons_ne_nil _ _)

/-- A number ends with a digit. -/
theorem IsJoined.run_numeral (h : s.IsJoined) {n : List Char} (numeral : IsNumeral n) :
    (s.run n).IsCounted := by
  cases numeral with
  | whole some_ digits => exact (h.run_digits digits).2 some_
  | fraction digits some_ places =>
    have behind : (outside false).IsJoined := trivial
    rw [run_append, run_cons, step_of_not_isNameChar _ (by decide)]
    exact (behind.run_digits places).2 some_

/-- The letters of a unit stand directly behind a digit. -/
theorem IsCounted.run_unit (h : s.IsCounted) {unit : List Char} (form : IsUnitText unit) :
    (s.run unit).IsMeasured := by
  rcases form with ⟨some_, letters⟩ | rfl
  · obtain ⟨c, rest, rfl⟩ := List.exists_cons_of_ne_nil some_
    have starts : ∀ d ∈ c :: rest, startsName d := fun d mem => by simp [startsName, letters d mem]
    have chars : ∀ d ∈ c :: rest, isNameChar d := fun d mem =>
      isNameChar_of_startsName (starts d mem)
    rcases h with rfl | ⟨name, rfl, earlier⟩
    · rw [run_outside true ⟨c, rest, rfl, starts c List.mem_cons_self,
        (List.forall_mem_cons.1 chars).2⟩]
      exact ⟨rfl, c :: rest, [], rfl, some_, letters⟩
    · rw [run_inside true name chars]
      exact ⟨rfl, (earlier.append _).append _⟩
  · rw [run_cons, step_of_not_isNameChar _ (by decide)]
    trivial

/-! ## Signs and names -/

/-- A hyphen behind a number with its unit. -/
theorem IsMeasured.step_hyphen (h : s.IsMeasured) : (s.step '-').IsFresh := by
  cases s with
  | outside afterDigit => exact .inl rfl
  | inside afterDigit name =>
    obtain ⟨rfl, unit⟩ := h
    exact .inr ⟨name, rfl, unit⟩

/-- A parenthesis that groups: no function stands before it. -/
theorem IsFresh.allows (h : s.IsFresh) (functions : List String) : s.Allows functions := by
  rcases h with rfl | ⟨name, rfl, unit⟩
  · trivial
  · rw [Allows, MayBeCalled, if_pos rfl]
    exact ⟨unit, .inl (List.rtakeWhile_concat_neg _ _ _ (by decide))⟩

theorem lastPart_append_hyphen (front : List Char) {name : List Char} (plain : '-' ∉ name) :
    lastPart (front ++ '-' :: name) = name := by
  induction name using List.reverseRecOn with
  | nil => exact List.rtakeWhile_concat_neg _ _ _ (by decide)
  | append_singleton name c ih =>
    rw [List.mem_append, not_or, List.mem_singleton] at plain
    rw [lastPart, ← List.cons_append, ← List.append_assoc,
      List.rtakeWhile_concat_pos _ _ _ (by simpa using Ne.symm plain.2)]
    exact congrArg (· ++ [c]) (ih plain.1)

/-- No arithmetic function has a hyphen in its name. -/
theorem not_hyphen_of_math {name : List Char}
    (math : String.ofList (lower name) ∈ mathFunctions) : '-' ∉ name := by
  have table : ∀ k ∈ mathFunctions, '-' ∉ k.toList := by decide
  have plain := table _ math
  rw [String.toList_ofList] at plain
  exact fun mem => plain (List.mem_flatMap.2 ⟨'-', mem, by decide⟩)

/-- The name of a function, behind nothing or behind a hyphen. -/
theorem IsFresh.allows_run (h : s.IsFresh) {functions : List String}
    (known : mathFunctions ⊆ functions) {name : List Char} (identifier : IsIdentifierText name)
    (math : String.ofList (lower name) ∈ mathFunctions) : (s.run name).Allows functions := by
  have chars : ∀ c ∈ name, isNameChar c := fun c mem =>
    isNameChar_of_isAsciiNameChar ((MathToken.name_of_identifier identifier).1 c mem)
  rcases h with rfl | ⟨front, rfl, unit⟩
  · obtain ⟨c, rest, rfl, letter, -⟩ := identifier
    rw [run_outside false ⟨c, rest, rfl, by simp [startsName, letter],
      (List.forall_mem_cons.1 chars).2⟩, Allows, MayBeCalled, if_neg Bool.false_ne_true]
    exact known math
  · have last : lastPart (front ++ ['-'] ++ name) = name := by
      rw [List.append_assoc, List.singleton_append,
        lastPart_append_hyphen front (not_hyphen_of_math math)]
    rw [run_inside true _ chars, Allows, MayBeCalled, if_pos rfl, last]
    exact ⟨unit.append name, .inr math⟩

end NameState

namespace MathToken

variable {place after : Place} {token : MathToken} {tokens : List MathToken} {cs rest : List Char}
  {s : NameState} {functions : List String}

/-- What follows the characters of a class does not start with one of them. -/
theorem head?_drop_takeWhile {p : Char → Bool} {c : Char} (h : p c) (cs : List Char) :
    (cs.drop (cs.takeWhile p).length).head? ≠ some c := by
  induction cs with
  | nil => exact nofun
  | cons d cs ih =>
    by_cases here : p d
    · rw [List.takeWhile_cons_of_pos here]
      exact ih
    · rw [List.takeWhile_cons_of_neg here]
      intro same
      obtain rfl : d = c := Option.some.inj same
      exact here h

/-- A name is read as far as it goes, so that no hyphen follows. -/
theorem head?_of_name? (found : name? cs = some (token, rest)) :
    token.place = .argument ∨ rest.head? ≠ some '-' := by
  have stop := head?_drop_takeWhile (p := isAsciiNameChar) (c := '-') rfl cs
  simp only [name?] at found
  split at found
  · cases found
  · split at found
    · obtain ⟨rfl, rfl⟩ := Prod.mk.inj (Option.some.inj found)
      exact .inl rfl
    · obtain ⟨rfl, rfl⟩ := Prod.mk.inj (Option.some.inj found)
      exact .inr stop

theorem head?_of_customProperty? (found : customProperty? cs = some (token, rest)) :
    rest.head? ≠ some '-' := by
  rw [customProperty?.eq_def] at found
  split at found
  · next others =>
    have stop := head?_drop_takeWhile (p := fun c => isAsciiNameChar c || c == '_') (c := '-') rfl
      others
    dsimp only at found
    split at found
    · cases found
    · obtain ⟨rfl, rfl⟩ := Prod.mk.inj (Option.some.inj found)
      exact stop
  · cases found

/-- Which readers read a token. -/
theorem next?_cases (found : next? place cs = some (token, rest)) :
    place = .operator ∧ mark? cs = some (token, rest) ∨ place ≠ .operator ∧
      (numeral? cs = some (token, rest) ∨ name? cs = some (token, rest) ∨
        customProperty? cs = some (token, rest) ∨ sign? cs = some (token, rest)) := by
  have either : ∀ {a b : Option (MathToken × List Char)}, (a <|> b) = some (token, rest) →
      a = some (token, rest) ∨ b = some (token, rest) := by
    intro a b read
    cases a with
    | none => exact .inr read
    | some _ => exact .inl read
  cases place with
  | operator => exact .inl ⟨rfl, found⟩
  | operand =>
    refine .inr ⟨nofun, ?_⟩
    rcases either found with operand | sign
    · exact (either operand).imp_right .inl
    · exact .inr (.inr (.inr sign))
  | argument =>
    refine .inr ⟨nofun, ?_⟩
    rcases either found with operand | other
    · exact (either operand).imp_right .inl
    · exact .inr (.inr (either other))

/-! ## One token -/

theorem callsFrom_of_plain (plain : ∀ c ∈ cs, isPlainChar c) : CallsFrom functions s cs := by
  refine callsFrom_of_forall_ne s fun c mem => ?_
  rintro rfl
  exact absurd (plain _ mem) (by decide)

theorem fits_numeral (fresh : s.IsFresh) (found : numeral? cs = some (token, rest)) :
    CallsFrom functions s token.text ∧ (s.run token.text).Fits token.place rest := by
  obtain ⟨lexeme, -, ⟨n, rfl⟩ | ⟨_, rfl⟩⟩ := numeral?_eq_some found
  · exact ⟨callsFrom_of_plain (isPlainChar_of_isNumeral lexeme),
      .inl (fresh.isJoined.run_numeral lexeme).isJoined.isMeasured⟩
  · obtain ⟨n, unit, numeral, form, rfl⟩ := lexeme
    refine ⟨callsFrom_of_plain ?_, .inl ?_⟩
    · exact List.forall_mem_append.2
        ⟨isPlainChar_of_isNumeral numeral, isPlainChar_of_isUnitText form⟩
    · rw [text, NameState.run_append]
      exact (fresh.isJoined.run_numeral numeral).run_unit form

theorem fits_name (known : mathFunctions ⊆ functions) (fresh : s.IsFresh)
    (found : name? cs = some (token, rest))
    (math : ∀ name, token = function name → String.ofList (lower name) ∈ mathFunctions) :
    CallsFrom functions s token.text ∧ (s.run token.text).Fits token.place rest := by
  obtain ⟨lexeme, -, ⟨n, rfl⟩ | ⟨n, rfl⟩⟩ := name?_eq_some found
  · exact ⟨callsFrom_of_plain (isPlainChar_of_isIdentifierText lexeme),
      .inr ((head?_of_name? found).resolve_left nofun)⟩
  · rw [text, callsFrom_append_iff, NameState.run_append, NameState.run_cons,
      NameState.step_of_not_isNameChar _ (by decide)]
    refine ⟨⟨callsFrom_of_plain (isPlainChar_of_isIdentifierText lexeme), ?_, trivial⟩,
      NameState.fits_outside _ _⟩
    exact fun _ => fresh.allows_run known lexeme (math n rfl)

theorem fits_customProperty (found : customProperty? cs = some (token, rest)) :
    CallsFrom functions s token.text ∧ (s.run token.text).Fits token.place rest := by
  have stop := head?_of_customProperty? found
  obtain ⟨lexeme, -, n, rfl⟩ := customProperty?_eq_some found
  exact ⟨callsFrom_of_plain (isPlainChar_of_isPropertyText lexeme), .inr stop⟩

theorem fits_sign (fresh : s.IsFresh) (found : sign? cs = some (token, rest)) :
    CallsFrom functions s token.text ∧ (s.run token.text).Fits token.place rest := by
  obtain ⟨-, -, rfl | rfl | rfl⟩ := sign?_eq_some found
  · refine ⟨⟨fun _ => fresh.allows functions, trivial⟩, ?_⟩
    rw [text, NameState.run_cons, NameState.step_of_not_isNameChar _ (by decide)]
    exact NameState.fits_outside _ _
  · exact ⟨callsFrom_of_forall_ne s (by decide), fresh.isJoined.isMeasured.step_hyphen⟩
  · refine ⟨callsFrom_of_forall_ne s (by decide), ?_⟩
    rw [text, NameState.run_cons, NameState.step_of_not_isNameChar _ (by decide)]
    exact NameState.fits_outside _ _

/-- A mark other than a hyphen ends the word before it; a hyphen goes on with it, which is then a
number with its unit. -/
theorem fits_mark (before : s.IsMeasured ∨ cs.head? ≠ some '-')
    (found : mark? cs = some (token, rest)) :
    CallsFrom functions s token.text ∧ (s.run token.text).Fits token.place rest := by
  have ends : ∀ c, isNameChar c = false → c ≠ '(' →
      CallsFrom functions s [c] ∧ (s.run [c]).Fits token.place rest := by
    intro c other plain
    refine ⟨callsFrom_of_forall_ne s (List.forall_mem_singleton.2 plain), ?_⟩
    rw [NameState.run_cons, NameState.step_of_not_isNameChar _ other]
    exact NameState.fits_outside _ _
  rw [mark?.eq_def] at found
  split at found
  · cases found
    exact ends ',' (by decide) (by decide)
  · cases found
    have measured := before.resolve_right fun other => other rfl
    exact ⟨callsFrom_of_forall_ne s (by decide), measured.step_hyphen⟩
  · cases found
    exact ends '+' (by decide) (by decide)
  · cases found
    exact ends ')' (by decide) (by decide)
  · cases found
    exact ends '/' (by decide) (by decide)
  · cases found
    exact ends '*' (by decide) (by decide)
  · cases found

/-- **One token**: it calls no function but an arithmetic one, and what was read then fits what may
come next. -/
theorem fits_token (known : mathFunctions ⊆ functions) (fits : s.Fits place cs)
    (found : next? place cs = some (token, rest))
    (math : ∀ name, token = function name → String.ofList (lower name) ∈ mathFunctions) :
    CallsFrom functions s token.text ∧ (s.run token.text).Fits token.place rest := by
  rcases next?_cases found with ⟨rfl, mark⟩ | ⟨other, read⟩
  · exact fits_mark fits mark
  · have fresh := (NameState.fits_of_isFresh other).1 fits
    rcases read with numeral | name | property | sign
    · exact fits_numeral fresh numeral
    · exact fits_name known fresh name math
    · exact fits_customProperty property
    · exact fits_sign fresh sign

/-! ## All tokens -/

theorem not_isNameChar_of_isSpace {c : Char} (h : isSpace c) : isNameChar c = false ∧ c ≠ '(' :=
  not_isNameChar_of_isBlank (isBlank_of_isSpace h)

/-- White space ends what was read before it, so that anything may come behind it. -/
theorem fits_space (fits : s.Fits place cs) {space behind : List Char}
    (blank : ∀ c ∈ space, isSpace c) (same : cs = space ++ behind) :
    (s.run space).Fits place behind := by
  rcases List.eq_nil_or_concat' space with rfl | ⟨front, c, rfl⟩
  · rwa [same] at fits
  · have other := not_isNameChar_of_isSpace (blank c (by simp))
    rw [NameState.run_append, NameState.run_cons, NameState.step_of_not_isNameChar _ other.1]
    exact NameState.fits_outside _ _

/-- **All tokens of a text**: if the functions among them are arithmetic, so are all that the text
calls. -/
theorem IsLexed.callsFrom (known : mathFunctions ⊆ functions)
    (h : IsLexed place cs tokens after) (fits : s.Fits place cs)
    (math : ∀ name, function name ∈ tokens → String.ofList (lower name) ∈ mathFunctions) :
    CallsFrom functions s cs := by
  have spaces : ∀ {s : NameState} {space : List Char}, (∀ c ∈ space, isSpace c) →
      CallsFrom functions s space := fun {s} space blank =>
    callsFrom_of_forall_ne s fun c mem => (not_isNameChar_of_isSpace (blank c mem)).2
  induction h generalizing s with
  | nil blank => exact spaces blank
  | @cons place after space cs rest token tokens blank found _ ih =>
    have behind := fits_space fits blank rfl
    obtain ⟨here, next⟩ := fits_token known behind found fun name same =>
      math name (same ▸ List.mem_cons_self)
    obtain ⟨-, rfl, -⟩ := next?_eq_some found
    rw [callsFrom_append_iff, callsFrom_append_iff]
    exact ⟨spaces blank, here, ih next fun name mem => math name (List.mem_cons_of_mem _ mem)⟩

end MathToken

/-! ## Expressions -/

namespace MathExpr

/-- The functions of an expression that obeys the rules are arithmetic. -/
theorem IsTree.mem_mathFunctions {b : Bool} {e : MathExpr} (h : e.IsTree b) (obeys : e.Obeys) :
    ∀ name, MathToken.function name ∈ e.flatten → String.ofList (lower name) ∈ mathFunctions := by
  have below : ∀ {e : MathExpr}, e.Obeys → ∀ child ∈ e.children, child.Obeys :=
    fun obeys => (obeys_iff.1 obeys).2
  induction h with
  | number | dimension | identifier | customProperty =>
    intro name mem
    cases List.mem_singleton.1 mem
  | negated _ ih | signed _ ih =>
    intro name mem
    rcases List.mem_cons.1 mem with same | mem
    · cases same
    · exact ih (below obeys _ (List.mem_singleton.2 rfl)) name mem
  | binary op _ _ left right =>
    intro name mem
    rcases List.mem_append.1 mem with mem | mem
    · exact left (below obeys _ List.mem_cons_self) name mem
    · rcases List.mem_cons.1 mem with same | mem
      · cases same
      · exact right (below obeys _ (List.mem_cons_of_mem _ List.mem_cons_self)) name mem
  | parens _ ih =>
    intro name mem
    rcases List.mem_cons.1 mem with same | mem
    · cases same
    · rcases List.mem_append.1 mem with mem | mem
      · exact ih (below obeys _ (List.mem_singleton.2 rfl)) name mem
      · cases List.mem_singleton.1 mem
  | @call b called args _ _ ih =>
    intro name mem
    rcases List.mem_cons.1 mem with same | mem
    · obtain rfl := MathToken.function.inj same
      obtain ⟨arity, found, -⟩ := takes_iff.1 (obeys_iff.1 obeys).1.1
      exact List.mem_map.2 ⟨_, mem_of_lookup found, rfl⟩
    · rcases List.mem_append.1 mem with mem | mem
      · have all := flattenAll_of_append
          (p := fun tokens => ∀ name, MathToken.function name ∈ tokens →
            String.ofList (lower name) ∈ mathFunctions)
          (fun _ none_ => absurd none_ List.not_mem_nil)
          (fun _ comma => nomatch List.mem_singleton.1 comma)
          (fun first others name mem => (List.mem_append.1 mem).elim (first name) (others name))
          fun e arg => ih e arg (below obeys e arg)
        exact all name mem
      · cases List.mem_singleton.1 mem

end MathExpr

/-- **An expression calls arithmetic functions only.** -/
theorem callsOnly_of_checkMath {functions : List String} (known : mathFunctions ⊆ functions)
    {cs : List Char} (ok : checkMath cs = .ok ()) : CallsOnly functions cs := by
  obtain ⟨e, bracketed, obeys, after, lexed⟩ := checkMath_iff_tree.1 ok
  exact callsOnly_trim_iff.1 (lexed.callsFrom known NameState.isFresh_outside
    (bracketed.tree.mem_mathFunctions obeys))

end BracketCss
