import BracketCss.Proofs.Value.Accepted
import BracketCss.Proofs.Value.Enclosed
import BracketCss.Proofs.Value.Math.Nested
import BracketCss.Proofs.Value.Stable

/-!
# Environment variables, alone and within expressions

A value that is one call of `env()` is judged by its name alone: the text before its first top-level
comma has to be an identifier, whatever follows. Within an arithmetic function the same call is
judged as part of the expression: it takes one or two arguments, and each of them has to be an
expression. So each of the two accepts calls that the other refuses.

## Main definitions

* `numericKinds`: the kinds of lengths and numbers
* `callText name arguments`: the text of a call
* `Accepts property s`: a value is accepted for a standard property

## Main results

* `isAccepted_validateKind_call_iff`: when an arithmetic function is accepted
* `checkMath_environment_iff`: when a call of `env()` is part of an expression
* `accepts_environment_iff`: which calls of `env()` are accepted, alone and within `calc()`
-/

namespace BracketCss

open Text

/-- The kinds of lengths and numbers. -/
def numericKinds : List ValueKind := [.length, .lengthOrNumber, .number, .integer, .keywordOrNumber]

/-- The text of a call. -/
def callText (name : String) (arguments : List Char) : String :=
  name ++ "(" ++ .ofList arguments ++ ")"

theorem toList_callText (name : String) (arguments : List Char) :
    (callText name arguments).toList = name.toList ++ '(' :: (arguments ++ [')']) := by
  simp [callText]

/-- A value is accepted for a standard property. -/
def Accepts (property s : String) : Prop := (validateValue .standard property s).isAccepted

/-! ## Arithmetic functions as values -/

section Values

variable {rule : PropertyRule} {property : String} {w : List Char} {call : Scan.Call}

theorem isAccepted_mapFault {Fault Other : Type} (f : Fault → Other) (outcome : Outcome Fault) :
    (outcome.mapFault f).isAccepted = outcome.isAccepted := by
  cases outcome <;> rfl

theorem isAccepted_validateFunction {allowed : Option (List String)} :
    (validateFunction allowed w).isAccepted ↔ checkFunction allowed w = .ok () := by
  rw [validateFunction]
  cases checkFunction allowed w with
  | error fault => simp [Outcome.isAccepted]
  | ok => simp [Outcome.isAccepted]

theorem checkFunction_math (trimmed : trim w = w) (found : Scan.call? w = some call)
    (math : call.name ∈ mathFunctions) :
    checkFunction (some mathFunctions) w = checkAllowedCall w call := by
  have safe : ∀ name ∈ mathFunctions, isAllowed (some mathFunctions) name := by decide
  rw [checkFunction, trimmed, found]
  dsimp only
  rw [if_pos (safe _ math)]

/-- **When an arithmetic function is accepted** as a length or a number: when its call is fine,
unless the property takes keywords and plain numbers only. -/
theorem isAccepted_validateKind_call_iff (plain : ∀ k ∈ rule.keywords, IsPlainText k)
    (numeric : rule.kind ∈ numericKinds) (trimmed : trim w = w)
    (found : Scan.call? w = some call) (math : call.name ∈ mathFunctions) :
    (validateKind rule property w).isAccepted ↔
      rule.kind ≠ .keywordOrNumber ∧ checkAllowedCall w call = .ok () := by
  have noKeyword : keyword? rule w = none := by
    rw [keyword?, if_neg (mt List.contains_iff_mem.1 (not_mem_of_call? plain found))]
  have called : Scan.callOf? mathFunctions w = some call :=
    Option.filter_eq_some_iff.2 ⟨found, List.contains_iff_mem.2 math⟩
  have verdict : mathCall? w =
      some ((validateFunction (some mathFunctions) w).mapFault .function) := by
    rw [mathCall?, called]
    rfl
  have accepted : ((validateFunction (some mathFunctions) w).mapFault
      ValueFault.function).isAccepted ↔ checkAllowedCall w call = .ok () := by
    rw [isAccepted_mapFault, isAccepted_validateFunction, checkFunction_math trimmed found math]
  have single : Scan.topWords w = [w] := Scan.isWord_call found trimmed
  simp only [numericKinds, List.mem_cons, List.not_mem_nil, or_false] at numeric
  rcases numeric with kind | kind | kind | kind | kind
  · rw [validateKind, kind]
    dsimp only
    have one : ¬ 1 < (Scan.topWords w).length := by simp [single]
    have same : (validateLengths rule property w).isAccepted =
        (validateWord rule property w).isAccepted := by
      rw [validateLengths, if_neg one]
      cases validateWord rule property w <;> rfl
    rw [same, looksUpMath_validateWord w _ noKeyword verdict, accepted]
    simp
  · rw [validateKind, kind]
    dsimp only
    rw [looksUpMath_validateWord w _ noKeyword verdict, accepted]
    simp
  · rw [validateKind, kind]
    dsimp only
    rw [looksUpMath_validateNumber w _ noKeyword verdict, accepted]
    simp
  · rw [validateKind, kind]
    dsimp only
    rw [looksUpMath_validateInteger w _ noKeyword verdict, accepted]
    simp
  · rw [validateKind, kind]
    dsimp only
    rw [validateKeywordOrNumber, noKeyword, ofChars?_eq_none_of_call? found]
    simp [Outcome.isAccepted]

end Values

/-! ## Environment variables within expressions -/

/-- A text that may be an argument of an arithmetic function: an expression that obeys the rules,
and no bare name of a custom property. -/
def IsArgumentText (cs : List Char) : Prop :=
  ∃ e : MathExpr, e.IsBracketed true ∧ MathToken.IsLexed .argument cs e.flatten .operator ∧
    ¬ e.IsName ∧ e.Obeys

theorem isIdentifierText_calc : IsIdentifierText "calc".toList :=
  ⟨'c', "alc".toList, by decide, by decide, by decide⟩

theorem isIdentifierText_env : IsIdentifierText "env".toList :=
  ⟨'e', "nv".toList, by decide, by decide, by decide⟩

theorem takes_calc_iff {n : Nat} : MathExpr.Takes "calc" n ↔ n = 1 := by
  simp [MathExpr.Takes]

theorem takes_env_iff {n : Nat} : MathExpr.Takes "env" n ↔ 1 ≤ n ∧ n ≤ 2 := by
  simp [MathExpr.Takes]

section Environment

variable {cs : List Char}

/-- `calc()` takes one argument. -/
theorem checkMath_calc_iff (balanced : Scan.IsBalanced cs) :
    checkMath ("calc".toList ++ '(' :: (cs ++ [')'])) = .ok () ↔ IsArgumentText cs := by
  have name : String.ofList (lower "calc".toList) = "calc" := by decide
  have other : String.ofList (lower "calc".toList) ≠ "var" := by decide
  rw [checkMath_call_iff isIdentifierText_calc balanced]
  simp only [MathExpr.obeys_call_iff other, name, takes_calc_iff]
  constructor
  · rintro ⟨es, bracketed, ⟨one, each⟩, lexed⟩
    obtain ⟨e, rfl⟩ := List.length_eq_one_iff.1 one
    have mem : e ∈ [e] := List.mem_singleton_self e
    exact ⟨e, bracketed e mem, lexed, (each e mem).1, (each e mem).2⟩
  · rintro ⟨e, bracketed, lexed, unnamed, obeys⟩
    exact ⟨[e], List.forall_mem_singleton.2 bracketed,
      ⟨rfl, List.forall_mem_singleton.2 ⟨unnamed, obeys⟩⟩, lexed⟩

/-- Trees for all segments of a text. -/
theorem exists_forall₂ {α β : Type} {R : α → β → Prop} {xs : List α}
    (h : ∀ x ∈ xs, ∃ y, R x y) : ∃ ys, List.Forall₂ R xs ys := by
  induction xs with
  | nil => exact ⟨[], .nil⟩
  | cons x xs ih =>
    obtain ⟨⟨y, first⟩, others⟩ := List.forall_mem_cons.1 h
    obtain ⟨ys, rest⟩ := ih others
    exact ⟨y :: ys, .cons first rest⟩

/-- **When a call of `env()` is part of an expression**: when there are no more than two arguments,
each of which may be one. -/
theorem isArgumentText_env_iff (balanced : Scan.IsBalanced cs) :
    IsArgumentText ("env".toList ++ '(' :: (cs ++ [')'])) ↔
      (Scan.segments (· == ',') cs).length ≤ 2 ∧
        ∀ segment ∈ Scan.segments (· == ',') cs, IsArgumentText segment := by
  have name : String.ofList (lower "env".toList) = "env" := by decide
  have other : String.ofList (lower "env".toList) ≠ "var" := by decide
  have argument : MathToken.Place.argument ≠ .operator := nofun
  constructor
  · rintro ⟨e, bracketed, lexed, -, obeys⟩
    obtain ⟨es, rfl, inside⟩ :=
      bracketed.tree.exists_args argument isIdentifierText_env balanced lexed
    rw [MathExpr.obeys_call_iff other, name, takes_env_iff] at obeys
    obtain ⟨⟨some_, few⟩, each⟩ := obeys
    have trees := bracketed.of_call
    have pieces := (MathExpr.isLexed_flattenAll_iff (fun e mem => (trees e mem).tree)
      (List.length_pos_iff.1 some_)).1 inside
    refine ⟨pieces.length_eq ▸ few, fun segment mem => ?_⟩
    obtain ⟨index, inSegments, rfl⟩ := List.mem_iff_getElem.1 mem
    have inArgs : index < es.length := pieces.length_eq ▸ inSegments
    have here := List.getElem_mem inArgs
    exact ⟨es[index], trees _ here, pieces.get inSegments inArgs, (each _ here).1, (each _ here).2⟩
  · rintro ⟨few, each⟩
    obtain ⟨es, pieces⟩ := exists_forall₂ each
    have some_ : 0 < es.length :=
      pieces.length_eq ▸ List.length_pos_iff.2 (Scan.segments_ne_nil _ cs)
    have all : ∀ e ∈ es, e.IsBracketed true ∧ ¬ e.IsName ∧ e.Obeys := by
      intro e mem
      obtain ⟨index, inArgs, rfl⟩ := List.mem_iff_getElem.1 mem
      have inSegments : index < (Scan.segments (· == ',') cs).length := pieces.length_eq ▸ inArgs
      obtain ⟨bracketed, -, rules⟩ := pieces.get inSegments inArgs
      exact ⟨bracketed, rules⟩
    have lexed := (MathExpr.isLexed_flattenAll_iff (fun e mem => (all e mem).1.tree)
      (List.length_pos_iff.1 some_)).2 (pieces.imp fun _ _ h => h.2.1)
    refine ⟨.call "env".toList es, .call isIdentifierText_env fun e mem => (all e mem).1,
      (MathToken.isLexed_call_iff isIdentifierText_env argument).2 ⟨rfl, _, rfl, lexed⟩, nofun, ?_⟩
    rw [MathExpr.obeys_call_iff other, name, takes_env_iff]
    exact ⟨⟨some_, pieces.length_eq ▸ few⟩, fun e mem => (all e mem).2⟩

end Environment

/-! ## Which calls are accepted -/

section Calls

variable {property : String} {rule : PropertyRule} {cs : List Char}

theorem accepts_callText_iff (known : PropertyTable.standard.rule? property = some rule)
    (numeric : rule.kind ∈ numericKinds) {name : String} (listed : name ∈ ["calc", "env"])
    (balanced : Scan.IsBalanced cs) : Accepts property (callText name cs) ↔
      rule.kind ≠ .keywordOrNumber ∧
        checkAllowedCall (name.toList ++ '(' :: (cs ++ [')'])) ⟨name, cs⟩ = .ok () := by
  have names : ∀ name ∈ ["calc", "env"], name ∈ mathFunctions ∧ name ∉ ["var"] ∧
      String.ofList (lower name.toList) = name := by decide
  obtain ⟨math, noReference, low⟩ := names name listed
  have identifier : IsIdentifierText name.toList := by
    simp only [List.mem_cons, List.not_mem_nil, or_false] at listed
    rcases listed with rfl | rfl
    · exact isIdentifierText_calc
    · exact isIdentifierText_env
  obtain ⟨nameLike, letter⟩ := MathToken.name_of_identifier identifier
  have found := balanced.call?_eq_some letter nameLike
  rw [low] at found
  have trimmed := trim_call identifier cs
  have text := toList_callText name cs
  generalize name.toList ++ '(' :: (cs ++ [')']) = w at found trimmed text
  have some_ : w.isEmpty = false := by
    obtain ⟨c, rest, rfl, -⟩ := head_of_call? found
    rfl
  have noGlobal := not_mem_of_call? isPlainText_globalKeywords found
  have ordinary : Scan.callOf? ["var"] w = none := by
    rw [Scan.callOf?, found]
    simpa [Option.filter] using noReference
  have plain := isPlainText_keywords _ (mem_standardRules known)
  have verdict : validateValue .standard property (callText name cs) =
      validateKind rule property w := by
    simp [validateValue, text, trimmed, some_, noGlobal, ordinary, known]
  rw [Accepts, verdict]
  exact isAccepted_validateKind_call_iff plain numeric trimmed found math

/-- **Which calls of `env()` are accepted.** Alone, those whose first argument is an identifier;
within `calc()`, those with one or two arguments, each of which `calc()` accepts as well. -/
theorem accepts_environment_iff (known : PropertyTable.standard.rule? property = some rule)
    (numeric : rule.kind ∈ numericKinds) (balanced : Scan.IsBalanced cs) :
    (Accepts property (callText "env" cs) ↔
      rule.kind ≠ .keywordOrNumber ∧ isIdentifier (firstAndRest cs).1) ∧
    (Accepts property (callText "calc" (callText "env" cs).toList) ↔
      (Scan.segments (· == ',') cs).length ≤ 2 ∧
        ∀ segment ∈ Scan.segments (· == ',') cs, Accepts property (callText "calc" segment)) := by
  have plain : ∀ c ∈ "env".toList, Scan.isStructural c = false := by decide
  have whole := balanced.call plain
  have calc_ : ∀ {text : List Char}, Scan.IsBalanced text →
      (Accepts property (callText "calc" text) ↔
        rule.kind ≠ .keywordOrNumber ∧ IsArgumentText text) := by
    intro text balanced
    have expression : ∀ whole : List Char,
        checkAllowedCall whole ⟨"calc", text⟩ = (checkMath whole).mapError .math := fun _ => rfl
    rw [accepts_callText_iff known numeric (by decide) balanced, expression, mapError_eq_ok_iff,
      checkMath_calc_iff balanced]
  constructor
  · have variable_ : ∀ whole : List Char,
        checkAllowedCall whole ⟨"env", cs⟩ = (checkEnvironment cs).mapError .reference :=
      fun _ => rfl
    rw [accepts_callText_iff known numeric (by decide) balanced, variable_, mapError_eq_ok_iff,
      checkEnvironment]
    simp
  · rw [toList_callText, calc_ whole, isArgumentText_env_iff balanced]
    have pieces := @Scan.IsBalanced.of_mem_segments (· == ',') cs balanced
    obtain ⟨first, mem⟩ := List.exists_mem_of_ne_nil _ (Scan.segments_ne_nil (· == ',') cs)
    constructor
    · rintro ⟨takes, few, each⟩
      exact ⟨few, fun segment mem => (calc_ (pieces segment mem)).2 ⟨takes, each segment mem⟩⟩
    · rintro ⟨few, each⟩
      have takes := ((calc_ (pieces first mem)).1 (each first mem)).1
      exact ⟨takes, few, fun segment mem => ((calc_ (pieces segment mem)).1 (each segment mem)).2⟩

/-- A variable with a fallback, of which `calc()` accepts both arguments. -/
theorem accepts_environment_iff_width :
    (Accepts "width" (callText "env" "x, 1px".toList) ↔
      ValueKind.length ≠ .keywordOrNumber ∧ isIdentifier (firstAndRest "x, 1px".toList).1) ∧
    (Accepts "width" (callText "calc" (callText "env" "x, 1px".toList).toList) ↔
      (Scan.segments (· == ',') "x, 1px".toList).length ≤ 2 ∧
        ∀ segment ∈ Scan.segments (· == ',') "x, 1px".toList,
          Accepts "width" (callText "calc" segment)) ∧
    Accepts "width" "calc(env(x, 1px))" := by
  obtain ⟨rule, known, kind⟩ : ∃ rule, PropertyTable.standard.rule? "width" = some rule ∧
      rule.kind = .length := ⟨_, rfl, rfl⟩
  have balanced : Scan.IsBalanced "x, 1px".toList := Scan.untilClosed_eq_some_iff.1 (by decide)
  obtain ⟨alone, within⟩ := accepts_environment_iff known (by rw [kind]; decide) balanced
  rw [kind] at alone
  exact ⟨alone, within, by unfold Accepts; decide +kernel⟩

/-- A call with three arguments is accepted alone but not within `calc()`, and one that names no
variable is accepted within `calc()` but not alone. -/
theorem accepts_environment_apart :
    (Accepts "width" "env(x, 1px, 2px)" ∧ ¬ Accepts "width" "calc(env(x, 1px, 2px))") ∧
      ¬ Accepts "width" "env(1px)" ∧ Accepts "width" "calc(env(1px))" := by
  unfold Accepts
  decide +kernel

end Calls

end BracketCss
