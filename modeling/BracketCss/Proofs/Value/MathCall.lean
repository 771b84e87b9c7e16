import BracketCss.Proofs.Threat.LetterCase
import BracketCss.Proofs.Value.Calls
import BracketCss.Proofs.Value.LetterCase

/-!
# Arithmetic calls and the case of letters

The functions that may stand where a number stands are the arithmetic functions, references to
custom properties and environment variables. Names and arguments of the last two are read by classes
of characters, and the fallback of a reference must be free of threats, which do not depend on the
case of letters where no character reference comes out. So a call in lower case is accepted if the
call is.

## Main results

* `HasNoAmpersand.intercalate`: the parts of a fallback put together again
* `checkReference_map_toLower_iff`, `checkEnvironment_map_toLower_iff`: the arguments
* `checkFunction_map_toLower_iff`: the calls
* `mathCall?_map_toLower`: the verdicts agree
-/

namespace BracketCss

open Text

/-! ## Texts put together -/

/-- A part without the separator lies on one side of it. -/
theorem infix_of_infix_append_cons {w xs ys : List Char} {separator : Char} (some_ : w ≠ [])
    (absent : separator ∉ w) (inside : w <:+: xs ++ separator :: ys) : w <:+: xs ∨ w <:+: ys := by
  have stops : ∀ {v : List Char}, v <+: separator :: ys → separator ∉ v → v = [] := by
    intro v start absent
    rcases List.prefix_cons_iff.1 start with rfl | ⟨rest, rfl, -⟩
    · rfl
    · exact absurd List.mem_cons_self absent
  rcases List.infix_append_iff.1 inside with left | right | ⟨front, back, rfl, left, right⟩
  · exact .inl left
  · rcases List.infix_cons_iff.1 right with start | right
    · exact absurd (stops start absent) some_
    · exact .inr right
  · obtain rfl := stops right fun mem => absent (List.mem_append_right _ mem)
    rw [List.append_nil]
    exact .inl left.isInfix

namespace Text.HasNoAmpersand

theorem append_comma {xs ys : List Char} (left : HasNoAmpersand xs) (right : HasNoAmpersand ys) :
    HasNoAmpersand (xs ++ ',' :: ys) := by
  constructor
  · simp [left.plain, right.plain]
  · intro inside
    rcases infix_of_infix_append_cons (by decide) (by decide) inside with inside | inside
    · exact left.escaped inside
    · exact right.escaped inside

/-- Parts put together with commas. -/
theorem intercalate {parts : List (List Char)} (h : ∀ part ∈ parts, HasNoAmpersand part) :
    HasNoAmpersand ([','].intercalate parts) := by
  induction parts with
  | nil => exact ⟨by decide, by decide⟩
  | cons part parts ih =>
    obtain ⟨first, others⟩ := List.forall_mem_cons.1 h
    cases parts with
    | nil => rwa [List.intercalate_singleton]
    | cons next parts =>
      rw [List.intercalate_cons_cons, List.append_assoc]
      exact first.append_comma (ih others)

end Text.HasNoAmpersand

/-! ## References -/

variable {cs : List Char}

theorem firstAndRest_map_toLower (cs : List Char) :
    firstAndRest (cs.map Char.toLower) =
      ((firstAndRest cs).1.map Char.toLower, (firstAndRest cs).2.map (List.map Char.toLower)) := by
  rw [firstAndRest, firstAndRest, Scan.commaParts_map_toLower]
  cases Scan.commaParts cs <;> rfl

theorem mem_commaParts_of_mem_firstAndRest {part : List Char} (h : part ∈ (firstAndRest cs).2) :
    part ∈ Scan.commaParts cs := by
  unfold firstAndRest at h
  split at h
  · next same =>
    rw [same]
    exact List.mem_cons_of_mem _ h
  · cases h

/-- What it takes to be the arguments of a reference. -/
theorem checkReference_eq_ok_iff : checkReference cs = .ok () ↔
    isCustomProperty (firstAndRest cs).1 ∧
      ((firstAndRest cs).2 = [] ∨ trim ([','].intercalate (firstAndRest cs).2) ≠ [] ∧
        isSafe (.ofList (trim ([','].intercalate (firstAndRest cs).2)))) := by
  unfold checkReference
  generalize firstAndRest cs = arguments
  obtain ⟨name, rest⟩ := arguments
  dsimp only
  by_cases property : isCustomProperty name
  · by_cases alone : rest = []
    · simp [property, alone]
    · have few : ¬ rest.isEmpty := by simpa using alone
      rw [if_neg (by simp [property]), if_neg few]
      generalize trim ([','].intercalate rest) = fallback
      by_cases empty : fallback = []
      · simp [empty, alone]
      · have some_ : ¬ (String.ofList fallback == "") := by
          rw [beq_iff_eq, ← String.toList_inj]
          simpa using empty
        rw [if_neg some_]
        by_cases safe : isSafe (.ofList fallback)
        · simp [property, empty, safe]
        · simp [alone, safe]
  · simp [property]

theorem checkReference_map_toLower_iff (clean : HasNoAmpersand cs) :
    checkReference (cs.map Char.toLower) = .ok () ↔ checkReference cs = .ok () := by
  have fallback : HasNoAmpersand (trim ([','].intercalate (firstAndRest cs).2)) := by
    refine HasNoAmpersand.of_infix (.intercalate fun part mem => ?_) (Scan.infix_trim _)
    exact clean.of_infix (Scan.infix_of_mem_parts (mem_commaParts_of_mem_firstAndRest mem))
  have joined : trim ([','].intercalate ((firstAndRest cs).2.map (List.map Char.toLower))) =
      (trim ([','].intercalate (firstAndRest cs).2)).map Char.toLower := by
    rw [← trim_map_toLower, apply_intercalate rfl fun _ _ => List.map_append]
    rfl
  rw [checkReference_eq_ok_iff, checkReference_eq_ok_iff, firstAndRest_map_toLower]
  simp only [joined, isCustomProperty_map_toLower, isSafe_map_toLower fallback, ne_eq,
    List.map_eq_nil_iff]

theorem checkEnvironment_map_toLower_iff :
    checkEnvironment (cs.map Char.toLower) = .ok () ↔ checkEnvironment cs = .ok () := by
  rw [checkEnvironment, checkEnvironment, firstAndRest_map_toLower]
  simp only [isIdentifier_map_toLower]
  split <;> simp

/-! ## Calls -/

theorem checkAllowedCall_expression_iff {whole : List Char} {call : Scan.Call}
    (known : call.name ∈ expressionFunctions) :
    checkAllowedCall whole call = .ok () ↔ checkMath whole = .ok () := by
  rw [checkAllowedCall, if_pos (by simpa using known), mapError_eq_ok_iff]

theorem checkAllowedCall_map_toLower_iff (whole : List Char) (call : Scan.Call)
    (known : call.name ∈ mathFunctions) (clean : HasNoAmpersand call.arguments) :
    checkAllowedCall (whole.map Char.toLower) (call.changed Char.toLower) = .ok () ↔
      checkAllowedCall whole call = .ok () := by
  obtain ⟨name, arguments⟩ := call
  have listed : name ∈ expressionFunctions ++ ["var", "env"] := known
  rcases List.mem_append.1 listed with math | other
  · calc checkAllowedCall (whole.map Char.toLower) _ = .ok ()
      _ ↔ checkMath (whole.map Char.toLower) = .ok () := checkAllowedCall_expression_iff math
      _ ↔ checkMath whole = .ok () := checkMath_map_toLower_iff whole
      _ ↔ checkAllowedCall whole _ = .ok () := (checkAllowedCall_expression_iff math).symm
  · simp only [List.mem_cons, List.not_mem_nil, or_false] at other
    rcases other with rfl | rfl
    · show (checkReference _).mapError _ = _ ↔ (checkReference _).mapError _ = _
      rw [mapError_eq_ok_iff, mapError_eq_ok_iff]
      exact checkReference_map_toLower_iff clean
    · show (checkEnvironment _).mapError _ = _ ↔ (checkEnvironment _).mapError _ = _
      rw [mapError_eq_ok_iff, mapError_eq_ok_iff]
      exact checkEnvironment_map_toLower_iff

/-- The arguments of a call are a part of the text. -/
theorem Scan.infix_of_call? {call : Scan.Call} (h : call? cs = some call) :
    call.arguments <:+: cs := by
  obtain ⟨name, after, same, -⟩ := call?_eq_some h
  exact ⟨name ++ ['('], ')' :: after, by rw [same]; simp⟩

/-- **An arithmetic call in lower case** is accepted if the call is. -/
theorem checkFunction_map_toLower_iff (clean : HasNoAmpersand cs) :
    checkFunction (some mathFunctions) (cs.map Char.toLower) = .ok () ↔
      checkFunction (some mathFunctions) cs = .ok () := by
  rw [checkFunction_eq_ok_iff, checkFunction_eq_ok_iff, trim_map_toLower, Scan.call?_map_toLower]
  cases found : Scan.call? (trim cs) with
  | none => simp
  | some call =>
    have inside := (Scan.infix_of_call? found).trans (Scan.infix_trim cs)
    simp only [Option.map_some, Option.some.injEq, exists_eq_left', isAllowed_some_iff]
    refine and_congr_right fun known => ?_
    exact checkAllowedCall_map_toLower_iff cs call known.2 (clean.of_infix inside)

theorem validateFunction_map_toLower (clean : HasNoAmpersand cs) :
    Outcome.AgreeUpToCase (validateFunction (some mathFunctions) (cs.map Char.toLower))
      (validateFunction (some mathFunctions) cs) := by
  have name : ((Scan.call? (trim cs)).map (Scan.Call.changed Char.toLower)).map (·.name) =
      (Scan.call? (trim cs)).map (·.name) := by
    rw [Option.map_map]
    rfl
  rw [validateFunction, validateFunction, trim_map_toLower, Scan.call?_map_toLower, name]
  rcases ok_or_error (checkFunction_map_toLower_iff clean) with
    ⟨fine', fine⟩ | ⟨⟨_, refused'⟩, _, refused⟩
  · rw [fine', fine]
    exact .accepted _ (lowerText_ofList_map_toLower _)
  · rw [refused', refused]
    exact .rejected

/-- **A word in lower case** is an arithmetic call if the word is, with the same verdict. -/
theorem mathCall?_map_toLower (clean : HasNoAmpersand cs) :
    Option.Rel Outcome.AgreeUpToCase (mathCall? (cs.map Char.toLower)) (mathCall? cs) := by
  rw [mathCall?, mathCall?, Scan.callOf?_map_toLower]
  cases Scan.callOf? mathFunctions cs with
  | none => exact .none
  | some call => exact .some ((validateFunction_map_toLower clean).mapFault _)

end BracketCss
