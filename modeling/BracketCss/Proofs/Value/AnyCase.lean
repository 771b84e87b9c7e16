import BracketCss.Proofs.Value.Color.LetterCase
import BracketCss.Proofs.Value.MathCall
import BracketCss.Proofs.Value.Stable

/-!
# Values in any letter case

The verdict on a value that is a number, a length, a keyword or a colour does not depend on the case
of its letters. Keywords, names of functions and units are compared in lower case, and everything
else is read by characters that have no case. What is left is the fallback of a reference, in which
threats are looked for after decoding: there the case of letters matters to the names of character
references, so a value may have no ampersand, plain or escaped.

## Main definitions

* `caseBlindKinds`: the kinds of values of which the case of letters does not matter

## Main results

* `validateWord_map_toLower`, `validateLengths_map_toLower`, `validateNumber_map_toLower`,
  `validateInteger_map_toLower`, `validateKeyword_map_toLower`,
  `validateKeywordOrNumber_map_toLower`: the verdicts by kind agree
* `validateValue_lowerText`: a value and its lower case have the same verdict
* `exists_character_reference_in_capitals`: with an ampersand they need not
-/

namespace BracketCss

open Text

section Verdicts

variable {rule : PropertyRule} {property : String} {w : List Char}
  {validate : List Char → ValueOutcome}

/-! ## Looking up -/

@[simp] theorem keyword?_map_toLower (rule : PropertyRule) (w : List Char) :
    keyword? rule (w.map Char.toLower) = keyword? rule w := by simp [keyword?]

/-- A keyword is the same keyword in lower case, so only other values matter. -/
theorem LooksUpFirst.agree (first : LooksUpFirst rule validate)
    (other : keyword? rule w = none →
      Outcome.AgreeUpToCase (validate (w.map Char.toLower)) (validate w)) :
    Outcome.AgreeUpToCase (validate (w.map Char.toLower)) (validate w) := by
  cases found : keyword? rule w with
  | none => exact other found
  | some outcome =>
    rw [first _ outcome found, first _ outcome (by rw [keyword?_map_toLower, found])]

/-- Where keywords and arithmetic functions are looked up, only other values matter. -/
theorem LooksUpMath.agree (second : LooksUpMath rule validate) (first : LooksUpFirst rule validate)
    (clean : HasNoAmpersand w)
    (other : keyword? rule w = none → mathCall? w = none → mathCall? (w.map Char.toLower) = none →
      Outcome.AgreeUpToCase (validate (w.map Char.toLower)) (validate w)) :
    Outcome.AgreeUpToCase (validate (w.map Char.toLower)) (validate w) := by
  refine first.agree fun noKeyword => ?_
  have noKeyword' : keyword? rule (w.map Char.toLower) = none := by
    rw [keyword?_map_toLower, noKeyword]
  have calls := mathCall?_map_toLower clean
  generalize found' : mathCall? (w.map Char.toLower) = verdict' at calls
  generalize found : mathCall? w = verdict at calls
  cases calls with
  | none => exact other noKeyword found found'
  | some agree => rwa [second _ _ noKeyword found, second _ _ noKeyword' found']

/-! ## Dimensions -/

theorem dimensionVerdict_recased (type : ValueType) (d : Dimension) :
    Outcome.AgreeUpToCase (dimensionVerdict rule property type d.recased)
      (dimensionVerdict rule property type d) := by
  have bounds : checkBounds rule property d.recased = .ok () ↔
      checkBounds rule property d = .ok () := by
    rw [checkBounds_eq_ok_iff, checkBounds_eq_ok_iff]
    rfl
  rw [dimensionVerdict, dimensionVerdict]
  rcases ok_or_error bounds with ⟨within', within⟩ | ⟨⟨_, outside'⟩, _, outside⟩
  · rw [within', within]
    exact .accepted type (Dimension.lowerText_normalized_recased d)
  · rw [outside', outside]
    exact .rejected

theorem lengthVerdict_recased (text text' : String) (d : Dimension) :
    Outcome.AgreeUpToCase (lengthVerdict rule property text' d.recased)
      (lengthVerdict rule property text d) := by
  have unitless : d.recased.isUnitless = d.isUnitless := rfl
  have zero : d.recased.isZero = d.isZero := rfl
  have percentage : d.recased.isPercentage = d.isPercentage := rfl
  have unit : d.recased.unit = d.unit := rfl
  simp only [lengthVerdict, unitless, zero, percentage, unit]
  split
  · split
    · rfl
    · split
      · exact dimensionVerdict_recased .number d
      · exact .rejected
  · split
    · exact .rejected
    · split
      · exact .rejected
      · exact dimensionVerdict_recased .length d

theorem validateWord_map_toLower (clean : HasNoAmpersand w) :
    Outcome.AgreeUpToCase (validateWord rule property (w.map Char.toLower))
      (validateWord rule property w) := by
  refine looksUpMath_validateWord.agree looksUpFirst_validateWord clean
    fun noKeyword noCall noCall' => ?_
  simp only [validateWord, keyword?_map_toLower, noKeyword, noCall, noCall',
    Dimension.ofChars?_map_toLower]
  cases Dimension.ofChars? w with
  | none => exact .rejected
  | some d => exact lengthVerdict_recased _ _ d

theorem validateNumber_map_toLower (clean : HasNoAmpersand w) :
    Outcome.AgreeUpToCase (validateNumber rule property (w.map Char.toLower))
      (validateNumber rule property w) := by
  refine looksUpMath_validateNumber.agree looksUpFirst_validateNumber clean
    fun noKeyword noCall noCall' => ?_
  simp only [validateNumber, keyword?_map_toLower, noKeyword, noCall, noCall',
    Dimension.ofChars?_map_toLower]
  cases Dimension.ofChars? w with
  | none => exact .rejected
  | some d =>
    have unitless : d.recased.isUnitless = d.isUnitless := rfl
    have percentage : d.recased.isPercentage = d.isPercentage := rfl
    simp only [Option.map_some, unitless, percentage]
    split
    · exact .rejected
    · split
      · exact .rejected
      · exact dimensionVerdict_recased .number d

theorem filter_recased {p : Dimension → Bool} (same : ∀ d : Dimension, p d.recased = p d) :
    (Dimension.ofChars? (w.map Char.toLower)).filter p =
      ((Dimension.ofChars? w).filter p).map Dimension.recased := by
  rw [Dimension.ofChars?_map_toLower, Option.filter_map]
  exact congrArg (fun p => ((Dimension.ofChars? w).filter p).map Dimension.recased) (funext same)

theorem validateInteger_map_toLower (clean : HasNoAmpersand w) :
    Outcome.AgreeUpToCase (validateInteger rule property (w.map Char.toLower))
      (validateInteger rule property w) := by
  refine looksUpMath_validateInteger.agree looksUpFirst_validateInteger clean
    fun noKeyword noCall noCall' => ?_
  simp only [validateInteger, keyword?_map_toLower, noKeyword, noCall, noCall',
    filter_recased Dimension.isInteger_recased]
  cases (Dimension.ofChars? w).filter (·.isInteger) with
  | none => exact .rejected
  | some d => exact dimensionVerdict_recased .number d

theorem validateKeyword_map_toLower :
    Outcome.AgreeUpToCase (validateKeyword rule property (w.map Char.toLower))
      (validateKeyword rule property w) := by
  refine looksUpFirst_validateKeyword.agree fun noKeyword => ?_
  simp only [validateKeyword, keyword?_map_toLower, noKeyword]
  exact .rejected

theorem validateKeywordOrNumber_map_toLower :
    Outcome.AgreeUpToCase (validateKeywordOrNumber rule property (w.map Char.toLower))
      (validateKeywordOrNumber rule property w) := by
  have unitless : ∀ d : Dimension, d.recased.isUnitless = d.isUnitless := fun _ => rfl
  refine looksUpFirst_validateKeywordOrNumber.agree fun noKeyword => ?_
  simp only [validateKeywordOrNumber, keyword?_map_toLower, noKeyword, filter_recased unitless]
  cases (Dimension.ofChars? w).filter (·.isUnitless) with
  | none => exact .rejected
  | some d => exact dimensionVerdict_recased .number d

/-! ## Words -/

/-- What the words of a shorthand come to: values that differ in the case of letters at most, or a
refusal. -/
theorem validateWords_map_toLower {words : List (List Char)}
    (clean : ∀ w ∈ words, HasNoAmpersand w) :
    (∃ values' values, validateWords rule property (words.map (List.map Char.toLower)) =
        .ok values' ∧ validateWords rule property words = .ok values ∧
        values'.map lowerText = values.map lowerText) ∨
      ∃ refusal' refusal, validateWords rule property (words.map (List.map Char.toLower)) =
        .error refusal' ∧ validateWords rule property words = .error refusal ∧
        Outcome.AgreeUpToCase refusal' refusal := by
  induction words with
  | nil => exact .inl ⟨[], [], rfl, rfl, rfl⟩
  | cons w words ih =>
    obtain ⟨first, others⟩ := List.forall_mem_cons.1 clean
    have agree := @validateWord_map_toLower rule property w first
    rw [List.map_cons, validateWords, validateWords]
    generalize validateWord rule property (w.map Char.toLower) = verdict' at agree
    generalize validateWord rule property w = verdict at agree
    cases agree with
    | rejected => exact .inr ⟨_, _, rfl, rfl, .rejected⟩
    | @accepted value' value _ _ _ same =>
      rcases ih others with ⟨values', values, ok', ok, sames⟩ | ⟨refusal', refusal, no', no, agree⟩
      · refine .inl ⟨value' :: values', value :: values, ?_, ?_, ?_⟩
        · simp only [ok', Except.map]
        · simp only [ok, Except.map]
        · rw [List.map_cons, List.map_cons, same, sames]
      · refine .inr ⟨refusal', refusal, ?_, ?_, agree⟩
        · simp only [no', Except.map]
        · simp only [no, Except.map]

theorem lowerText_intercalate {separator : String} {values' values : List String}
    (same : values'.map lowerText = values.map lowerText) :
    lowerText (separator.intercalate values') = lowerText (separator.intercalate values) := by
  have lowered : ∀ texts : List String, lowerText (separator.intercalate texts) =
      (lowerText separator).intercalate (texts.map lowerText) := by
    intro texts
    rw [← String.toList_inj, String.toList_intercalate, lowerText, String.toList_ofList,
      String.toList_intercalate, apply_intercalate rfl lower_append]
    simp [lowerText, Function.comp_def]
  rw [lowered, lowered, same]

theorem validateLengths_map_toLower (clean : HasNoAmpersand w) :
    Outcome.AgreeUpToCase (validateLengths rule property (w.map Char.toLower))
      (validateLengths rule property w) := by
  have parts : ∀ word ∈ Scan.topWords w, HasNoAmpersand word := fun word mem =>
    clean.of_infix (Scan.infix_of_mem_parts (List.mem_of_mem_filter mem))
  simp only [validateLengths, Scan.topWords_map_toLower, List.length_map]
  split
  · split
    · exact .rejected
    · split
      · exact .rejected
      · rcases @validateWords_map_toLower rule property _ parts with
          ⟨values', values, ok', ok, sames⟩ | ⟨refusal', refusal, no', no, agree⟩
        · rw [ok', ok]
          exact .accepted .length (lowerText_intercalate sames)
        · rw [no', no]
          exact agree
  · have agree := @validateWord_map_toLower rule property w clean
    generalize validateWord rule property (w.map Char.toLower) = verdict' at agree
    generalize validateWord rule property w = verdict at agree
    cases agree with
    | accepted type same => exact .accepted type same
    | rejected => exact .rejected

/-! ## Values -/

/-- The kinds of values of which the case of letters does not matter: all but function calls and
values with a syntax of their own. -/
def caseBlindKinds : List ValueKind :=
  [.length, .lengthOrNumber, .number, .integer, .keyword, .keywordOrNumber, .color]

theorem validateKind_map_toLower (blind : rule.kind ∈ caseBlindKinds) (clean : HasNoAmpersand w) :
    Outcome.AgreeUpToCase (validateKind rule property (w.map Char.toLower))
      (validateKind rule property w) := by
  rw [validateKind, validateKind]
  cases kind : rule.kind with
  | length => exact validateLengths_map_toLower clean
  | lengthOrNumber => exact validateWord_map_toLower clean
  | color => exact (validateColor_map_toLower rule.keywords w).mapFault _
  | number => exact validateNumber_map_toLower clean
  | integer => exact validateInteger_map_toLower clean
  | keyword => exact validateKeyword_map_toLower
  | keywordOrNumber => exact validateKeywordOrNumber_map_toLower
  | function | complex =>
    rw [kind] at blind
    exact absurd blind (by decide)

end Verdicts

/-- **Validation ignores the case of letters** where a number, a length, a keyword or a colour is
wanted: an ASCII text that has neither an ampersand nor an escape of one, and is not as a whole a
reference to a custom property, is accepted with the same type as its lower case, and in a normal
form that differs in the case of letters at most, or both are refused. -/
theorem validateValue_lowerText {table : PropertyTable} {property s : String} {rule : PropertyRule}
    (known : table.rule? property = some rule)
    (blind : rule.kind ∈ caseBlindKinds)
    (ascii : ∀ c ∈ s.toList, c.toNat < 128) (clean : HasNoAmpersand s.toList)
    (noReference : Scan.callOf? ["var"] (trim s.toList) = none) :
    Outcome.AgreeUpToCase (validateValue table property (lowerText s))
      (validateValue table property s) := by
  simp only [validateValue, lowerText, String.toList_ofList, lower_eq_map ascii, trim_map_toLower,
    fullLower_map_toLower, Scan.callOf?_map_toLower, noReference, known, List.isEmpty_map]
  split
  · exact .rejected
  · split
    · rfl
    · exact validateKind_map_toLower blind (clean.of_infix (Scan.infix_trim _))

/-- A keyword, a length and an arithmetic function, with capitals in all of them. -/
theorem validateValue_lowerText_margin :
    validateValue .standard "margin" "AUTO +.5REM Calc(1PX + Var(--A, 2Em))" =
        .accepted "auto +.5rem Calc(1PX + Var(--A, 2Em))" .length
          (.sides ["auto", "+.5rem", "Calc(1PX + Var(--A, 2Em))", "+.5rem"]) ∧
      Outcome.AgreeUpToCase
        (validateValue .standard "margin" (lowerText "AUTO +.5REM Calc(1PX + Var(--A, 2Em))"))
        (validateValue .standard "margin" "AUTO +.5REM Calc(1PX + Var(--A, 2Em))") := by
  obtain ⟨rule, known, kind⟩ : ∃ rule, PropertyTable.standard.rule? "margin" = some rule ∧
      rule.kind = .length := ⟨_, rfl, rfl⟩
  refine ⟨by decide +kernel, validateValue_lowerText known ?_ (by decide) ?_ (by decide)⟩
  · rw [kind]
    decide
  · exact ⟨by decide, by decide⟩

/-- With an ampersand the case of letters matters: only in lower case is this a reference to a
blank, and with the blank it is a threat. -/
theorem exists_character_reference_in_capitals : ∃ s : String,
    '&' ∈ s.toList ∧ (validateValue .standard "margin" s).isAccepted ∧
      ¬ (validateValue .standard "margin" (lowerText s)).isAccepted :=
  ⟨"1px var(--a, javascript&NBSP:x)", by decide, by decide +kernel, by decide +kernel⟩

end BracketCss
