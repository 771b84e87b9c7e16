import BracketCss.Value.Validate
import Mathlib.Data.List.Forall2

/-!
# What is written for an accepted value

The ways in which a value can be accepted by the rule of its property, each with what is written for
it. What holds of every accepted value is shown for each of these ways once, and not for every
function that comes to a verdict.

## Main definitions

* `IsWordValue rule w value`: a keyword, a call, a dimension or a zero
* `IsColorValue keywords w value`: a named, a hexadecimal or a called colour
* `IsKindValue rule property w value`: a value by the rule of a property

## Main results

* `isKindValue_of_validateKind`: an accepted value is one of these
* `validateValue_cases`: the ways in which a value is accepted
-/

namespace BracketCss

open Text

theorem bind_eq_ok_iff {ε α β : Type} {x : Except ε α} {f : α → Except ε β} {b : β} :
    (x >>= f) = .ok b ↔ ∃ a, x = .ok a ∧ f a = .ok b := by
  cases x with
  | error fault => simp [bind, Except.bind]
  | ok a => simp [bind, Except.bind]

theorem map_eq_ok_iff {ε α β : Type} {x : Except ε α} {f : α → β} {b : β} :
    x.map f = .ok b ↔ ∃ a, x = .ok a ∧ f a = b := by
  cases x with
  | error fault => simp [Except.map]
  | ok a => simp [Except.map]

theorem mapError_eq_ok_iff {ε δ α : Type} {x : Except ε α} {f : ε → δ} {a : α} :
    x.mapError f = .ok a ↔ x = .ok a := by
  cases x <;> simp [Except.mapError]

theorem Outcome.mapFault_eq_accepted {Fault Other : Type} {f : Fault → Other}
    {outcome : Outcome Fault} {value : String} {type : ValueType} {detail : Detail}
    (h : outcome.mapFault f = .accepted value type detail) :
    outcome = .accepted value type detail := by
  cases outcome with
  | accepted =>
    obtain ⟨rfl, rfl, rfl⟩ := Outcome.accepted.inj h
    rfl
  | rejected => cases h

theorem validateFunction_eq_accepted {allowed : Option (List String)} {cs : List Char}
    {value : String} {type : ValueType} {detail : Detail}
    (h : validateFunction allowed cs = .accepted value type detail) :
    value = .ofList (trim cs) ∧ ∃ call, Scan.call? (trim cs) = some call := by
  simp only [validateFunction] at h
  split at h
  · cases h
  · next ok =>
    simp only [checkFunction] at ok
    split at ok
    · cases ok
    · next call found => exact ⟨(Outcome.accepted.inj h).1.symm, call, found⟩

/-- What is written for an accepted word: a keyword in lower case, a call as it is, a dimension with
its unit in lower case, or the digit zero for a dimension. -/
inductive IsWordValue (rule : PropertyRule) (w : List Char) : String → Prop
  | keyword : String.ofList (fullLower w) ∈ rule.keywords →
      IsWordValue rule w (.ofList (fullLower w))
  | call {call : Scan.Call} : Scan.call? (trim w) = some call →
      IsWordValue rule w (.ofList (trim w))
  | dimension {d : Dimension} : Dimension.ofChars? w = some d → IsWordValue rule w d.normalized
  | zero {d : Dimension} : Dimension.ofChars? w = some d → IsWordValue rule w "0"

/-- What is written for an accepted colour: its name in lower case, its digits in their long form,
or a call with its arguments trimmed. -/
inductive IsColorValue (keywords : List String) (w : List Char) : String → Prop
  | name : String.ofList (fullLower w) ∈ keywords ++ (colorKeywords ++ namedColors) →
      IsColorValue keywords w (.ofList (fullLower w))
  | hex {hex : String} : normalizeHex? w = some hex → IsColorValue keywords w hex
  | call {call : Scan.Call} : Scan.call? w = some call → call.name ∈ colorFunctionNames →
      IsColorValue keywords w (call.name ++ "(" ++ .ofList (trim call.arguments) ++ ")")

/-- What is written for a value that is accepted by the rule of its property. -/
inductive IsKindValue (rule : PropertyRule) (property : String) (w : List Char) : String → Prop
  | word {value : String} : IsWordValue rule w value → IsKindValue rule property w value
  | words {values : List String} : 1 < (Scan.topWords w).length →
      List.Forall₂ (IsWordValue rule) (Scan.topWords w) values →
      IsKindValue rule property w (" ".intercalate values)
  | color {value : String} : IsColorValue rule.keywords w value → IsKindValue rule property w value
  | calls {names : List String} : calledNames rule (Scan.topWords w) = .ok names →
      IsKindValue rule property w (.ofList w)
  | complex {value : String} {type : ValueType} {detail : Detail} : rule.kind = .complex →
      validateComplex rule property w = .accepted value type detail →
      IsKindValue rule property w value

section Verdicts

variable {rule : PropertyRule} {property : String} {w : List Char} {value : String}
  {type : ValueType} {detail : Detail}

/-! ## Words -/

theorem isWordValue_of_keyword? {outcome : ValueOutcome} (found : keyword? rule w = some outcome)
    (h : outcome = .accepted value type detail) : IsWordValue rule w value := by
  simp only [keyword?] at found
  split at found
  · next listed =>
    rw [h] at found
    obtain ⟨rfl, -, -⟩ := Outcome.accepted.inj (Option.some.inj found)
    exact .keyword (List.contains_iff_mem.1 listed)
  · cases found

theorem isWordValue_of_mathCall? {outcome : ValueOutcome} (found : mathCall? w = some outcome)
    (h : outcome = .accepted value type detail) : IsWordValue rule w value := by
  rw [h] at found
  obtain ⟨_, -, accepted⟩ := Option.map_eq_some_iff.1 found
  obtain ⟨rfl, call, found⟩ := validateFunction_eq_accepted (Outcome.mapFault_eq_accepted accepted)
  exact .call found

theorem isWordValue_of_dimensionVerdict {d : Dimension} (hd : Dimension.ofChars? w = some d)
    {t : ValueType} (h : dimensionVerdict rule property t d = .accepted value type detail) :
    IsWordValue rule w value := by
  simp only [dimensionVerdict] at h
  split at h
  · obtain ⟨rfl, -, -⟩ := Outcome.accepted.inj h
    exact .dimension hd
  · cases h

theorem isWordValue_of_lengthVerdict {d : Dimension} (hd : Dimension.ofChars? w = some d)
    {text : String} (h : lengthVerdict rule property text d = .accepted value type detail) :
    IsWordValue rule w value := by
  simp only [lengthVerdict] at h
  split at h
  · split at h
    · obtain ⟨rfl, -, -⟩ := Outcome.accepted.inj h
      exact .zero hd
    · split at h
      · exact isWordValue_of_dimensionVerdict hd h
      · cases h
  · split at h
    · cases h
    · split at h
      · cases h
      · exact isWordValue_of_dimensionVerdict hd h

theorem isWordValue_of_validateWord
    (h : validateWord rule property w = .accepted value type detail) :
    IsWordValue rule w value := by
  simp only [validateWord] at h
  split at h
  · next found => exact isWordValue_of_keyword? found h
  · next found => exact isWordValue_of_mathCall? found h
  · split at h
    · next d hd => exact isWordValue_of_lengthVerdict hd h
    · cases h

theorem isWordValue_of_validateNumber
    (h : validateNumber rule property w = .accepted value type detail) :
    IsWordValue rule w value := by
  simp only [validateNumber] at h
  split at h
  · next found => exact isWordValue_of_keyword? found h
  · next found => exact isWordValue_of_mathCall? found h
  · split at h
    · cases h
    · next d hd =>
      split at h
      · cases h
      · split at h
        · cases h
        · exact isWordValue_of_dimensionVerdict hd h

theorem isWordValue_of_validateInteger
    (h : validateInteger rule property w = .accepted value type detail) :
    IsWordValue rule w value := by
  simp only [validateInteger] at h
  split at h
  · next found => exact isWordValue_of_keyword? found h
  · next found => exact isWordValue_of_mathCall? found h
  · split at h
    · next d hd => exact isWordValue_of_dimensionVerdict (Option.filter_eq_some_iff.1 hd).1 h
    · cases h

theorem isWordValue_of_validateKeyword
    (h : validateKeyword rule property w = .accepted value type detail) :
    IsWordValue rule w value := by
  simp only [validateKeyword] at h
  split at h
  · next found => exact isWordValue_of_keyword? found h
  · cases h

theorem isWordValue_of_validateKeywordOrNumber
    (h : validateKeywordOrNumber rule property w = .accepted value type detail) :
    IsWordValue rule w value := by
  simp only [validateKeywordOrNumber] at h
  split at h
  · next found => exact isWordValue_of_keyword? found h
  · split at h
    · next d hd => exact isWordValue_of_dimensionVerdict (Option.filter_eq_some_iff.1 hd).1 h
    · cases h

/-! ## Several words -/

/-- The words of a shorthand are accepted one by one. -/
theorem forall₂_of_validateWords {words : List (List Char)} {values : List String}
    (h : validateWords rule property words = .ok values) :
    List.Forall₂ (fun w v => ∃ type detail, validateWord rule property w = .accepted v type detail)
      words values := by
  induction words generalizing values with
  | nil =>
    obtain rfl := Except.ok.inj h
    exact .nil
  | cons w words ih =>
    rw [validateWords] at h
    split at h
    · next accepted =>
      cases others : validateWords rule property words with
      | error refusal =>
        rw [others] at h
        cases h
      | ok rest =>
        rw [others] at h
        obtain rfl := Except.ok.inj h
        exact .cons ⟨_, _, accepted⟩ (ih others)
    · cases h

theorem forall₂_isWordValue {words : List (List Char)} {values : List String}
    (h : validateWords rule property words = .ok values) :
    List.Forall₂ (IsWordValue rule) words values :=
  (forall₂_of_validateWords h).imp fun _ _ ⟨_, _, accepted⟩ => isWordValue_of_validateWord accepted

/-- No accepted word is reported as a refusal. -/
theorem validateWords_ne_error {words : List (List Char)} :
    validateWords rule property words ≠ .error (.accepted value type detail) := by
  induction words with
  | nil => exact fun h => by cases h
  | cons w words ih =>
    rw [validateWords]
    split
    · cases others : validateWords rule property words with
      | error refusal =>
        rintro ⟨⟩
        exact ih others
      | ok rest => exact fun h => by cases h
    · next refusal other =>
      intro h
      exact other _ _ _ (Except.error.inj h)

theorem isKindValue_of_validateLengths
    (h : validateLengths rule property w = .accepted value type detail) :
    IsKindValue rule property w value := by
  simp only [validateLengths] at h
  split at h
  · next several =>
    split at h
    · cases h
    · split at h
      · cases h
      · split at h
        · next values found =>
          obtain ⟨rfl, -, -⟩ := Outcome.accepted.inj h
          exact .words several (forall₂_isWordValue found)
        · next refusal found =>
          subst h
          exact absurd found validateWords_ne_error
  · split at h
    · next found =>
      obtain ⟨rfl, -, -⟩ := Outcome.accepted.inj h
      exact .word (isWordValue_of_validateWord found)
    · next other => exact absurd h (other _ _ _)

/-! ## Colours -/

theorem isColorValue_of_validateColor {keywords : List String} (trimmed : trim w = w)
    (h : validateColor keywords (.ofList w) = .accepted value type detail) :
    IsColorValue keywords w value := by
  have text : (trimText (.ofList w)).toList = w := by simp [trimText, trimmed]
  simp only [validateColor, fullLowerText, text] at h
  split at h
  · next listed =>
    obtain ⟨rfl, -, -⟩ := Outcome.accepted.inj h
    rw [Bool.or_eq_true, List.contains_iff_mem, List.contains_iff_mem] at listed
    exact .name (List.mem_append.2 (listed.imp_right (List.mem_append_left _)))
  · split at h
    · next listed =>
      obtain ⟨rfl, -, -⟩ := Outcome.accepted.inj h
      exact .name (List.mem_append_right _
        (List.mem_append_right _ (List.contains_iff_mem.1 listed)))
    · split at h
      · split at h
        · next hex found =>
          obtain ⟨rfl, -, -⟩ := Outcome.accepted.inj h
          exact .hex found
        · cases h
      · split at h
        · next call found =>
          split at h
          · obtain ⟨rfl, -, -⟩ := Outcome.accepted.inj h
            obtain ⟨found, known⟩ := Option.filter_eq_some_iff.1 found
            exact .call found (List.contains_iff_mem.1 known)
          · cases h
        · cases h

/-! ## Calls -/

theorem calledNames_ne_error {words : List (List Char)} :
    calledNames rule words ≠ .error (.accepted value type detail) := by
  induction words with
  | nil => exact fun h => by cases h
  | cons w words ih =>
    rw [calledNames]
    split
    · exact fun h => by cases h
    · dsimp only
      generalize checkFunction _ w = checked
      cases checked with
      | error fault => exact fun h => by cases h
      | ok =>
        cases others : calledNames rule words with
        | error refusal =>
          rintro ⟨⟩
          exact ih others
        | ok rest => exact fun h => by cases h

theorem call_of_calledNames {words : List (List Char)} {names : List String}
    (h : calledNames rule words = .ok names) : ∀ w ∈ words, ∃ call, Scan.call? w = some call := by
  induction words generalizing names with
  | nil => exact List.forall_mem_nil _
  | cons w words ih =>
    rw [calledNames] at h
    split at h
    · cases h
    · next call found =>
      dsimp only at h
      generalize checkFunction _ w = checked at h
      cases checked with
      | error fault => cases h
      | ok =>
        cases others : calledNames rule words with
        | error refusal =>
          rw [others] at h
          cases h
        | ok rest => exact List.forall_mem_cons.2 ⟨⟨call, found⟩, ih others⟩

theorem isKindValue_of_validateCalls (h : validateCalls rule w = .accepted value type detail) :
    IsKindValue rule property w value := by
  simp only [validateCalls] at h
  split at h
  · next found => exact .word (isWordValue_of_keyword? found h)
  · split at h
    · next names found =>
      obtain ⟨rfl, -, -⟩ := Outcome.accepted.inj h
      exact .calls found
    · next refusal found =>
      subst h
      exact absurd found calledNames_ne_error

/-- **What is written for a value that is accepted by the rule of its property.** -/
theorem isKindValue_of_validateKind (trimmed : trim w = w)
    (h : validateKind rule property w = .accepted value type detail) :
    IsKindValue rule property w value := by
  simp only [validateKind] at h
  split at h
  · exact isKindValue_of_validateLengths h
  · exact .word (isWordValue_of_validateWord h)
  · exact .color (isColorValue_of_validateColor trimmed (Outcome.mapFault_eq_accepted h))
  · exact .word (isWordValue_of_validateNumber h)
  · exact .word (isWordValue_of_validateInteger h)
  · exact .word (isWordValue_of_validateKeyword h)
  · exact .word (isWordValue_of_validateKeywordOrNumber h)
  · exact isKindValue_of_validateCalls h
  · next complex => exact .complex complex h

end Verdicts

/-- **The ways in which a value is accepted**: as a keyword of every property, as a reference, as a
value without a threat if there is no rule, and by the rule of its property. -/
theorem validateValue_cases {table : PropertyTable} {property s value : String} {type : ValueType}
    {detail : Detail} (h : validateValue table property s = .accepted value type detail) :
    trim s.toList ≠ [] ∧
      ((String.ofList (fullLower (trim s.toList)) ∈ globalKeywords ∧
          value = .ofList (fullLower (trim s.toList)) ∧ type = .globalKeyword) ∨
        validateFunction (some ["var"]) (trim s.toList) = .accepted value type detail ∨
        (table.rule? property = none ∧
          validateFree (trim s.toList) = .accepted value type detail) ∨
        ∃ rule, table.rule? property = some rule ∧
          validateKind rule property (trim s.toList) = .accepted value type detail) := by
  simp only [validateValue] at h
  split at h
  · cases h
  · next some_ =>
    refine ⟨by simpa using some_, ?_⟩
    split at h
    · next listed =>
      obtain ⟨rfl, rfl, -⟩ := Outcome.accepted.inj h
      exact .inl ⟨List.contains_iff_mem.1 listed, rfl, rfl⟩
    · split at h
      · exact .inr (.inl (Outcome.mapFault_eq_accepted h))
      · split at h
        · next unknown => exact .inr (.inr (.inl ⟨unknown, h⟩))
        · next rule known => exact .inr (.inr (.inr ⟨rule, known, h⟩))

end BracketCss
