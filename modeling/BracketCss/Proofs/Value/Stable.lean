import BracketCss.Proofs.Value.LowerCase
import BracketCss.Proofs.Value.Rejoined

/-!
# Verdicts that are given again

What is written for an accepted value is accepted again. For most values the normal form is the
value itself or its lower-case form, and it takes the same way through the checks. A zero length is
written as a digit of its own; since keywords are looked up first, it gets another verdict exactly
if the digit is a keyword of the rule. Several lengths side by side are cut at the same places, so
that each of them is checked by itself again.

## Main definitions

* `IsOrdinary w`: neither of the shortcuts that every property takes applies
* `IsRecased w u`: the text itself, or its lower-case form
* `IsRecaught keywords w u`: the normal form is a keyword that the value was not
* `IsStable`, `IsSettled`: a verdict that is given again, and one that may be recaught

## Main results

* `validateWord_cases`: a word is stable, or it is a zero without unit
* `validateWords_normalForm`: several words are cut again into their normal forms
* `isSettled_of_validateLengths`: the verdict on lengths
-/

namespace BracketCss

open Text

/-! ## Ordinary values -/

/-- Neither a keyword of every property nor a reference to a custom property. -/
structure IsOrdinary (w : List Char) : Prop where
  /-- The value is no keyword of every property. -/
  notGlobal : String.ofList (fullLower w) ∉ globalKeywords
  /-- The value is no reference. -/
  notReference : ¬ (Scan.callOf? ["var"] w).isSome

theorem IsOrdinary.lower {w : List Char} (h : IsOrdinary w) : IsOrdinary (lower w) := by
  refine ⟨?_, fun reference => h.notReference (Scan.callOf?_var_lower reference)⟩
  rw [fullLower_lower]
  exact h.notGlobal

theorem IsOrdinary.fullLower {w : List Char} (h : IsOrdinary w) : IsOrdinary (fullLower w) := by
  refine ⟨?_, fun reference => h.lower.notReference ?_⟩
  · rw [fullLower_fullLower]
    exact h.notGlobal
  · rwa [Scan.isSome_callOf?_fullLower] at reference

/-- Both shortcuts are for single words. -/
theorem isOrdinary_of_topWords {w : List Char} (trimmed : trim w = w)
    (several : 1 < (Scan.topWords w).length) : IsOrdinary w := by
  have single : ∀ k ∈ globalKeywords, (Scan.topWords k.toList).length ≤ 1 := by decide +kernel
  constructor
  · intro listed
    have one := single _ listed
    rw [String.toList_ofList, Scan.length_topWords_fullLower] at one
    omega
  · intro reference
    obtain ⟨call, found⟩ := Option.isSome_iff_exists.1 reference
    have word : Scan.topWords w = [w] :=
      Scan.isWord_call (Option.filter_eq_some_iff.1 found).1 trimmed
    rw [word, List.length_singleton] at several
    omega

section Ordinary

variable {table : PropertyTable} {property : String} {rule : PropertyRule}

/-- The verdict on a text that is ordinary without the blanks at its ends is that of the rule. -/
theorem validateValue_of_isOrdinary_trim {s : String} (known : table.rule? property = some rule)
    (bare : IsBare (trim s.toList)) (ordinary : IsOrdinary (trim s.toList)) :
    validateValue table property s = validateKind rule property (trim s.toList) := by
  simp [validateValue, bare.nonempty, ordinary.notGlobal, ordinary.notReference, known]

theorem validateValue_of_isOrdinary {u : String} (known : table.rule? property = some rule)
    (bare : IsBare u.toList) (ordinary : IsOrdinary u.toList) :
    validateValue table property u = validateKind rule property u.toList := by
  have same := bare.trim_eq
  rw [← same] at bare ordinary
  rw [validateValue_of_isOrdinary_trim known bare ordinary, same]

end Ordinary

/-! ## Stable verdicts -/

/-- The text itself, or the text in lower case, in ASCII or in every script. -/
def IsRecased (w u : List Char) : Prop := u = w ∨ u = lower w ∨ u = fullLower w

theorem IsRecased.fullLower_eq {w u : List Char} (h : IsRecased w u) :
    fullLower u = fullLower w := by
  rcases h with rfl | rfl | rfl <;> simp

theorem IsRecased.isOrdinary {w u : List Char} (h : IsRecased w u) (ordinary : IsOrdinary w) :
    IsOrdinary u := by
  rcases h with rfl | rfl | rfl
  · exact ordinary
  · exact ordinary.lower
  · exact ordinary.fullLower

/-- The normal form `u` of a value among the keywords: it is a single word that is a keyword, and
the value was none. -/
structure IsRecaught (keywords : List String) (w u : List Char) : Prop where
  /-- The normal form is a single word. -/
  single : (Scan.topWords u).length ≤ 1
  /-- The value is no keyword. -/
  fresh : String.ofList (fullLower w) ∉ keywords
  /-- The normal form is a keyword. -/
  caught : String.ofList (fullLower u) ∈ keywords

instance (keywords : List String) (w u : List Char) : Decidable (IsRecaught keywords w u) :=
  decidable_of_iff ((Scan.topWords u).length ≤ 1 ∧ String.ofList (fullLower w) ∉ keywords ∧
    String.ofList (fullLower u) ∈ keywords) ⟨fun h => ⟨h.1, h.2.1, h.2.2⟩, fun h => ⟨h.1, h.2, h.3⟩⟩

section Verdicts

variable {validate : List Char → ValueOutcome} {rule : PropertyRule} {property : String}
  {w : List Char} {u : String} {type : ValueType} {detail : Detail}

/-- The normal form differs from the value in letter case only, and has the same verdict. -/
structure IsStable (validate : List Char → ValueOutcome) (w : List Char) (u : String)
    (type : ValueType) (detail : Detail) : Prop where
  /-- The letter case differs at most. -/
  letters : IsRecased w u.toList
  /-- The verdict is given again. -/
  again : validate u.toList = .accepted u type detail

/-- The normal form has the same verdict unless it is recaught, and then that on a keyword. -/
structure IsSettled (validate : List Char → ValueOutcome) (keywords : List String)
    (w : List Char) (u : String) (type : ValueType) (detail : Detail) : Prop where
  /-- The normal form of an ordinary value is ordinary. -/
  ordinary : IsOrdinary w → IsOrdinary u.toList
  /-- The verdict is given again. -/
  again : ¬ IsRecaught keywords w u.toList → validate u.toList = .accepted u type detail
  /-- The verdict is that on a keyword. -/
  recaught : IsRecaught keywords w u.toList → ∃ type' detail',
    validate u.toList = .accepted (fullLowerText u) type' detail' ∧
      (type', detail') ≠ (type, detail)

theorem IsStable.isSettled (h : IsStable validate w u type detail) (keywords : List String) :
    IsSettled validate keywords w u type detail := by
  refine ⟨h.letters.isOrdinary, fun _ => h.again, fun recaught => absurd ?_ recaught.fresh⟩
  rw [← h.letters.fullLower_eq]
  exact recaught.caught

/-- A value that is its own normal form. -/
theorem IsStable.same (h : validate w = .accepted u type detail) (same : u.toList = w) :
    IsStable validate w u type detail := ⟨.inl same, by rw [same, h]⟩

/-! ## Keywords -/

@[simp] theorem keyword?_lower (rule : PropertyRule) (w : List Char) :
    keyword? rule (lower w) = keyword? rule w := by simp [keyword?]

@[simp] theorem keyword?_fullLower (rule : PropertyRule) (w : List Char) :
    keyword? rule (fullLower w) = keyword? rule w := by simp [keyword?]

theorem keyword?_eq_none_iff :
    keyword? rule w = none ↔ String.ofList (fullLower w) ∉ rule.keywords := by
  simp [keyword?]

/-- Keywords are looked up before anything else. -/
def LooksUpFirst (rule : PropertyRule) (validate : List Char → ValueOutcome) : Prop :=
  ∀ v outcome, keyword? rule v = some outcome → validate v = outcome

theorem looksUpFirst_validateWord : LooksUpFirst rule (validateWord rule property) := by
  intro v outcome found
  simp only [validateWord, found]

theorem looksUpFirst_validateNumber : LooksUpFirst rule (validateNumber rule property) := by
  intro v outcome found
  simp only [validateNumber, found]

theorem looksUpFirst_validateInteger : LooksUpFirst rule (validateInteger rule property) := by
  intro v outcome found
  simp only [validateInteger, found]

theorem looksUpFirst_validateKeyword : LooksUpFirst rule (validateKeyword rule property) := by
  intro v outcome found
  simp only [validateKeyword, found]

theorem looksUpFirst_validateKeywordOrNumber :
    LooksUpFirst rule (validateKeywordOrNumber rule property) := by
  intro v outcome found
  simp only [validateKeywordOrNumber, found]

theorem looksUpFirst_validateCalls : LooksUpFirst rule (validateCalls rule) := by
  intro v outcome found
  simp only [validateCalls, found]

theorem looksUpFirst_validateComplex : LooksUpFirst rule (validateComplex rule property) := by
  intro v outcome found
  simp only [validateComplex, found]

/-- After the keywords, arithmetic functions are looked up. -/
def LooksUpMath (rule : PropertyRule) (validate : List Char → ValueOutcome) : Prop :=
  ∀ v outcome, keyword? rule v = none → mathCall? v = some outcome → validate v = outcome

theorem looksUpMath_validateWord : LooksUpMath rule (validateWord rule property) := by
  intro v outcome noKeyword found
  simp only [validateWord, noKeyword, found]

theorem looksUpMath_validateNumber : LooksUpMath rule (validateNumber rule property) := by
  intro v outcome noKeyword found
  simp only [validateNumber, noKeyword, found]

theorem looksUpMath_validateInteger : LooksUpMath rule (validateInteger rule property) := by
  intro v outcome noKeyword found
  simp only [validateInteger, noKeyword, found]

theorem LooksUpFirst.isStable (first : LooksUpFirst rule validate) {outcome : ValueOutcome}
    (found : keyword? rule w = some outcome) (h : outcome = .accepted u type detail) :
    IsStable validate w u type detail := by
  subst h
  have written : u.toList = fullLower w := by
    simp only [keyword?, Option.ite_none_right_eq_some, Option.some.injEq] at found
    obtain ⟨rfl, -, -⟩ := Outcome.accepted.inj found.2
    exact String.toList_ofList
  refine ⟨.inr (.inr written), first _ _ ?_⟩
  rw [written, keyword?_fullLower, found]

theorem isStable_of_validateKeyword
    (h : validateKeyword rule property w = .accepted u type detail) :
    IsStable (validateKeyword rule property) w u type detail := by
  simp only [validateKeyword] at h
  split at h
  · next found => exact looksUpFirst_validateKeyword.isStable found h
  · cases h

/-! ## Calls and free values -/

theorem isStable_of_validateCalls (h : validateCalls rule w = .accepted u type detail) :
    IsStable (validateCalls rule) w u type detail := by
  have accepted := h
  simp only [validateCalls] at h
  split at h
  · next found => exact looksUpFirst_validateCalls.isStable found h
  · split at h
    · obtain ⟨rfl, -, -⟩ := Outcome.accepted.inj h
      exact .same accepted String.toList_ofList
    · next refusal found =>
      subst h
      exact absurd found calledNames_ne_error

theorem toList_of_validateFree (h : validateFree w = .accepted u type detail) : u.toList = w := by
  simp only [validateFree] at h
  split at h
  · cases h
  · obtain ⟨rfl, -, -⟩ := Outcome.accepted.inj h
    exact String.toList_ofList

theorem isStable_of_validateComplex
    (h : validateComplex rule property w = .accepted u type detail) :
    IsStable (validateComplex rule property) w u type detail := by
  have accepted := h
  simp only [validateComplex] at h
  split at h
  · next found => exact looksUpFirst_validateComplex.isStable found h
  · refine .same accepted ?_
    split at h
    · split at h
      · obtain ⟨rfl, -, -⟩ := Outcome.accepted.inj h
        exact String.toList_ofList
      · cases h
    · split at h
      · split at h
        · obtain ⟨rfl, -, -⟩ := Outcome.accepted.inj h
          exact String.toList_ofList
        · cases h
      · split at h
        · exact toList_of_validateFree h
        · cases h

/-- An arithmetic function is kept as it is. -/
theorem toList_of_mathCall? {outcome : ValueOutcome} (found : mathCall? w = some outcome)
    (trimmed : trim w = w) (h : outcome = .accepted u type detail) : u.toList = w := by
  obtain ⟨_, -, rfl⟩ := Option.map_eq_some_iff.1 found
  obtain ⟨rfl, -⟩ := validateFunction_eq_accepted (Outcome.mapFault_eq_accepted h)
  rw [String.toList_ofList, trimmed]

/-! ## Dimensions -/

/-- A plain word is no call. -/
theorem call?_of_isDull (h : IsDull w) : Scan.call? w = none := by
  rw [Option.eq_none_iff_forall_ne_some]
  intro call found
  obtain ⟨name, after, same, -⟩ := Scan.call?_eq_some found
  have opening : '(' ∈ w := by
    rw [same]
    simp
  obtain ⟨-, body, dull, rfl | rfl⟩ := h
  · exact absurd (dull _ opening) (by decide)
  · rcases List.mem_append.1 opening with inside | percent
    · exact absurd (dull _ inside) (by decide)
    · exact absurd (List.mem_singleton.1 percent) (by decide)

variable {d : Dimension}

/-- A dimension is no arithmetic function. -/
theorem mathCall?_of_ofChars? (trimmed : trim w = w) (hd : Dimension.ofChars? w = some d) :
    mathCall? w = none := by
  simp [mathCall?, Scan.callOf?, call?_of_isDull (isDull_of_ofChars? trimmed hd).1]

theorem mathCall?_lower (trimmed : trim w = w) (hd : Dimension.ofChars? w = some d) :
    mathCall? (lower w) = none :=
  mathCall?_of_ofChars? (by rw [Scan.trim_lower, trimmed]) (Dimension.ofChars?_lower hd)

/-- The bounds are for the number and the unit: the text matters to the fault only. -/
theorem checkBounds_eq_ok_iff : checkBounds rule property d = .ok () ↔
    (d.isNegative && !rule.allowNegative) = false ∧
      ((d.isPercentage && !rule.kind.boundsPercentages) ∨
        d.number.isWithin (boundsFor rule d).1 (boundsFor rule d).2) := by
  simp only [checkBounds]
  split
  · next negative => simp [negative]
  · next allowed =>
    split
    · next free => simp [allowed, free]
    · next bounded => split <;> simp_all

/-- The lower-case form of a dimension has the same verdict. -/
theorem dimensionVerdict_lower (trimmed : trim w = w) (hd : Dimension.ofChars? w = some d)
    {t : ValueType} (h : dimensionVerdict rule property t d = .accepted u type detail) :
    u.toList = lower w ∧
      dimensionVerdict rule property t d.lowered = .accepted u type detail := by
  have trimmed' : trim (lower w) = lower w := by rw [Scan.trim_lower, trimmed]
  have written := Dimension.normalized_eq_lower trimmed hd
  have written' := Dimension.normalized_eq_lower trimmed' (Dimension.ofChars?_lower hd)
  rw [lower_lower, ← written] at written'
  have same := String.toList_inj.1 written'
  simp only [dimensionVerdict] at h ⊢
  split at h
  · next bounded =>
    obtain ⟨rfl, rfl, rfl⟩ := Outcome.accepted.inj h
    have bounded' : checkBounds rule property d.lowered = .ok () := by
      rw [checkBounds_eq_ok_iff] at bounded ⊢
      exact bounded
    rw [bounded', same]
    exact ⟨written, rfl⟩
  · cases h

theorem isStable_of_validateNumber (trimmed : trim w = w)
    (h : validateNumber rule property w = .accepted u type detail) :
    IsStable (validateNumber rule property) w u type detail := by
  have accepted := h
  simp only [validateNumber] at h
  split at h
  · next found => exact looksUpFirst_validateNumber.isStable found h
  · next found => exact .same accepted (toList_of_mathCall? found trimmed h)
  · next noKeyword noCall =>
    split at h
    · cases h
    · next d hd =>
      split at h
      · cases h
      · next percentage =>
        split at h
        · cases h
        · next unit =>
          obtain ⟨written, again⟩ := dimensionVerdict_lower trimmed hd h
          refine ⟨.inr (.inl written), ?_⟩
          rw [written, validateNumber, keyword?_lower, noKeyword, mathCall?_lower trimmed hd,
            Dimension.ofChars?_lower hd]
          exact (if_neg percentage).trans ((if_neg unit).trans again)

/-- A point has no case, so an integer stays one. -/
theorem isInteger_lower : d.lowered.isInteger = d.isInteger := by
  have point : IsCaseless ('.' == ·) := .of_table (by decide) (by decide)
  simp only [Dimension.isInteger, Dimension.isUnitless, Dimension.lowered,
    List.contains_eq_any_beq, point.any_lower]

theorem isStable_of_validateInteger (trimmed : trim w = w)
    (h : validateInteger rule property w = .accepted u type detail) :
    IsStable (validateInteger rule property) w u type detail := by
  have accepted := h
  simp only [validateInteger] at h
  split at h
  · next found => exact looksUpFirst_validateInteger.isStable found h
  · next found => exact .same accepted (toList_of_mathCall? found trimmed h)
  · next noKeyword noCall =>
    split at h
    · next d found =>
      obtain ⟨hd, integer⟩ := Option.filter_eq_some_iff.1 found
      obtain ⟨written, again⟩ := dimensionVerdict_lower trimmed hd h
      refine ⟨.inr (.inl written), ?_⟩
      rw [← isInteger_lower] at integer
      rw [written, validateInteger, keyword?_lower, noKeyword, mathCall?_lower trimmed hd,
        Dimension.ofChars?_lower hd, Option.filter_some_pos integer]
      exact again
    · cases h

theorem isStable_of_validateKeywordOrNumber (trimmed : trim w = w)
    (h : validateKeywordOrNumber rule property w = .accepted u type detail) :
    IsStable (validateKeywordOrNumber rule property) w u type detail := by
  simp only [validateKeywordOrNumber] at h
  split at h
  · next found => exact looksUpFirst_validateKeywordOrNumber.isStable found h
  · next noKeyword =>
    split at h
    · next d found =>
      obtain ⟨hd, unitless⟩ := Option.filter_eq_some_iff.1 found
      obtain ⟨written, again⟩ := dimensionVerdict_lower trimmed hd h
      have unitless' : d.lowered.isUnitless := unitless
      refine ⟨.inr (.inl written), ?_⟩
      rw [written, validateKeywordOrNumber, keyword?_lower, noKeyword,
        Dimension.ofChars?_lower hd, Option.filter_some_pos unitless']
      exact again
    · cases h

/-! ## Words -/

/-- A length in lower case has the same verdict, unless it is a zero without unit. -/
theorem lengthVerdict_lower (trimmed : trim w = w) (hd : Dimension.ofChars? w = some d)
    {text : String} (h : lengthVerdict rule property text d = .accepted u type detail) :
    (u = "0" ∧ type = .length ∧ detail = .none) ∨ u.toList = lower w ∧ ∀ text',
      lengthVerdict rule property text' d.lowered = .accepted u type detail := by
  simp only [lengthVerdict] at h
  split at h
  · next unitless =>
    split at h
    · obtain ⟨rfl, rfl, rfl⟩ := Outcome.accepted.inj h
      exact .inl ⟨rfl, rfl, rfl⟩
    · next nonzero =>
      split at h
      · next allowed =>
        obtain ⟨written, again⟩ := dimensionVerdict_lower trimmed hd h
        refine .inr ⟨written, fun text' => ?_⟩
        exact (if_pos unitless).trans ((if_neg nonzero).trans ((if_pos allowed).trans again))
      · cases h
  · next unit =>
    split at h
    · cases h
    · next known =>
      split at h
      · cases h
      · next percentage =>
        obtain ⟨written, again⟩ := dimensionVerdict_lower trimmed hd h
        refine .inr ⟨written, fun text' => ?_⟩
        exact (if_neg unit).trans ((if_neg known).trans ((if_neg percentage).trans again))

/-- A word is stable, or it is a zero without unit, of which only the digit is written. -/
theorem validateWord_cases (trimmed : trim w = w)
    (h : validateWord rule property w = .accepted u type detail) :
    IsStable (validateWord rule property) w u type detail ∨
      keyword? rule w = none ∧ u = "0" ∧ type = .length ∧ detail = .none := by
  have accepted := h
  simp only [validateWord] at h
  split at h
  · next found => exact .inl (looksUpFirst_validateWord.isStable found h)
  · next found => exact .inl (.same accepted (toList_of_mathCall? found trimmed h))
  · next noKeyword noCall =>
    split at h
    · next d hd =>
      rcases lengthVerdict_lower trimmed hd h with zero | ⟨written, again⟩
      · exact .inr ⟨noKeyword, zero⟩
      · refine .inl ⟨.inr (.inl written), ?_⟩
        rw [written, validateWord, keyword?_lower, noKeyword, mathCall?_lower trimmed hd,
          Dimension.ofChars?_lower hd]
        exact again _
    · cases h

/-- What is written for a word: the word, perhaps in lower case, or the digit zero. -/
def IsWordForm (w u : List Char) : Prop := IsRecased w u ∨ u = ['0']

theorem isWordForm_of_validateWord (trimmed : trim w = w)
    (h : validateWord rule property w = .accepted u type detail) : IsWordForm w u.toList := by
  rcases validateWord_cases trimmed h with stable | ⟨-, rfl, -, -⟩
  · exact .inl stable.letters
  · exact .inr rfl

namespace IsWordForm

variable {v : List Char}

theorem isWord (h : IsWordForm w v) (word : Scan.IsWord w) : Scan.IsWord v := by
  rcases h with (rfl | rfl | rfl) | rfl
  · exact word
  · rw [Scan.IsWord, Scan.topWords_lower, word, List.map_singleton]
  · exact Scan.isWord_fullLower word
  · unfold Scan.IsWord
    decide

theorem length_topWords (h : IsWordForm w v) (single : (Scan.topWords w).length ≤ 1) :
    (Scan.topWords v).length ≤ 1 := by
  rcases h with (rfl | rfl | rfl) | rfl
  · exact single
  · rwa [Scan.topWords_lower, List.length_map]
  · rwa [Scan.length_topWords_fullLower]
  · decide

theorem isClosed (h : IsWordForm w v) (closed : Scan.IsClosed w) : Scan.IsClosed v := by
  rcases h with (rfl | rfl | rfl) | rfl
  · exact closed
  · exact (Scan.isClosed_lower w).2 closed
  · exact (Scan.isClosed_fullLower w).2 closed
  · exact Scan.isClosed_of_plain (by decide)

theorem isOrdinary (h : IsWordForm w v) (ordinary : IsOrdinary w) : IsOrdinary v := by
  rcases h with letters | rfl
  · exact letters.isOrdinary ordinary
  · exact ⟨by decide, by decide⟩

end IsWordForm

/-- The digit zero is a length, unless it is a keyword. -/
theorem validateWord_zero : validateWord rule property ['0'] =
    if "0" ∈ rule.keywords then .accepted "0" .keyword .none else .accepted "0" .length .none := by
  have zero : Dimension.ofChars? ['0'] = some ⟨.ofNat 0, "", ['0']⟩ := by decide
  have noCall : mathCall? ['0'] = none := by decide
  have low : String.ofList (fullLower ['0']) = "0" := by decide
  by_cases listed : "0" ∈ rule.keywords
  · simp [validateWord, keyword?, low, listed]
  · simp only [validateWord, keyword?, low, List.contains_iff_mem, listed, noCall, zero, if_false]
    rfl

/-- The normal form of an accepted word is accepted, with the same normal form. -/
theorem validateWord_normalForm (trimmed : trim w = w)
    (h : validateWord rule property w = .accepted u type detail) :
    ∃ type' detail', validateWord rule property u.toList = .accepted u type' detail' := by
  rcases validateWord_cases trimmed h with stable | ⟨-, rfl, -, -⟩
  · exact ⟨type, detail, stable.again⟩
  · have zero := @validateWord_zero rule property
    split at zero
    · exact ⟨_, _, zero⟩
    · exact ⟨_, _, zero⟩

/-- A zero without unit is recaught exactly if the digit is a keyword. -/
theorem isSettled_zero (noKeyword : keyword? rule w = none)
    (h : ∀ t, validateWord rule property ['0'] = .accepted "0" t .none →
      validate ['0'] = .accepted "0" t detail) :
    IsSettled validate rule.keywords w "0" .length detail := by
  have fresh := keyword?_eq_none_iff.1 noKeyword
  refine ⟨fun ordinary => ?_, fun free => h _ ?_, fun recaught => ⟨.keyword, detail, h _ ?_, ?_⟩⟩
  · exact IsWordForm.isOrdinary (.inr rfl) ordinary
  · rw [validateWord_zero, if_neg]
    exact fun listed => free ⟨by decide, fresh, listed⟩
  · rw [validateWord_zero, if_pos]
    exact recaught.caught
  · simp

theorem isSettled_of_validateWord (trimmed : trim w = w)
    (h : validateWord rule property w = .accepted u type detail) :
    IsSettled (validateWord rule property) rule.keywords w u type detail := by
  rcases validateWord_cases trimmed h with stable | ⟨noKeyword, rfl, rfl, rfl⟩
  · exact stable.isSettled _
  · exact isSettled_zero noKeyword fun _ accepted => accepted

/-! ## Lengths side by side -/

/-- The words of a shorthand are written one by one, and what is written is accepted. -/
theorem forall₂_isWordForm {words : List (List Char)} (trimmed : ∀ w ∈ words, trim w = w)
    {values : List String} (h : validateWords rule property words = .ok values) :
    List.Forall₂ (fun w v => IsWordForm w v.toList ∧ ∃ type detail,
      validateWord rule property v.toList = .accepted v type detail) words values :=
  ((List.forall₂_and_left _ _).2 ⟨trimmed, forall₂_of_validateWords h⟩).imp
    fun _ _ ⟨trimmed, _, _, accepted⟩ =>
      ⟨isWordForm_of_validateWord trimmed accepted, validateWord_normalForm trimmed accepted⟩

theorem validateWords_of_forall {values : List String} (h : ∀ v ∈ values, ∃ type detail,
    validateWord rule property v.toList = .accepted v type detail) :
    validateWords rule property (values.map String.toList) = .ok values := by
  induction values with
  | nil => rfl
  | cons v values ih =>
    obtain ⟨⟨type, detail, first⟩, others⟩ := List.forall_mem_cons.1 h
    rw [List.map_cons, validateWords, first, ih others]
    rfl

theorem pairwise_isClosed_of_forall₂ {words : List (List Char)} {values : List String}
    (paired : List.Forall₂ (fun w v => IsWordForm w v.toList) words values)
    (closed : words.Pairwise fun w _ => Scan.IsClosed w) :
    (values.map String.toList).Pairwise fun v _ => Scan.IsClosed v := by
  rw [List.pairwise_map]
  induction paired with
  | nil => exact .nil
  | cons form rest ih =>
    obtain ⟨first, others⟩ := List.pairwise_cons.1 closed
    refine .cons (fun v hv => ?_) (ih others)
    obtain ⟨w, hw, -⟩ := exists_of_mem_right rest hv
    exact form.isClosed (first w hw)

/-- The normal form of several words is cut into their normal forms, and these are accepted. -/
theorem validateWords_normalForm {cs : List Char} {values : List String}
    (h : validateWords rule property (Scan.topWords cs) = .ok values) :
    Scan.topWords (" ".intercalate values).toList = values.map String.toList ∧
      values.length = (Scan.topWords cs).length ∧
      validateWords rule property (values.map String.toList) = .ok values := by
  have paired := forall₂_isWordForm (fun w hw => (Scan.of_mem_topWords hw).2) h
  have forms := paired.imp fun _ _ both => both.1
  have words : ∀ v ∈ values.map String.toList, Scan.IsWord v := by
    refine List.forall_mem_map.2 fun v hv => ?_
    obtain ⟨w, hw, form⟩ := exists_of_mem_right forms hv
    exact form.isWord (Scan.isWord_of_mem_topWords hw)
  refine ⟨?_, paired.length_eq.symm, validateWords_of_forall fun v hv => ?_⟩
  · rw [String.toList_intercalate]
    exact Scan.topWords_intercalate words
      (pairwise_isClosed_of_forall₂ forms (Scan.pairwise_isClosed_topWords cs))
  · obtain ⟨_, -, -, accepted⟩ := exists_of_mem_right paired hv
    exact accepted

theorem validateLengths_of_single {v : List Char} (single : (Scan.topWords v).length ≤ 1)
    (h : validateWord rule property v = .accepted u type detail) :
    validateLengths rule property v =
      .accepted u type (if rule.shorthand then sidesDetail [u] else detail) := by
  simp only [validateLengths, if_neg (Nat.not_lt.2 single), h]

theorem isSettled_of_validateLengths (bare : IsBare w)
    (h : validateLengths rule property w = .accepted u type detail) :
    IsSettled (validateLengths rule property) rule.keywords w u type detail := by
  have written := (isKindValue_of_validateLengths h).isBare bare.trim_eq bare
  simp only [validateLengths] at h
  split at h
  · next several =>
    split at h
    · cases h
    · next shorthand =>
      split at h
      · cases h
      · next few =>
        split at h
        · next values found =>
          obtain ⟨rfl, rfl, rfl⟩ := Outcome.accepted.inj h
          obtain ⟨words, count, again⟩ := validateWords_normalForm found
          have several' : 1 < (Scan.topWords (" ".intercalate values).toList).length := by
            rwa [words, List.length_map, count]
          refine ⟨fun _ => isOrdinary_of_topWords written.trim_eq several', fun _ => ?_,
            fun recaught => absurd recaught.single (Nat.not_le.2 several')⟩
          simp only [validateLengths, words, List.length_map, count, if_pos several,
            if_neg shorthand, if_neg few, again]
        · next refusal found =>
          subst h
          exact absurd found validateWords_ne_error
  · next single =>
    rw [Nat.not_lt] at single
    split at h
    · next text type' detail' accepted =>
      obtain ⟨rfl, rfl, rfl⟩ := Outcome.accepted.inj h
      have single' := (isWordForm_of_validateWord bare.trim_eq accepted).length_topWords single
      rcases validateWord_cases bare.trim_eq accepted with stable | ⟨noKeyword, rfl, rfl, rfl⟩
      · exact IsStable.isSettled ⟨stable.letters, validateLengths_of_single single' stable.again⟩ _
      · exact isSettled_zero noKeyword fun _ accepted => validateLengths_of_single single' accepted
    · next other => exact absurd h (other _ _ _)

end Verdicts

end BracketCss
