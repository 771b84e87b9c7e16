import BracketCss.Proofs.Value.Bounds

/-!
# The numbers that are written

What stands in a value that is accepted as a length or a number: keywords of the rule, calls, and
numbers with an optional sign, an optional point and an optional unit of length in lower case. The
digits may be those of any script. A sheet knows ASCII digits only, so that a number is one of a
sheet if and only if it has no other digits, and a value may hold numbers that are none.

## Main definitions

* `IsNumeralIn digit cs`, `IsNumberIn digit cs`: numbers with digits of a class, with the sign and
  the unit apart, and with both
* `PropertyRule.IsWritten rule cs`: a keyword, a call or a number
* `ValueType.isNumeric`: the types of lengths and numbers

## Main results

* `IsNumberIn.isAsciiDigit_iff`: the numbers that have ASCII digits
* `isNumberIn_normalized`: the normal form of a number that a rule takes
* `exists_rule_of_isNumeric`: the words of an accepted length or number
* `exists_length_of_other_digits`: a length that is no number of a sheet
-/

namespace BracketCss

open Text

/-! ## Numbers with digits of a class -/

/-- Digits of a class with an optional fraction, or a fraction alone. -/
inductive IsNumeralIn (digit : Char → Bool) : List Char → Prop
  | whole {digits : List Char} : digits ≠ [] → (∀ c ∈ digits, digit c) → IsNumeralIn digit digits
  | fraction {digits places : List Char} : (∀ c ∈ digits, digit c) → places ≠ [] →
      (∀ c ∈ places, digit c) → IsNumeralIn digit (digits ++ '.' :: places)

/-- A number with digits of a class, an optional sign and an optional unit of length in lower
case. -/
def IsNumberIn (digit : Char → Bool) (cs : List Char) : Prop :=
  ∃ sign numeral unit, cs = sign ++ numeral ++ unit ∧ sign ∈ [[], ['-'], ['+']] ∧
    IsNumeralIn digit numeral ∧ (unit = [] ∨ String.ofList unit ∈ lengthUnits)

section Classes

variable {digit : Char → Bool} {cs : List Char}

theorem IsNumeral.isNumeralIn (h : IsNumeral cs) : IsNumeralIn isDecimal cs := by
  cases h with
  | whole some_ digits => exact .whole some_ digits
  | fraction wholes some_ decimals => exact .fraction wholes some_ decimals

/-- A numeral has digits and at most a point. -/
theorem IsNumeralIn.digit_or_point (h : IsNumeralIn digit cs) : ∀ c ∈ cs, digit c ∨ c = '.' := by
  cases h with
  | whole _ digits => exact fun c hc => .inl (digits c hc)
  | fraction wholes _ decimals =>
    refine List.forall_mem_append.2 ⟨fun c hc => .inl (wholes c hc), ?_⟩
    exact List.forall_mem_cons.2 ⟨.inr rfl, fun c hc => .inl (decimals c hc)⟩

/-- The digits of a numeral may be put into another class. -/
theorem IsNumeralIn.mono {other : Char → Bool} (h : IsNumeralIn digit cs)
    (all : ∀ c ∈ cs, digit c → other c) : IsNumeralIn other cs := by
  cases h with
  | whole some_ digits => exact .whole some_ fun c hc => all c hc (digits c hc)
  | fraction wholes some_ decimals =>
    refine .fraction (fun c hc => ?_) some_ fun c hc => ?_
    · exact all c (List.mem_append_left _ hc) (wholes c hc)
    · exact all c (List.mem_append_right _ (List.mem_cons_of_mem _ hc)) (decimals c hc)

theorem not_isDecimal_of_sign {sign : List Char} (h : sign ∈ [[], ['-'], ['+']]) :
    ∀ c ∈ sign, isDecimal c = false := by
  have table : ∀ s ∈ [[], ['-'], ['+']], ∀ c ∈ s, isDecimal c = false := by decide
  exact table sign h

theorem not_isDecimal_of_unit {unit : List Char}
    (h : unit = [] ∨ String.ofList unit ∈ lengthUnits) : ∀ c ∈ unit, isDecimal c = false := by
  have table : ∀ u ∈ lengthUnits, ∀ c ∈ u.toList, isDecimal c = false := by decide
  rcases h with rfl | listed
  · exact List.forall_mem_nil _
  · intro c hc
    exact table _ listed c (by rwa [String.toList_ofList])

/-- **A number has ASCII digits exactly if it has no digits of another script.** -/
theorem IsNumberIn.isAsciiDigit_iff (h : IsNumberIn isDecimal cs) :
    IsNumberIn isAsciiDigit cs ↔ ∀ c ∈ cs, isDecimal c → isAsciiDigit c := by
  constructor
  · rintro ⟨sign, numeral, unit, rfl, signs, form, unitLike⟩ c hc digit
    have outside : isDecimal c ≠ false := by simp [digit]
    rcases List.mem_append.1 hc with front | inUnit
    · rcases List.mem_append.1 front with inSign | inNumeral
      · exact absurd (not_isDecimal_of_sign signs c inSign) outside
      · rcases form.digit_or_point c inNumeral with ascii | rfl
        · exact ascii
        · cases digit
    · exact absurd (not_isDecimal_of_unit unitLike c inUnit) outside
  · intro ascii
    obtain ⟨sign, numeral, unit, rfl, signs, form, unitLike⟩ := h
    refine ⟨sign, numeral, unit, rfl, signs, form.mono fun c hc => ascii c ?_, unitLike⟩
    exact List.mem_append_left _ (List.mem_append_right _ hc)

end Classes

/-! ## The normal form of a number -/

section Numbers

variable {rule : PropertyRule} {property : String} {w cs : List Char} {value : String}
  {d : Dimension} {type : ValueType} {detail : Detail}

/-- The unit of a number that a rule takes is a unit of length, if there is one. -/
theorem PropertyRule.Takes.unit (h : rule.Takes d) : d.unit = "" ∨ d.unit ∈ lengthUnits := by
  have unitless : d.isUnitless → d.unit = "" := fun none_ => beq_iff_eq.1 none_
  rcases h with admitted | ⟨-, none_, -⟩
  · have form := admitted.form
    unfold PropertyRule.WantsForm at form
    split at form
    · exact form.symm.imp_left fun none_ => unitless none_.1
    · exact form.symm.imp_left fun none_ => unitless none_.1
    · rcases form with percentage | none_
      · right
        rw [beq_iff_eq.1 percentage]
        decide
      · exact .inl (unitless none_)
    · rw [Dimension.isInteger, Bool.and_eq_true] at form
      exact .inl (unitless form.1)
    · exact .inl (unitless form)
    all_goals cases form
  · exact .inl (unitless none_)

/-- **The normal form of a number that a rule takes**: its unit is in lower case. -/
theorem isNumberIn_normalized (hd : Dimension.ofChars? w = some d) (takes : rule.Takes d) :
    IsNumberIn isDecimal d.normalized.toList := by
  have known := takes.unit
  obtain ⟨sign, numeral, unit, text, signs, form, unitLike, rfl⟩ :=
    Dimension.ofChars?_eq_some_iff.1 hd
  refine ⟨sign, numeral, lower unit, ?_, signs, form.isNumeralIn, ?_⟩
  · rw [text, toList_normalized unitLike]
  · refine known.imp_left fun none_ => ?_
    rwa [← String.ofList_nil, String.ofList_inj] at none_

/-! ## The words that are written -/

/-- What may be written for a word: a keyword of the rule, a call, or a number. -/
def PropertyRule.IsWritten (rule : PropertyRule) (cs : List Char) : Prop :=
  String.ofList cs ∈ rule.keywords ∨ (Scan.call? cs).isSome ∨ IsNumberIn isDecimal cs

/-- What is written for a word if the numbers among the words are taken by the rule. -/
theorem IsWordValue.isWritten (h : IsWordValue rule w value) (trimmed : trim w = w)
    (taken : String.ofList (fullLower w) ∉ rule.keywords → ∀ d, Dimension.ofChars? w = some d →
      rule.Takes d) : rule.IsWritten value.toList := by
  cases h with
  | keyword listed =>
    left
    rwa [String.ofList_toList]
  | call found =>
    right; left
    rw [String.toList_ofList, found]
    rfl
  | @dimension d hd =>
    by_cases listed : String.ofList (fullLower w) ∈ rule.keywords
    · left
      rwa [Dimension.normalized_eq_lower trimmed hd, ← Dimension.fullLower_eq_lower trimmed hd]
    · exact .inr (.inr (isNumberIn_normalized hd (taken listed d hd)))
  | zero hd =>
    right; right
    exact ⟨[], ['0'], [], rfl, by simp, .whole (by simp) (by decide), .inl rfl⟩

/-- What is written for a word that is no keyword is a word. -/
theorem IsWordValue.isWord (h : IsWordValue rule w value) (trimmed : trim w = w)
    (fresh : String.ofList (fullLower w) ∉ rule.keywords) : Scan.IsWord value.toList := by
  cases h with
  | keyword listed => exact absurd listed fresh
  | call found =>
    rw [trimmed] at found
    rw [String.toList_ofList, trimmed]
    exact Scan.isWord_call found trimmed
  | dimension hd =>
    have written := Dimension.normalized_eq_lower trimmed hd
    exact IsWordForm.isWord (.inl (.inr (.inl written))) (isWord_of_ofChars? trimmed hd)
  | zero hd =>
    unfold Scan.IsWord
    decide

/-- A value is its words with spaces between them, and each of them may be written. -/
def PropertyRule.IsWrittenWith (rule : PropertyRule) (cs : List Char) : Prop :=
  [' '].intercalate (Scan.topWords cs) = cs ∧ ∀ w ∈ Scan.topWords cs, rule.IsWritten w

/-- The type of a length or of a number. -/
def ValueType.isNumeric (type : ValueType) : Bool := type == length || type == number

/-! ## Verdicts of other types -/

theorem type_of_keyword? {outcome : ValueOutcome} (found : keyword? rule w = some outcome)
    (h : outcome = .accepted value type detail) : type = .keyword := by
  simp only [keyword?, Option.ite_none_right_eq_some, Option.some.injEq] at found
  rw [h] at found
  exact (Outcome.accepted.inj found.2).2.1.symm

theorem not_isNumeric_of_keyword? {outcome : ValueOutcome}
    (found : keyword? rule w = some outcome) (h : outcome = .accepted value type detail) :
    type.isNumeric = false := by
  rw [type_of_keyword? found h]
  rfl

theorem not_isNumeric_of_validateFunction {allowed : Option (List String)}
    (h : validateFunction allowed w = .accepted value type detail) : type.isNumeric = false := by
  simp only [validateFunction] at h
  split at h
  · cases h
  · obtain ⟨-, rfl, -⟩ := Outcome.accepted.inj h
    split <;> rfl

theorem not_isNumeric_of_validateFree (h : validateFree w = .accepted value type detail) :
    type.isNumeric = false := by
  simp only [validateFree] at h
  split at h
  · cases h
  · obtain ⟨-, rfl, -⟩ := Outcome.accepted.inj h
    rfl

theorem not_isNumeric_of_validateColor {keywords : List String} {s : String}
    (h : validateColor keywords s = .accepted value type detail) : type.isNumeric = false := by
  have color : type = .color := by
    simp only [validateColor] at h
    split at h
    · exact (Outcome.accepted.inj h).2.1.symm
    · split at h
      · exact (Outcome.accepted.inj h).2.1.symm
      · split at h
        · split at h
          · exact (Outcome.accepted.inj h).2.1.symm
          · cases h
        · split at h
          · split at h
            · exact (Outcome.accepted.inj h).2.1.symm
            · cases h
          · cases h
  rw [color]
  rfl

theorem not_isNumeric_of_validateKeyword
    (h : validateKeyword rule property w = .accepted value type detail) :
    type.isNumeric = false := by
  simp only [validateKeyword] at h
  split at h
  · next found => exact not_isNumeric_of_keyword? found h
  · cases h

theorem not_isNumeric_of_validateCalls (h : validateCalls rule w = .accepted value type detail) :
    type.isNumeric = false := by
  simp only [validateCalls] at h
  split at h
  · next found => exact not_isNumeric_of_keyword? found h
  · split at h
    · obtain ⟨-, rfl, -⟩ := Outcome.accepted.inj h
      rfl
    · next refusal found =>
      subst h
      exact absurd found calledNames_ne_error

theorem not_isNumeric_of_validateComplex
    (h : validateComplex rule property w = .accepted value type detail) :
    type.isNumeric = false := by
  simp only [validateComplex] at h
  split at h
  · next found => exact not_isNumeric_of_keyword? found h
  · split at h
    · split at h
      · obtain ⟨-, rfl, -⟩ := Outcome.accepted.inj h
        rfl
      · cases h
    · split at h
      · split at h
        · obtain ⟨-, rfl, -⟩ := Outcome.accepted.inj h
          rfl
        · cases h
      · split at h
        · exact not_isNumeric_of_validateFree h
        · cases h

/-- Only a rule for numbers accepts a value as one. -/
theorem isNumeric_of_validateKind (h : validateKind rule property w = .accepted value type detail)
    (numeric : type.isNumeric) : rule.kind.isNumeric := by
  suffices other : ¬ rule.kind.isNumeric → type.isNumeric = false by
    by_contra unlike
    rw [other unlike] at numeric
    cases numeric
  intro unlike
  unfold validateKind at h
  cases kind : rule.kind with
  | length | lengthOrNumber | number | integer | keywordOrNumber =>
    rw [kind] at unlike
    exact absurd rfl unlike
  | color =>
    rw [kind] at h
    exact not_isNumeric_of_validateColor (Outcome.mapFault_eq_accepted h)
  | keyword =>
    rw [kind] at h
    exact not_isNumeric_of_validateKeyword h
  | function =>
    rw [kind] at h
    exact not_isNumeric_of_validateCalls h
  | complex =>
    rw [kind] at h
    exact not_isNumeric_of_validateComplex h

/-! ## Lengths and numbers -/

/-- A length or a number is no keyword, since keywords are looked up first. -/
theorem LooksUpFirst.fresh {validate : List Char → ValueOutcome}
    (first : LooksUpFirst rule validate) (h : validate w = .accepted value type detail)
    (numeric : type.isNumeric) : String.ofList (fullLower w) ∉ rule.keywords := by
  rw [← keyword?_eq_none_iff]
  cases found : keyword? rule w with
  | none => rfl
  | some outcome =>
    rw [first w outcome found] at h
    rw [not_isNumeric_of_keyword? found h] at numeric
    cases numeric

/-- A length or a number that is not several lengths is a word that is no keyword. -/
theorem isWordValue_of_validateKind (kind : rule.kind.isNumeric)
    (single : rule.kind = .length → (Scan.topWords w).length ≤ 1)
    (h : validateKind rule property w = .accepted value type detail) (numeric : type.isNumeric) :
    IsWordValue rule w value ∧ String.ofList (fullLower w) ∉ rule.keywords := by
  unfold validateKind at h
  cases known : rule.kind with
  | length =>
    simp only [known, validateLengths, if_neg (Nat.not_lt.2 (single known))] at h
    split at h
    · next accepted =>
      obtain ⟨rfl, rfl, -⟩ := Outcome.accepted.inj h
      exact ⟨isWordValue_of_validateWord accepted, looksUpFirst_validateWord.fresh accepted numeric⟩
    · next other => exact absurd h (other _ _ _)
  | lengthOrNumber =>
    rw [known] at h
    exact ⟨isWordValue_of_validateWord h, looksUpFirst_validateWord.fresh h numeric⟩
  | number =>
    rw [known] at h
    exact ⟨isWordValue_of_validateNumber h, looksUpFirst_validateNumber.fresh h numeric⟩
  | integer =>
    rw [known] at h
    exact ⟨isWordValue_of_validateInteger h, looksUpFirst_validateInteger.fresh h numeric⟩
  | keywordOrNumber =>
    rw [known] at h
    exact ⟨isWordValue_of_validateKeywordOrNumber h,
      looksUpFirst_validateKeywordOrNumber.fresh h numeric⟩
  | color | keyword | function | complex =>
    rw [known] at kind
    cases kind

/-- A value that is not several lengths is judged as a whole. -/
theorem mem_judgedWords_self (bare : IsBare cs)
    (single : rule.kind = .length → (Scan.topWords cs).length ≤ 1) :
    cs ∈ rule.judgedWords cs := by
  rw [PropertyRule.judgedWords]
  split
  · next lengths =>
    have whole : Scan.topWords cs = [cs] := Scan.isWord_of_single bare (single lengths)
    rw [whole]
    exact List.mem_singleton_self cs
  · exact List.mem_singleton_self cs

/-- What is written for a word of an accepted value. -/
theorem isWritten_of_mem_judgedWords (kind : rule.kind.isNumeric) (bare : IsBare cs)
    (judged : w ∈ rule.judgedWords cs) (trimmed : trim w = w)
    (h : validateKind rule property cs = .accepted value type detail) {v : String}
    (written : IsWordValue rule w v) : rule.IsWritten v.toList := by
  apply written.isWritten trimmed
  intro fresh d hd
  apply takes_of_validateKind kind bare judged fresh hd
  rw [h]
  rfl

/-- Several lengths are written with spaces between them. -/
theorem isWrittenWith_of_several (bare : IsBare cs) (kind : rule.kind = .length)
    (several : 1 < (Scan.topWords cs).length)
    (h : validateKind rule property cs = .accepted value type detail) :
    rule.IsWrittenWith value.toList := by
  have accepted := h
  rw [validateKind, kind] at h
  simp only [validateLengths, if_pos several] at h
  split at h
  · cases h
  · split at h
    · cases h
    · split at h
      · next values found =>
        obtain ⟨rfl, -, -⟩ := Outcome.accepted.inj h
        obtain ⟨words, -, -⟩ := validateWords_normalForm found
        constructor
        · rw [words, String.toList_intercalate]
          rfl
        · rw [words, List.forall_mem_map]
          intro v hv
          obtain ⟨w, hw, written⟩ := exists_of_mem_right (forall₂_isWordValue found) hv
          have judged : w ∈ rule.judgedWords cs := by rwa [PropertyRule.judgedWords, if_pos kind]
          exact isWritten_of_mem_judgedWords (by rw [kind]; rfl) bare judged
            (Scan.of_mem_topWords hw).2 accepted written
      · next refusal found =>
        subst h
        exact absurd found validateWords_ne_error

/-- **What is written for a length or a number.** -/
theorem isWrittenWith_of_validateKind (bare : IsBare cs)
    (h : validateKind rule property cs = .accepted value type detail) (numeric : type.isNumeric) :
    rule.IsWrittenWith value.toList := by
  by_cases several : rule.kind = .length ∧ 1 < (Scan.topWords cs).length
  · exact isWrittenWith_of_several bare several.1 several.2 h
  · have kind := isNumeric_of_validateKind h numeric
    have single : rule.kind = .length → (Scan.topWords cs).length ≤ 1 := by
      intro lengths
      exact Nat.not_lt.1 fun more => several ⟨lengths, more⟩
    obtain ⟨written, fresh⟩ := isWordValue_of_validateKind kind single h numeric
    have word : Scan.topWords value.toList = [value.toList] := written.isWord bare.trim_eq fresh
    constructor
    · rw [word, List.intercalate_singleton]
    · rw [word, List.forall_mem_singleton]
      exact isWritten_of_mem_judgedWords kind bare (mem_judgedWords_self bare single)
        bare.trim_eq h written

end Numbers

/-- A value is accepted as a length or a number by the rule of its property only. -/
theorem validateKind_of_isNumeric {table : PropertyTable} {property s value : String}
    {type : ValueType} {detail : Detail}
    (h : validateValue table property s = .accepted value type detail) (numeric : type.isNumeric) :
    trim s.toList ≠ [] ∧ ∃ rule, table.rule? property = some rule ∧
      validateKind rule property (trim s.toList) = .accepted value type detail := by
  have other : type.isNumeric ≠ false := by simp [numeric]
  obtain ⟨some_, ⟨-, -, rfl⟩ | reference | ⟨-, free⟩ | byRule⟩ := validateValue_cases h
  · cases numeric
  · exact absurd (not_isNumeric_of_validateFunction reference) other
  · exact absurd (not_isNumeric_of_validateFree free) other
  · exact ⟨some_, byRule⟩

/-- **The words of an accepted length or number**: each of them is a keyword of the rule, a call, or
a number, and that number is one of a sheet if and only if its digits are ASCII digits. -/
theorem exists_rule_of_isNumeric {table : PropertyTable} {property s value : String}
    {type : ValueType} {detail : Detail}
    (h : validateValue table property s = .accepted value type detail) (numeric : type.isNumeric) :
    ∃ rule, table.rule? property = some rule ∧
      [' '].intercalate (Scan.topWords value.toList) = value.toList ∧
      ∀ w ∈ Scan.topWords value.toList, String.ofList w ∈ rule.keywords ∨ (Scan.call? w).isSome ∨
        IsNumberIn isDecimal w ∧
          (IsNumberIn isAsciiDigit w ↔ ∀ c ∈ w, isDecimal c → isAsciiDigit c) := by
  obtain ⟨some_, rule, known, accepted⟩ := validateKind_of_isNumeric h numeric
  have bare : IsBare (trim s.toList) := .of_trim (Scan.trim_trim s.toList) some_
  obtain ⟨whole, words⟩ := isWrittenWith_of_validateKind bare accepted numeric
  refine ⟨rule, known, whole, ?_⟩
  intro w hw
  rcases words w hw with listed | call | number
  · exact .inl listed
  · exact .inr (.inl call)
  · exact .inr (.inr ⟨number, number.isAsciiDigit_iff⟩)

/-- A number without digits in front of the point and with a unit in capitals, beside a keyword. -/
theorem exists_rule_of_isNumeric_margin :
    validateValue .standard "margin" " +.5REM AUTO" =
        .accepted "+.5rem auto" .length (.sides ["+.5rem", "auto", "+.5rem", "auto"]) ∧
      ∃ rule, PropertyTable.standard.rule? "margin" = some rule ∧
        [' '].intercalate (Scan.topWords "+.5rem auto".toList) = "+.5rem auto".toList ∧
        ∀ w ∈ Scan.topWords "+.5rem auto".toList,
          String.ofList w ∈ rule.keywords ∨ (Scan.call? w).isSome ∨
            IsNumberIn isDecimal w ∧
              (IsNumberIn isAsciiDigit w ↔ ∀ c ∈ w, isDecimal c → isAsciiDigit c) := by
  have accepted : validateValue .standard "margin" " +.5REM AUTO" =
      .accepted "+.5rem auto" .length (.sides ["+.5rem", "auto", "+.5rem", "auto"]) := by
    decide +kernel
  exact ⟨accepted, exists_rule_of_isNumeric accepted rfl⟩

/-- A length that is no number of a sheet: its digits are Arabic-Indic ones. -/
theorem exists_length_of_other_digits :
    ∃ (value : String) (w : List Char),
      validateValue .standard "padding-top" "\u0661\u0662px" = .accepted value .length .none ∧
      w ∈ Scan.topWords value.toList ∧
      (∀ rule ∈ PropertyTable.standard.rule? "padding-top", String.ofList w ∉ rule.keywords) ∧
      ¬ (Scan.call? w).isSome ∧ ¬ IsNumberIn isAsciiDigit w := by
  refine ⟨"\u0661\u0662px", ['\u0661', '\u0662', 'p', 'x'], by decide +kernel, by decide,
    by decide +kernel, by decide, ?_⟩
  have number : IsNumberIn isDecimal ['\u0661', '\u0662', 'p', 'x'] :=
    ⟨[], ['\u0661', '\u0662'], ['p', 'x'], rfl, by simp, .whole (by simp) (by decide),
      .inr (by decide)⟩
  rw [number.isAsciiDigit_iff]
  intro ascii
  exact absurd (ascii '\u0661' List.mem_cons_self (by decide)) (by decide)

end BracketCss
