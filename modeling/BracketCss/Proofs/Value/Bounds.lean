import BracketCss.Proofs.Number.Decimal
import BracketCss.Proofs.Value.Math.Lexeme
import BracketCss.Proofs.Value.Stable

/-!
# The numbers that a rule accepts

A number in an accepted value obeys the rule of its property: its sign, whether it is a percentage,
and the bounds, which are compared with it exactly. A percentage that stands for a fraction is
compared as a hundredth, and a percentage of a length has no bounds. A number that is a whole value
is accepted if and only if it has the form that the rule wants and is within its restrictions.

There are two more numbers of which the bounds are not known to hold. A zero without unit is
accepted as a length before the bounds are looked at, and a bound for percentages is widened to a
hundred times the number it is, which is rounded if it has more than 28 digits.

## Main definitions

* `ValueKind.isNumeric`, `ValueKind.isLength`: the kinds of values that may be numbers
* `PropertyRule.judgedWords rule cs`: the words of a value that are judged one by one
* `Dimension.amount kind d`: the number that is compared with the bounds
* `Dimension.IsExempt kind d bound`: a bound that is not known to hold
* `PropertyRule.Allows rule d`: a number that obeys a rule
* `PropertyRule.Takes rule d`: a number that a rule takes

## Main results

* `Dimension.widen_compare`: when a widened bound is compared exactly
* `checkBounds_iff`: what the check of the bounds accepts
* `PropertyRule.Takes.allows`: numbers that are taken obey the rule
* `isAccepted_validateKind_iff`, `takes_of_validateKind`: the numbers that are accepted
* `allows_of_validateValue`: the numbers in accepted values
* `exists_zero_outside`, `exists_percentage_outside`: numbers outside the bounds
-/

namespace BracketCss

open Text

/-! ## Numbers and rules -/

/-- A length, or a length or a number. -/
def ValueKind.isLength (kind : ValueKind) : Bool := kind == length || kind == lengthOrNumber

/-- The values may be numbers, with or without a unit. -/
def ValueKind.isNumeric (kind : ValueKind) : Bool :=
  kind.isLength || kind == number || kind == integer || kind == keywordOrNumber

/-- The words of a value that are judged one by one: lengths may stand side by side, and any other
value is judged as a whole. -/
def PropertyRule.judgedWords (rule : PropertyRule) (cs : List Char) : List (List Char) :=
  if rule.kind = .length then Scan.topWords cs else [cs]

namespace Dimension

/-- The number that is compared with the bounds: a hundredth for a percentage that stands for a
fraction. -/
def amount (kind : ValueKind) (d : Dimension) : Rat :=
  if d.isPercentage && kind.boundsPercentages then d.number.toRat / 100 else d.number.toRat

/-- A bound as it is compared with a number: a hundred times the bound for a percentage that stands
for a fraction. -/
def widen (kind : ValueKind) (d : Dimension) (bound : Decimal) : Decimal :=
  if d.isPercentage && kind.boundsPercentages then bound.timesHundred else bound

/-- A bound is not known to hold: a percentage of a length has none, a zero without unit is a length
whatever the bounds are, and for any other percentage a bound is rounded to 28 digits. -/
def IsExempt (kind : ValueKind) (d : Dimension) (bound : Decimal) : Prop :=
  if kind.isLength then d.isPercentage ∨ d.isUnitless ∧ d.number.toRat = 0
  else d.isPercentage ∧ ¬ bound.FitsIn 28

end Dimension

namespace PropertyRule

/-- A number that obeys a rule. -/
structure Allows (rule : PropertyRule) (d : Dimension) : Prop where
  /-- Negative numbers are for rules that allow them. -/
  sign : d.number.toRat < 0 → rule.allowNegative
  /-- Percentages are for rules that allow them. -/
  percentage : d.isPercentage → rule.allowPercentage
  /-- The number is at least the minimum. -/
  least : ∀ low ∈ rule.minimum, ¬ d.IsExempt rule.kind low → low.toRat ≤ d.amount rule.kind
  /-- The number is at most the maximum. -/
  greatest : ∀ high ∈ rule.maximum, ¬ d.IsExempt rule.kind high → d.amount rule.kind ≤ high.toRat

/-- The form that a kind of values demands of a number. -/
def WantsForm (rule : PropertyRule) (d : Dimension) : Prop :=
  match rule.kind with
  | .length | .lengthOrNumber => d.unit ∈ lengthUnits ∨ d.isUnitless ∧ rule.allowUnitless
  | .number => d.isPercentage ∨ d.isUnitless
  | .integer => d.isInteger
  | .keywordOrNumber => d.isUnitless
  | .color | .keyword | .function | .complex => False

/-- A number of the form that a rule demands, within its restrictions. -/
structure Admits (rule : PropertyRule) (d : Dimension) : Prop where
  /-- The form is the one that is demanded. -/
  form : rule.WantsForm d
  /-- Negative numbers are for rules that allow them. -/
  sign : d.number.toRat < 0 → rule.allowNegative
  /-- Percentages are for rules that allow them. -/
  percentage : d.isPercentage → rule.allowPercentage
  /-- A percentage of a length has no bounds, and any other number is within them. -/
  bounds : d.isPercentage ∧ ¬ rule.kind.boundsPercentages ∨
    (∀ low ∈ rule.minimum, (d.widen rule.kind low).toRat ≤ d.number.toRat) ∧
      ∀ high ∈ rule.maximum, d.number.toRat ≤ (d.widen rule.kind high).toRat

/-- A number that a rule takes: one that it admits, or a zero without unit as a length. -/
def Takes (rule : PropertyRule) (d : Dimension) : Prop :=
  rule.Admits d ∨ rule.kind.isLength ∧ d.isUnitless ∧ d.isZero

end PropertyRule

/-! ## The check of the bounds -/

section Bounds

variable {rule : PropertyRule} {kind : ValueKind} {property : String} {d : Dimension}
  {bound : Decimal}

/-- Widening a bound of at most 28 digits is dividing the number by a hundred. -/
theorem Dimension.widen_compare
    (short : d.isPercentage → kind.boundsPercentages → bound.FitsIn 28) :
    ((d.widen kind bound).toRat ≤ d.number.toRat ↔ bound.toRat ≤ d.amount kind) ∧
      (d.number.toRat ≤ (d.widen kind bound).toRat ↔ d.amount kind ≤ bound.toRat) := by
  rw [widen, amount]
  split
  · next fraction =>
    rw [Bool.and_eq_true] at fraction
    rw [Decimal.toRat_timesHundred_iff.2 (short fraction.1 fraction.2),
      le_div_iff₀' (by norm_num), div_le_iff₀' (by norm_num)]
    exact ⟨Iff.rfl, Iff.rfl⟩
  · exact ⟨Iff.rfl, Iff.rfl⟩

/-- **What the check of the bounds accepts.** -/
theorem checkBounds_iff : checkBounds rule property d = .ok () ↔
    (d.number.toRat < 0 → rule.allowNegative) ∧
      (d.isPercentage ∧ ¬ rule.kind.boundsPercentages ∨
        (∀ low ∈ rule.minimum, (d.widen rule.kind low).toRat ≤ d.number.toRat) ∧
          ∀ high ∈ rule.maximum, d.number.toRat ≤ (d.widen rule.kind high).toRat) := by
  have widened : boundsFor rule d =
      (rule.minimum.map (d.widen rule.kind), rule.maximum.map (d.widen rule.kind)) := by
    unfold boundsFor Dimension.widen
    split <;> simp
  rw [checkBounds_eq_ok_iff, Decimal.isWithin_iff, widened, ← Decimal.isNegative_iff,
    ← Dimension.isNegative]
  simp

end Bounds

/-! ## What a rule takes -/

section Rules

variable {rule : PropertyRule} {property : String} {d : Dimension}

theorem Dimension.not_isPercentage_of_isUnitless (h : d.isUnitless) : ¬ d.isPercentage := by
  rw [Dimension.isUnitless, beq_iff_eq] at h
  rw [Dimension.isPercentage, h]
  decide

theorem ValueKind.isLength_iff {kind : ValueKind} :
    kind.isLength ↔ kind = length ∨ kind = lengthOrNumber := by
  simp [isLength]

theorem PropertyRule.wantsForm_iff_of_isLength (lengths : rule.kind.isLength) :
    rule.WantsForm d ↔ d.unit ∈ lengthUnits ∨ d.isUnitless ∧ rule.allowUnitless := by
  unfold PropertyRule.WantsForm
  rcases ValueKind.isLength_iff.1 lengths with kind | kind <;> rw [kind]

/-- The bounds of lengths are compared as they are. -/
theorem Dimension.widen_of_isLength {kind : ValueKind} (lengths : kind.isLength) (bound : Decimal) :
    d.widen kind bound = bound := by
  have whole : kind.boundsPercentages = false := by
    rcases ValueKind.isLength_iff.1 lengths with rfl | rfl <;> rfl
  simp [Dimension.widen, whole]

/-- Only lengths, and numbers that stand for a fraction, may be percentages. -/
theorem PropertyRule.WantsForm.boundsPercentages (form : rule.WantsForm d)
    (percentage : d.isPercentage) (other : ¬ rule.kind.isLength) :
    rule.kind.boundsPercentages := by
  have unlike : ¬ d.isUnitless := fun unitless =>
    Dimension.not_isPercentage_of_isUnitless unitless percentage
  unfold PropertyRule.WantsForm at form
  cases kind : rule.kind with
  | length | lengthOrNumber =>
    rw [kind] at other
    exact absurd rfl other
  | number | integer => rfl
  | keywordOrNumber =>
    rw [kind] at form
    exact absurd form unlike
  | color | keyword | function | complex =>
    rw [kind] at form
    cases form

/-- A number within the restrictions obeys the rule: a bound that is not exempt was compared, and
exactly. -/
theorem PropertyRule.Admits.allows (h : rule.Admits d) : rule.Allows d := by
  have compared : ∀ bound, ¬ d.IsExempt rule.kind bound →
      ¬ (d.isPercentage ∧ ¬ rule.kind.boundsPercentages) ∧
        (d.isPercentage → rule.kind.boundsPercentages → bound.FitsIn 28) := by
    intro bound bounded
    rw [Dimension.IsExempt] at bounded
    split at bounded
    · next lengths =>
      have unlike : ¬ d.isPercentage := fun percentage => bounded (.inl percentage)
      exact ⟨fun free => unlike free.1, fun percentage => absurd percentage unlike⟩
    · next other =>
      refine ⟨fun free => free.2 (h.form.boundsPercentages free.1 other), fun percentage _ => ?_⟩
      exact by_contra fun long => bounded ⟨percentage, long⟩
  refine ⟨h.sign, h.percentage, fun low set bounded => ?_, fun high set bounded => ?_⟩
  · obtain ⟨due, short⟩ := compared low bounded
    exact (Dimension.widen_compare short).1.1 ((h.bounds.resolve_left due).1 low set)
  · obtain ⟨due, short⟩ := compared high bounded
    exact (Dimension.widen_compare short).2.1 ((h.bounds.resolve_left due).2 high set)

/-- Every number that a rule takes obeys it. -/
theorem PropertyRule.Takes.allows (h : rule.Takes d) : rule.Allows d := by
  rcases h with admitted | ⟨lengths, unitless, zero⟩
  · exact admitted.allows
  -- a zero is not negative, without unit it is no percentage, and as a length it has no bounds
  · have value := Decimal.isZero_iff.1 zero
    have exempt : ∀ bound, d.IsExempt rule.kind bound := by
      intro bound
      rw [Dimension.IsExempt, if_pos lengths]
      exact .inr ⟨unitless, value⟩
    exact ⟨fun negative => absurd value negative.ne,
      fun percentage => absurd percentage (Dimension.not_isPercentage_of_isUnitless unitless),
      fun low _ bounded => absurd (exempt low) bounded,
      fun high _ bounded => absurd (exempt high) bounded⟩

theorem admits_iff (form : rule.WantsForm d) (percentage : d.isPercentage → rule.allowPercentage) :
    rule.Admits d ↔ checkBounds rule property d = .ok () := by
  rw [checkBounds_iff]
  exact ⟨fun h => ⟨h.sign, h.bounds⟩, fun h => ⟨form, h.1, percentage, h.2⟩⟩

end Rules

/-! ## Verdicts on dimensions -/

section Dimensions

variable {rule : PropertyRule} {property : String} {d : Dimension}

/-- A number of the right form is accepted if and only if the rule admits it. -/
theorem isAccepted_dimensionVerdict_iff (form : rule.WantsForm d)
    (percentage : d.isPercentage → rule.allowPercentage) {type : ValueType} :
    (dimensionVerdict rule property type d).isAccepted ↔ rule.Admits d := by
  rw [admits_iff form percentage, dimensionVerdict]
  split
  · next checked => exact iff_of_true rfl checked
  · next fault failed =>
    refine iff_of_false Bool.false_ne_true fun checked => ?_
    rw [failed] at checked
    cases checked

theorem isAccepted_lengthVerdict_iff (lengths : rule.kind.isLength) {text : String} :
    (lengthVerdict rule property text d).isAccepted ↔ rule.Takes d := by
  have wants : rule.WantsForm d ↔ d.unit ∈ lengthUnits ∨ d.isUnitless ∧ rule.allowUnitless :=
    PropertyRule.wantsForm_iff_of_isLength lengths
  have unlisted : d.isUnitless → d.unit ∉ lengthUnits := by
    intro unitless
    rw [beq_iff_eq.1 unitless]
    decide
  rw [lengthVerdict]
  split
  · next unitless =>
    split
    · next zero => exact iff_of_true rfl (.inr ⟨lengths, unitless, zero⟩)
    · next nonzero =>
      have takes : rule.Takes d ↔ rule.Admits d := or_iff_left fun h => nonzero h.2.2
      rw [takes]
      split
      · next allowed =>
        exact isAccepted_dimensionVerdict_iff (wants.2 (.inr ⟨unitless, allowed⟩))
          fun percentage => absurd percentage (Dimension.not_isPercentage_of_isUnitless unitless)
      · next refused =>
        refine iff_of_false Bool.false_ne_true fun admitted => ?_
        rcases wants.1 admitted.form with listed | ⟨-, allowed⟩
        · exact unlisted unitless listed
        · exact refused allowed
  · next unit =>
    have takes : rule.Takes d ↔ rule.Admits d := or_iff_left fun h => unit h.2.1
    rw [takes]
    split
    · next unknown =>
      refine iff_of_false Bool.false_ne_true fun admitted => ?_
      rcases wants.1 admitted.form with listed | ⟨unitless, -⟩
      · simp [listed] at unknown
      · exact unit unitless
    · next known =>
      split
      · next refused =>
        rw [Bool.and_eq_true, Bool.not_eq_true'] at refused
        refine iff_of_false Bool.false_ne_true fun admitted => ?_
        exact absurd (admitted.percentage refused.1) (by simp [refused.2])
      · next allowed =>
        refine isAccepted_dimensionVerdict_iff (wants.2 (.inl ?_)) fun percentage => ?_
        · simpa using known
        · simpa [percentage] using allowed

end Dimensions

/-! ## Verdicts on words -/

section Words

variable {rule : PropertyRule} {property : String} {cs w : List Char} {d : Dimension}

theorem isAccepted_validateWord_iff (lengths : rule.kind.isLength) (trimmed : trim w = w)
    (fresh : String.ofList (fullLower w) ∉ rule.keywords) (hd : Dimension.ofChars? w = some d) :
    (validateWord rule property w).isAccepted ↔ rule.Takes d := by
  rw [validateWord, keyword?_eq_none_iff.2 fresh, mathCall?_of_ofChars? trimmed hd, hd]
  exact isAccepted_lengthVerdict_iff lengths

/-- A rule for other values than lengths makes no exception for a zero. -/
theorem takes_iff_admits (other : ¬ rule.kind.isLength) : rule.Takes d ↔ rule.Admits d :=
  or_iff_left fun h => other h.1

theorem isAccepted_validateNumber_iff (kind : rule.kind = .number) (trimmed : trim w = w)
    (fresh : String.ofList (fullLower w) ∉ rule.keywords) (hd : Dimension.ofChars? w = some d) :
    (validateNumber rule property w).isAccepted ↔ rule.Takes d := by
  have wants : rule.WantsForm d ↔ d.isPercentage ∨ d.isUnitless := by
    rw [PropertyRule.WantsForm, kind]
  rw [takes_iff_admits (by rw [kind]; decide), validateNumber, keyword?_eq_none_iff.2 fresh,
    mathCall?_of_ofChars? trimmed hd, hd]
  dsimp only
  split
  · next refused =>
    rw [Bool.and_eq_true, Bool.not_eq_true'] at refused
    refine iff_of_false Bool.false_ne_true fun admitted => ?_
    exact absurd (admitted.percentage refused.1) (by simp [refused.2])
  · next allowed =>
    split
    · next unit =>
      refine iff_of_false Bool.false_ne_true fun admitted => ?_
      rcases wants.1 admitted.form with percentage | unitless
      · simp [percentage] at unit
      · simp [unitless] at unit
    · next plain =>
      refine isAccepted_dimensionVerdict_iff (wants.2 ?_) fun percentage => ?_
      · simpa [or_iff_not_imp_left] using plain
      · simpa [percentage] using allowed

/-- The verdict on a number whose form, one without unit, is tested as it is read. -/
theorem isAccepted_filter_iff {p : Dimension → Bool} (wants : rule.WantsForm d ↔ p d)
    (unitless : p d → d.isUnitless) {refusal : ValueOutcome}
    (refuses : refusal.isAccepted = false) :
    (match (some d).filter p with
      | some d => dimensionVerdict rule property .number d
      | none => refusal).isAccepted ↔ rule.Admits d := by
  cases form : p d with
  | true =>
    rw [Option.filter_some_pos form]
    exact isAccepted_dimensionVerdict_iff (wants.2 form) fun percentage =>
      absurd percentage (Dimension.not_isPercentage_of_isUnitless (unitless form))
  | false =>
    rw [Option.filter_some_neg (by simp [form])]
    refine iff_of_false (by simp [refuses]) fun admitted => ?_
    exact absurd (wants.1 admitted.form) (by simp [form])

theorem isAccepted_validateInteger_iff (kind : rule.kind = .integer) (trimmed : trim w = w)
    (fresh : String.ofList (fullLower w) ∉ rule.keywords) (hd : Dimension.ofChars? w = some d) :
    (validateInteger rule property w).isAccepted ↔ rule.Takes d := by
  rw [takes_iff_admits (by rw [kind]; decide), validateInteger, keyword?_eq_none_iff.2 fresh,
    mathCall?_of_ofChars? trimmed hd, hd]
  refine isAccepted_filter_iff (by rw [PropertyRule.WantsForm, kind]) (fun integer => ?_) rfl
  rw [Dimension.isInteger, Bool.and_eq_true] at integer
  exact integer.1

theorem isAccepted_validateKeywordOrNumber_iff (kind : rule.kind = .keywordOrNumber)
    (fresh : String.ofList (fullLower w) ∉ rule.keywords) (hd : Dimension.ofChars? w = some d) :
    (validateKeywordOrNumber rule property w).isAccepted ↔ rule.Takes d := by
  rw [takes_iff_admits (by rw [kind]; decide), validateKeywordOrNumber,
    keyword?_eq_none_iff.2 fresh, hd]
  exact isAccepted_filter_iff (by rw [PropertyRule.WantsForm, kind]) id rfl

/-! ## Verdicts on values -/

/-- A single length is judged as a word. -/
theorem isAccepted_validateLengths_of_single (single : (Scan.topWords w).length ≤ 1) :
    (validateLengths rule property w).isAccepted = (validateWord rule property w).isAccepted := by
  simp only [validateLengths, if_neg (Nat.not_lt.2 single)]
  split
  · next accepted => rw [accepted]; rfl
  · next other => rfl

/-- Lengths side by side are accepted only if each of them is. -/
theorem isAccepted_of_validateLengths (bare : IsBare cs) (mem : w ∈ Scan.topWords cs)
    (h : (validateLengths rule property cs).isAccepted) :
    (validateWord rule property w).isAccepted := by
  by_cases several : 1 < (Scan.topWords cs).length
  · simp only [validateLengths, if_pos several] at h
    split at h
    · cases h
    · split at h
      · cases h
      · split at h
        · next values found =>
          obtain ⟨v, -, type, detail, accepted⟩ :=
            exists_of_mem_left (forall₂_of_validateWords found) mem
          rw [accepted]
          rfl
        · next refusal found =>
          cases refusal with
          | accepted => exact absurd found validateWords_ne_error
          | rejected => cases h
  · have single := Nat.not_lt.1 several
    have word : Scan.topWords cs = [cs] := Scan.isWord_of_single bare single
    obtain rfl : w = cs := by simpa [word] using mem
    rwa [isAccepted_validateLengths_of_single single] at h

/-- A number is a single word. -/
theorem isWord_of_ofChars? (trimmed : trim w = w) (hd : Dimension.ofChars? w = some d) :
    Scan.IsWord w := by
  obtain ⟨body, unit, rfl, some_, numeral, unitLike, -⟩ := exists_of_ofChars? trimmed hd
  refine Scan.wordsBy_of_solid (fun _ blank => blank) (by simp [some_]) ?_
  refine List.forall_mem_append.2 ⟨fun c hc => ?_, fun c hc => ?_⟩
  · have character := numeral c hc
    simp only [isNumeralChar, Bool.or_eq_true, beq_iff_eq] at character
    rcases character with ((digit | rfl) | rfl) | rfl
    · exact not_isBlank_of_isDecimal digit
    all_goals decide
  · rcases unitLike with letters | rfl
    · apply isBlank_of_isAsciiNameChar
      simp [isAsciiNameChar, isAsciiAlphanumeric, letters c hc]
    · rw [List.mem_singleton.1 hc]
      decide

/-- A number that is a whole value is accepted if and only if the rule takes it. -/
theorem isAccepted_validateKind_iff (numeric : rule.kind.isNumeric) (trimmed : trim w = w)
    (fresh : String.ofList (fullLower w) ∉ rule.keywords) (hd : Dimension.ofChars? w = some d) :
    (validateKind rule property w).isAccepted ↔ rule.Takes d := by
  unfold validateKind
  cases kind : rule.kind with
  | length =>
    have single : (Scan.topWords w).length ≤ 1 := by rw [isWord_of_ofChars? trimmed hd]; simp
    dsimp only
    rw [isAccepted_validateLengths_of_single single]
    exact isAccepted_validateWord_iff (by rw [kind]; rfl) trimmed fresh hd
  | lengthOrNumber => exact isAccepted_validateWord_iff (by rw [kind]; rfl) trimmed fresh hd
  | number => exact isAccepted_validateNumber_iff kind trimmed fresh hd
  | integer => exact isAccepted_validateInteger_iff kind trimmed fresh hd
  | keywordOrNumber => exact isAccepted_validateKeywordOrNumber_iff kind fresh hd
  | color | keyword | function | complex =>
    rw [kind] at numeric
    cases numeric

/-- **A number among the words of an accepted value is one that the rule takes.** -/
theorem takes_of_validateKind (numeric : rule.kind.isNumeric) (bare : IsBare cs)
    (mem : w ∈ rule.judgedWords cs) (fresh : String.ofList (fullLower w) ∉ rule.keywords)
    (hd : Dimension.ofChars? w = some d) (h : (validateKind rule property cs).isAccepted) :
    rule.Takes d := by
  by_cases kind : rule.kind = .length
  · rw [PropertyRule.judgedWords, if_pos kind] at mem
    rw [validateKind, kind] at h
    have accepted := isAccepted_of_validateLengths bare mem h
    have trimmed := (Scan.of_mem_topWords mem).2
    exact (isAccepted_validateWord_iff (by rw [kind]; rfl) trimmed fresh hd).1 accepted
  · rw [PropertyRule.judgedWords, if_neg kind] at mem
    obtain rfl := List.mem_singleton.1 mem
    exact (isAccepted_validateKind_iff numeric bare.trim_eq fresh hd).1 h

/-- A dimension is neither a keyword of every property nor a reference. -/
theorem isOrdinary_of_ofChars? (trimmed : trim w = w) (hd : Dimension.ofChars? w = some d) :
    IsOrdinary w where
  notGlobal listed := by
    have unlike : ∀ k ∈ globalKeywords, Dimension.ofChars? k.toList = none := by decide
    have same := unlike _ listed
    rw [String.toList_ofList, Dimension.fullLower_eq_lower trimmed hd,
      Dimension.ofChars?_lower hd] at same
    cases same
  notReference := by
    simp [Scan.callOf?, call?_of_isDull (isDull_of_ofChars? trimmed hd).1]

/-- A value with a dimension among its words takes none of the shortcuts. -/
theorem isOrdinary_of_mem_judgedWords (bare : IsBare cs) (mem : w ∈ rule.judgedWords cs)
    (hd : Dimension.ofChars? w = some d) : IsOrdinary cs := by
  by_cases several : 1 < (Scan.topWords cs).length
  · exact isOrdinary_of_topWords bare.trim_eq several
  · have word : Scan.topWords cs = [cs] := Scan.isWord_of_single bare (Nat.not_lt.1 several)
    obtain rfl : w = cs := by simpa [PropertyRule.judgedWords, word] using mem
    exact isOrdinary_of_ofChars? bare.trim_eq hd

/-- A value with a dimension among its words is not empty. -/
theorem isBare_of_mem_judgedWords (trimmed : trim cs = cs) (mem : w ∈ rule.judgedWords cs)
    (hd : Dimension.ofChars? w = some d) : IsBare cs := by
  refine .of_trim trimmed ?_
  rintro rfl
  have empty : w = [] := by
    rw [PropertyRule.judgedWords] at mem
    split at mem
    · cases mem
    · exact List.mem_singleton.1 mem
  rw [empty] at hd
  cases hd

end Words

/-- **The numbers in an accepted value obey the rule of its property**: each word of it that is a
dimension and no keyword of the rule. A number that is the whole value is accepted if and only if
the rule takes it. -/
theorem allows_of_validateValue {table : PropertyTable} {property s : String} {rule : PropertyRule}
    (known : table.rule? property = some rule) (numeric : rule.kind.isNumeric)
    {w : List Char} (mem : w ∈ rule.judgedWords (trim s.toList))
    (fresh : String.ofList (fullLower w) ∉ rule.keywords) {d : Dimension}
    (hd : Dimension.ofChars? w = some d) :
    ((validateValue table property s).isAccepted → rule.Allows d) ∧
      (w = trim s.toList → ((validateValue table property s).isAccepted ↔ rule.Takes d)) := by
  have bare := isBare_of_mem_judgedWords (Scan.trim_trim s.toList) mem hd
  have ordinary := isOrdinary_of_mem_judgedWords bare mem hd
  rw [validateValue_of_isOrdinary_trim known bare ordinary]
  refine ⟨fun accepted => (takes_of_validateKind numeric bare mem fresh hd accepted).allows, ?_⟩
  rintro rfl
  exact isAccepted_validateKind_iff numeric bare.trim_eq fresh hd

/-- Half of the way between two bounds, in percent. -/
theorem allows_of_validateValue_half :
    ∃ rule : PropertyRule, rule.minimum = some (.ofNat 0) ∧ rule.maximum = some (.ofNat 1) ∧
      (validateValue ⟨[], [("opacity", rule)]⟩ "opacity" " 50% ").isAccepted ∧
      rule.Allows ⟨.ofNat 50, "%", "50%".toList⟩ := by
  let rule : PropertyRule :=
    { PropertyRule.ofKind .number with minimum := some (.ofNat 0), maximum := some (.ofNat 1) }
  let table : PropertyTable := ⟨[], [("opacity", rule)]⟩
  have known : table.rule? "opacity" = some rule := rfl
  have whole : trim " 50% ".toList ∈ rule.judgedWords (trim " 50% ".toList) :=
    List.mem_singleton.2 rfl
  have half : Dimension.ofChars? (trim " 50% ".toList) =
      some ⟨.ofNat 50, "%", "50%".toList⟩ := by decide
  have accepted : (validateValue table "opacity" " 50% ").isAccepted := rfl
  exact ⟨rule, rfl, rfl, accepted,
    (allows_of_validateValue known rfl whole (by decide) half).1 accepted⟩

/-- A zero without unit may be below the least length. -/
theorem exists_zero_outside :
    ∃ (rule : PropertyRule) (low : Decimal) (d : Dimension),
      rule.kind = .lengthOrNumber ∧ rule.minimum = some low ∧ rule.keywords = [] ∧
      Dimension.ofChars? "0".toList = some d ∧
      validateValue ⟨[], [("line-height", rule)]⟩ "line-height" "0" =
        .accepted "0" .length .none ∧
      ¬ low.toRat ≤ d.amount rule.kind := by
  refine ⟨{ PropertyRule.ofKind .lengthOrNumber with
      minimum := some (.ofNat 1), allowUnitless := true }, .ofNat 1, ⟨.ofNat 0, "", ['0']⟩,
    rfl, rfl, rfl, by decide, rfl, by simp [Dimension.amount, Decimal.toRat_ofNat]⟩

/-- A percentage may be above the greatest number, if that has more than 28 digits. -/
theorem exists_percentage_outside :
    ∃ (rule : PropertyRule) (high : Decimal) (d : Dimension),
      rule.kind = .number ∧ rule.maximum = some high ∧ rule.keywords = [] ∧
      Dimension.ofChars? "100%".toList = some d ∧
      validateValue ⟨[], [("opacity", rule)]⟩ "opacity" "100%" =
        .accepted "100%" .number .none ∧
      ¬ d.amount rule.kind ≤ high.toRat := by
  refine ⟨{ PropertyRule.ofKind .number with maximum := some ⟨false, 10 ^ 29 - 1, -29⟩ },
    ⟨false, 10 ^ 29 - 1, -29⟩, ⟨.ofNat 100, "%", "100%".toList⟩,
    rfl, rfl, rfl, by decide, rfl, by decide +kernel⟩

end BracketCss
