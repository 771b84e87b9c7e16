import BracketCss.Proofs.Value.Accepted
import BracketCss.Proofs.Value.Bounds
import BracketCss.Proofs.Value.Single

/-!
# Suggested values

What is suggested in place of a refused value is a keyword of the property, the name of a colour, or
the number of the refused word with a unit of length. Keywords and names are accepted. Of a number
only the unit has been looked at, so that it is suggested with its sign, and refused for it where
the property takes no negative numbers.

## Main definitions

* `mendableKinds`: the kinds of values of which keywords and single numbers are suggested
* `IsPlainName s`: a text of small letters and hyphens
* `PropertyRule.Suggests rule t`: what may be suggested in place of a value

## Main results

* `suggests_of_validateKind`: what is suggested in place of a refused value
* `isAccepted_length_iff`: the lengths that a standard rule accepts
* `isAccepted_suggestion_iff`: a suggestion is accepted unless it is a negative number
* `exists_suggestion_refused`: a suggestion that is refused
-/

namespace BracketCss

open Text

/-- The kinds of values of which keywords, names of colours and numbers are suggested. -/
def mendableKinds : List ValueKind :=
  [.length, .lengthOrNumber, .integer, .keyword, .keywordOrNumber, .color]

/-! ## Plain names -/

/-- A small letter or a hyphen. -/
def isNameLetter (c : Char) : Bool := ('a' ≤ c && c ≤ 'z') || c == '-'

theorem isNameLetter_cases {c : Char} (h : isNameLetter c) :
    97 ≤ c.toNat ∧ c.toNat ≤ 122 ∨ c = '-' := by
  rw [isNameLetter, Bool.or_eq_true, Bool.and_eq_true, decide_eq_true_eq, decide_eq_true_eq,
    beq_iff_eq] at h
  exact h

/-- A text of small letters and hyphens. -/
def IsPlainName (s : String) : Prop := s.toList ≠ [] ∧ ∀ c ∈ s.toList, isNameLetter c

/-- The byte of a small letter or a hyphen. -/
def isNameByte (b : UInt8) : Bool := (97 ≤ b && b ≤ 122) || b == 45

/-- The bytes of a text tell whether it is a name. -/
theorem IsPlainName.of_bytes {s : String}
    (h : s.toByteArray.data.toList ≠ [] ∧ s.toByteArray.data.toList.all isNameByte) :
    IsPlainName s := by
  rw [bytes_eq, List.all_eq_true] at h
  refine ⟨fun absent => h.1 (by rw [absent]; rfl), fun c hc => ?_⟩
  obtain ⟨b, others, bytes⟩ :=
    List.exists_cons_of_ne_nil (String.utf8EncodeChar_ne_nil (c := c))
  have letter := h.2 b (List.mem_flatMap.2 ⟨c, hc, by simp [bytes]⟩)
  have table : ∀ n < 256, isNameByte (.ofNat n) → n < 128 ∧ isNameLetter (.ofNat n) := by
    decide +kernel
  have entry := table b.toNat b.toNat_lt
  rw [UInt8.ofNat_toNat] at entry
  obtain ⟨ascii, named⟩ := entry letter
  rwa [← toNat_of_head?_bytes (by rw [bytes]; rfl) (UInt8.lt_iff_toNat_lt.2 ascii),
    Char.ofNat_toNat] at named

theorem isPlainName_keywords : ∀ entry ∈ standardRules, ∀ k ∈ entry.2.keywords, IsPlainName k := by
  have table : ∀ entry ∈ standardRules, ∀ k ∈ entry.2.keywords,
      k.toByteArray.data.toList ≠ [] ∧ k.toByteArray.data.toList.all isNameByte := by
    decide +kernel
  exact fun entry mem k hk => .of_bytes (table entry mem k hk)

theorem isPlainName_colors : ∀ k ∈ namedColors ++ colorKeywords, IsPlainName k := by
  have table : ∀ k ∈ namedColors ++ colorKeywords,
      k.toByteArray.data.toList ≠ [] ∧ k.toByteArray.data.toList.all isNameByte := by
    decide +kernel
  exact fun k hk => .of_bytes (table k hk)

namespace IsPlainName

variable {s : String}

theorem not_blank (h : IsPlainName s) : ∀ c ∈ s.toList, isBlank c = false := fun c hc =>
  isBlank_of_class (p := isNameLetter) (by decide) (h.2 c hc)

theorem isBare (h : IsPlainName s) : IsBare s.toList := .of_forall h.1 h.not_blank

theorem isDull (h : IsPlainName s) : IsDull s.toList :=
  isDull_of_forall h.1 fun c hc => isDullChar_of_class (p := isNameLetter) (by decide) (h.2 c hc)

/-- A name is a single word. -/
theorem isWord (h : IsPlainName s) : Scan.IsWord s.toList :=
  h.isDull.isWord fun c hc blank => absurd blank (by simp [h.not_blank c hc])

theorem fullLower_eq (h : IsPlainName s) : String.ofList (fullLower s.toList) = s := by
  have table : ∀ n < 128, isNameLetter (.ofNat n) → lowerChar (.ofNat n) = [.ofNat n] := by decide
  have ascii : ∀ c ∈ s.toList, c.toNat < 128 := by
    intro c hc
    rcases isNameLetter_cases (h.2 c hc) with small | rfl
    · omega
    · decide
  have stays : ∀ c ∈ s.toList, lowerChar c = [c] := by
    intro c hc
    have entry := table c.toNat (ascii c hc)
    rw [Char.ofNat_toNat] at entry
    exact entry (h.2 c hc)
  rw [Text.fullLower_eq_lower fun c hc => .inl (ascii c hc), lower, List.flatMap_congr stays,
    List.flatMap_singleton', String.ofList_toList]

/-- A name is no number: it has neither a digit nor a point. -/
theorem ofChars?_eq_none (h : IsPlainName s) : Dimension.ofChars? s.toList = none := by
  rw [Option.eq_none_iff_forall_ne_some]
  intro d read
  obtain ⟨sign, numeral, unit, text, -, form, -, -⟩ := Dimension.ofChars?_eq_some_iff.1 read
  obtain ⟨c, rest, rfl, starts⟩ := startsNumber_of_head form
  rw [h.isBare.trim_eq] at text
  rcases isNameLetter_cases (h.2 c (by simp [text])) with small | rfl
  · have letter : 'a' ≤ c ∧ c ≤ 'z' := small
    rw [not_startsNumber_of_isAsciiLetter (by simp [isAsciiLetter, letter])] at starts
    cases starts
  · cases starts

theorem not_isQuantityOf (h : IsPlainName s) {value : Rat} {unit : String} :
    ¬ IsQuantityOf s.toList value unit := by
  rw [← h.isBare.trim_eq, ← Dimension.exists_ofChars?_iff, h.ofChars?_eq_none]
  rintro ⟨_, absent, -⟩
  cases absent

end IsPlainName

/-! ## What is suggested -/

/-- What may be suggested in place of a value: a keyword of the property, the name of a colour, or
the number of a refused word with a unit of length. -/
inductive PropertyRule.Suggests (rule : PropertyRule) : String → Prop
  | keyword {t : String} : t ∈ rule.keywords → Suggests rule t
  | color {t : String} : rule.kind = .color → t ∈ namedColors ++ colorKeywords → Suggests rule t
  | length {w : List Char} {d : Dimension} {unit : String} : rule.kind.isLength →
      Dimension.ofChars? w = some d → unit ∈ lengthUnits →
      Suggests rule (.ofList d.numeral ++ unit)

theorem mem_of_mem_closest {word t : String} {candidates : List String} {bound : Int}
    (h : t ∈ closest word candidates bound) : t ∈ candidates := by
  simp only [closest, List.mem_map, List.mem_mergeSort, List.mem_filter] at h
  obtain ⟨_, ⟨⟨candidate, mem, rfl⟩, -⟩, rfl⟩ := h
  exact mem

section Suggests

variable {rule : PropertyRule} {property t : String} {w cs : List Char} {fault : ValueFault}
  {suggestions : List String} {detail : Detail}

theorem suggests_of_mem_nearKeywords (mem : t ∈ nearKeywords rule w) : rule.Suggests t :=
  .keyword (mem_of_mem_closest mem)

theorem keyword?_ne_rejected : keyword? rule w ≠ some (.rejected fault suggestions detail) := by
  intro h
  simp only [keyword?] at h
  split at h <;> cases h

theorem text_of_ofChars? {d : Dimension} (hd : Dimension.ofChars? w = some d) :
    d.text = trim w := by
  obtain ⟨_, _, _, -, -, -, -, rfl⟩ := Dimension.ofChars?_eq_some_iff.1 hd
  rfl

/-- Nothing is suggested for a call. -/
theorem suggestions_of_validateFunction {allowed : Option (List String)}
    (h : (validateFunction allowed w).mapFault .function = .rejected fault suggestions detail) :
    suggestions = [] := by
  rw [validateFunction] at h
  split at h
  · cases h
    rfl
  · cases h

theorem suggests_of_mathCall? (h : mathCall? w = some (.rejected fault suggestions detail))
    (mem : t ∈ suggestions) : rule.Suggests t := by
  obtain ⟨_, -, rejected⟩ := Option.map_eq_some_iff.1 h
  rw [suggestions_of_validateFunction rejected] at mem
  cases mem

/-- Nothing is suggested for a number that is refused for its sign or its bounds. -/
theorem suggests_of_dimensionVerdict {type : ValueType} {d : Dimension}
    (h : dimensionVerdict rule property type d = .rejected fault suggestions detail)
    (mem : t ∈ suggestions) : rule.Suggests t := by
  rw [dimensionVerdict] at h
  split at h
  · cases h
  · cases h
    cases mem

theorem suggests_of_lengthVerdict (lengths : rule.kind.isLength) (trimmed : trim w = w)
    {d : Dimension} (hd : Dimension.ofChars? w = some d)
    (h : lengthVerdict rule property (.ofList w) d = .rejected fault suggestions detail)
    (mem : t ∈ suggestions) : rule.Suggests t := by
  simp only [lengthVerdict] at h
  split at h
  · next unitless =>
    split at h
    · cases h
    · split at h
      · exact suggests_of_dimensionVerdict h mem
      · cases h
        have whole : d.numeral = w := by
          rw [Dimension.numeral, beq_iff_eq.1 unitless]
          simpa using (text_of_ofChars? hd).trans trimmed
        have named : ∃ unit ∈ lengthUnits, t = String.ofList w ++ unit := by
          simp only [List.mem_cons, List.not_mem_nil, or_false] at mem
          rcases mem with rfl | rfl
          · exact ⟨"px", by decide, rfl⟩
          · exact ⟨"rem", by decide, rfl⟩
        obtain ⟨unit, known, rfl⟩ := named
        rw [← whole]
        exact .length lengths hd known
  · split at h
    · cases h
      obtain ⟨unit, near, rfl⟩ := List.mem_map.1 mem
      exact .length lengths hd (mem_of_mem_closest near)
    · split at h
      · cases h
        cases mem
      · exact suggests_of_dimensionVerdict h mem

theorem suggests_of_validateWord (lengths : rule.kind.isLength) (trimmed : trim w = w)
    (h : validateWord rule property w = .rejected fault suggestions detail)
    (mem : t ∈ suggestions) : rule.Suggests t := by
  simp only [validateWord] at h
  split at h
  · next found =>
    rw [h] at found
    exact absurd found keyword?_ne_rejected
  · next found =>
    rw [h] at found
    exact suggests_of_mathCall? found mem
  · split at h
    · next hd => exact suggests_of_lengthVerdict lengths trimmed hd h mem
    · cases h
      exact suggests_of_mem_nearKeywords mem

/-- What is suggested for lengths side by side is suggested for the first that is refused. -/
theorem suggests_of_validateWords (lengths : rule.kind.isLength) {words : List (List Char)}
    (trimmed : ∀ w ∈ words, trim w = w)
    (h : validateWords rule property words = .error (.rejected fault suggestions detail))
    (mem : t ∈ suggestions) : rule.Suggests t := by
  induction words with
  | nil => cases h
  | cons w words ih =>
    obtain ⟨first, others⟩ := List.forall_mem_cons.1 trimmed
    rw [validateWords] at h
    split at h
    · cases rest : validateWords rule property words with
      | error refusal =>
        rw [rest] at h
        rw [Except.error.inj h] at rest
        exact ih others rest
      | ok values =>
        rw [rest] at h
        cases h
    · exact suggests_of_validateWord lengths first (Except.error.inj h) mem

theorem suggests_of_validateLengths (lengths : rule.kind.isLength) (trimmed : trim w = w)
    (h : validateLengths rule property w = .rejected fault suggestions detail)
    (mem : t ∈ suggestions) : rule.Suggests t := by
  simp only [validateLengths] at h
  split at h
  · split at h
    · cases h
      cases mem
    · split at h
      · cases h
        cases mem
      · split at h
        · cases h
        · next refused =>
          rw [h] at refused
          exact suggests_of_validateWords lengths
            (fun w mem => (Scan.of_mem_topWords mem).2) refused mem
  · split at h
    · cases h
    · exact suggests_of_validateWord lengths trimmed h mem

theorem suggests_of_validateInteger
    (h : validateInteger rule property w = .rejected fault suggestions detail)
    (mem : t ∈ suggestions) : rule.Suggests t := by
  simp only [validateInteger] at h
  split at h
  · next found =>
    rw [h] at found
    exact absurd found keyword?_ne_rejected
  · next found =>
    rw [h] at found
    exact suggests_of_mathCall? found mem
  · split at h
    · exact suggests_of_dimensionVerdict h mem
    · cases h
      exact suggests_of_mem_nearKeywords mem

theorem suggests_of_validateKeyword
    (h : validateKeyword rule property w = .rejected fault suggestions detail)
    (mem : t ∈ suggestions) : rule.Suggests t := by
  simp only [validateKeyword] at h
  split at h
  · next found =>
    rw [h] at found
    exact absurd found keyword?_ne_rejected
  · cases h
    exact suggests_of_mem_nearKeywords mem

theorem suggests_of_validateKeywordOrNumber
    (h : validateKeywordOrNumber rule property w = .rejected fault suggestions detail)
    (mem : t ∈ suggestions) : rule.Suggests t := by
  simp only [validateKeywordOrNumber] at h
  split at h
  · next found =>
    rw [h] at found
    exact absurd found keyword?_ne_rejected
  · split at h
    · exact suggests_of_dimensionVerdict h mem
    · cases h
      exact suggests_of_mem_nearKeywords mem

theorem suggests_of_validateColor (color : rule.kind = .color) {s : String}
    {keywords : List String} {fault : ColorFault}
    (h : validateColor keywords s = .rejected fault suggestions detail) (mem : t ∈ suggestions) :
    rule.Suggests t := by
  simp only [validateColor] at h
  split at h
  · cases h
  · split at h
    · cases h
    · split at h
      · split at h
        · cases h
        · cases h
          cases mem
      · split at h
        · split at h
          · cases h
          · cases h
            cases mem
        · cases h
          exact .color color (mem_of_mem_closest (List.mem_of_mem_take mem))

/-- **What is suggested in place of a refused value.** -/
theorem suggests_of_validateKind (mendable : rule.kind ∈ mendableKinds) (trimmed : trim w = w)
    (h : validateKind rule property w = .rejected fault suggestions detail)
    (mem : t ∈ suggestions) : rule.Suggests t := by
  unfold validateKind at h
  cases kind : rule.kind with
  | length =>
    rw [kind] at h
    exact suggests_of_validateLengths (by rw [kind]; rfl) trimmed h mem
  | lengthOrNumber =>
    rw [kind] at h
    exact suggests_of_validateWord (by rw [kind]; rfl) trimmed h mem
  | color =>
    rw [kind] at h
    cases verdict : validateColor rule.keywords (.ofList w) with
    | accepted =>
      rw [verdict] at h
      cases h
    | rejected =>
      rw [verdict] at h
      cases h
      exact suggests_of_validateColor kind verdict mem
  | integer =>
    rw [kind] at h
    exact suggests_of_validateInteger h mem
  | keyword =>
    rw [kind] at h
    exact suggests_of_validateKeyword h mem
  | keywordOrNumber =>
    rw [kind] at h
    exact suggests_of_validateKeywordOrNumber h mem
  | number | function | complex =>
    rw [kind] at mendable
    exact absurd mendable (by decide)

end Suggests

/-! ## Names are accepted -/

section Names

variable {table : PropertyTable} {rule : PropertyRule} {property t : String}

/-- A name is a keyword of every property, or its verdict is that of the rule. -/
theorem isAccepted_of_isPlainName (known : table.rule? property = some rule) (name : IsPlainName t)
    (accepted : (validateKind rule property t.toList).isAccepted) :
    (validateValue table property t).isAccepted := by
  by_cases global : t ∈ globalKeywords
  · simp [validateValue, name.isBare.trim_eq, name.isBare.nonempty, name.fullLower_eq, global,
      Outcome.isAccepted]
  · have ordinary : IsOrdinary t.toList := by
      refine ⟨by rwa [name.fullLower_eq], ?_⟩
      simp [Scan.callOf?, call?_of_isDull name.isDull]
    rwa [validateValue_of_isOrdinary known name.isBare ordinary]

/-- A keyword of a rule is accepted by it. -/
theorem isAccepted_validateKind_of_keyword (mendable : rule.kind ∈ mendableKinds)
    (name : IsPlainName t) (listed : t ∈ rule.keywords) :
    (validateKind rule property t.toList).isAccepted := by
  have found : keyword? rule t.toList = some (.accepted t .keyword .none) := by
    simp [keyword?, name.fullLower_eq, listed]
  unfold validateKind
  -- keywords are looked up before anything else is tried, behind the split into words for lengths
  -- and behind trimming for colours
  cases kind : rule.kind with
  | length =>
    have single : (Scan.topWords t.toList).length ≤ 1 := by
      rw [name.isWord]
      exact Nat.le_refl 1
    dsimp only
    rw [isAccepted_validateLengths_of_single single, looksUpFirst_validateWord _ _ found]
    rfl
  | lengthOrNumber =>
    dsimp only
    rw [looksUpFirst_validateWord _ _ found]
    rfl
  | color =>
    simp [validateColor, String.ofList_toList, name.isBare.trimText_eq, fullLowerText,
      name.fullLower_eq, listed, Outcome.mapFault, Outcome.isAccepted]
  | integer =>
    dsimp only
    rw [looksUpFirst_validateInteger _ _ found]
    rfl
  | keyword =>
    dsimp only
    rw [looksUpFirst_validateKeyword _ _ found]
    rfl
  | keywordOrNumber =>
    dsimp only
    rw [looksUpFirst_validateKeywordOrNumber _ _ found]
    rfl
  | number | function | complex =>
    rw [kind] at mendable
    exact absurd mendable (by decide)

/-- The name of a colour is accepted as a colour. -/
theorem isAccepted_validateKind_of_color (color : rule.kind = .color) (name : IsPlainName t)
    (listed : t ∈ namedColors ++ colorKeywords) :
    (validateKind rule property t.toList).isAccepted := by
  simp only [validateKind, color, validateColor, String.ofList_toList, name.isBare.trimText_eq,
    fullLowerText, name.fullLower_eq]
  split
  · rfl
  · next other =>
    have named : t ∈ namedColors := by
      refine (List.mem_append.1 listed).resolve_right fun keyword => other ?_
      simp [keyword]
    rw [if_pos (List.contains_iff_mem.2 named)]
    rfl

end Names

/-! ## Lengths -/

section Lengths

variable {rule : PropertyRule} {property : String} {w : List Char} {d : Dimension} {unit : String}

theorem isUnitText_of_mem_lengthUnits :
    ∀ unit ∈ lengthUnits, IsUnitText unit.toList ∧ lower unit.toList = unit.toList := by
  have table : ∀ unit ∈ lengthUnits, Dimension.unitOfChars? unit.toList = some unit ∧
      unit.toList ≠ [] := by decide
  intro unit mem
  obtain ⟨read, nonempty⟩ := table unit mem
  obtain ⟨unitLike, same⟩ := unitOfChars?_eq_some_iff.1 read
  refine ⟨unitLike.resolve_left nonempty, ?_⟩
  rw [← String.toList_ofList (l := lower unit.toList), ← same]

/-- Nothing in a number with a unit is a blank. -/
theorem not_isBlank_of_quantity {sign numeral unit : List Char} (signs : sign ∈ [[], ['-'], ['+']])
    (form : IsNumeral numeral) (unitLike : IsUnitText unit) :
    ∀ c ∈ sign ++ numeral ++ unit, isBlank c = false := by
  have numeric : ∀ c, isNumeralChar c → isBlank c = false := fun c hc =>
    isBlank_of_class (by decide) hc
  have table : ∀ s ∈ [[], ['-'], ['+']], ∀ c ∈ s, isNumeralChar c := by decide
  intro c hc
  rcases List.mem_append.1 hc with number | inUnit
  · rcases List.mem_append.1 number with inSign | inNumeral
    · exact numeric c (table sign signs c inSign)
    · exact numeric c (form.isNumeralChar.2 c inNumeral)
  · rcases unitLike with ⟨-, letters⟩ | rfl
    · exact isBlank_of_class (by decide) (letters c inUnit)
    · rw [List.mem_singleton.1 inUnit]
      rfl

/-- A number with another unit is read as the number with that unit. -/
theorem ofChars?_of_unit (hd : Dimension.ofChars? w = some d) (known : unit ∈ lengthUnits) :
    trim (d.numeral ++ unit.toList) = d.numeral ++ unit.toList ∧
      Dimension.ofChars? (d.numeral ++ unit.toList) =
        some ⟨d.number, unit, d.numeral ++ unit.toList⟩ := by
  obtain ⟨sign, numeral, written, text, signs, form, unitLike, rfl⟩ :=
    Dimension.ofChars?_eq_some_iff.1 hd
  obtain ⟨other, same⟩ := isUnitText_of_mem_lengthUnits unit known
  have bare := IsBare.of_forall (by simp [form.isNumeralChar.1])
    (not_isBlank_of_quantity signs form other)
  rw [text, numeral_eq unitLike]
  refine ⟨bare.trim_eq, Dimension.ofChars?_eq_some_iff.2
    ⟨sign, numeral, unit.toList, bare.trim_eq, signs, form, .inr other, ?_⟩⟩
  rw [same, String.ofList_toList, bare.trim_eq]

/-- A rule for lengths that restricts nothing but the sign. -/
structure PropertyRule.IsSignOnly (rule : PropertyRule) : Prop where
  /-- Percentages are lengths. -/
  percentage : rule.allowPercentage
  /-- The least length is zero where negative lengths are refused. -/
  least : ∀ low ∈ rule.minimum, low = .ofNat 0 ∧ ¬ rule.allowNegative
  /-- There is no greatest length. -/
  greatest : rule.maximum = none

theorem standardRules_isSignOnly :
    ∀ entry ∈ standardRules, entry.2.kind.isLength → entry.2.IsSignOnly := by
  have table : ∀ entry ∈ standardRules, entry.2.kind.isLength → entry.2.allowPercentage ∧
      (∀ low ∈ entry.2.minimum, low = .ofNat 0 ∧ ¬ entry.2.allowNegative) ∧
      entry.2.maximum = none := by decide +kernel
  intro entry mem lengths
  obtain ⟨percentage, least, greatest⟩ := table entry mem lengths
  exact ⟨percentage, least, greatest⟩

/-- A length is taken by such a rule if and only if its sign is. -/
theorem PropertyRule.IsSignOnly.takes_iff (free : rule.IsSignOnly) (lengths : rule.kind.isLength)
    (known : d.unit ∈ lengthUnits) :
    rule.Takes d ↔ (d.number.toRat < 0 → rule.allowNegative) := by
  constructor
  · intro takes
    exact takes.allows.sign
  · intro sign
    have form : rule.WantsForm d :=
      (PropertyRule.wantsForm_iff_of_isLength lengths).2 (.inl known)
    refine .inl ⟨form, sign, fun _ => free.percentage, .inr ⟨fun low set => ?_, fun high set => ?_⟩⟩
    · obtain ⟨rfl, refused⟩ := free.least low set
      rw [Dimension.widen_of_isLength lengths, Decimal.toRat_ofNat, Nat.cast_zero, ← not_lt]
      exact fun negative => refused (sign negative)
    · rw [free.greatest] at set
      cases set

end Lengths

/-! ## What is suggested is accepted -/

section Suggestions

variable {property s t : String} {rule : PropertyRule}

/-- **A number with a unit of length is accepted** by a standard rule for lengths if and only if
the rule takes its sign. -/
theorem isAccepted_length_iff (known : PropertyTable.standard.rule? property = some rule)
    (lengths : rule.kind.isLength) (trimmed : trim t.toList = t.toList) {d : Dimension}
    (hd : Dimension.ofChars? t.toList = some d) (unit : d.unit ∈ lengthUnits) :
    (validateValue .standard property t).isAccepted ↔
      (d.number.toRat < 0 → rule.allowNegative) := by
  have numeric : rule.kind.isNumeric := by simp [ValueKind.isNumeric, lengths]
  have bare : IsBare t.toList := by
    refine .of_trim trimmed fun empty => ?_
    rw [empty] at hd
    cases hd
  have fresh : String.ofList (fullLower t.toList) ∉ rule.keywords := by
    intro listed
    have absent := (isPlainName_keywords _ (mem_standardRules known) _ listed).ofChars?_eq_none
    rw [String.toList_ofList, Dimension.fullLower_eq_lower trimmed hd,
      Dimension.ofChars?_lower hd] at absent
    cases absent
  rw [validateValue_of_isOrdinary known bare (isOrdinary_of_ofChars? trimmed hd),
    isAccepted_validateKind_iff numeric trimmed fresh hd]
  exact (standardRules_isSignOnly _ (mem_standardRules known) lengths).takes_iff lengths unit

/-- What is suggested in place of a value that is refused by the rule of its property. -/
theorem suggests_of_validateValue {table : PropertyTable} (known : table.rule? property = some rule)
    (mendable : rule.kind ∈ mendableKinds) {fault : ValueFault} {suggestions : List String}
    {detail : Detail}
    (rejected : validateValue table property s = .rejected fault suggestions detail)
    (mem : t ∈ suggestions) : rule.Suggests t := by
  simp only [validateValue, known] at rejected
  split at rejected
  · cases rejected
    cases mem
  · split at rejected
    · cases rejected
    · split at rejected
      · rw [suggestions_of_validateFunction rejected] at mem
        cases mem
      · exact suggests_of_validateKind mendable (Scan.trim_trim s.toList) rejected mem

/-- **A suggestion is accepted if and only if it is no negative number**, or the property takes
negative numbers. -/
theorem isAccepted_suggestion_iff (known : PropertyTable.standard.rule? property = some rule)
    (mendable : rule.kind ∈ mendableKinds) {fault : ValueFault} {suggestions : List String}
    {detail : Detail}
    (rejected : validateValue .standard property s = .rejected fault suggestions detail)
    (mem : t ∈ suggestions) :
    (validateValue .standard property t).isAccepted ↔
      ∀ value unit, IsQuantityOf t.toList value unit → value < 0 → rule.allowNegative := by
  cases suggests_of_validateValue known mendable rejected mem with
  | keyword listed =>
    have name := isPlainName_keywords _ (mem_standardRules known) _ listed
    refine iff_of_true (isAccepted_of_isPlainName known name ?_) fun value unit quantity => ?_
    · exact isAccepted_validateKind_of_keyword mendable name listed
    · exact absurd quantity name.not_isQuantityOf
  | color kind listed =>
    have name := isPlainName_colors _ listed
    refine iff_of_true (isAccepted_of_isPlainName known name ?_) fun value unit quantity => ?_
    · exact isAccepted_validateKind_of_color kind name listed
    · exact absurd quantity name.not_isQuantityOf
  | @length w d unit lengths hd listed =>
    obtain ⟨trimmed, read⟩ := ofChars?_of_unit hd listed
    rw [← String.toList_ofList (l := d.numeral), ← String.toList_append] at trimmed read
    rw [isAccepted_length_iff known lengths trimmed read listed]
    constructor
    · intro sign value name quantity negative
      rw [← trimmed, ← Dimension.exists_ofChars?_iff, read] at quantity
      obtain ⟨_, same, rfl, -⟩ := quantity
      obtain rfl := Option.some.inj same
      exact sign negative
    · intro sign
      refine sign d.number.toRat unit ?_
      rw [← trimmed, ← Dimension.exists_ofChars?_iff]
      exact ⟨_, read, rfl, rfl⟩

/-- A margin may be negative, and so may what is suggested for it. -/
theorem isAccepted_suggestion_margin : ∃ rule : PropertyRule,
    PropertyTable.standard.rule? "margin" = some rule ∧ rule.kind ∈ mendableKinds ∧
      validateValue .standard "margin" "auto -5" =
        .rejected (.missingUnit "-5") ["-5px", "-5rem"] .none ∧
      (validateValue .standard "margin" "-5rem").isAccepted := by
  have known : PropertyTable.standard.rule? "margin" =
      some (PropertyRule.signedLengths ["auto"]).asShorthand := by rfl
  have rejected : validateValue .standard "margin" "auto -5" =
      .rejected (.missingUnit "-5") ["-5px", "-5rem"] .none := by decide +kernel
  have mendable : (PropertyRule.signedLengths ["auto"]).asShorthand.kind ∈ mendableKinds := by
    decide
  have accepted := (isAccepted_suggestion_iff (t := "-5rem") known mendable rejected
    (by decide)).2 fun _ _ _ _ => rfl
  exact ⟨_, known, mendable, rejected, accepted⟩

/-- A suggestion may be refused: a negative number gets a unit where no negative length may
stand. -/
theorem exists_suggestion_refused : ∃ rule : PropertyRule,
    PropertyTable.standard.rule? "padding-top" = some rule ∧ rule.kind = .length ∧
      validateValue .standard "padding-top" "-5" =
        .rejected (.missingUnit "-5") ["-5px", "-5rem"] .none ∧
      validateValue .standard "padding-top" "-5px" =
        .rejected (.negative "padding-top") [] .none :=
  ⟨.lengths [], rfl, rfl, by decide +kernel, by decide +kernel⟩

end Suggestions

end BracketCss
