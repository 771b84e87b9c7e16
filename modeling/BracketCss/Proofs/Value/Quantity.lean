import BracketCss.Proofs.Number.Decimal
import BracketCss.Proofs.Value.Uncut
import BracketCss.Value.Dimension

/-!
# Numbers as texts

What a number in a value looks like: an optional sign, digits of any script with an optional point,
and an optional unit. The texts of this form are exactly those that are read as dimensions, and what
is read is the number that the digits write, with the unit in lower case. Reading is not bound to
ASCII digits, while a sheet knows no others.

## Main definitions

* `IsNumeral`, `IsUnitText`, `IsQuantity`: a number without sign and unit, a unit, and both together
* `numeralValue numeral`, `Decimal.ofNumeral numeral`: the number that a numeral writes
* `IsQuantityOf cs value unit`: a number with its value and the name of its unit

## Main results

* `ofUnsigned?_numeral`, `isNumeral_of_ofUnsigned?`: numerals are what is read in front of a text
* `Dimension.ofChars?_eq_some_iff`: the texts that are read as a dimension
* `Dimension.exists_ofChars?_iff`: the value and the unit that are read
-/

namespace BracketCss

open Text

/-! ## What numbers are made of -/

/-- The text of a number: digits with an optional fraction, or a fraction alone. -/
inductive IsNumeral : List Char → Prop
  | whole {digits : List Char} : digits ≠ [] → (∀ c ∈ digits, isDecimal c) → IsNumeral digits
  | fraction {digits places : List Char} : (∀ c ∈ digits, isDecimal c) → places ≠ [] →
      (∀ c ∈ places, isDecimal c) → IsNumeral (digits ++ '.' :: places)

/-- All digits of a number are zeros. -/
def IsZeroNumeral (cs : List Char) : Prop := ∀ c ∈ cs, isDecimal c → decimalValue? c = some 0

/-- The text of a unit: letters, or a percent sign. -/
def IsUnitText (cs : List Char) : Prop := (cs ≠ [] ∧ ∀ c ∈ cs, isAsciiLetter c) ∨ cs = ['%']

/-- A number with an optional sign and an optional unit. -/
def IsQuantity (cs : List Char) : Prop :=
  ∃ sign numeral unit, cs = sign ++ numeral ++ unit ∧ sign ∈ [[], ['-'], ['+']] ∧
    IsNumeral numeral ∧ (unit = [] ∨ IsUnitText unit)

/-- The digits after the point of a number. -/
def placesOf (numeral : List Char) : List Char := (numeral.dropWhile (· != '.')).tail

/-- The decimal that a numeral writes: its digits as one number, and a place for each digit after
the point. -/
def Decimal.ofNumeral (numeral : List Char) : Decimal :=
  ⟨false, decimalNat (numeral.filter isDecimal), -((placesOf numeral).length : Int)⟩

/-- The number that a numeral writes: its digits as one number, divided by ten once for each digit
after the point. -/
def numeralValue (numeral : List Char) : Rat :=
  decimalNat (numeral.filter isDecimal) / 10 ^ (placesOf numeral).length

/-- A number with an optional sign and an optional unit, the value that it writes, and the name of
its unit in lower case. -/
def IsQuantityOf (cs : List Char) (value : Rat) (name : String) : Prop :=
  ∃ sign numeral unit, cs = sign ++ numeral ++ unit ∧ sign ∈ [[], ['-'], ['+']] ∧
    IsNumeral numeral ∧ (unit = [] ∨ IsUnitText unit) ∧
    value = (if sign = ['-'] then -numeralValue numeral else numeralValue numeral) ∧
    name = .ofList (lower unit)

/-! ## Classes of characters -/

/-- No digit of any script is in a range that avoids them. -/
theorem not_isDecimal_of_range {c : Char} {low high : Nat}
    (between : low ≤ c.toNat ∧ c.toNat ≤ high) (ascii : high < 48 ∨ 57 < low)
    (scripts : ∀ first ∈ scriptZeros, high < first ∨ first + 9 < low) : isDecimal c = false := by
  have none_ : decimalValue? c = none := by
    simp only [decimalValue?]
    split
    · rw [if_neg (by omega)]
    · rw [Option.map_eq_none_iff, List.find?_eq_none]
      intro first mem
      have apart := scripts first mem
      simp only [Bool.and_eq_true, decide_eq_true_eq, not_and]
      omega
  rw [isDecimal, none_]
  rfl

theorem not_isDecimal_of_isAsciiLetter {c : Char} (h : isAsciiLetter c) : isDecimal c = false := by
  simp only [isAsciiLetter, Bool.or_eq_true, Bool.and_eq_true, decide_eq_true_eq] at h
  rcases h with lower | upper
  · exact not_isDecimal_of_range (show 97 ≤ c.toNat ∧ c.toNat ≤ 122 from lower) (by decide)
      (by decide)
  · exact not_isDecimal_of_range (show 65 ≤ c.toNat ∧ c.toNat ≤ 90 from upper) (by decide)
      (by decide)

theorem not_isBlank_of_isDecimal {c : Char} (h : isDecimal c) : isBlank c = false :=
  isBlank_of_class (by decide) h

/-! ## Runs of characters -/

section Runs

variable {p : Char → Bool} {cs rest : List Char}

theorem takeWhile_append_of_stop (all : ∀ c ∈ cs, p c) (stop : ∀ c ∈ rest.head?, p c = false) :
    (cs ++ rest).takeWhile p = cs := by
  rw [List.takeWhile_append_of_pos all]
  cases rest with
  | nil => rw [List.takeWhile_nil, List.append_nil]
  | cons d rest =>
    rw [List.takeWhile_cons_of_neg (by simp [stop d rfl]), List.append_nil]

end Runs

theorem foldl_digits_eq_zero_iff (total : Nat) (values : List Nat) :
    values.foldl (fun total value => 10 * total + value) total = 0 ↔
      total = 0 ∧ ∀ value ∈ values, value = 0 := by
  induction values generalizing total with
  | nil => simp only [List.foldl_nil, List.not_mem_nil, false_implies, implies_true, and_true]
  | cons value values ih =>
    rw [List.foldl_cons, ih, List.forall_mem_cons, ← and_assoc]
    exact and_congr_left' (by omega)

/-- Digits write zero exactly if each of them is a zero. -/
theorem decimalNat_eq_zero_iff {digits : List Char} (h : ∀ c ∈ digits, isDecimal c) :
    decimalNat digits = 0 ↔ IsZeroNumeral digits := by
  have value : ∀ c ∈ digits, (decimalValue? c).getD 0 = 0 ↔ decimalValue? c = some 0 := by
    intro c hc
    obtain ⟨n, known⟩ := Option.isSome_iff_exists.1 (h c hc)
    rw [known, Option.getD_some, Option.some.injEq]
  rw [decimalNat, readNat, foldl_digits_eq_zero_iff, List.forall_mem_map]
  constructor
  · exact fun zeros c hc _ => (value c hc).1 (zeros.2 c hc)
  · exact fun zeros => ⟨rfl, fun c hc => (value c hc).2 (zeros c hc (h c hc))⟩

/-- A numeral has no point, or digits follow the point. -/
theorem IsNumeral.cases_point {cs : List Char} (h : IsNumeral cs) :
    (cs ≠ [] ∧ (∀ c ∈ cs, isDecimal c) ∧ cs.filter isDecimal = cs ∧ placesOf cs = []) ∨
      ∃ digits places, cs = digits ++ '.' :: places ∧ places ≠ [] ∧ (∀ c ∈ digits, isDecimal c) ∧
        (∀ c ∈ places, isDecimal c) ∧ cs.filter isDecimal = digits ++ places ∧
        placesOf cs = places := by
  have pointless : ∀ ds : List Char, (∀ c ∈ ds, isDecimal c) → ∀ c ∈ ds, c != '.' := by
    intro ds all c hc
    rw [bne_iff_ne]
    rintro rfl
    exact absurd (all '.' hc) (by decide)
  cases h with
  | whole some_ digits =>
    refine .inl ⟨some_, digits, List.filter_eq_self.2 digits, ?_⟩
    rw [placesOf, List.dropWhile_eq_nil_iff.2 (pointless cs digits)]
    rfl
  | @fraction digits places wholes some_ decimals =>
    refine .inr ⟨digits, places, rfl, some_, wholes, decimals, ?_, ?_⟩
    · rw [List.filter_append, List.filter_cons_of_neg (by decide), List.filter_eq_self.2 wholes,
        List.filter_eq_self.2 decimals]
    · rw [placesOf, List.dropWhile_append_of_pos (pointless digits wholes)]
      rfl

/-- A number is read up to a character that is neither a digit nor a point. -/
theorem ofUnsigned?_numeral {cs rest : List Char} (h : IsNumeral cs)
    (stop : ∀ c ∈ rest.head?, isDecimal c = false ∧ c ≠ '.') :
    Decimal.ofUnsigned? (cs ++ rest) = some (.ofNumeral cs, rest) := by
  have stopDigit : ∀ c ∈ rest.head?, isDecimal c = false := fun c hc => (stop c hc).1
  rw [Decimal.ofNumeral]
  rcases h.cases_point with ⟨some_, digits, same, none_⟩ |
    ⟨digits, places, rfl, some_, wholes, decimals, same, after⟩
  · have noPoint : ∀ other, rest ≠ '.' :: other := by
      rintro other rfl
      exact (stop '.' rfl).2 rfl
    rw [same, none_]
    simp only [Decimal.ofUnsigned?, takeWhile_append_of_stop digits stopDigit, List.drop_left]
    simp [some_]
  · have run : ((digits ++ '.' :: places) ++ rest).takeWhile isDecimal = digits := by
      rw [List.append_assoc]
      exact takeWhile_append_of_stop wholes (by simp; decide)
    rw [same, after]
    simp only [Decimal.ofUnsigned?, run]
    simp only [List.append_assoc, List.drop_left, List.cons_append,
      takeWhile_append_of_stop decimals stopDigit]
    simp [some_, Nat.add_comm 1]

/-- A numeral writes zero exactly if each of its digits is a zero. -/
theorem isZero_ofNumeral (cs : List Char) : (Decimal.ofNumeral cs).isZero ↔ IsZeroNumeral cs := by
  rw [Decimal.isZero, beq_iff_eq]
  refine (decimalNat_eq_zero_iff fun c hc => (List.mem_filter.1 hc).2).trans ?_
  simp only [IsZeroNumeral, List.mem_filter]
  exact ⟨fun zeros c hc digit => zeros c ⟨hc, digit⟩ digit, fun zeros c hc => zeros c hc.1⟩

/-- What a number is read from has the form of one. -/
theorem isNumeral_of_ofUnsigned? {cs rest : List Char} {value : Decimal}
    (h : Decimal.ofUnsigned? cs = some (value, rest)) : ∃ n, cs = n ++ rest ∧ IsNumeral n := by
  have decimals : ∀ ds : List Char, ∀ c ∈ ds.takeWhile isDecimal, isDecimal c := fun ds c hc =>
    List.all_eq_true.1 List.all_takeWhile c hc
  have cut := Scan.takeWhile_append_drop isDecimal cs
  have wholes := decimals cs
  simp only [Decimal.ofUnsigned?] at h
  generalize cs.takeWhile isDecimal = digits at h cut wholes
  generalize cs.drop digits.length = after at h cut
  subst cut
  have integer : ∀ other, (if (!digits.isEmpty) = true then
      some ((⟨false, decimalNat digits, 0⟩ : Decimal), other) else none) = some (value, rest) →
      ∃ n, digits ++ other = n ++ rest ∧ IsNumeral n := by
    intro other h
    split at h
    · next some_ =>
      obtain ⟨-, rfl⟩ := Prod.mk.inj (Option.some.inj h)
      exact ⟨digits, rfl, .whole (by simpa using some_) wholes⟩
    · cases h
  split at h
  · next other =>
    split at h
    · next some_ =>
      obtain ⟨-, rfl⟩ := Prod.mk.inj (Option.some.inj h)
      refine ⟨digits ++ '.' :: other.takeWhile isDecimal, ?_,
        .fraction wholes (by simpa using some_) (decimals other)⟩
      rw [Nat.add_comm, List.drop_succ_cons, List.append_assoc, List.cons_append,
        Scan.takeWhile_append_drop]
    · exact integer _ h
  · exact integer _ (by simpa using h)

/-- A character that starts numbers. -/
def startsNumber (c : Char) : Bool := isDecimal c || c == '.'

theorem ofUnsigned?_eq_none {c : Char} (h : startsNumber c = false) (cs : List Char) :
    Decimal.ofUnsigned? (c :: cs) = none := by
  rw [startsNumber, Bool.or_eq_false_iff, beq_eq_false_iff_ne] at h
  simp only [Decimal.ofUnsigned?, List.takeWhile_cons_of_neg (Bool.eq_false_iff.1 h.1),
    List.length_nil, List.drop_zero]
  split
  · next same => exact absurd (List.cons.inj same).1 h.2
  · rfl

theorem startsNumber_of_head {cs : List Char} (h : IsNumeral cs) :
    ∃ c rest, cs = c :: rest ∧ startsNumber c := by
  cases h with
  | whole some_ digits =>
    obtain ⟨c, rest, rfl⟩ := List.exists_cons_of_ne_nil some_
    exact ⟨c, rest, rfl, by simp [startsNumber, digits c List.mem_cons_self]⟩
  | @fraction digits places wholes some_ decimals =>
    cases digits with
    | nil => exact ⟨'.', places, rfl, rfl⟩
    | cons c digits =>
      exact ⟨c, _, rfl, by simp [startsNumber, wholes c List.mem_cons_self]⟩

theorem not_startsNumber_of_isAsciiLetter {c : Char} (h : isAsciiLetter c) :
    startsNumber c = false := by
  have point : c ≠ '.' := by
    rintro rfl
    cases h
  simp [startsNumber, not_isDecimal_of_isAsciiLetter h, point]

theorem not_startsNumber_of_unit {unit rest : List Char} (h : IsUnitText unit) :
    ∀ c ∈ (unit ++ rest).head?, startsNumber c = false := by
  rcases h with ⟨some_, letters⟩ | rfl
  · obtain ⟨c, others, rfl⟩ := List.exists_cons_of_ne_nil some_
    rintro d ⟨⟩
    exact not_startsNumber_of_isAsciiLetter (letters c List.mem_cons_self)
  · rintro d ⟨⟩
    rfl

/-! ## Signs and units -/

/-- What is cut off in front of a text is a sign. -/
theorem splitSign_cases (cs : List Char) :
    ∃ sign ∈ [[], ['-'], ['+']],
      cs = sign ++ (Decimal.splitSign cs).2 ∧ (Decimal.splitSign cs).1 = (sign == ['-']) := by
  unfold Decimal.splitSign
  split
  · exact ⟨['-'], by simp, rfl, rfl⟩
  · exact ⟨['+'], by simp, rfl, rfl⟩
  · exact ⟨[], by simp, rfl, rfl⟩

/-- A sign is cut off in front of a number. -/
theorem splitSign_append {sign numeral : List Char} (hsign : sign ∈ [[], ['-'], ['+']])
    (h : IsNumeral numeral) (rest : List Char) :
    Decimal.splitSign (sign ++ numeral ++ rest) = (sign == ['-'], numeral ++ rest) := by
  obtain ⟨c, others, rfl, starts⟩ := startsNumber_of_head h
  have minus : c ≠ '-' := by
    rintro rfl
    exact absurd starts (by decide)
  have plus : c ≠ '+' := by
    rintro rfl
    exact absurd starts (by decide)
  simp only [List.mem_cons, List.not_mem_nil, or_false] at hsign
  rcases hsign with rfl | rfl | rfl
  · simp only [List.nil_append, List.cons_append]
    unfold Decimal.splitSign
    split
    · next same => exact absurd (List.cons.inj same).1 minus
    · next same => exact absurd (List.cons.inj same).1 plus
    · rfl
  · rfl
  · rfl

theorem unitOfChars?_eq_some_iff {unit : List Char} {name : String} :
    Dimension.unitOfChars? unit = some name ↔
      (unit = [] ∨ IsUnitText unit) ∧ name = .ofList (lower unit) := by
  have letters : unit.all isAsciiLetter ↔ unit = [] ∨ unit ≠ [] ∧ ∀ c ∈ unit, isAsciiLetter c := by
    rw [List.all_eq_true]
    by_cases none_ : unit = []
    · simp [none_]
    · simp [none_]
  rw [Dimension.unitOfChars?, Option.ite_none_right_eq_some, Bool.or_eq_true, beq_iff_eq, letters,
    or_assoc, Option.some.injEq, eq_comm (a := String.ofList (lower unit)), IsUnitText]

/-- A number is read up to its unit. -/
theorem ofUnsigned?_append_unit {numeral unit : List Char} (h : IsNumeral numeral)
    (hunit : unit = [] ∨ IsUnitText unit) :
    Decimal.ofUnsigned? (numeral ++ unit) = some (.ofNumeral numeral, unit) := by
  apply ofUnsigned?_numeral h
  intro c hc
  rcases hunit with rfl | hunit
  · cases hc
  · rw [← List.append_nil unit] at hc
    have other := not_startsNumber_of_unit hunit c hc
    rwa [startsNumber, Bool.or_eq_false_iff, beq_eq_false_iff_ne] at other

/-- A text has no more than one unit. -/
theorem IsQuantityOf.unit_unique {cs : List Char} {value other : Rat} {name unit : String}
    (h : IsQuantityOf cs value name) (h' : IsQuantityOf cs other unit) : name = unit := by
  obtain ⟨sign, numeral, written, text, signs, form, unitLike, -, rfl⟩ := h
  obtain ⟨sign', numeral', written', text', signs', form', unitLike', -, rfl⟩ := h'
  have cut := splitSign_append signs form written
  rw [← text, text', splitSign_append signs' form' written'] at cut
  have read := ofUnsigned?_append_unit form unitLike
  rw [← (Prod.mk.inj cut).2, ofUnsigned?_append_unit form' unitLike'] at read
  rw [(Prod.mk.inj (Option.some.inj read)).2]

/-! ## Dimensions -/

namespace Dimension

/-- **A dimension is read from exactly the texts that have the form of one**, and it is the one that
the text writes. -/
theorem ofChars?_eq_some_iff {cs : List Char} {d : Dimension} :
    ofChars? cs = some d ↔
      ∃ sign numeral unit, trim cs = sign ++ numeral ++ unit ∧ sign ∈ [[], ['-'], ['+']] ∧
        IsNumeral numeral ∧ (unit = [] ∨ IsUnitText unit) ∧
        d = ⟨{ Decimal.ofNumeral numeral with negative := sign == ['-'] }, .ofList (lower unit),
          trim cs⟩ := by
  constructor
  · intro h
    simp only [ofChars?, bind, Option.bind_eq_some_iff, pure, Option.some.injEq] at h
    obtain ⟨⟨number, unit⟩, digits, name, unitLike, rfl⟩ := h
    obtain ⟨numeral, body, form⟩ := isNumeral_of_ofUnsigned? digits
    obtain ⟨hunit, rfl⟩ := unitOfChars?_eq_some_iff.1 unitLike
    have same := ofUnsigned?_append_unit form hunit
    rw [← body, digits] at same
    obtain ⟨rfl, -⟩ := Prod.mk.inj (Option.some.inj same)
    obtain ⟨sign, signs, cut, flag⟩ := splitSign_cases (trim cs)
    rw [body, ← List.append_assoc] at cut
    exact ⟨sign, numeral, unit, cut, signs, form, hunit, by rw [flag]⟩
  · rintro ⟨sign, numeral, unit, text, signs, form, hunit, rfl⟩
    have body := splitSign_append signs form unit
    have unitLike := unitOfChars?_eq_some_iff.2 ⟨hunit, rfl⟩
    simp only [ofChars?, text, body, bind, ofUnsigned?_append_unit form hunit, unitLike,
      Option.bind_some, pure]

theorem isSome_ofChars?_iff {cs : List Char} : (ofChars? cs).isSome ↔ IsQuantity (trim cs) := by
  rw [Option.isSome_iff_exists]
  constructor
  · rintro ⟨d, read⟩
    obtain ⟨sign, numeral, unit, text, signs, form, hunit, -⟩ := ofChars?_eq_some_iff.1 read
    exact ⟨sign, numeral, unit, text, signs, form, hunit⟩
  · rintro ⟨sign, numeral, unit, text, signs, form, hunit⟩
    exact ⟨_, ofChars?_eq_some_iff.2 ⟨sign, numeral, unit, text, signs, form, hunit, rfl⟩⟩

end Dimension

theorem toRat_ofNumeral (numeral : List Char) (negative : Bool) :
    Decimal.toRat { Decimal.ofNumeral numeral with negative := negative } =
      if negative then -numeralValue numeral else numeralValue numeral := by
  have places : (10 : Rat) ^ (Decimal.ofNumeral numeral).exponent =
      (10 ^ (placesOf numeral).length)⁻¹ := by
    rw [Decimal.ofNumeral, zpow_neg, zpow_natCast]
  rw [Decimal.toRat_eq, places, Decimal.signed, numeralValue, div_eq_mul_inv]
  cases negative with
  | false => simp [Decimal.ofNumeral]
  | true => simp [Decimal.ofNumeral]

/-- **The value and the unit that are read** are those that the text writes. -/
theorem Dimension.exists_ofChars?_iff {cs : List Char} {value : Rat} {name : String} :
    (∃ d, ofChars? cs = some d ∧ d.number.toRat = value ∧ d.unit = name) ↔
      IsQuantityOf (trim cs) value name := by
  constructor
  · rintro ⟨d, read, rfl, rfl⟩
    obtain ⟨sign, numeral, unit, text, signs, form, hunit, rfl⟩ := ofChars?_eq_some_iff.1 read
    refine ⟨sign, numeral, unit, text, signs, form, hunit, ?_, rfl⟩
    simp only [toRat_ofNumeral, beq_iff_eq]
  · rintro ⟨sign, numeral, unit, text, signs, form, hunit, rfl, rfl⟩
    refine ⟨_, ofChars?_eq_some_iff.2 ⟨sign, numeral, unit, text, signs, form, hunit, rfl⟩, ?_, rfl⟩
    simp only [toRat_ofNumeral, beq_iff_eq]

end BracketCss
