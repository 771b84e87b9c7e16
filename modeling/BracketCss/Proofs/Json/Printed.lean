import BracketCss.Proofs.Json.Canonical

/-!
# Printed values

The compact text of a value holds no control character, whatever the value is: texts are escaped,
and numbers, words and marks have none. A number is written with few characters, the brackets not
among them.

## Main definitions

* `IsNumberText cs`: a text of digits and of the marks and letters of numbers

## Main results

* `isNumberText_toText`: the text of a number
* `isPrinted_canonical`: the compact text of any value
-/

namespace BracketCss.Json

/-! ## Numbers -/

/-- The characters of numbers: digits, the point, signs, and the letters of an exponent and of
numbers that are not finite. -/
def numberChars : List Char := "0123456789.+-aefintyIN".toList

/-- There are only characters of numbers. -/
def IsNumberText (cs : List Char) : Prop := ∀ c ∈ cs, c ∈ numberChars

instance : DecidablePred IsNumberText := fun cs =>
  inferInstanceAs (Decidable (∀ c ∈ cs, c ∈ numberChars))

theorem isNumberText_cons {c : Char} {cs : List Char} :
    IsNumberText (c :: cs) ↔ c ∈ numberChars ∧ IsNumberText cs := List.forall_mem_cons

theorem isNumberText_append {xs ys : List Char} :
    IsNumberText (xs ++ ys) ↔ IsNumberText xs ∧ IsNumberText ys := List.forall_mem_append

theorem IsNumberText.subset {cs ds : List Char} (h : IsNumberText cs) (sub : ds ⊆ cs) :
    IsNumberText ds :=
  fun c mem => h c (sub mem)

theorem IsNumberText.isPrinted {cs : List Char} (h : IsNumberText cs) : IsPrinted cs := by
  have table : ∀ c ∈ numberChars, 32 ≤ c.toNat := by decide
  exact fun c mem => table c (h c mem)

theorem isNumberText_natDigits (n : Nat) : IsNumberText (natDigits n) := by
  have table : ∀ k ≤ 57, 48 ≤ k → Char.ofNat k ∈ numberChars := by decide
  intro c mem
  have digit : c.isDigit := Nat.isDigit_of_mem_toDigits (by decide) (by decide) mem
  simp only [Char.isDigit, Bool.and_eq_true, decide_eq_true_eq, ge_iff_le, UInt32.le_iff_toNat_le]
    at digit
  have entry := table c.toNat digit.2 digit.1
  rwa [Char.ofNat_toNat] at entry

theorem isNumberText_zeros (n : Nat) : IsNumberText (List.replicate n '0') := by
  intro d mem
  rw [List.eq_of_mem_replicate mem]
  decide

theorem isNumberText_significantDigits (n : Nat) : IsNumberText (significantDigits n) :=
  (isNumberText_natDigits n).subset fun c mem => by
    rw [significantDigits, List.mem_reverse] at mem
    exact List.mem_reverse.1 ((List.dropWhile_sublist _).subset mem)

theorem isNumberText_positiveRealText (d : Decimal) : IsNumberText (positiveRealText d) := by
  have digits := isNumberText_significantDigits d.coefficient
  have first (n : Nat) := digits.subset (List.take_subset n _)
  have rest (n : Nat) := digits.subset (List.drop_subset n _)
  simp only [positiveRealText]
  split
  · split
    · exact isNumberText_cons.2 ⟨by decide, isNumberText_cons.2 ⟨by decide,
        isNumberText_append.2 ⟨isNumberText_zeros _, digits⟩⟩⟩
    · split
      · exact isNumberText_append.2
          ⟨isNumberText_append.2 ⟨digits, isNumberText_zeros _⟩, by decide⟩
      · exact isNumberText_append.2 ⟨first _, isNumberText_cons.2 ⟨by decide, rest _⟩⟩
  · have fraction : IsNumberText
        (if ((significantDigits d.coefficient).drop 1).isEmpty then []
          else '.' :: (significantDigits d.coefficient).drop 1) := by
      split
      · decide
      · exact isNumberText_cons.2 ⟨by decide, rest 1⟩
    refine isNumberText_append.2 ⟨isNumberText_append.2 ⟨first 1, fraction⟩,
      isNumberText_cons.2 ⟨by decide, isNumberText_cons.2 ⟨?_,
        isNumberText_append.2 ⟨isNumberText_zeros _, isNumberText_natDigits _⟩⟩⟩⟩
    split <;> decide

theorem isNumberText_realText (d : Decimal) : IsNumberText (realText d).toList := by
  simp only [realText, String.toList_ofList]
  refine isNumberText_append.2 ⟨by split <;> decide, ?_⟩
  repeat' split
  all_goals first | exact isNumberText_positiveRealText _ | decide

theorem isNumberText_toString (n : Int) : IsNumberText (toString n).toList := by
  cases n with
  | ofNat n =>
    show IsNumberText n.repr.toList
    rw [Nat.toList_repr]
    exact isNumberText_natDigits n
  | negSucc n =>
    show IsNumberText ("-" ++ n.succ.repr).toList
    rw [String.toList_append, Nat.toList_repr]
    exact isNumberText_append.2 ⟨by decide, isNumberText_natDigits _⟩

/-- The text of a number has only characters of numbers. -/
theorem isNumberText_toText (n : Json.Number) : IsNumberText n.toText.toList := by
  cases n with
  | whole n => exact isNumberText_toString n
  | real d => exact isNumberText_realText d
  | infinite negative => cases negative <;> decide
  | undefined => decide

/-- The text of a number holds no control character. -/
theorem isPrinted_numberText (n : Json.Number) : IsPrinted (numberText n).toList := by
  cases n with
  | whole n => exact (isNumberText_toText (.whole n)).isPrinted
  | real d => exact (isNumberText_toText (.real d)).isPrinted
  | infinite negative => cases negative <;> simp [numberText, IsPrinted]
  | undefined => simp [numberText, IsPrinted]

/-! ## Values -/

theorem isPrinted_objectText {fields : List (String × String)}
    (h : ∀ entry ∈ fields, IsPrinted entry.2.toList) : IsPrinted (objectText fields).toList := by
  simp only [objectText, String.toList_append, String.toList_intercalate]
  refine isPrinted_append.2 ⟨isPrinted_append.2 ⟨by simp [IsPrinted], ?_⟩, by simp [IsPrinted]⟩
  refine isPrinted_intercalate fun x mem => ?_
  obtain ⟨_, hfield, rfl⟩ := List.mem_map.1 mem
  obtain ⟨entry, hentry, rfl⟩ := List.mem_map.1 hfield
  simp only [String.toList_append]
  exact isPrinted_append.2 ⟨isPrinted_append.2 ⟨isPrinted_stringText _, by simp [IsPrinted]⟩,
    h entry hentry⟩

mutual

/-- **The compact text of a value holds no control character.** -/
theorem isPrinted_canonical : (v : Json) → IsPrinted (canonical v).toList
  | .null => by simp [canonical, printWith, IsPrinted]
  | .bool b => by cases b <;> simp [canonical, printWith, IsPrinted]
  | .number n => isPrinted_numberText n
  | .string s => isPrinted_stringText s
  | .array items => by
    have each := isPrinted_printItems items
    simp only [canonical, printWith, String.toList_append, String.toList_intercalate]
    refine isPrinted_append.2 ⟨isPrinted_append.2 ⟨by simp [IsPrinted], ?_⟩, by simp [IsPrinted]⟩
    refine isPrinted_intercalate fun x mem => ?_
    obtain ⟨s, hs, rfl⟩ := List.mem_map.1 mem
    exact each s hs
  | .object fields => by
    have each := isPrinted_printFields fields
    refine isPrinted_objectText fun entry mem => ?_
    rw [sortFields, List.mem_mergeSort] at mem
    exact each entry mem

/-- The compact texts of items hold no control character. -/
theorem isPrinted_printItems :
    (items : List Json) → ∀ s ∈ printItems sortFields items, IsPrinted s.toList
  | [] => List.forall_mem_nil _
  | v :: items => List.forall_mem_cons.2 ⟨isPrinted_canonical v, isPrinted_printItems items⟩

/-- The compact texts of fields hold no control character. -/
theorem isPrinted_printFields : (fields : List (String × Json)) →
    ∀ entry ∈ printFields sortFields fields, IsPrinted entry.2.toList
  | [] => List.forall_mem_nil _
  | (_, v) :: fields => List.forall_mem_cons.2 ⟨isPrinted_canonical v, isPrinted_printFields fields⟩

end

end BracketCss.Json
