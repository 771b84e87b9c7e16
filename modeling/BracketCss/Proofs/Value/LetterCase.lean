import BracketCss.Proofs.Value.Math.LetterCase
import BracketCss.Proofs.Value.Numbers
import BracketCss.Proofs.Value.Unseen

/-!
# The case of letters in values

Scanning looks at quotes, parentheses, separators and classes of characters, none of which has a
letter in one case only. So the parts of a text in lower case are its parts in lower case, a call in
lower case is a call of the same function, and a dimension in lower case has the same number and
the same unit.

## Main definitions

* `Dimension.recased`: a dimension with its text in lower case
* `Outcome.AgreeUpToCase`: verdicts that differ in the case of letters at most

## Main results

* `Scan.parts_map_toLower`: the parts between separators
* `Scan.call?_map_toLower`: the call that a text is
* `Dimension.ofChars?_map_toLower`: the dimension that a text is
-/

namespace BracketCss

open Text

/-! ## Parts and calls -/

namespace Scan

/-- The parts of a text in lower case are its parts in lower case. -/
theorem parts_map_toLower {separator : Char → Bool} (blind : IsCaseBlind separator)
    (cs : List Char) :
    parts separator (cs.map Char.toLower) = (parts separator cs).map (List.map Char.toLower) :=
  isUnseen_toLower.parts_map blind cs

theorem commaParts_map_toLower (cs : List Char) :
    commaParts (cs.map Char.toLower) = (commaParts cs).map (List.map Char.toLower) :=
  parts_map_toLower (.of_table (by decide)) cs

theorem topWords_map_toLower (cs : List Char) :
    topWords (cs.map Char.toLower) = (topWords cs).map (List.map Char.toLower) :=
  isUnseen_toLower.topWords_map cs

/-- A text in lower case is a call of the function that the text is a call of. -/
theorem call?_map_toLower (cs : List Char) :
    call? (cs.map Char.toLower) = (call? cs).map (Call.changed Char.toLower) :=
  isUnseen_toLower.call?_map cs

theorem callOf?_map_toLower (names : List String) (cs : List Char) :
    callOf? names (cs.map Char.toLower) = (callOf? names cs).map (Call.changed Char.toLower) :=
  isUnseen_toLower.callOf?_map names cs

end Scan

/-! ## Dimensions -/

namespace Dimension

theorem splitSign_map_toLower (cs : List Char) :
    Decimal.splitSign (cs.map Char.toLower) =
      ((Decimal.splitSign cs).1, (Decimal.splitSign cs).2.map Char.toLower) := by
  unfold Decimal.splitSign
  split
  · next rest same =>
    obtain ⟨others, rfl, rfl⟩ := (map_eq_cons_iff_of_mark (by decide)).1 same
    rfl
  · next rest same =>
    obtain ⟨others, rfl, rfl⟩ := (map_eq_cons_iff_of_mark (by decide)).1 same
    rfl
  · next noMinus noPlus =>
    split
    · exact absurd rfl (noMinus _)
    · exact absurd rfl (noPlus _)
    · rfl

theorem unitOfChars?_map_toLower (cs : List Char) :
    unitOfChars? (cs.map Char.toLower) = unitOfChars? cs := by
  have percent : cs.map Char.toLower = ['%'] ↔ cs = ['%'] := by
    rw [map_eq_cons_iff_of_mark (by decide)]
    simp
  simp only [unitOfChars?, isCaseBlind_isAsciiLetter.all, lower_map_toLower, beq_eq_decide,
    percent]

/-- A dimension with its text in lower case; its unit is in lower case already. -/
def recased (d : Dimension) : Dimension := { d with text := d.text.map Char.toLower }

/-- **A dimension in lower case** has the same number and the same unit. -/
theorem ofChars?_map_toLower (cs : List Char) :
    ofChars? (cs.map Char.toLower) = (ofChars? cs).map recased := by
  simp only [ofChars?, trim_map_toLower, splitSign_map_toLower, Decimal.ofUnsigned?_map_toLower]
  cases Decimal.ofUnsigned? (Decimal.splitSign (trim cs)).2 with
  | none => rfl
  | some found =>
    simp only [Option.map_some, Option.bind_eq_bind, Option.bind_some, unitOfChars?_map_toLower]
    cases unitOfChars? found.2 <;> rfl

theorem isInteger_recased (d : Dimension) : d.recased.isInteger = d.isInteger := by
  have point : '.' ∈ d.text.map Char.toLower ↔ '.' ∈ d.text := mem_map_iff_of_mark (by decide)
  simp only [isInteger, isUnitless, recased, List.contains_eq_mem, point]

/-- The normal form differs in the case of letters at most. -/
theorem lowerText_normalized_recased (d : Dimension) :
    lowerText d.recased.normalized = lowerText d.normalized := by
  have numeral_ : d.recased.numeral = d.numeral.map Char.toLower := by
    rw [numeral, recased, List.length_map, ← List.map_take]
    rfl
  have unit : d.recased.unit = d.unit := rfl
  rw [normalized, normalized, numeral_, unit]
  simp [lowerText]

end Dimension

/-! ## Verdicts -/

/-- Two verdicts that differ in the case of letters at most: both accept, with values of one type
that are the same in lower case, or both refuse. -/
inductive Outcome.AgreeUpToCase {Fault : Type} : Outcome Fault → Outcome Fault → Prop
  /-- Both accept. -/
  | accepted {value value' : String} (type : ValueType) {detail detail' : Detail}
      (same : lowerText value = lowerText value') :
      AgreeUpToCase (.accepted value type detail) (.accepted value' type detail')
  /-- Both refuse. -/
  | rejected {fault fault' : Fault} {suggestions suggestions' : List String}
      {detail detail' : Detail} :
      AgreeUpToCase (.rejected fault suggestions detail) (.rejected fault' suggestions' detail')

namespace Outcome.AgreeUpToCase

variable {Fault Other : Type} {a b : Outcome Fault}

@[refl] theorem refl (a : Outcome Fault) : AgreeUpToCase a a := by
  cases a with
  | accepted value type detail => exact .accepted type rfl
  | rejected => exact .rejected

theorem mapFault (h : AgreeUpToCase a b) (f : Fault → Other) :
    AgreeUpToCase (a.mapFault f) (b.mapFault f) := by
  cases h with
  | accepted type same => exact .accepted type same
  | rejected => exact .rejected

end Outcome.AgreeUpToCase

/-- Two checks of which one passes if the other does either both pass or both fail. -/
theorem ok_or_error {ε δ : Type} {x : Except ε Unit} {y : Except δ Unit}
    (same : x = .ok () ↔ y = .ok ()) :
    (x = .ok () ∧ y = .ok ()) ∨ (∃ fault, x = .error fault) ∧ ∃ fault, y = .error fault := by
  cases x <;> cases y <;> simp_all

/-- A text and its lower case are the same in lower case. -/
theorem lowerText_ofList_map_toLower (cs : List Char) :
    lowerText (.ofList (cs.map Char.toLower)) = lowerText (.ofList cs) := by
  simp [lowerText]

end BracketCss
