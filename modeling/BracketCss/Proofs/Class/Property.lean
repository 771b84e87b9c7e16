import BracketCss.Proofs.Class.Reader
import BracketCss.Proofs.Value.Quantity

/-!
# The property of a class

A class sets the property that the table has for its utility, which the table supports by having it
there. One utility is overloaded: `text` sets the size of a font instead, if its value looks like a
size. That property is no part of the table, so a narrowed table may have the utility without it,
and a class of that table then sets a property that the table does not support.

## Main definitions

* `IsSizeText cs`: a text that looks like a size, a number with an optional unit or a call of one of
  four functions

## Main results

* `propertyFor_cases`: which property a utility sets for a value
* `UtilityClass.isSupported_property_iff`: when the property of a class is supported
* `UtilityClass.isSupported_of_read`: tables all of whose classes set supported properties
-/

namespace BracketCss

open Text

/-! ## Texts that look like sizes -/

/-- A text that looks like a size, blanks at its ends apart. -/
inductive IsSizeText (cs : List Char) : Prop
  /-- A number with an optional unit. -/
  | quantity : IsQuantity (trim cs) → IsSizeText cs
  /-- A call of one of the functions, in any case. -/
  | call {start : String} : start ∈ sizeFunctions → start.toList <+: lower (trim cs) → IsSizeText cs

/-! ## The property that a utility sets -/

/-- The utility `text` sets the size of a font for a text that looks like a size; otherwise a
utility sets its own property. -/
theorem propertyFor_cases (utility : String) (value : List Char) (own : String) :
    (utility = "text" ∧ IsSizeText value ∧ propertyFor utility value own = "font-size") ∨
      (¬ (utility = "text" ∧ IsSizeText value) ∧ propertyFor utility value own = own) := by
  have size : (hasNumberShape (trim value) ||
      sizeFunctions.any fun start => start.toList.isPrefixOf (lower (trim value))) ↔
        IsSizeText value := by
    rw [Bool.or_eq_true, hasNumberShape, Dimension.isSome_ofChars?_iff, Scan.trim_trim,
      List.any_eq_true]
    constructor
    · rintro (number | ⟨start, known, front⟩)
      · exact .quantity number
      · exact .call known (List.isPrefixOf_iff_prefix.1 front)
    · rintro (number | ⟨known, front⟩)
      · exact .inl number
      · exact .inr ⟨_, known, List.isPrefixOf_iff_prefix.2 front⟩
  unfold propertyFor
  dsimp only
  split
  · next retargeted =>
    rw [Bool.and_eq_true, beq_iff_eq, size] at retargeted
    exact .inl ⟨retargeted.1, retargeted.2, rfl⟩
  · next kept =>
    rw [Bool.and_eq_true, beq_iff_eq, size] at kept
    exact .inr ⟨kept, rfl⟩

namespace PropertyTable

variable {table : PropertyTable}

/-- The property of a utility is supported. -/
theorem isSupported_of_property? {utility property : String}
    (h : table.property? utility = some property) : table.isSupported property := by
  obtain ⟨before, after, cut, -⟩ := List.lookup_eq_some_iff.1 h
  rw [isSupported, List.any_eq_true]
  refine ⟨(utility, property), ?_, beq_self_eq_true property⟩
  rw [cut]
  exact List.mem_append_right _ List.mem_cons_self

end PropertyTable

namespace UtilityClass

variable {table : PropertyTable} {limits : InputLimits} {token : Json} {c : UtilityClass}

/-- The class was moved from the property of its utility to the size of a font. -/
def IsRetargeted (c : UtilityClass) : Prop := c.utility = "text" ∧ IsSizeText c.raw.toList

/-- A class that was read sets the property of its utility, or the size of a font. -/
theorem property_cases (h : read table limits token = .ok c) :
    ∃ own, table.property? c.utility = some own ∧
      (c.IsRetargeted ∧ c.property = "font-size" ∨ ¬ c.IsRetargeted ∧ c.property = own) := by
  obtain ⟨_, _, -, -, h⟩ := read_eq_ok h
  obtain ⟨-, _, _, utility, raw, -, -, h⟩ := ofClean_eq_ok h
  obtain ⟨own, _, _, _, _, known, -, -, rfl⟩ := ofParts_eq_ok h
  refine ⟨own, known, ?_⟩
  simp only [IsRetargeted, String.toList_ofList]
  rcases propertyFor_cases (.ofList utility) raw own with ⟨text, size, same⟩ | ⟨other, same⟩
  · exact .inl ⟨⟨text, size⟩, same⟩
  · exact .inr ⟨other, same⟩

/-- **When the property of a class is supported.** It is, unless the utility `text` was moved to the
size of a font and no utility of the table sets that. A class that was not moved sets the property
that the table has for its utility. -/
theorem isSupported_property_iff (h : read table limits token = .ok c) :
    (table.isSupported c.property ↔ ¬ (c.IsRetargeted ∧ ¬ table.isSupported "font-size")) ∧
      (¬ c.IsRetargeted → table.property? c.utility = some c.property) := by
  obtain ⟨own, known, ⟨moved, property⟩ | ⟨stays, property⟩⟩ := property_cases h
  · refine ⟨?_, fun stays => absurd moved stays⟩
    rw [property]
    constructor
    · rintro supported ⟨-, missing⟩
      exact missing supported
    · intro present
      exact not_not.1 fun missing => present ⟨moved, missing⟩
  · rw [property]
    refine ⟨iff_of_true (table.isSupported_of_property? known) ?_, fun _ => known⟩
    rintro ⟨moved, -⟩
    exact stays moved

/-- A table that sets the size of a font, or that has no utility `text`, supports the properties of
all classes that are read with it. -/
theorem isSupported_of_read
    (sized : table.property? "text" ≠ none → table.isSupported "font-size")
    (h : read table limits token = .ok c) : table.isSupported c.property := by
  obtain ⟨own, known, ⟨⟨text, -⟩, property⟩ | ⟨-, property⟩⟩ := property_cases h
  · rw [property]
    refine sized ?_
    rw [← text, known]
    exact Option.some_ne_none own
  · rw [property]
    exact table.isSupported_of_property? known

section Example

/-- A table with nothing but `text`. -/
def textTable : PropertyTable := ⟨[("text", "color")], standardRules⟩

/-- A class that is moved to the size of a font. -/
def textClass : UtilityClass :=
  ⟨"text-[12px]", "text", "font-size", "12px", "12px", ["12px"], false, .length, .none, .plain⟩

theorem read_textClass : read textTable .standard (.string "text-[12px]") = .ok textClass := by
  decide +kernel

/-- The class was moved, and nothing else in the table sets the size of a font. -/
theorem isSupported_property_iff_textTable :
    read textTable .standard (.string "text-[12px]") = .ok textClass ∧
      textClass.IsRetargeted ∧ ¬ textTable.isSupported "font-size" := by
  refine ⟨read_textClass, ?_⟩
  by_contra other
  have supported := (isSupported_property_iff read_textClass).1.2 other
  exact absurd supported (by decide +kernel)

/-- A class may be read whose property no utility of the table sets. -/
theorem exists_property_not_supported : ∃ (table : PropertyTable) (token : Json) (c : UtilityClass),
    read table .standard token = .ok c ∧ table.isSupported c.property = false := by
  refine ⟨textTable, .string "text-[12px]", textClass, read_textClass, ?_⟩
  decide +kernel

end Example

end UtilityClass

end BracketCss
