import BracketCss.Proofs.Class.SizeText
import BracketCss.Proofs.Class.Token

/-!
# The overloaded utility

The utility `text` stands for two others: `c`, which sets a colour, and `fs`, which sets the size
of a font. It chooses between them by the looks of the raw value, before that is cut and validated.
Nothing is lost by the choice. Every colour that `c` takes is left to the property of `text`, and
every size that `fs` takes is moved to the size of a font, with the same value.

## Main results

* `UtilityClass.not_isSizeText_raw_of_read`, `UtilityClass.isSizeText_raw_of_read`: the looks of the
  raw values of colours and sizes
* `UtilityClass.read_text`: what `c` and `fs` take, `text` takes as well
-/

namespace BracketCss

open Text

namespace PropertyTable

theorem rule?_color : standard.rule? "color" = some .colors := rfl

/-- The size of a font is one length or a keyword. -/
theorem exists_rule?_fontSize : ∃ rule, standard.rule? "font-size" = some rule ∧
    rule.kind = .length ∧ rule.shorthand = false ∧ rule.separator = " " :=
  ⟨_, rfl, rfl, rfl, rfl⟩

end PropertyTable

namespace UtilityClass

variable {limits : InputLimits} {token : Json} {c : UtilityClass}

/-! ## The looks of raw values -/

/-- What was validated for a class, by the rule of its property. -/
theorem exists_components_of_read {rule : PropertyRule}
    (h : read .standard limits token = .ok c)
    (known : PropertyTable.standard.rule? c.property = some rule) :
    ∃ components, Components.ofText rule.shorthand rule.separator c.raw = .ok components ∧
      IsSpaced components.normalized.toList ∧
      validateValue .standard c.property components.normalized =
        .accepted c.value c.type c.detail := by
  have spaces := (isFaithful_of_read h).spaces
  obtain ⟨_, _, -, -, found⟩ := read_eq_ok h
  obtain ⟨-, _, _, _, _, -, -, found⟩ := ofClean_eq_ok found
  obtain ⟨own, components, value, type, detail, -, split_, accepted, rfl⟩ := ofParts_eq_ok found
  have spaced := Components.eq_space_of_ofText (separator_valueRule _) split_ spaces
  dsimp only at known ⊢
  rw [valueRule, known] at split_
  exact ⟨components, split_, spaced, accepted⟩

/-- A raw value that is accepted as a colour does not look like a size. -/
theorem not_isSizeText_raw_of_read (h : read .standard limits token = .ok c)
    (color : c.property = "color") : ¬ IsSizeText c.raw.toList := by
  have keywords : ∀ k ∈ PropertyRule.colors.keywords,
      IsPlainText k ∧ Dimension.ofChars? k.toList = none := by
    have plain : ∀ k ∈ PropertyRule.colors.keywords, HasPlainBytes k := by decide
    have unread : ∀ k ∈ PropertyRule.colors.keywords, Dimension.ofChars? k.toList = none := by
      decide
    exact fun k hk => ⟨.of_bytes (plain k hk), unread k hk⟩
  have known : PropertyTable.standard.rule? c.property = some .colors := by
    rw [color, PropertyTable.rule?_color]
  obtain ⟨components, split_, spaces, accepted⟩ := exists_components_of_read h known
  obtain ⟨word, unlike⟩ := not_isSizeText_of_validateValue known rfl keywords spaces accepted
  rwa [Components.trim_eq_of_isWord split_ word, isSizeText_trim_iff] at unlike

/-- A raw value that is accepted as a size of a font looks like a size. -/
theorem isSizeText_raw_of_read (h : read .standard limits token = .ok c)
    (property : c.property = "font-size") (size : IsSizeVerdict c.type c.detail) :
    IsSizeText c.raw.toList := by
  obtain ⟨rule, known, kind, single, separator⟩ := PropertyTable.exists_rule?_fontSize
  rw [← property] at known
  obtain ⟨components, split_, spaces, accepted⟩ := exists_components_of_read h known
  rw [separator] at split_
  obtain ⟨word, alike⟩ := isSizeText_of_validateValue known kind single accepted size
  rwa [Components.trim_eq_of_isWord split_ word, isSizeText_trim_iff] at alike

/-! ## The choice -/

/-- **Nothing is lost by the overloaded utility.** A colour that `c` takes is taken by `text` as a
colour, and a length or a call of a function with one expression that `fs` takes is taken by `text`
as a size of a font, with the same value, as long as the token is not too long. -/
theorem read_text {v : String}
    (within : (tokenOf "text" v).toList.length ≤ limits.classLength) :
    (∀ c, read .standard limits (.string (tokenOf "c" v)) = .ok c →
      ∃ d, read .standard limits (.string (tokenOf "text" v)) = .ok d ∧
        d.property = "color" ∧ d.value = c.value) ∧
    ∀ c, read .standard limits (.string (tokenOf "fs" v)) = .ok c →
      (c.type = .length ∨ ∃ name ∈ ["calc", "min", "max", "clamp"], c.detail = .function name) →
      ∃ d, read .standard limits (.string (tokenOf "text" v)) = .ok d ∧
        d.property = "font-size" ∧ d.value = c.value := by
  have text : IsUtility "text".toList := isUtilityName_iff.1 (by decide)
  have known : PropertyTable.standard.property? "text" = some "color" := rfl
  constructor
  · intro c found
    have named : IsUtility "c".toList := isUtilityName_iff.1 (by decide)
    have color : c.property = "color" :=
      property_of_read_tokenOf named rfl (by decide) found
    have unlike := not_isSizeText_raw_of_read found color
    have same : propertyFor "text" c.raw.toList "color" = c.property := by
      rcases propertyFor_cases "text" c.raw.toList "color" with ⟨-, size, -⟩ | ⟨-, same⟩
      · exact absurd size unlike
      · rw [same, color]
    exact ⟨_, read_tokenOf_of_property named text (by decide) (by decide) within found known same,
      color, rfl⟩
  · intro c found size
    have named : IsUtility "fs".toList := isUtilityName_iff.1 (by decide)
    have fontSize : c.property = "font-size" :=
      property_of_read_tokenOf named rfl (by decide) found
    have alike := isSizeText_raw_of_read found fontSize size
    have same : propertyFor "text" c.raw.toList "color" = c.property := by
      rcases propertyFor_cases "text" c.raw.toList "color" with ⟨-, -, same⟩ | ⟨stays, -⟩
      · rw [same, fontSize]
      · exact absurd ⟨rfl, alike⟩ stays
    exact ⟨_, read_tokenOf_of_property named text (by decide) (by decide) within found known same,
      fontSize, rfl⟩

/-- A colour and a call, both written with capitals and blanks. -/
theorem read_text_mixed_case :
    (∃ d, read .standard .standard (.string (tokenOf "text" "RGB( 1, 2, 3 )")) = .ok d ∧
      d.property = "color" ∧ d.value = "rgb(1, 2, 3)") ∧
    ∃ d, read .standard .standard (.string (tokenOf "text" " Calc(1px + 2PX)")) = .ok d ∧
      d.property = "font-size" ∧ d.value = "Calc(1px + 2PX)" := by
  have color : read .standard .standard (.string (tokenOf "c" "RGB( 1, 2, 3 )")) =
      .ok ⟨"c-[RGB( 1, 2, 3 )]", "c", "color", "rgb(1, 2, 3)", "RGB( 1, 2, 3 )",
        ["RGB( 1, 2, 3 )"], true, .color, .color "rgb", .plain⟩ := by decide +kernel
  have call : read .standard .standard (.string (tokenOf "fs" " Calc(1px + 2PX)")) =
      .ok ⟨"fs-[ Calc(1px + 2PX)]", "fs", "font-size", "Calc(1px + 2PX)", " Calc(1px + 2PX)",
        ["Calc(1px + 2PX)"], true, .function, .function "calc", .plain⟩ := by decide +kernel
  exact ⟨(read_text (by decide)).1 _ color,
    (read_text (by decide)).2 _ call (.inr ⟨"calc", by decide, rfl⟩)⟩

end UtilityClass

end BracketCss
