import BracketCss.Proofs.Class.Form
import BracketCss.Proofs.Class.Selector
import BracketCss.Text.Escape
import Mathlib.Data.Nat.Digits.Defs

/-!
# Selectors are identifiers

The selector of a class is a dot and the identifier of its name. Undoing the escapes of the
identifier yields the name. Every character that may not stand in an identifier by itself is
escaped, with one exception: the backquote, which several kinds of values may hold.

## Main definitions

* `Selector.symbols cs`: the characters that a text of a style sheet denotes, and which of them are
  escaped
* `Selector.undo cs`: the text without its escapes
* `Selector.isIdentifierChar c`: a character that an identifier may hold unescaped

## Main results

* `Selector.symbols_identifier`: how the characters of a name come back
* `UtilityClass.exists_identifier_of_read`: what the selector of a class denotes, and when it is an
  identifier
-/

namespace BracketCss

open Text

namespace Selector

/-! ## Symbols -/

/-- A character that a text of a style sheet denotes. -/
structure Symbol where
  char : Char
  isEscaped : Bool
  deriving DecidableEq, Repr

/-- The hexadecimal digits of a code point escape, six at most. -/
def hexRun (cs : List Char) : List Char := (cs.take 6).takeWhile isHexDigit

/-- The text without the space that may end a code point escape. -/
def dropSpace (cs : List Char) : List Char := if cs.head? = some ' ' then cs.tail else cs

theorem length_dropSpace_le (cs : List Char) : (dropSpace cs).length ≤ cs.length := by
  unfold dropSpace
  split
  · rw [List.length_tail]
    omega
  · exact Nat.le_refl _

/-- The characters that a text denotes: a backslash escapes the code point that follows it, or else
the character that follows it. -/
def symbols : List Char → List Symbol
  | [] => []
  | c :: rest =>
    if c ≠ '\\' then ⟨c, false⟩ :: symbols rest
    else if hexRun rest ≠ [] then
      ⟨CssEscape.escapedChar (hexNat (hexRun rest)), true⟩ ::
        symbols (dropSpace (rest.drop (hexRun rest).length))
    else
      match rest with
      | [] => [⟨c, false⟩]
      | d :: rest => ⟨d, true⟩ :: symbols rest
termination_by cs => cs.length
decreasing_by
  · simp
  · have := length_dropSpace_le (rest.drop (hexRun rest).length)
    rw [List.length_drop] at this
    rw [List.length_cons]
    omega
  · simp only [List.length_cons]
    omega

theorem symbols_cons_of_ne {c : Char} (h : c ≠ '\\') (rest : List Char) :
    symbols (c :: rest) = ⟨c, false⟩ :: symbols rest := by
  rw [symbols.eq_def]
  simp [h]

theorem symbols_codePoint {rest : List Char} (h : hexRun rest ≠ []) :
    symbols ('\\' :: rest) = ⟨CssEscape.escapedChar (hexNat (hexRun rest)), true⟩ ::
      symbols (dropSpace (rest.drop (hexRun rest).length)) := by
  rw [symbols.eq_def]
  simp [h]

theorem symbols_backslash {c : Char} {rest : List Char} (h : hexRun (c :: rest) = []) :
    symbols ('\\' :: c :: rest) = ⟨c, true⟩ :: symbols rest := by
  rw [symbols.eq_def]
  simp [h]

/-- The text without its escapes. -/
def undo (cs : List Char) : List Char := (symbols cs).map (·.char)

theorem hexRun_of_head {c : Char} {cs : List Char} (h : isHexDigit c = false) :
    hexRun (c :: cs) = [] := by
  simp [hexRun, h]

/-- Digits before a space are read as one run, unless there are too many. -/
theorem hexRun_append_space {digits : List Char} (hex : ∀ c ∈ digits, isHexDigit c)
    (few : digits.length ≤ 6) (rest : List Char) : hexRun (digits ++ ' ' :: rest) = digits := by
  rw [hexRun, List.take_append, List.take_of_length_le few, List.takeWhile_append_of_pos hex]
  have stop : ((' ' :: rest).take (6 - digits.length)).takeWhile isHexDigit = [] := by
    cases 6 - digits.length with
    | zero => rfl
    | succ n =>
      rw [List.take_succ_cons, List.takeWhile_cons_of_neg (by decide)]
  rw [stop, List.append_nil]

theorem symbols_escapeChar (c : Char) (rest : List Char) :
    symbols (escapeChar c ++ rest) = ⟨c, isSpecial c⟩ :: symbols rest := by
  unfold escapeChar
  by_cases special : isSpecial c
  · have other : isHexDigit c = false := by
      rw [← Bool.not_eq_true]
      intro hex
      rw [isSpecial_of_isHexDigit hex] at special
      cases special
    rw [if_pos special, special, List.cons_append, List.cons_append, List.nil_append,
      symbols_backslash (hexRun_of_head other)]
  · have other : c ≠ '\\' := by
      rintro rfl
      exact special (by decide)
    rw [if_neg special, Bool.not_eq_true _ |>.mp special, List.singleton_append,
      symbols_cons_of_ne other]

theorem symbols_escapeChars (cs : List Char) :
    symbols (escapeChars cs) = cs.map fun c => ⟨c, isSpecial c⟩ := by
  induction cs with
  | nil => simp [symbols]
  | cons c cs ih => rw [escapeChars_cons, symbols_escapeChar, ih, List.map_cons]

/-- Six digits are enough for every code point. -/
theorem length_toDigits_le (c : Char) : (Nat.toDigits 16 c.toNat).length ≤ 6 := by
  have code : c.toNat < 0x110000 := by
    have valid := c.valid
    have same : c.val.toNat = c.toNat := rfl
    simp only [UInt32.isValidChar, Nat.isValidChar, same] at valid
    omega
  apply Nat.toDigits_length 16 c.toNat 6 (by decide)
  exact Nat.lt_trans code (by decide)

theorem escapedChar_toNat {c : Char} (h : isDigit c) : CssEscape.escapedChar c.toNat = c := by
  have code : c.toNat ≠ 0 := by
    intro zero
    have same : c = Char.ofNat 0 := by rw [← zero, Char.ofNat_toNat]
    rw [same] at h
    exact absurd h (by decide +kernel)
  rw [CssEscape.escapedChar, if_neg code, charOfCode_toNat]

/-- A code point escape denotes its character, whatever stands after its space. -/
theorem symbols_codePointEscape {c : Char} (h : isDigit c) (rest : List Char) :
    symbols (codePointEscape c ++ rest) = ⟨c, true⟩ :: symbols rest := by
  have run : hexRun (Nat.toDigits 16 c.toNat ++ ' ' :: rest) = Nat.toDigits 16 c.toNat :=
    hexRun_append_space (fun d hd => isHexDigit_of_mem_toDigits hd) (length_toDigits_le c) rest
  rw [codePointEscape, List.cons_append, List.cons_append, List.append_assoc,
    List.singleton_append, symbols_codePoint (by rw [run]; exact Nat.toDigits_ne_nil), run,
    hexNat_toDigits, escapedChar_toNat h, List.drop_left]
  rfl

/-- The characters of a name come back from its identifier. -/
theorem symbols_identifier_cons (c : Char) (cs : List Char) :
    symbols (identifier (c :: cs)) =
      ⟨c, isDigit c || isSpecial c⟩ :: cs.map fun d => ⟨d, isSpecial d⟩ := by
  rw [identifier]
  by_cases digit : isDigit c
  · rw [if_pos digit, symbols_codePointEscape digit, symbols_escapeChars, digit, Bool.true_or]
  · rw [if_neg digit, symbols_escapeChar, symbols_escapeChars, Bool.not_eq_true _ |>.mp digit,
      Bool.false_or]

theorem undo_identifier (cs : List Char) : undo (identifier cs) = cs := by
  cases cs with
  | nil => simp [undo, identifier, symbols]
  | cons c cs => simp [undo, symbols_identifier_cons, Function.comp_def]

/-! ## Characters of identifiers -/

/-- A character that an identifier may hold unescaped. -/
def isIdentifierChar (c : Char) : Bool := isAsciiNameChar c || c == '_' || decide (128 ≤ c.toNat)

/-- Of the characters that cleaning leaves, the backquote alone is neither escaped nor allowed. -/
theorem isSpecial_or_isIdentifierChar_iff {c : Char} (h : Clean.isControl c = false) :
    isSpecial c ∨ isIdentifierChar c ↔ c ≠ '\x60' := by
  by_cases ascii : c.toNat < 128
  · have table : ∀ n < 128, Clean.isControl (Char.ofNat n) = false →
        (isSpecial (Char.ofNat n) ∨ isIdentifierChar (Char.ofNat n) ↔
          Char.ofNat n ≠ '\x60') := by
      decide +kernel
    have entry := table c.toNat ascii
    rw [Char.ofNat_toNat] at entry
    exact entry h
  · have other : c ≠ '\x60' := by
      rintro rfl
      exact ascii (by decide)
    simp [isIdentifierChar, other, Nat.le_of_not_lt ascii]

/-- No digit stands at the start unless it is escaped. -/
def StartsAsIdentifier (cs : List Char) : Prop :=
  ∀ s ∈ (symbols cs).head?, s.isEscaped ∨ isDigit s.char = false

/-- Every character is escaped or may stand in an identifier. -/
def HasIdentifierChars (cs : List Char) : Prop :=
  ∀ s ∈ symbols cs, s.isEscaped ∨ isIdentifierChar s.char

theorem startsAsIdentifier_identifier (cs : List Char) : StartsAsIdentifier (identifier cs) := by
  cases cs with
  | nil =>
    intro s hs
    simp [identifier, symbols] at hs
  | cons c cs =>
    intro s hs
    rw [symbols_identifier_cons, List.head?_cons] at hs
    obtain rfl := Option.some.inj hs
    cases isDigit c <;> simp

theorem hasIdentifierChars_identifier_iff {cs : List Char}
    (h : ∀ c ∈ cs, Clean.isControl c = false) :
    HasIdentifierChars (identifier cs) ↔ '\x60' ∉ cs := by
  cases cs with
  | nil => simp [HasIdentifierChars, identifier, symbols]
  | cons c cs =>
    obtain ⟨first, rest⟩ := List.forall_mem_cons.1 h
    have start : (isDigit c || isSpecial c) = true ∨ isIdentifierChar c = true ↔ c ≠ '\x60' := by
      rw [← isSpecial_or_isIdentifierChar_iff first, Bool.or_eq_true]
      by_cases digit : isDigit c
      · have other : c ≠ '\x60' := by
          rintro rfl
          exact absurd digit (by decide +kernel)
        simp [digit, (isSpecial_or_isIdentifierChar_iff first).2 other]
      · simp [digit]
    have others : (∀ d ∈ cs, isSpecial d = true ∨ isIdentifierChar d = true) ↔ '\x60' ∉ cs := by
      rw [← List.forall_mem_ne']
      exact forall₂_congr fun d hd => isSpecial_or_isIdentifierChar_iff (rest d hd)
    rw [HasIdentifierChars, symbols_identifier_cons, List.forall_mem_cons, List.forall_mem_map,
      start, others, List.mem_cons, not_or, ne_comm]

end Selector

namespace UtilityClass

variable {table : PropertyTable} {limits : InputLimits} {token : Json} {c : UtilityClass}

/-- The selector of a class that was read is a dot and a text that denotes its name. This text does
not start with a digit, and it is an identifier exactly if no backquote stands between the brackets
of the name. -/
theorem exists_identifier_of_read (h : read table limits token = .ok c) :
    ∃ identifier, c.selector.toList = '.' :: identifier ∧
      Selector.undo identifier = c.name.toList ∧ Selector.StartsAsIdentifier identifier ∧
      (Selector.HasIdentifierChars identifier ↔ '\x60' ∉ c.raw.toList) := by
  refine ⟨Selector.identifier c.name.toList, ?_, Selector.undo_identifier _,
    Selector.startsAsIdentifier_identifier _, ?_⟩
  · simp [selector, Selector.ofClass, Selector.escape]
  · rw [Selector.hasIdentifierChars_identifier_iff fun d hd => (isTidy_of_read h d hd).1]
    obtain ⟨front, whole, fronts, -⟩ := exists_front_of_read h
    have outside : '\x60' ∉ front := by
      intro mem
      exact absurd (fronts _ mem) (by simp [IsFrontChar]; decide)
    rw [whole]
    simp [outside]

/-- A class whose name starts with a digit, which is escaped by its code point. -/
theorem exists_identifier_of_read_breakpoint :
    ∃ identifier, (Selector.ofClass "2xl:p-[1px]").toList = '.' :: identifier ∧
      Selector.undo identifier = "2xl:p-[1px]".toList ∧ Selector.StartsAsIdentifier identifier ∧
      (Selector.HasIdentifierChars identifier ↔ '\x60' ∉ "1px".toList) := by
  have accepted : read .standard .standard (.string "2xl:p-[1px]") =
      .ok ⟨"2xl:p-[1px]", "p", "padding", "1px", "1px", ["1px"], false, .length,
        .sides ["1px", "1px", "1px", "1px"], ⟨some .xxl, none⟩⟩ := by decide +kernel
  have denoted := exists_identifier_of_read accepted
  exact denoted

/-- A backquote gets into a selector as it is. -/
theorem exists_read_not_hasIdentifierChars :
    ∃ c, read .standard .standard (.string "font-[`a`]") = .ok c ∧
      ∀ identifier, c.selector.toList = '.' :: identifier →
        ¬ Selector.HasIdentifierChars identifier := by
  refine ⟨⟨"font-[`a`]", "font", "font", "`a`", "`a`", ["`a`"], false, .complex, .none, .plain⟩,
    by decide +kernel, ?_⟩
  intro identifier same
  have written : identifier = Selector.identifier "font-[`a`]".toList := by
    simpa [selector, Selector.ofClass, Selector.escape] using same.symm
  rw [written, Selector.hasIdentifierChars_identifier_iff (by decide +kernel)]
  decide

end UtilityClass

end BracketCss
