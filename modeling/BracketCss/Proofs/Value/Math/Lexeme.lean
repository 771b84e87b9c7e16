import BracketCss.Proofs.Value.Quantity
import BracketCss.Proofs.Value.Trimmed
import BracketCss.Value.Math.Reader

/-!
# The tokens of expressions as texts

What the tokens of arithmetic expressions are made of. A token is read from its text wherever it may
come and a space or the end follows, and what is read is always a token that may come there.

## Main definitions

* `IsIdentifierText`, `IsPropertyText`: what names are made of
* `MathToken.text`, `MathToken.IsLexeme`: the text of a token, and a token that has such a text
* `MathToken.comesAt place token`: where a token may come

## Main results

* `MathToken.next?_text`, `MathToken.next?_eq_none`: reading the text of a token
* `MathToken.next?_eq_some`: what is read
-/

namespace BracketCss

open Text

/-! ## What tokens are made of -/

/-- The text of an identifier: a letter, then letters, digits and hyphens. -/
def IsIdentifierText (cs : List Char) : Prop :=
  ∃ c rest, cs = c :: rest ∧ isAsciiLetter c ∧ ∀ d ∈ rest, isAsciiNameChar d

/-- The text of a custom property: two hyphens, then letters, digits, hyphens and low lines. -/
def IsPropertyText (cs : List Char) : Prop :=
  ∃ name, cs = '-' :: '-' :: name ∧ name ≠ [] ∧ ∀ c ∈ name, isAsciiNameChar c || c == '_'

/-! ## One token -/

namespace MathToken

/-- The text of a token. -/
def text : MathToken → List Char
  | number cs | dimension cs | identifier cs | customProperty cs => cs
  | function name => name ++ ['(']
  | operator .plus => ['+']
  | operator .minus => ['-']
  | operator .times => ['*']
  | operator .over => ['/']
  | opening => ['(']
  | closing => [')']
  | comma => [',']

/-- A token has a text of its kind. -/
def IsLexeme : MathToken → Prop
  | number cs => IsNumeral cs
  | dimension cs => ∃ n unit, IsNumeral n ∧ IsUnitText unit ∧ cs = n ++ unit
  | identifier cs | function cs => IsIdentifierText cs
  | customProperty cs => IsPropertyText cs
  | _ => True

/-- A token may come at a place. -/
def comesAt : Place → MathToken → Bool
  | .operator, operator _ | .operator, closing | .operator, comma => true
  | .operator, _ => false
  | .argument, customProperty _ => true
  | _, number _ | _, dimension _ | _, identifier _ | _, function _ | _, opening => true
  | _, operator .plus | _, operator .minus => true
  | _, _ => false

/-- A text is at its end, or a space follows. -/
def IsCut (rest : List Char) : Prop := ∀ c ∈ rest.head?, c = ' '

theorem IsCut.stop {rest : List Char} (h : IsCut rest) {p : Char → Bool} (space : p ' ' = false) :
    ∀ c ∈ rest.head?, p c = false := fun c hc => h c hc ▸ space

section Numbers

variable {cs rest : List Char}

theorem numeral?_number (h : IsNumeral cs) (cut : IsCut rest) :
    numeral? (cs ++ rest) = some (number cs, rest) := by
  have found := ofUnsigned?_numeral h fun c hc => by
    rw [cut c hc]
    decide
  have unitless : unitLength rest = 0 := by
    cases rest with
    | nil => rfl
    | cons c rest =>
      obtain rfl : c = ' ' := cut c rfl
      rfl
  simp only [numeral?, found, Option.map_some, unitless]
  simp

theorem unitLength_append {unit : List Char} (h : IsUnitText unit) (cut : IsCut rest) :
    unitLength (unit ++ rest) = unit.length := by
  rcases h with ⟨some_, letters⟩ | rfl
  · obtain ⟨c, others, rfl⟩ := List.exists_cons_of_ne_nil some_
    have other : c ≠ '%' := by
      rintro rfl
      exact absurd (letters '%' List.mem_cons_self) (by decide)
    have run := takeWhile_append_of_stop letters (cut.stop (p := isAsciiLetter) (by decide))
    unfold unitLength
    split
    · next same => exact absurd (List.cons.inj same).1 other
    · rw [run]
  · rfl

theorem numeral?_dimension {n unit : List Char} (hn : IsNumeral n) (hu : IsUnitText unit)
    (cut : IsCut rest) : numeral? (n ++ unit ++ rest) = some (dimension (n ++ unit), rest) := by
  have stop : ∀ c ∈ (unit ++ rest).head?, isDecimal c = false ∧ c ≠ '.' := by
    intro c hc
    have other := not_startsNumber_of_unit hu c hc
    rwa [startsNumber, Bool.or_eq_false_iff, beq_eq_false_iff_ne] at other
  have found := ofUnsigned?_numeral hn stop
  obtain ⟨size, same⟩ : ∃ size, unit.length = size + 1 := by
    refine Nat.exists_eq_succ_of_ne_zero fun none_ => ?_
    rcases hu with ⟨some_, -⟩ | rfl
    · exact some_ (List.length_eq_zero_iff.1 none_)
    · cases none_
  simp only [numeral?, List.append_assoc, found, Option.map_some, unitLength_append hu cut, same]
  have front : (n ++ (unit ++ rest)).length - (unit ++ rest).length + (size + 1) =
      (n ++ unit).length := by
    rw [List.length_append, Nat.add_sub_cancel, List.length_append, same]
  rw [front, ← List.append_assoc, List.take_left, ← same, List.drop_left]

end Numbers

section Names

variable {cs rest : List Char}

theorem numeral?_eq_none {c : Char} (h : startsNumber c = false) (cs : List Char) :
    numeral? (c :: cs) = none := by
  rw [numeral?, ofUnsigned?_eq_none h]
  rfl

theorem name_of_identifier (h : IsIdentifierText cs) :
    (∀ c ∈ cs, isAsciiNameChar c) ∧ cs.head?.any isAsciiLetter := by
  obtain ⟨c, others, rfl, letter, name⟩ := h
  refine ⟨List.forall_mem_cons.2 ⟨?_, name⟩, letter⟩
  simp [isAsciiNameChar, isAsciiAlphanumeric, letter]

theorem numeral?_of_identifier (h : IsIdentifierText cs) (rest : List Char) :
    numeral? (cs ++ rest) = none := by
  obtain ⟨c, others, rfl, letter, -⟩ := h
  exact numeral?_eq_none (not_startsNumber_of_isAsciiLetter letter) _

theorem name?_identifier (h : IsIdentifierText cs) (cut : IsCut rest) :
    name? (cs ++ rest) = some (identifier cs, rest) := by
  obtain ⟨chars, letter⟩ := name_of_identifier h
  have run := takeWhile_append_of_stop chars (cut.stop (p := isAsciiNameChar) (by decide))
  simp only [name?, run, letter, List.drop_left]
  cases rest with
  | nil => rfl
  | cons c rest =>
    obtain rfl : c = ' ' := cut c rfl
    rfl

theorem name?_function (h : IsIdentifierText cs) (rest : List Char) :
    name? (cs ++ '(' :: rest) = some (function cs, rest) := by
  obtain ⟨chars, letter⟩ := name_of_identifier h
  have run : (cs ++ '(' :: rest).takeWhile isAsciiNameChar = cs :=
    takeWhile_append_of_stop chars (by simp; decide)
  simp only [name?, run, letter, List.drop_left]
  rfl

theorem customProperty?_property (h : IsPropertyText cs) (cut : IsCut rest) :
    customProperty? (cs ++ rest) = some (customProperty cs, rest) := by
  obtain ⟨name, rfl, some_, chars⟩ := h
  have run := takeWhile_append_of_stop chars
    (cut.stop (p := fun c => isAsciiNameChar c || c == '_') (by decide))
  simp only [List.cons_append, customProperty?, run, List.drop_left]
  simp [some_]

/-- A text that starts neither a number nor a name. -/
theorem numeral?_name?_eq_none {c : Char} (noNumber : startsNumber c = false)
    (noName : isAsciiLetter c = false) (cs : List Char) :
    (numeral? (c :: cs) <|> name? (c :: cs)) = none := by
  have noLetter : name? (c :: cs) = none := by
    simp only [name?]
    rw [if_pos]
    by_cases name : isAsciiNameChar c
    · rw [List.takeWhile_cons_of_pos name]
      simp [noName]
    · rw [List.takeWhile_cons_of_neg name]
      rfl
  rw [numeral?_eq_none noNumber, noLetter]
  rfl

/-- A sign or an opening parenthesis is read only if nothing else is. -/
theorem next?_sign {place : Place} (other : place ≠ .operator) {c : Char}
    (noNumber : startsNumber c = false) (noName : isAsciiLetter c = false) (cut : IsCut rest) :
    next? place (c :: rest) = sign? (c :: rest) := by
  have noProperty : customProperty? (c :: rest) = none := by
    rw [customProperty?.eq_def]
    split
    · next same =>
      obtain ⟨-, rfl⟩ := List.cons.inj same
      exact absurd (cut '-' rfl) (by decide)
    · rfl
  cases place with
  | operator => exact absurd rfl other
  | operand =>
    rw [next?, numeral?_name?_eq_none noNumber noName]
    rfl
  | argument =>
    rw [next?, numeral?_name?_eq_none noNumber noName, noProperty]
    rfl

end Names

/-- **A token is read from its text** where it may come. -/
theorem next?_text {place : Place} {token : MathToken} (h : token.IsLexeme)
    (comes : comesAt place token) {rest : List Char} (cut : IsCut rest) :
    next? place (token.text ++ rest) = some (token, rest) := by
  have operand : ∀ found, (numeral? (token.text ++ rest) <|> name? (token.text ++ rest)) =
      some found → place ≠ .operator → next? place (token.text ++ rest) = some found := by
    intro found read other
    cases place with
    | operator => exact absurd rfl other
    | operand | argument =>
      rw [next?, read]
      rfl
  cases token with
  | number cs =>
    refine operand _ ?_ (by rintro rfl; cases comes)
    rw [text, numeral?_number h cut]
    rfl
  | dimension cs =>
    obtain ⟨n, unit, hn, hu, rfl⟩ := h
    refine operand _ ?_ (by rintro rfl; cases comes)
    rw [text, numeral?_dimension hn hu cut]
    rfl
  | identifier cs =>
    refine operand _ ?_ (by rintro rfl; cases comes)
    rw [text, numeral?_of_identifier h, name?_identifier h cut]
    rfl
  | function cs =>
    refine operand _ ?_ (by rintro rfl; cases comes)
    rw [text, List.append_assoc, numeral?_of_identifier h, List.singleton_append,
      name?_function h]
    rfl
  | customProperty cs =>
    cases place with
    | operand | operator => cases comes
    | argument =>
      have noName : (numeral? (cs ++ rest) <|> name? (cs ++ rest)) = none := by
        obtain ⟨name, rfl, -, -⟩ := h
        exact numeral?_name?_eq_none (by decide) (by decide) _
      rw [next?, text, noName, customProperty?_property h cut]
      rfl
  | operator op =>
    cases op with
    | plus | minus =>
      by_cases other : place = .operator
      · subst other
        rfl
      · exact next?_sign other (by decide) (by decide) cut
    | times | «over» =>
      cases place with
      | operand | argument => cases comes
      | operator => rfl
  | opening =>
    cases place with
    | operator => cases comes
    | operand | argument => exact next?_sign (by decide) (by decide) (by decide) cut
  | closing | comma =>
    cases place with
    | operand | argument => cases comes
    | operator => rfl

/-- A text that starts an operand starts no operator. -/
theorem mark?_eq_none {c : Char} (h : startsNumber c ∨ isAsciiLetter c ∨ c = '(') (cs : List Char) :
    mark? (c :: cs) = none := by
  have other : ∀ d ∈ ",-+)/*".toList, c ≠ d := by
    rintro d mem rfl
    have none_ : ∀ d ∈ ",-+)/*".toList, ¬ (startsNumber d ∨ isAsciiLetter d ∨ d = '(') := by decide
    exact none_ c mem h
  rw [mark?.eq_def]
  split
  case h_7 => rfl
  all_goals next same => exact absurd (List.cons.inj same).1 (other _ (by decide))

/-- A token is not read where it may not come, unless it is the name of a custom property. -/
theorem next?_eq_none {place : Place} {token : MathToken} (h : token.IsLexeme)
    (other : comesAt place token = false) (named : ∀ cs, token ≠ customProperty cs)
    {rest : List Char} (cut : IsCut rest) : next? place (token.text ++ rest) = none := by
  have number : ∀ {cs : List Char}, IsNumeral cs → ∀ after, mark? (cs ++ after) = none := by
    intro cs numeral after
    obtain ⟨c, others, rfl, starts⟩ := startsNumber_of_head numeral
    exact mark?_eq_none (.inl starts) _
  have name : ∀ {cs : List Char}, IsIdentifierText cs → ∀ after, mark? (cs ++ after) = none := by
    rintro _ ⟨c, others, rfl, letter, -⟩ after
    exact mark?_eq_none (.inr (.inl letter)) _
  cases place with
  | operator =>
    cases token with
    | number cs => exact number h rest
    | dimension cs =>
      obtain ⟨n, unit, hn, -, rfl⟩ := h
      rw [next?, text, List.append_assoc]
      exact number hn _
    | identifier cs => exact name h rest
    | function cs =>
      rw [next?, text, List.append_assoc]
      exact name h _
    | customProperty cs => exact absurd rfl (named cs)
    | opening => exact mark?_eq_none (.inr (.inr rfl)) rest
    | operator op | closing | comma => cases other
  | operand | argument =>
    cases token with
    | number cs | dimension cs | identifier cs | function cs | opening => cases other
    | customProperty cs => exact absurd rfl (named cs)
    | closing | comma => exact next?_sign (by decide) (by decide) (by decide) cut
    | operator op =>
      cases op with
      | plus | minus => cases other
      | times | «over» => exact next?_sign (by decide) (by decide) (by decide) cut

/-! ### What is read -/

section Read

variable {token : MathToken} {cs rest : List Char}

theorem isUnitText_take (h : unitLength cs ≠ 0) : IsUnitText (cs.take (unitLength cs)) := by
  by_cases percent : ∃ others, cs = '%' :: others
  · obtain ⟨others, rfl⟩ := percent
    exact .inr rfl
  · have letters : unitLength cs = (cs.takeWhile isAsciiLetter).length := by
      unfold unitLength
      split
      · exact absurd ⟨_, rfl⟩ percent
      · rfl
    rw [letters] at h ⊢
    rw [← List.prefix_iff_eq_take.1 (List.takeWhile_prefix _)]
    refine .inl ⟨fun none_ => h ?_, fun c hc => List.all_eq_true.1 List.all_takeWhile c hc⟩
    rw [none_, List.length_nil]

theorem numeral?_eq_some (h : numeral? cs = some (token, rest)) :
    token.IsLexeme ∧ cs = token.text ++ rest ∧
      ((∃ n, token = number n) ∨ ∃ n, token = dimension n) := by
  obtain ⟨⟨value, after⟩, found, made⟩ := Option.map_eq_some_iff.1 h
  obtain ⟨n, rfl, numeral⟩ := isNumeral_of_ofUnsigned? found
  have size : (n ++ after).length - after.length = n.length := by
    rw [List.length_append, Nat.add_sub_cancel]
  dsimp only at made
  rw [size] at made
  split at made
  · obtain ⟨rfl, rfl⟩ := Prod.mk.inj made
    rw [List.take_left]
    exact ⟨numeral, rfl, .inl ⟨n, rfl⟩⟩
  · next some_ =>
    obtain ⟨rfl, rfl⟩ := Prod.mk.inj made
    rw [List.take_append, Nat.add_sub_cancel_left, List.take_of_length_le (by omega)]
    refine ⟨⟨n, _, numeral, isUnitText_take some_, rfl⟩, ?_, .inr ⟨_, rfl⟩⟩
    rw [text, List.append_assoc, List.take_append_drop]

theorem name?_eq_some (h : name? cs = some (token, rest)) :
    token.IsLexeme ∧ cs = token.text ++ rest ∧
      ((∃ n, token = identifier n) ∨ ∃ n, token = function n) := by
  have cut := Scan.takeWhile_append_drop isAsciiNameChar cs
  have chars : ∀ c ∈ cs.takeWhile isAsciiNameChar, isAsciiNameChar c :=
    fun c hc => List.all_eq_true.1 List.all_takeWhile c hc
  simp only [name?] at h
  generalize cs.takeWhile isAsciiNameChar = name at h cut chars
  split at h
  · cases h
  · next letter =>
    have identifierText : IsIdentifierText name := by
      cases name with
      | nil => simp at letter
      | cons c others =>
        exact ⟨c, others, rfl, by simpa using letter, (List.forall_mem_cons.1 chars).2⟩
    split at h
    · next after opened =>
      obtain ⟨rfl, rfl⟩ := Prod.mk.inj (Option.some.inj h)
      rw [opened] at cut
      refine ⟨identifierText, ?_, .inr ⟨name, rfl⟩⟩
      rw [text, List.append_assoc, List.singleton_append, cut]
    · obtain ⟨rfl, rfl⟩ := Prod.mk.inj (Option.some.inj h)
      exact ⟨identifierText, cut.symm, .inl ⟨name, rfl⟩⟩

theorem customProperty?_eq_some (h : customProperty? cs = some (token, rest)) :
    token.IsLexeme ∧ cs = token.text ++ rest ∧ ∃ n, token = customProperty n := by
  rw [customProperty?.eq_def] at h
  split at h
  · next others =>
    have chars : ∀ c ∈ others.takeWhile fun c => isAsciiNameChar c || c == '_',
        isAsciiNameChar c || c == '_' := fun c hc => List.all_eq_true.1 List.all_takeWhile c hc
    dsimp only at h
    split at h
    · cases h
    · next some_ =>
      obtain ⟨rfl, rfl⟩ := Prod.mk.inj (Option.some.inj h)
      refine ⟨⟨_, rfl, by simpa using some_, chars⟩, ?_, _, rfl⟩
      rw [text, List.cons_append, List.cons_append, Scan.takeWhile_append_drop]
  · cases h

theorem sign?_eq_some (h : sign? cs = some (token, rest)) :
    token.IsLexeme ∧ cs = token.text ++ rest ∧
      (token = opening ∨ token = operator .minus ∨ token = operator .plus) := by
  rw [sign?.eq_def] at h
  split at h
  · cases h
    exact ⟨trivial, rfl, .inl rfl⟩
  · cases h
    exact ⟨trivial, rfl, .inr (.inl rfl)⟩
  · cases h
    exact ⟨trivial, rfl, .inr (.inr rfl)⟩
  · cases h

theorem mark?_eq_some (h : mark? cs = some (token, rest)) :
    token.IsLexeme ∧ cs = token.text ++ rest ∧ comesAt .operator token := by
  rw [mark?.eq_def] at h
  split at h <;> cases h <;> exact ⟨trivial, rfl, rfl⟩

/-- **What is read is a token that may come there**, and its text. -/
theorem next?_eq_some {place : Place} (h : next? place cs = some (token, rest)) :
    token.IsLexeme ∧ cs = token.text ++ rest ∧ comesAt place token := by
  have either : ∀ {a b : Option (MathToken × List Char)}, (a <|> b) = some (token, rest) →
      a = some (token, rest) ∨ b = some (token, rest) := by
    intro a b found
    cases a with
    | none => exact .inr found
    | some _ => exact .inl found
  have operand : ∀ other, place = other → other ≠ .operator →
      (numeral? cs <|> name? cs) = some (token, rest) →
      token.IsLexeme ∧ cs = token.text ++ rest ∧ comesAt place token := by
    rintro _ rfl other found
    rcases either found with found | found
    · obtain ⟨lexeme, same, ⟨n, rfl⟩ | ⟨n, rfl⟩⟩ := numeral?_eq_some found
      all_goals exact ⟨lexeme, same, by cases place <;> first | rfl | exact absurd rfl other⟩
    · obtain ⟨lexeme, same, ⟨n, rfl⟩ | ⟨n, rfl⟩⟩ := name?_eq_some found
      all_goals exact ⟨lexeme, same, by cases place <;> first | rfl | exact absurd rfl other⟩
  cases place with
  | operator => exact mark?_eq_some h
  | operand =>
    rcases either h with found | found
    · exact operand _ rfl (by decide) found
    · obtain ⟨lexeme, same, rfl | rfl | rfl⟩ := sign?_eq_some found
      all_goals exact ⟨lexeme, same, rfl⟩
  | argument =>
    rcases either h with found | found
    · exact operand _ rfl (by decide) found
    · rcases either found with found | found
      · obtain ⟨lexeme, same, n, rfl⟩ := customProperty?_eq_some found
        exact ⟨lexeme, same, rfl⟩
      · obtain ⟨lexeme, same, rfl | rfl | rfl⟩ := sign?_eq_some found
        all_goals exact ⟨lexeme, same, rfl⟩

end Read

end MathToken

end BracketCss
