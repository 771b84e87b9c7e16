import BracketCss.Proofs.Class.Property
import BracketCss.Proofs.Value.Bounds
import BracketCss.Proofs.Value.Calls
import BracketCss.Proofs.Value.Single

/-!
# Texts that look like sizes and values that are sizes

The utility `text` is given its property before its value is validated, by the looks of the raw
text: a number, or the start of a call. The two validators between which it chooses agree with the
looks. A colour never looks like a size, and what is accepted as a length, or as a call of a
function with one expression, always does.

## Main definitions

* `IsSizeVerdict type detail`: the verdict on a length or on such a call

## Main results

* `IsDull.isSizeText_iff`, `isSizeText_iff_of_call?`: which plain words and which calls look like
  sizes
* `not_isSizeText_of_validateValue`: accepted colours do not
* `isSizeText_of_validateValue`: accepted sizes do
-/

namespace BracketCss

open Text

variable {w : List Char}

/-! ## What looks like a size -/

/-- Blanks at the ends do not matter. -/
theorem isSizeText_trim_iff : IsSizeText (trim w) ↔ IsSizeText w := by
  constructor
  · rintro (number | ⟨known, front⟩)
    · exact .quantity (by rwa [Scan.trim_trim] at number)
    · exact .call known (by rwa [Scan.trim_trim] at front)
  · rintro (number | ⟨known, front⟩)
    · exact .quantity (by rwa [Scan.trim_trim])
    · exact .call known (by rwa [Scan.trim_trim])

/-- No parenthesis comes up in a plain word when it is written in lower case. -/
theorem IsDull.not_mem_lower (h : IsDull w) : '(' ∉ lower w := by
  have special : isDullChar '(' = false := by decide
  obtain ⟨-, body, dull, rfl | rfl⟩ := h
  · intro mem
    rw [isDullChar_lower_iff.2 dull '(' mem] at special
    cases special
  · rw [lower_append, List.mem_append, not_or]
    refine ⟨fun mem => ?_, by decide⟩
    rw [isDullChar_lower_iff.2 dull '(' mem] at special
    cases special

/-- A plain word looks like a size only if it is a number. -/
theorem IsDull.isSizeText_iff (h : IsDull w) (trimmed : trim w = w) :
    IsSizeText w ↔ IsQuantity w := by
  constructor
  · rintro (number | ⟨known, front⟩)
    · rwa [trimmed] at number
    · have opening : ∀ start ∈ sizeFunctions, '(' ∈ start.toList := by decide
      rw [trimmed] at front
      exact absurd (front.subset (opening _ known)) h.not_mem_lower
  · intro number
    rw [← trimmed] at number
    exact .quantity number

/-- A call looks like a size if its function has one expression. -/
theorem isSizeText_iff_of_call? {call : Scan.Call} (found : Scan.call? w = some call)
    (trimmed : trim w = w) : IsSizeText w ↔ call.name ∈ expressionFunctions := by
  obtain ⟨name, same, named, -, nameLike, -⟩ := Scan.exists_of_call? found trimmed
  have plain : '(' ∉ lower name := by
    intro mem
    have dull : ∀ c ∈ name, isDullChar c := fun c hc =>
      isDullChar_of_isNameChar (isNameChar_of_isAsciiNameChar (nameLike c hc))
    exact absurd (isDullChar_lower_iff.2 dull '(' mem) (by decide)
  have low : lower w = lower name ++ '(' :: lower (call.arguments ++ [')']) := by
    conv_lhs => rw [same, lower_append, lower_cons]
    rfl
  constructor
  · rintro (number | ⟨known, front⟩)
    · rw [← Dimension.isSome_ofChars?_iff, ofChars?_eq_none_of_call? found] at number
      cases number
    · have table : ∀ start ∈ sizeFunctions, ∃ known ∈ expressionFunctions,
          start.toList = known.toList ++ ['('] ∧ '(' ∉ known.toList := by decide
      obtain ⟨known, listed, spelled, absent⟩ := table _ known
      obtain ⟨rest, front⟩ := front
      rw [trimmed, low, spelled, List.append_assoc, List.singleton_append] at front
      rwa [named, ← (append_cons_inj absent plain front).1, String.ofList_toList]
  · intro listed
    have table : ∀ known ∈ expressionFunctions, known ++ "(" ∈ sizeFunctions := by decide
    refine .call (table _ listed) ⟨lower (call.arguments ++ [')']), ?_⟩
    rw [trimmed, low, String.toList_append, named, String.toList_ofList, List.append_assoc]
    rfl

/-- A call that is accepted by itself is no length, and its detail is the name of its function. -/
theorem exists_call_of_validateFunction {allowed : Option (List String)} {value : String}
    {type : ValueType} {detail : Detail}
    (h : validateFunction allowed w = .accepted value type detail) :
    ∃ call, Scan.call? (trim w) = some call ∧ isAllowed allowed call.name ∧ type ≠ .length ∧
      detail = .function call.name := by
  simp only [validateFunction] at h
  split at h
  · cases h
  · next ok =>
    obtain ⟨call, found, known, -⟩ := checkFunction_eq_ok_iff.1 ok
    obtain ⟨-, rfl, rfl⟩ := Outcome.accepted.inj h
    refine ⟨call, found, known, ?_, by rw [found]; rfl⟩
    split <;> exact fun same => by cases same

/-! ## Colours -/

section Colors

variable {keywords : List String} {table : PropertyTable} {rule : PropertyRule}
  {property s value : String} {type : ValueType} {detail : Detail}

/-- A name that is no number does not look like a size, in any letter case. -/
theorem not_isSizeText_of_lower (trimmed : trim w = w) (plain : IsPlainText (.ofList (fullLower w)))
    (unread : Dimension.ofChars? (fullLower w) = none) : ¬ IsSizeText w := by
  rw [plain.isDull_of_fullLower.isSizeText_iff trimmed]
  intro number
  rw [← trimmed, ← Dimension.isSome_ofChars?_iff, Option.isSome_iff_exists] at number
  obtain ⟨d, read⟩ := number
  rw [Dimension.fullLower_eq_lower trimmed read, Dimension.ofChars?_lower read] at unread
  cases unread

/-- No name of a colour is a number, and no keyword of every property. -/
theorem ofChars?_names : ∀ k ∈ globalKeywords ++ (colorKeywords ++ namedColors),
    Dimension.ofChars? k.toList = none := by
  have global : ∀ k ∈ globalKeywords, k.toList.head?.any isAsciiLetter := by decide
  intro k mem
  refine ofChars?_eq_none_of_letter ?_
  rcases List.mem_append.1 mem with listed | named
  · exact global k listed
  · exact head?_names_letter k (List.mem_cons_of_mem _ named)

/-- A colour does not look like a size. -/
theorem IsColorValue.not_isSizeText (h : IsColorValue keywords w value)
    (plain : ∀ k ∈ keywords, IsPlainText k ∧ Dimension.ofChars? k.toList = none)
    (trimmed : trim w = w) : ¬ IsSizeText w := by
  cases h with
  | name listed =>
    obtain ⟨isPlain, unread⟩ : IsPlainText (.ofList (fullLower w)) ∧
        Dimension.ofChars? (String.ofList (fullLower w)).toList = none := by
      rcases List.mem_append.1 listed with own | known
      · exact plain _ own
      · exact ⟨isPlainText_colorNames _ known, ofChars?_names _ (List.mem_append_right _ known)⟩
    rw [String.toList_ofList] at unread
    exact not_isSizeText_of_lower trimmed isPlain unread
  | hex found =>
    rw [(isDull_of_normalizeHex? trimmed found).1.isSizeText_iff trimmed]
    rintro ⟨sign, numeral, unit, text, signs, form, unitLike⟩
    obtain ⟨c, rest, rfl, first⟩ :=
      IsQuantityOf.head ⟨sign, numeral, unit, text, signs, form, unitLike, rfl, rfl⟩
    simp only [normalizeHex?, trimmed] at found
    split at found
    · next same =>
      rw [(List.cons.inj same).1] at first
      exact absurd first (by decide)
    · cases found
  | call found known =>
    rw [isSizeText_iff_of_call? found trimmed]
    have apart : ∀ name ∈ colorFunctionNames, name ∉ expressionFunctions := by decide
    exact apart _ known

/-- **An accepted colour does not look like a size**, and it is a single word. -/
theorem not_isSizeText_of_validateValue (known : table.rule? property = some rule)
    (kind : rule.kind = .color)
    (plain : ∀ k ∈ rule.keywords, IsPlainText k ∧ Dimension.ofChars? k.toList = none)
    (spaces : IsSpaced s.toList)
    (h : validateValue table property s = .accepted value type detail) :
    Scan.IsWord (trim s.toList) ∧ ¬ IsSizeText (trim s.toList) := by
  have trimmed := Scan.trim_trim s.toList
  have spaces' : IsSpaced (trim s.toList) := fun c hc => spaces c (Scan.trim_subset _ hc)
  obtain ⟨-, ⟨listed, -⟩ | reference | ⟨unknown, -⟩ | ⟨other, again, accepted⟩⟩ :=
    validateValue_cases h
  · have isPlain := isPlainText_globalKeywords _ listed
    have unread := ofChars?_names _ (List.mem_append_left _ listed)
    rw [String.toList_ofList] at unread
    exact ⟨isPlain.isDull_of_fullLower.isWord spaces',
      not_isSizeText_of_lower trimmed isPlain unread⟩
  · obtain ⟨call, found, allowed, -⟩ := exists_call_of_validateFunction reference
    rw [trimmed] at found
    have name : call.name = "var" := List.mem_singleton.1 (isAllowed_some_iff.1 allowed).2
    refine ⟨Scan.isWord_call found trimmed, ?_⟩
    rw [isSizeText_iff_of_call? found trimmed, name]
    decide
  · rw [known] at unknown
    cases unknown
  · obtain rfl := Option.some.inj (known.symm.trans again)
    simp only [validateKind, kind] at accepted
    have color := isColorValue_of_validateColor trimmed (Outcome.mapFault_eq_accepted accepted)
    exact ⟨color.isWord (fun k hk => (plain k hk).1) spaces' trimmed,
      color.not_isSizeText plain trimmed⟩

end Colors

/-! ## Sizes -/

/-- The verdict on a size: a length, or a call of a function with one expression. -/
def IsSizeVerdict (type : ValueType) (detail : Detail) : Prop :=
  type = .length ∨ ∃ name ∈ expressionFunctions, detail = .function name

section Sizes

variable {table : PropertyTable} {rule : PropertyRule} {property s value : String}
  {type : ValueType} {detail : Detail}

/-- A keyword is no size. -/
theorem not_isSizeVerdict_of_keyword? {outcome : ValueOutcome}
    (found : keyword? rule w = some outcome) (h : outcome = .accepted value type detail) :
    ¬ IsSizeVerdict type detail := by
  simp only [keyword?, Option.ite_none_right_eq_some, Option.some.injEq] at found
  rw [h] at found
  obtain ⟨-, rfl, rfl⟩ := Outcome.accepted.inj found.2
  rintro (same | ⟨_, -, same⟩) <;> cases same

/-- A call that is accepted by itself is a size if it looks like one. -/
theorem isSizeText_of_validateFunction {allowed : Option (List String)} (trimmed : trim w = w)
    (h : validateFunction allowed w = .accepted value type detail)
    (size : IsSizeVerdict type detail) : Scan.IsWord w ∧ IsSizeText w := by
  obtain ⟨call, found, -, other, rfl⟩ := exists_call_of_validateFunction h
  rw [trimmed] at found
  obtain ⟨name, listed, same⟩ := size.resolve_left other
  rw [← Detail.function.inj same, ← isSizeText_iff_of_call? found trimmed] at listed
  exact ⟨Scan.isWord_call found trimmed, listed⟩

/-- A single length that is accepted looks like a size. -/
theorem isSizeText_of_validateWord (trimmed : trim w = w)
    (h : validateWord rule property w = .accepted value type detail)
    (size : IsSizeVerdict type detail) : Scan.IsWord w ∧ IsSizeText w := by
  simp only [validateWord] at h
  split at h
  · next found => exact absurd size (not_isSizeVerdict_of_keyword? found h)
  · next found =>
    rw [h] at found
    obtain ⟨_, -, accepted⟩ := Option.map_eq_some_iff.1 found
    exact isSizeText_of_validateFunction trimmed (Outcome.mapFault_eq_accepted accepted) size
  · split at h
    · next d hd =>
      refine ⟨isWord_of_ofChars? trimmed hd, .quantity ?_⟩
      rw [← Dimension.isSome_ofChars?_iff, hd]
      rfl
    · cases h

/-- **An accepted size looks like one**, and it is a single word. -/
theorem isSizeText_of_validateValue (known : table.rule? property = some rule)
    (kind : rule.kind = .length) (one : rule.shorthand = false)
    (h : validateValue table property s = .accepted value type detail)
    (size : IsSizeVerdict type detail) :
    Scan.IsWord (trim s.toList) ∧ IsSizeText (trim s.toList) := by
  have trimmed := Scan.trim_trim s.toList
  simp only [validateValue, known, validateKind, kind] at h
  split at h
  · cases h
  · split at h
    · obtain ⟨-, rfl, rfl⟩ := Outcome.accepted.inj h
      rcases size with same | ⟨_, -, same⟩ <;> cases same
    · split at h
      · exact isSizeText_of_validateFunction trimmed (Outcome.mapFault_eq_accepted h) size
      · simp only [validateLengths, one, Bool.not_false, if_true] at h
        split at h
        · cases h
        · split at h
          · next found =>
            obtain ⟨-, rfl, rfl⟩ := Outcome.accepted.inj h
            exact isSizeText_of_validateWord trimmed found size
          · next other => exact absurd h (other _ _ _)

end Sizes

end BracketCss
