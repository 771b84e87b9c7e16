import BracketCss.Proofs.Value.Rejoined
import BracketCss.Sheet.Rule

/-!
# Where a value can hold a brace or a semicolon

The numbers, units, keywords and colour names that a value is made of hold neither a brace nor a
semicolon. So these can stand in an accepted value only between the parentheses of a call, unless
the value is written in a syntax of its own or its property has no rule.

## Main definitions

* `isBreaker c`: a brace or a semicolon
* `IsContained cs`: a text with a parenthesis, or without braces and semicolons
* `PropertyTable.HasCleanKeywords`: the keywords of a table hold no braces and semicolons

## Main results

* `IsKindValue.isContained`, `isContained_of_validateValue`: accepted values
-/

namespace BracketCss

open Text

/-- A brace or a semicolon. -/
def isBreaker (c : Char) : Bool := c == '\x7b' || c == '\x7d' || c == ';'

theorem breaksOut_eq_false_iff {value : String} :
    breaksOut value = false ↔ ∀ c ∈ value.toList, isBreaker c = false := by
  simp only [breaksOut, List.any_eq_false, Bool.not_eq_true]
  rfl

theorem isCaseless_isBreaker : IsCaseless isBreaker := .of_table (by decide) (by decide)

/-- A text with a parenthesis, or without braces and semicolons. -/
def IsContained (cs : List Char) : Prop := '(' ∈ cs ∨ ∀ c ∈ cs, isBreaker c = false

/-- The keywords of every rule hold no braces and semicolons. -/
def PropertyTable.HasCleanKeywords (table : PropertyTable) : Prop :=
  ∀ property rule, table.rule? property = some rule →
    ∀ k ∈ rule.keywords, breaksOut k = false

/-- The bytes of braces and semicolons. -/
def breakerBytes : List UInt8 := [0x7b, 0x7d, 0x3b]

/-- Braces and semicolons are single bytes. -/
theorem not_breaksOut_of_bytes {s : String}
    (h : s.toByteArray.data.toList.all fun b => !breakerBytes.contains b) :
    breaksOut s = false := by
  refine breaksOut_eq_false_iff.2 (not_of_bytes (fun c breaker => ?_) h)
  simp only [isBreaker, Bool.or_eq_true, beq_iff_eq] at breaker
  rcases breaker with (rfl | rfl) | rfl <;> decide

theorem not_isBreaker_of_class {p : Char → Bool}
    (table : ['\x7b', '\x7d', ';'].all fun c => !p c) {c : Char} (h : p c) :
    isBreaker c = false := by
  rw [Bool.eq_false_iff]
  intro breaker
  have mem : c ∈ ['\x7b', '\x7d', ';'] := by simpa [isBreaker, or_assoc] using breaker
  have other := List.all_eq_true.1 table c mem
  rw [h] at other
  cases other

namespace IsContained

theorem of_forall {cs : List Char} (h : ∀ c ∈ cs, isBreaker c = false) : IsContained cs := .inr h

theorem call {cs : List Char} {call : Scan.Call} (h : Scan.call? cs = some call) :
    IsContained cs := by
  obtain ⟨name, after, rfl, -⟩ := Scan.call?_eq_some h
  exact .inl (by simp)

theorem append {xs ys : List Char} (hxs : IsContained xs) (hys : IsContained ys) :
    IsContained (xs ++ ys) := by
  rcases hxs with opened | hxs
  · exact .inl (List.mem_append_left _ opened)
  · rcases hys with opened | hys
    · exact .inl (List.mem_append_right _ opened)
    · exact .inr (List.forall_mem_append.2 ⟨hxs, hys⟩)

theorem intercalate {sep : List Char} (hsep : IsContained sep) {words : List (List Char)}
    (h : ∀ w ∈ words, IsContained w) : IsContained (sep.intercalate words) := by
  induction words with
  | nil => exact .of_forall (List.forall_mem_nil _)
  | cons w words ih =>
    obtain ⟨first, others⟩ := List.forall_mem_cons.1 h
    cases words with
    | nil => simpa using first
    | cons v words =>
      rw [List.intercalate_cons_cons]
      exact (first.append hsep).append (ih others)

/-- A dimension is made of digits, signs, a point and a unit. -/
theorem dimension {w : List Char} (trimmed : trim w = w) {d : Dimension}
    (h : Dimension.ofChars? w = some d) : IsContained d.normalized.toList := by
  obtain ⟨body, unit, rfl, -, numeral, unitLike, written⟩ := exists_of_ofChars? trimmed h
  have whole : ∀ c ∈ body, isBreaker c = false := fun c hc =>
    not_isBreaker_of_class (p := isNumeralChar) (by decide) (numeral c hc)
  have rest : ∀ c ∈ unit, isBreaker c = false := by
    rcases unitLike with letters | rfl
    · exact fun c hc => not_isBreaker_of_class (p := isAsciiLetter) (by decide) (letters c hc)
    · exact List.forall_mem_singleton.2 rfl
  rw [written]
  exact .of_forall (List.forall_mem_append.2 ⟨whole, isCaseless_isBreaker.none_lower_iff.2 rest⟩)

end IsContained

/-! ## Verdicts -/

section Verdicts

variable {rule : PropertyRule} {property : String} {w : List Char} {value : String}

theorem IsWordValue.isContained (h : IsWordValue rule w value)
    (clean : ∀ k ∈ rule.keywords, breaksOut k = false) (trimmed : trim w = w) :
    IsContained value.toList := by
  cases h with
  | keyword listed => exact .of_forall (breaksOut_eq_false_iff.1 (clean _ listed))
  | call found =>
    rw [String.toList_ofList]
    exact .call found
  | dimension hd => exact .dimension trimmed hd
  | zero => exact .of_forall (by decide)

theorem isContained_of_normalizeHex? {hex : String} (h : normalizeHex? w = some hex) :
    IsContained hex.toList := by
  simp only [normalizeHex?] at h
  split at h
  · next digits _ =>
    split at h
    · cases h
    · next all =>
      rw [Bool.not_eq_true', Bool.not_eq_false, List.all_eq_true] at all
      have plain : ∀ d ∈ lower digits, isBreaker d = false :=
        isCaseless_isBreaker.none_lower_iff.2 fun c hc =>
          not_isBreaker_of_class (p := isHexDigit) (by decide) (all c hc)
      split at h <;> cases h <;> rw [String.toList_ofList]
      · refine .of_forall (List.forall_mem_cons.2 ⟨rfl, fun c hc => ?_⟩)
        obtain ⟨d, hd, hc⟩ := List.mem_flatMap.1 hc
        have same : c = d := by simpa using hc
        exact same ▸ plain d hd
      all_goals exact .of_forall (List.forall_mem_cons.2 ⟨rfl, plain⟩)
  · cases h

theorem IsColorValue.isContained {keywords : List String} (h : IsColorValue keywords w value)
    (clean : ∀ k ∈ keywords, breaksOut k = false) : IsContained value.toList := by
  have bytes : ∀ k ∈ colorKeywords ++ namedColors,
      k.toByteArray.data.toList.all fun b => !breakerBytes.contains b := by decide +kernel
  have names : ∀ k ∈ colorKeywords ++ namedColors, breaksOut k = false :=
    fun k hk => not_breaksOut_of_bytes (bytes k hk)
  cases h with
  | name listed =>
    refine .of_forall (breaksOut_eq_false_iff.1 ?_)
    exact (List.mem_append.1 listed).elim (clean _) (names _)
  | hex found => exact isContained_of_normalizeHex? found
  | call => exact .inl (by simp)

/-- **A brace or a semicolon in an accepted value is between parentheses**, unless the kind is
complex. -/
theorem IsKindValue.isContained (h : IsKindValue rule property w value)
    (clean : ∀ k ∈ rule.keywords, breaksOut k = false) (bare : IsBare w)
    (simple : rule.kind ≠ .complex) : IsContained value.toList := by
  cases h with
  | word one => exact one.isContained clean bare.trim_eq
  | words _ all =>
    rw [String.toList_intercalate]
    refine .intercalate (.of_forall (by decide)) (List.forall_mem_map.2 fun v hv => ?_)
    obtain ⟨u, hu, one⟩ := exists_of_mem_right all hv
    exact one.isContained clean (Scan.of_mem_topWords hu).2
  | color one => exact one.isContained clean
  | calls found =>
    rw [String.toList_ofList]
    obtain ⟨w', mem⟩ := Scan.exists_mem_topWords bare.nonempty bare.first
    obtain ⟨call, one⟩ := call_of_calledNames found w' mem
    obtain ⟨name, after, same, -⟩ := Scan.call?_eq_some one
    have opened : '(' ∈ w' := by simp [same]
    exact .inl ((Scan.of_mem_topWords mem).1 opened)
  | complex kind => exact absurd kind simple

end Verdicts

theorem isContained_of_validateValue {table : PropertyTable} (clean : table.HasCleanKeywords)
    {property s value : String} {type : ValueType} {detail : Detail}
    (h : validateValue table property s = .accepted value type detail) :
    IsContained value.toList ∨ table.rule? property = none ∨
      ∃ rule, table.rule? property = some rule ∧ rule.kind = .complex := by
  have global : ∀ k ∈ globalKeywords, breaksOut k = false := by decide +kernel
  have trimmed := Scan.trim_trim s.toList
  obtain ⟨some_, ⟨listed, rfl, -⟩ | reference | ⟨unknown, -⟩ | ⟨rule, known, accepted⟩⟩ :=
    validateValue_cases h
  · exact .inl (.of_forall (breaksOut_eq_false_iff.1 (global _ listed)))
  · obtain ⟨rfl, call, found⟩ := validateFunction_eq_accepted reference
    rw [String.toList_ofList]
    exact .inl (.call found)
  · exact .inr (.inl unknown)
  · by_cases complex : rule.kind = .complex
    · exact .inr (.inr ⟨rule, known, complex⟩)
    · have bare : IsBare (trim s.toList) := .of_trim trimmed some_
      have value := isKindValue_of_validateKind trimmed accepted
      exact .inl (value.isContained (clean _ _ known) bare complex)

end BracketCss
