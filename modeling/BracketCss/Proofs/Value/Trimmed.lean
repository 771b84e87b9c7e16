import BracketCss.Proofs.Class.Reader
import BracketCss.Proofs.Text.Pair
import BracketCss.Proofs.Value.Accepted
import BracketCss.Proofs.Value.Unseen

/-!
# Values have bare ends

A value is trimmed before it is checked, and whatever is written for it neither starts nor ends
with a blank, by whichever rule it was accepted and whatever the table says.

## Main definitions

* `IsBare cs`: a text that neither starts nor ends with a blank

## Main results

* `isBare_of_validateValue`: an accepted value is bare
* `UtilityClass.isBare_value_of_read`: the value of a class that was read is bare
-/

namespace BracketCss

open Text

/-! ## Bare texts -/

/-- A text that is not empty and neither starts nor ends with a blank. -/
structure IsBare (cs : List Char) : Prop where
  nonempty : cs ≠ []
  first : ∀ c ∈ cs.head?, isBlank c = false
  last : ∀ c ∈ cs.getLast?, isBlank c = false

namespace IsBare

theorem of_trim {cs : List Char} (trimmed : trim cs = cs) (nonempty : cs ≠ []) : IsBare cs := by
  rw [← trimmed] at nonempty ⊢
  exact ⟨nonempty, fun c hc => Scan.not_isBlank_of_head?_trim hc,
    fun c hc => Scan.not_isBlank_of_getLast?_trim hc⟩

theorem trim_eq {cs : List Char} (h : IsBare cs) : trim cs = cs := trim_eq_self h.first h.last

theorem trimText_eq {s : String} (h : IsBare s.toList) : trimText s = s := by
  rw [trimText, h.trim_eq, String.ofList_toList]

theorem of_forall {cs : List Char} (nonempty : cs ≠ []) (solid : ∀ c ∈ cs, isBlank c = false) :
    IsBare cs :=
  ⟨nonempty, fun c hc => solid c (List.mem_of_head? hc),
    fun c hc => solid c (List.mem_of_getLast? hc)⟩

/-- Only the ends count, whatever stands between them. -/
theorem between {xs ys : List Char} (hxs : IsBare xs) (gap : List Char) (hys : IsBare ys) :
    IsBare (xs ++ gap ++ ys) := by
  refine ⟨by simp [hxs.nonempty], fun c hc => hxs.first c ?_, fun c hc => hys.last c ?_⟩
  · rw [List.append_assoc, List.head?_append_of_ne_nil _ hxs.nonempty] at hc
    exact hc
  · rw [List.getLast?_append_of_ne_nil _ hys.nonempty] at hc
    exact hc

theorem intercalate {sep : List Char} {words : List (List Char)} (nonempty : words ≠ [])
    (bare : ∀ w ∈ words, IsBare w) : IsBare (sep.intercalate words) := by
  induction words with
  | nil => exact absurd rfl nonempty
  | cons w words ih =>
    obtain ⟨first, others⟩ := List.forall_mem_cons.1 bare
    cases words with
    | nil => rwa [List.intercalate_singleton]
    | cons v words =>
      rw [List.intercalate_cons_cons]
      exact first.between sep (ih (List.cons_ne_nil _ _) others)

end IsBare

/-! ## Names -/

theorem isAsciiNameChar_of_isHexDigit {c : Char} (h : isHexDigit c) : isAsciiNameChar c := by
  simp only [isHexDigit, Bool.or_eq_true, Bool.and_eq_true, decide_eq_true_eq] at h
  simp only [isAsciiNameChar, isAsciiAlphanumeric, isAsciiLetter, Bool.or_eq_true,
    Bool.and_eq_true, decide_eq_true_eq]
  rcases h with (digit | lower) | upper
  · exact .inl (.inr digit)
  · exact .inl (.inl (.inl ⟨lower.1, Char.le_trans lower.2 (by decide)⟩))
  · exact .inl (.inl (.inr ⟨upper.1, Char.le_trans upper.2 (by decide)⟩))

/-! ## Lower case -/

theorem isBare_lowerChar {c : Char} (h : isBlank c = false) : IsBare (lowerChar c) :=
  .of_forall (lowerChar_ne_nil c) (isCaseless_isBlank.others c h)

/-- A text with bare ends has bare ends in lower case. -/
theorem IsBare.lower {cs : List Char} (h : IsBare cs) : IsBare (lower cs) := by
  obtain ⟨c, rest, rfl⟩ := List.exists_cons_of_ne_nil h.nonempty
  have front := isBare_lowerChar (h.first c rfl)
  rcases List.eq_nil_or_concat' rest with rfl | ⟨middle, d, rfl⟩
  · rwa [Text.lower, List.flatMap_singleton]
  · have end_ : (c :: (middle ++ [d])).getLast? = some d := by
      rw [← List.cons_append, List.getLast?_concat]
    have back := isBare_lowerChar (h.last d end_)
    have whole := front.between (Text.lower middle) back
    simpa [Text.lower] using whole

theorem isBare_map_iff {f : Char → Char} (blank : ∀ c, isBlank (f c) = isBlank c)
    {cs : List Char} : IsBare (cs.map f) ↔ IsBare cs := by
  constructor
  · intro h
    refine ⟨by simpa using h.nonempty, fun c hc => ?_, fun c hc => ?_⟩
    · rw [← blank]
      exact h.first _ (by rw [List.head?_map, hc]; rfl)
    · rw [← blank]
      exact h.last _ (by rw [List.getLast?_map, hc]; rfl)
  · intro h
    refine ⟨by simpa using h.nonempty, fun c hc => ?_, fun c hc => ?_⟩
    · rw [List.head?_map] at hc
      obtain ⟨d, hd, rfl⟩ := Option.map_eq_some_iff.1 hc
      rw [blank, h.first d hd]
    · rw [List.getLast?_map] at hc
      obtain ⟨d, hd, rfl⟩ := Option.map_eq_some_iff.1 hc
      rw [blank, h.last d hd]

theorem IsBare.fullLower {cs : List Char} (h : IsBare cs) : IsBare (fullLower cs) := by
  rw [← isBare_map_iff Scan.isUnseen_veil.blank, map_veil_fullLower,
    isBare_map_iff Scan.isUnseen_veil.blank]
  exact h.lower

/-- The last letter of a unit is still a letter in lower case. -/
theorem IsBare.lower_unit {body unit : List Char} (h : IsBare (body ++ unit))
    (nonempty : body ≠ []) :
    IsBare (body ++ Text.lower unit) := by
  refine ⟨by simp [nonempty], fun c hc => h.first c ?_, ?_⟩
  · rw [List.head?_append_of_ne_nil _ nonempty] at hc ⊢
    exact hc
  · rcases List.eq_nil_or_concat' unit with rfl | ⟨front, d, rfl⟩
    · exact h.last
    · have back := isBare_lowerChar (h.last d (by simp))
      intro c hc
      rw [lower_append, ← List.append_assoc] at hc
      refine back.last c ?_
      have single : Text.lower [d] = lowerChar d := by simp [Text.lower]
      rwa [single, List.getLast?_append_of_ne_nil _ back.nonempty] at hc

theorem isBare_of_mem_topWords {cs w : List Char} (h : w ∈ Scan.topWords cs) : IsBare w :=
  .of_trim (Scan.of_mem_topWords h).2 (of_decide_eq_true (List.mem_filter.1 h).2)

/-! ## Verdicts -/

section Verdicts

variable {rule : PropertyRule} {property : String} {w : List Char} {value : String}
  {type : ValueType} {detail : Detail}

theorem IsWordValue.isBare (h : IsWordValue rule w value) (trimmed : trim w = w) (bare : IsBare w) :
    IsBare value.toList := by
  cases h with
  | keyword =>
    rw [String.toList_ofList]
    exact bare.fullLower
  | call => rwa [trimmed, String.toList_ofList]
  | dimension hd =>
    obtain ⟨body, unit, rfl, some_, -, -, written⟩ := exists_of_ofChars? trimmed hd
    rw [written]
    exact bare.lower_unit some_
  | zero => exact .of_forall (by decide) (List.forall_mem_singleton.2 rfl)

theorem isBare_of_normalizeHex? {hex : String} (h : normalizeHex? w = some hex) :
    IsBare hex.toList := by
  have sharp : isBlank '#' = false := by decide
  simp only [normalizeHex?] at h
  split at h
  · next digits _ =>
    split at h
    · cases h
    · next all =>
      rw [Bool.not_eq_true', Bool.not_eq_false, List.all_eq_true] at all
      have solid : ∀ d ∈ lower digits, isBlank d = false :=
        isCaseless_isBlank.none_lower_iff.2 fun c hc =>
          isBlank_of_isAsciiNameChar (isAsciiNameChar_of_isHexDigit (all c hc))
      split at h <;> cases h <;> rw [String.toList_ofList]
      · refine .of_forall (by simp) (List.forall_mem_cons.2 ⟨sharp, fun c hc => ?_⟩)
        obtain ⟨d, hd, hc⟩ := List.mem_flatMap.1 hc
        have same : c = d := by simpa using hc
        exact same ▸ solid d hd
      all_goals exact .of_forall (by simp) (List.forall_mem_cons.2 ⟨sharp, solid⟩)
  · cases h

theorem IsColorValue.isBare {keywords : List String} (h : IsColorValue keywords w value)
    (bare : IsBare w) : IsBare value.toList := by
  cases h with
  | name =>
    rw [String.toList_ofList]
    exact bare.fullLower
  | hex found => exact isBare_of_normalizeHex? found
  | @call call found known =>
    obtain ⟨some_, letters⟩ := colorFunctionNames_letters _ known
    have solid : ∀ c ∈ call.name.toList, isBlank c = false := by
      intro c hc
      refine isBlank_of_isAsciiNameChar ?_
      simp [isAsciiNameChar, isAsciiAlphanumeric, letters c hc]
    have name : IsBare call.name.toList := .of_forall some_ solid
    have close : IsBare [')'] := .of_forall (by simp) (by decide)
    have whole := name.between ('(' :: trim call.arguments) close
    simpa using whole

theorem isBare_of_validateFree (bare : IsBare w)
    (h : validateFree w = .accepted value type detail) : IsBare value.toList := by
  simp only [validateFree] at h
  split at h
  · cases h
  · obtain ⟨rfl, -, -⟩ := Outcome.accepted.inj h
    rwa [String.toList_ofList]

theorem isBare_of_validateComplex (trimmed : trim w = w) (bare : IsBare w)
    (h : validateComplex rule property w = .accepted value type detail) :
    IsBare value.toList := by
  simp only [validateComplex] at h
  split at h
  · next found => exact (isWordValue_of_keyword? found h).isBare trimmed bare
  · split at h
    · split at h
      · obtain ⟨rfl, -, -⟩ := Outcome.accepted.inj h
        rwa [String.toList_ofList]
      · cases h
    · split at h
      · split at h
        · obtain ⟨rfl, -, -⟩ := Outcome.accepted.inj h
          rwa [String.toList_ofList]
        · cases h
      · split at h
        · exact isBare_of_validateFree bare h
        · cases h

theorem IsKindValue.isBare (h : IsKindValue rule property w value) (trimmed : trim w = w)
    (bare : IsBare w) : IsBare value.toList := by
  cases h with
  | word one => exact one.isBare trimmed bare
  | words several all =>
    rw [String.toList_intercalate]
    refine .intercalate ?_ (List.forall_mem_map.2 fun v hv => ?_)
    · intro none_
      have count := all.length_eq
      rw [List.map_eq_nil_iff.1 none_, List.length_nil] at count
      omega
    · obtain ⟨u, hu, one⟩ := exists_of_mem_right all hv
      exact one.isBare (Scan.of_mem_topWords hu).2 (isBare_of_mem_topWords hu)
  | color one => exact one.isBare bare
  | calls => rwa [String.toList_ofList]
  | complex _ found => exact isBare_of_validateComplex trimmed bare found

end Verdicts

/-- An accepted value is not empty and neither starts nor ends with a blank. -/
theorem isBare_of_validateValue {table : PropertyTable} {property s value : String}
    {type : ValueType} {detail : Detail}
    (h : validateValue table property s = .accepted value type detail) : IsBare value.toList := by
  have trimmed := Scan.trim_trim s.toList
  obtain ⟨some_, ⟨-, rfl, -⟩ | reference | ⟨-, free⟩ | ⟨rule, -, accepted⟩⟩ :=
    validateValue_cases h
  all_goals have bare : IsBare (trim s.toList) := .of_trim trimmed some_
  · rw [String.toList_ofList]
    exact bare.fullLower
  · obtain ⟨rfl, -⟩ := validateFunction_eq_accepted reference
    rwa [trimmed, String.toList_ofList]
  · exact isBare_of_validateFree bare free
  · exact (isKindValue_of_validateKind trimmed accepted).isBare trimmed bare

/-- The value of a class that was read neither starts nor ends with a blank. -/
theorem UtilityClass.isBare_value_of_read {table : PropertyTable} {limits : InputLimits}
    {token : Json} {c : UtilityClass} (h : read table limits token = .ok c) :
    IsBare c.value.toList := by
  obtain ⟨_, _, -, -, h⟩ := read_eq_ok h
  obtain ⟨-, _, _, _, _, -, -, h⟩ := ofClean_eq_ok h
  obtain ⟨_, _, _, _, _, -, -, accepted, rfl⟩ := ofParts_eq_ok h
  exact isBare_of_validateValue accepted

end BracketCss
