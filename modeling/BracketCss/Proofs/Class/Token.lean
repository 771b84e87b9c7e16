import BracketCss.Proofs.Class.Property
import BracketCss.Proofs.Class.Variant
import BracketCss.Proofs.Threat.Bracket

/-!
# Tokens of a utility and a raw value

A token without variants, in the form `utility-[value]`. Cleaning leaves the utility and the
brackets as they are and cleans what stands between them by itself, and no threat reaches over the
bracket. So two tokens with the same value go through the same stages up to the table, and what
comes out depends on the utility only by the property that it sets.

## Main definitions

* `UtilityClass.tokenOf utility v`: the token of a utility and a raw value
* `UtilityClass.IsReadable limits v`: what a raw value must be, whatever the utility is

## Main results

* `Clean.clean?_tokenOf`: how such a token is cleaned
* `UtilityClass.read_tokenOf_eq_ok_iff`: what it takes to read it
* `UtilityClass.read_tokenOf_of_property`: another utility that sets the same property
-/

namespace BracketCss

open Text

namespace UtilityClass

/-- The token of a utility and a raw value. -/
def tokenOf (utility v : String) : String := utility ++ "-[" ++ v ++ "]"

theorem toList_tokenOf (utility v : String) :
    (tokenOf utility v).toList = (utility.toList ++ ['-', '[']) ++ (v.toList ++ [']']) := by
  simp [tokenOf]

theorem length_tokenOf (utility v : String) :
    (tokenOf utility v).toList.length = utility.toList.length + v.toList.length + 3 := by
  rw [toList_tokenOf]
  simp only [List.length_append, List.length_cons, List.length_nil]
  omega

theorem tokenOf_ne_empty (utility v : String) : tokenOf utility v ≠ "" := by
  intro empty
  have count := congrArg (fun s => s.toList.length) empty
  simp only [length_tokenOf, String.toList_empty, List.length_nil] at count
  omega

theorem IsUtility.isAsciiNameChar {utility : List Char} (h : IsUtility utility) :
    ∀ c ∈ utility, isAsciiNameChar c :=
  isAsciiNameChar_of_isUtilityName (isUtilityName_iff.2 h)

end UtilityClass

open UtilityClass

/-! ## Cleaning -/

namespace Clean

/-- A character of a name is no control character. -/
theorem not_isControl_of_isAsciiNameChar {c : Char} (h : isAsciiNameChar c) :
    isControl c = false := by
  rw [Bool.eq_false_iff]
  intro control
  have ascii : c.toNat < 128 := by
    simp only [isControl, Bool.or_eq_true, Bool.and_eq_true, decide_eq_true_eq, beq_iff_eq]
      at control
    omega
  have table : ∀ n < 128, isControl (Char.ofNat n) →
      isAsciiNameChar (Char.ofNat n) = false := by decide
  have other := table c.toNat ascii
  rw [Char.ofNat_toNat] at other
  rw [other control] at h
  cases h

/-- A run of blanks ends before a character that is none, so that what stands on either side of it
is collapsed by itself. -/
theorem collapse_append_cons_of_unblank {d : Char} (solid : isBlank d = false)
    (cs rest : List Char) : collapse (cs ++ d :: rest) = collapse cs ++ d :: collapse rest := by
  induction cs with
  | nil => simp [collapse, solid]
  | cons c cs ih =>
    have next : (cs ++ d :: rest).head?.any isBlank = cs.head?.any isBlank := by
      cases cs with
      | nil => exact solid
      | cons => rfl
    rw [List.cons_append, collapse, collapse, next, ih]
    split
    · split <;> rfl
    · rfl

/-- Cleaning leaves a utility and the brackets as they are. -/
theorem tidy_tokenOf {utility : String} (named : IsUtility utility.toList) (v : String) :
    tidy (tokenOf utility v).toList = (tokenOf utility (.ofList (tidy v.toList))).toList := by
  have front : ∀ c ∈ utility.toList ++ ['-', '['], isControl c = false ∧ isBlank c = false := by
    intro c hc
    rcases List.mem_append.1 hc with mem | mem
    · have letter := named.isAsciiNameChar c mem
      exact ⟨not_isControl_of_isAsciiNameChar letter, isBlank_of_isAsciiNameChar letter⟩
    · have table : ∀ d ∈ ['-', '['], isControl d = false ∧ isBlank d = false := by decide
      exact table c mem
  have closing : tidy (v.toList ++ [']']) = tidy v.toList ++ [']'] := by
    rw [tidy, List.filter_append]
    exact collapse_append_cons_of_unblank (by decide) _ []
  rw [toList_tokenOf, toList_tokenOf, String.toList_ofList, tidy_append_of_printed front, closing]

/-- **How a token is cleaned**: its raw value is, and the rest stays. -/
theorem clean?_tokenOf {limit : Int} {utility : String} (named : IsUtility utility.toList)
    (v : String) :
    clean? limit (tokenOf utility v) =
      if limit < (tokenOf utility v).toList.length then none
      else if isShrunk (tokenOf utility v).toList then none
      else some (tokenOf utility (.ofList (tidy v.toList))) := by
  have trimmed (u : String) : trim (tokenOf utility u).toList = (tokenOf utility u).toList := by
    refine trim_eq_self (fun c hc => ?_) fun c hc => ?_
    · obtain ⟨d, rest, same, letter, -⟩ := named
      rw [toList_tokenOf, same] at hc
      obtain rfl : d = c := by simpa using hc
      exact isBlank_of_isAsciiNameChar (by simp [isAsciiNameChar, isAsciiAlphanumeric, letter])
    · rw [toList_tokenOf, ← List.append_assoc, List.getLast?_concat] at hc
      rw [← Option.some.inj hc]
      decide
  simp only [clean?, tidy_tokenOf named, trimmed, String.ofList_toList]

/-- A token with a longer utility loses less of its length. -/
theorem isShrunk_tokenOf {utility other : String} (named : IsUtility utility.toList)
    (named' : IsUtility other.toList) (longer : utility.toList.length ≤ other.toList.length)
    (long : 4 ≤ other.toList.length) {v : String}
    (h : isShrunk (tokenOf utility v).toList = false) :
    isShrunk (tokenOf other v).toList = false := by
  simp only [isShrunk, tidy_tokenOf named, tidy_tokenOf named', length_tokenOf, shrinkFreeLength,
    Bool.and_eq_false_iff, decide_eq_false_iff_not] at h ⊢
  omega

end Clean

/-! ## Values -/

namespace UtilityClass

variable {table : PropertyTable} {limits : InputLimits} {name other utility v : String}
  {variants : Variants} {raw : List Char} {c : UtilityClass}

/-- **What it takes to accept a value.** -/
theorem ofParts_eq_ok_iff {utility : List Char} :
    ofParts table limits name variants utility raw = .ok c ↔
      (Clean.clean? limits.valueLength (.ofList raw)).isSome ∧
        ∃ own components value type detail,
          table.property? (.ofList utility) = some own ∧
          Components.ofText (valueRule table (propertyFor (.ofList utility) raw own)).shorthand
            (valueRule table (propertyFor (.ofList utility) raw own)).separator (.ofList raw) =
              .ok components ∧
          validateValue table (propertyFor (.ofList utility) raw own) components.normalized =
            .accepted value type detail ∧
          c = ⟨name, .ofList utility, propertyFor (.ofList utility) raw own, value, .ofList raw,
            components.parts, components.isCall, type, detail, variants⟩ := by
  constructor
  · intro h
    refine ⟨?_, ofParts_eq_ok h⟩
    simp only [ofParts] at h
    split at h
    · cases h
    · next cleaned =>
      rwa [Bool.not_eq_true, Option.isNone_eq_false_iff] at cleaned
  · rintro ⟨cleaned, own, components, value, type, detail, known, split_, accepted, rfl⟩
    rw [← Option.isNone_eq_false_iff] at cleaned
    rw [valueRule] at split_
    simp only [ofParts, cleaned, known, split_, accepted]
    rfl

/-- A value is accepted alike for two utilities that set the same property for it. -/
theorem ofParts_of_property {own : String}
    (h : ofParts table limits name variants utility.toList raw = .ok c)
    (known : table.property? other = some own) (same : propertyFor other raw own = c.property) :
    ofParts table limits v variants other.toList raw =
      .ok { c with name := v, utility := other } := by
  obtain ⟨cleaned, _, components, value, type, detail, -, split_, accepted, rfl⟩ :=
    ofParts_eq_ok_iff.1 h
  dsimp only at same ⊢
  rw [← same] at split_ accepted ⊢
  rw [← String.ofList_toList (s := other)] at known split_ accepted
  refine ofParts_eq_ok_iff.2 ⟨cleaned, own, components, value, type, detail, known, split_,
    accepted, ?_⟩
  rw [String.ofList_toList]

/-! ## Reading -/

/-- A token is written with its utility and its raw value. -/
theorem isWritten_tokenOf (named : IsUtility utility.toList) (filled : v.toList ≠ [])
    (unclosed : ']' ∉ v.toList) : IsWritten (tokenOf utility v) .plain utility v where
  whole := ⟨[], .plain, by rw [toList_tokenOf]; simp⟩
  utility := named
  filled := filled
  unclosed := unclosed

/-- No threat reaches over the bracket of a token. -/
theorem isBlocking_tokenOf (named : IsUtility utility.toList) :
    (ThreatReport.ofText (tokenOf utility v)).isBlocking =
      (ThreatReport.ofText (.ofList ('[' :: (v.toList ++ [']'])))).isBlocking := by
  have whole : tokenOf utility v =
      .ofList ((utility.toList ++ ['-']) ++ '[' :: (v.toList ++ [']'])) := by
    rw [← String.ofList_toList (s := tokenOf utility v), toList_tokenOf]
    simp
  rw [whole]
  refine ThreatReport.isBlocking_behind (fun c hc => ?_) fun c hc => ?_
  · rcases List.mem_append.1 hc with mem | mem
    · exact named.isAsciiNameChar c mem
    · rw [List.mem_singleton.1 mem]
      decide
  · rw [List.getLast?_concat] at hc
    rw [← Option.some.inj hc]
    decide

/-- What a raw value must be to be read, whatever the utility is. -/
structure IsReadable (limits : InputLimits) (v : String) : Prop where
  /-- No threat that blocks shows behind the opening bracket. -/
  harmless : (ThreatReport.ofText (.ofList ('[' :: (v.toList ++ [']'])))).isBlocking = false
  /-- Some time is left. -/
  inTime : ¬ limits.budget < 0
  /-- The raw value is not empty. -/
  filled : v.toList ≠ []
  /-- The raw value holds no closing bracket. -/
  unclosed : ']' ∉ v.toList

/-- **What it takes to read a cleaned token**: nothing but the last stage depends on the utility. -/
theorem ofClean_tokenOf_eq_ok_iff (named : IsUtility utility.toList) :
    ofClean table limits (tokenOf utility v) = .ok c ↔
      IsReadable limits v ∧
        ofParts table limits (tokenOf utility v) .plain utility.toList v.toList = .ok c := by
  have stage (harmless : (ThreatReport.ofText (tokenOf utility v)).isBlocking = false)
      (filled : v.toList ≠ []) (unclosed : ']' ∉ v.toList) :
      ofClean table limits (tokenOf utility v) =
        if limits.budget < 0 then .error (Rejection.slow.failure (some (tokenOf utility v)) [])
        else ofParts table limits (tokenOf utility v) .plain utility.toList v.toList := by
    obtain ⟨body, split_, parts⟩ := isWritten_iff.1 (isWritten_tokenOf named filled unclosed)
    rw [ofClean_of_splitVariants harmless split_, parts]
  constructor
  · intro h
    obtain ⟨harmless, variants, body, _, raw, split_, parts, -⟩ := ofClean_eq_ok h
    have cut := dropWhile_of_splitVariants split_ parts
    have before : ∀ d ∈ utility.toList ++ ['-'], (d != '[') = true := by
      intro d hd
      rcases List.mem_append.1 hd with mem | mem
      · exact bne_iff_ne.2 fun same => absurd (same ▸ named.isAsciiNameChar d mem) (by decide)
      · rw [List.mem_singleton.1 mem]
        decide
    obtain rfl : v.toList = raw := by
      have whole : (tokenOf utility v).toList =
          (utility.toList ++ ['-']) ++ '[' :: (v.toList ++ [']']) := by simp [toList_tokenOf]
      rw [whole, List.dropWhile_append_of_pos before, List.dropWhile_cons_of_neg (by decide)] at cut
      exact List.append_cancel_right (List.cons.inj cut).2
    obtain ⟨-, -, filled, unclosed⟩ := bracketParts?_eq_some_iff.1 parts
    rw [stage harmless filled unclosed] at h
    split at h
    · cases h
    · next inTime =>
      rw [isBlocking_tokenOf named] at harmless
      exact ⟨⟨harmless, inTime, filled, unclosed⟩, h⟩
  · rintro ⟨readable, h⟩
    have harmless := readable.harmless
    rw [← isBlocking_tokenOf named] at harmless
    rw [stage harmless readable.filled readable.unclosed, if_neg readable.inTime, h]

/-- **What it takes to read a token**: its raw value is cleaned and read by itself. -/
theorem read_tokenOf_eq_ok_iff (named : IsUtility utility.toList) :
    read table limits (.string (tokenOf utility v)) = .ok c ↔
      (tokenOf utility v).toList.length ≤ limits.classLength ∧
        Clean.isShrunk (tokenOf utility v).toList = false ∧ c.raw = .ofList (Clean.tidy v.toList) ∧
        IsReadable limits c.raw ∧
        ofParts table limits (tokenOf utility c.raw) .plain utility.toList c.raw.toList =
          .ok c := by
  have filled (u : String) : (tokenOf utility u).isEmpty = false := by
    rw [Bool.eq_false_iff]
    exact mt String.isEmpty_iff.1 (tokenOf_ne_empty utility u)
  simp only [read, ofText, Clean.clean?_tokenOf named]
  constructor
  · intro h
    split at h
    · cases h
    · next name cleaned =>
      rw [Option.ite_none_left_eq_some, Option.ite_none_left_eq_some, Bool.not_eq_true] at cleaned
      obtain ⟨within, kept, cleaned⟩ := cleaned
      rw [← Option.some.inj cleaned, filled, if_neg Bool.false_ne_true,
        ofClean_tokenOf_eq_ok_iff named] at h
      obtain ⟨readable, found⟩ := h
      have raw : c.raw = .ofList (Clean.tidy v.toList) := by
        obtain ⟨_, _, _, _, _, -, -, -, rfl⟩ := ofParts_eq_ok found
        exact String.ofList_toList
      rw [← raw] at readable found
      exact ⟨Int.not_lt.1 within, kept, raw, readable, found⟩
  · rintro ⟨within, kept, raw, readable, found⟩
    rw [if_neg (Int.not_lt.2 within), kept, if_neg Bool.false_ne_true, ← raw]
    dsimp only
    rw [filled, if_neg Bool.false_ne_true, ofClean_tokenOf_eq_ok_iff named]
    exact ⟨readable, found⟩

/-- The property of a class whose utility is not overloaded. -/
theorem property_of_read_tokenOf {own : String} (named : IsUtility utility.toList)
    (known : table.property? utility = some own) (plain : utility ≠ "text")
    (h : read table limits (.string (tokenOf utility v)) = .ok c) : c.property = own := by
  obtain ⟨-, -, -, -, found⟩ := (read_tokenOf_eq_ok_iff named).1 h
  obtain ⟨other, _, _, _, _, again, -, -, parts⟩ := ofParts_eq_ok found
  rw [String.ofList_toList] at again parts
  obtain rfl := Option.some.inj (known.symm.trans again)
  rw [parts]
  exact ((propertyFor_cases utility c.raw.toList own).resolve_left fun moved => plain moved.1).2

/-- **Another utility that sets the same property** is read with the same value, if the token is
short enough. Cleaning spares a token with a longer utility, of four characters or more. -/
theorem read_tokenOf_of_property {own : String} (named : IsUtility utility.toList)
    (named' : IsUtility other.toList) (longer : utility.toList.length ≤ other.toList.length)
    (long : 4 ≤ other.toList.length)
    (within : (tokenOf other v).toList.length ≤ limits.classLength)
    (h : read table limits (.string (tokenOf utility v)) = .ok c)
    (known : table.property? other = some own)
    (same : propertyFor other c.raw.toList own = c.property) :
    read table limits (.string (tokenOf other v)) =
      .ok { c with name := tokenOf other c.raw, utility := other } := by
  obtain ⟨-, kept, raw, readable, found⟩ := (read_tokenOf_eq_ok_iff named).1 h
  exact (read_tokenOf_eq_ok_iff named').2 ⟨within,
    Clean.isShrunk_tokenOf named named' longer long kept, raw, readable,
    ofParts_of_property found known same⟩

end UtilityClass

end BracketCss
