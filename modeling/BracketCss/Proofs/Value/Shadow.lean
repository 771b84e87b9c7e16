import BracketCss.Proofs.Value.Color.Call
import BracketCss.Proofs.Value.Math.Accepted
import BracketCss.Proofs.Value.Word
import BracketCss.Value.Shadow

/-!
# The grammar of shadows

The words of a shadow are lengths, with an optional colour before or after them and an optional
`inset` before or after it all. The check takes `inset` and the colour away one after the other,
each from the first end at which it is found. With at least one length this is never the wrong end:
a length is neither `inset` nor a colour, and `inset` is no colour, so that a text has no more than
one reading.

## Main definitions

* `AtOneEnd p inner words`: the words are the inner ones, with an optional one at either end
* `IsShadowLength index w`: a length of a shadow, given its place
* `IsShadow least greatest words`: the words of a shadow

## Main results

* `IsShadowLength.not_other`: a length is neither `inset` nor a colour
* `shadowLengths_eq`: what is taken away is what the grammar allows
* `checkShadow_eq_ok_iff`: which texts are accepted
-/

namespace BracketCss

open Text

/-! ## An optional word at either end -/

/-- The inner words, with an optional word of the class before or after them. -/
inductive AtOneEnd (p : List Char → Bool) (inner : List (List Char)) : List (List Char) → Prop
  | neither : AtOneEnd p inner inner
  | first {w : List Char} : p w → AtOneEnd p inner (w :: inner)
  | last {w : List Char} : p w → AtOneEnd p inner (inner ++ [w])

section Ends

variable {p : List Char → Bool} {words inner : List (List Char)}

theorem atOneEnd_drop (first : words.head?.any p) : AtOneEnd p (words.drop 1) words := by
  cases words with
  | nil => cases first
  | cons w words => exact .first first

theorem atOneEnd_dropLast (last : words.getLast?.any p) : AtOneEnd p words.dropLast words := by
  rcases List.eq_nil_or_concat' words with rfl | ⟨front, w, rfl⟩
  · cases last
  · rw [List.getLast?_concat] at last
    rw [List.dropLast_concat]
    exact .last last

/-- Where no inner word is of the class, a word at an end tells which end it is. -/
theorem AtOneEnd.cases_ends (h : AtOneEnd p inner words) (some_ : inner ≠ [])
    (other : ∀ w ∈ inner, p w = false) :
    (words.head?.any p = false ∧ words.getLast?.any p = false ∧ words = inner) ∨
      (words.head?.any p = true ∧ words.getLast?.any p = false ∧ words.drop 1 = inner) ∨
      (words.head?.any p = false ∧ words.getLast?.any p = true ∧ words.dropLast = inner) := by
  have head : inner.head?.any p = false := by
    obtain ⟨w, rest, rfl⟩ := List.exists_cons_of_ne_nil some_
    exact other w List.mem_cons_self
  have last : inner.getLast?.any p = false := by
    rw [List.getLast?_eq_some_getLast some_]
    exact other _ (List.getLast_mem some_)
  cases h with
  | neither => exact .inl ⟨head, last, rfl⟩
  | @first w found =>
    refine .inr (.inl ⟨found, ?_, rfl⟩)
    rwa [List.getLast?_cons_of_ne_nil some_]
  | @last w found =>
    refine .inr (.inr ⟨?_, ?_, List.dropLast_concat⟩)
    · rwa [List.head?_append_of_ne_nil _ some_]
    · rwa [List.getLast?_concat]

theorem atOneEnd_dropInset (words : List (List Char)) :
    AtOneEnd isInset (dropInset words) words := by
  unfold dropInset
  split
  · next first => exact atOneEnd_drop first
  · split
    · next last => exact atOneEnd_dropLast last
    · exact .neither

theorem atOneEnd_dropColor (words : List (List Char)) :
    AtOneEnd isColor (dropColor words) words := by
  unfold dropColor
  split
  · next last => exact atOneEnd_dropLast last
  · split
    · next first => exact atOneEnd_drop first
    · exact .neither

theorem AtOneEnd.dropInset_eq (h : AtOneEnd isInset inner words) (some_ : inner ≠ [])
    (other : ∀ w ∈ inner, isInset w = false) : dropInset words = inner := by
  rcases h.cases_ends some_ other with ⟨head, last, rfl⟩ | ⟨head, last, rest⟩ | ⟨head, last, rest⟩
  · rw [dropInset, if_neg (by simp [head]), if_neg (by simp [last])]
  · rw [dropInset, if_pos head, rest]
  · rw [dropInset, if_neg (by simp [head]), if_pos last, rest]

theorem AtOneEnd.dropColor_eq (h : AtOneEnd isColor inner words) (some_ : inner ≠ [])
    (other : ∀ w ∈ inner, isColor w = false) : dropColor words = inner := by
  rcases h.cases_ends some_ other with ⟨head, last, rfl⟩ | ⟨head, last, rest⟩ | ⟨head, last, rest⟩
  · rw [dropColor, if_neg (by simp [last]), if_neg (by simp [head])]
  · rw [dropColor, if_neg (by simp [last]), if_pos head, rest]
  · rw [dropColor, if_pos last, rest]

end Ends

/-! ## The grammar -/

/-- A length of a shadow at a place: an accepted arithmetic function, or a number that is zero
without a unit or has a unit of length other than the percent sign. The third length, counted from
zero the second, is not negative if it is a number. -/
def IsShadowLength (index : Nat) (w : List Char) : Prop :=
  (∃ call, Scan.call? w = some call ∧ call.name ∈ mathFunctions ∧ checkMath w = .ok ()) ∨
    ∃ value unit, IsQuantityOf w value unit ∧
      (unit = "" ∧ value = 0 ∨ unit ∈ lengthUnits ∧ unit ≠ "%") ∧ (index = 2 → 0 ≤ value)

/-- The words of a shadow: lengths, as many as the bounds allow, with an optional colour at one end
of them and an optional `inset` at one end of it all. -/
def IsShadow (least greatest : Int) (words : List (List Char)) : Prop :=
  ∃ colored lengths, AtOneEnd isInset colored words ∧ AtOneEnd isColor lengths colored ∧
    least ≤ lengths.length ∧ lengths.length ≤ greatest ∧
    ∀ index w, lengths[index]? = some w → IsShadowLength index w

/-! ## Lengths, colours and `inset` -/

/-- A text whose first byte is that of a small letter starts with a letter. -/
theorem head?_of_bytes {s : String}
    (h : s.toByteArray.data.toList.head?.any fun b => 97 ≤ b ∧ b ≤ 122) :
    s.toList.head?.any isAsciiLetter := by
  rw [bytes_eq] at h
  cases chars : s.toList with
  | nil =>
    rw [chars] at h
    cases h
  | cons c rest =>
    rw [chars, List.flatMap_cons] at h
    obtain ⟨b, others, bytes⟩ :=
      List.exists_cons_of_ne_nil (String.utf8EncodeChar_ne_nil (c := c))
    rw [bytes, List.cons_append, List.head?_cons, Option.any_some, decide_eq_true_eq,
      UInt8.le_iff_toNat_le, UInt8.le_iff_toNat_le] at h
    have ascii : b < 128 := UInt8.lt_iff_toNat_lt.2 (Nat.lt_of_le_of_lt h.2 (by decide))
    have small : 97 ≤ c.toNat ∧ c.toNat ≤ 122 := by
      rwa [toNat_of_head?_bytes (by rw [bytes]; rfl) ascii]
    have letter : 'a' ≤ c ∧ c ≤ 'z' := small
    simp [isAsciiLetter, letter]

theorem head?_names_letter :
    ∀ k ∈ "inset" :: (colorKeywords ++ namedColors), k.toList.head?.any isAsciiLetter := by
  have table : ∀ k ∈ "inset" :: (colorKeywords ++ namedColors),
      k.toByteArray.data.toList.head?.any fun b => 97 ≤ b ∧ b ≤ 122 := by decide +kernel
  exact fun k hk => head?_of_bytes (table k hk)

theorem isPlainText_names : ∀ k ∈ "inset" :: (colorKeywords ++ namedColors), IsPlainText k :=
  List.forall_mem_cons.2 ⟨.of_bytes (by decide), isPlainText_colorNames⟩

section Words

variable {w : List Char}

/-- What starts like a number is no name in any letter case. -/
theorem not_mem_names_of_number (h : ∃ c rest, w = c :: rest ∧ isNumeralChar c) :
    String.ofList (fullLower w) ∉ "inset" :: (colorKeywords ++ namedColors) := by
  obtain ⟨c, rest, rfl, number⟩ := h
  intro listed
  have letter := head?_names_letter _ listed
  rw [String.toList_ofList, head?_fullLower (isLow_of_isNumeralChar number)] at letter
  rw [not_isNumeralChar_of_isAsciiLetter letter] at number
  cases number

/-- A colour is a name, or a number sign with digits, or an accepted call of a colour function. -/
theorem isColor_cases (trimmed : trim w = w) (h : isColor w) :
    String.ofList (fullLower w) ∈ colorKeywords ++ namedColors ∨
      (∃ digits, w = '#' :: digits ∧ ∀ c ∈ digits, isHexDigit c) ∨
      ∃ call, Scan.call? w = some call ∧ call.name ∈ colorFunctionNames ∧
        checkColorCall call.name call.arguments = .ok () := by
  simp only [isColor, validateColor, trimText, fullLowerText, String.toList_ofList, trimmed] at h
  split at h
  · next listed =>
    rw [List.contains_nil, Bool.false_or, List.contains_iff_mem] at listed
    exact .inl (List.mem_append_left _ listed)
  · split at h
    · next listed => exact .inl (List.mem_append_right _ (List.contains_iff_mem.1 listed))
    · split at h
      · next sharp =>
        obtain ⟨digits, rfl⟩ := List.head?_eq_some_iff.1 sharp
        split at h
        · next hex found =>
          have all : digits.all isHexDigit := by
            by_contra other
            rw [Bool.not_eq_true] at other
            simp [normalizeHex?, trimmed, other] at found
          exact .inr (.inl ⟨digits, rfl, List.all_eq_true.1 all⟩)
        · cases h
      · split at h
        · next call found =>
          split at h
          · next fine =>
            obtain ⟨found, known⟩ := Option.filter_eq_some_iff.1 found
            exact .inr (.inr ⟨call, found, List.contains_iff_mem.1 known, fine⟩)
          · cases h
        · cases h

/-- No colour is the word `inset`. -/
theorem not_isInset_of_isColor (trimmed : trim w = w) (h : isColor w) : isInset w = false := by
  rw [Bool.eq_false_iff]
  intro inset
  have name : String.ofList (fullLower w) = "inset" := by
    rw [(fullLower_eq_iff (by decide) w).2 (eq_of_beq inset), String.ofList_toList]
  rcases isColor_cases trimmed h with listed | ⟨digits, rfl, -⟩ | ⟨call, found, -⟩
  · rw [name] at listed
    exact absurd listed (by decide +kernel)
  · cases eq_of_beq inset
  · exact not_mem_of_call? isPlainText_names found (by rw [name]; exact List.mem_cons_self)

/-- **A length of a shadow is neither `inset` nor a colour.** -/
theorem IsShadowLength.not_other {index : Nat} (h : IsShadowLength index w)
    (trimmed : trim w = w) : isInset w = false ∧ isColor w = false := by
  rcases h with ⟨call, found, math, -⟩ | ⟨value, unit, number, -⟩
  · have unnamed := not_mem_of_call? isPlainText_names found
    rw [List.mem_cons, not_or] at unnamed
    refine ⟨beq_eq_false_iff_ne.2 fun same => unnamed.1 ?_, ?_⟩
    · rw [(fullLower_eq_iff (by decide) w).2 same, String.ofList_toList]
    rw [Bool.eq_false_iff]
    intro color
    rcases isColor_cases trimmed color with listed | ⟨digits, rfl, -⟩ | ⟨other, again, known, -⟩
    · exact unnamed.2 listed
    · obtain ⟨c, rest, same, letter⟩ := head_of_call? found
      obtain rfl := (List.cons.inj same).1
      cases letter
    · obtain rfl := Option.some.inj (found.symm.trans again)
      have apart : ∀ name ∈ mathFunctions, name ∉ colorFunctionNames := by decide
      exact apart _ math known
  · have starts := number.head
    have unnamed := not_mem_names_of_number starts
    rw [List.mem_cons, not_or] at unnamed
    refine ⟨beq_eq_false_iff_ne.2 fun same => unnamed.1 ?_, ?_⟩
    · rw [(fullLower_eq_iff (by decide) w).2 same, String.ofList_toList]
    rw [Bool.eq_false_iff]
    intro color
    obtain ⟨c, rest, rfl, digit⟩ := starts
    rcases isColor_cases trimmed color with listed | ⟨digits, same, -⟩ | ⟨other, again, known, -⟩
    · exact unnamed.2 listed
    · obtain rfl := (List.cons.inj same).1
      cases digit
    · obtain ⟨d, others, same, letter⟩ := head_of_call? again
      obtain ⟨rfl, -⟩ := List.cons.inj same
      rw [not_isNumeralChar_of_isAsciiLetter letter] at digit
      cases digit

/-! ## Which shadows are accepted -/

/-- A number counts as a length of a shadow if it is zero without a unit or has a unit of length
other than the percent sign. -/
theorem isPlainLength_iff {d : Dimension} :
    d.isPlainLength ↔
      d.unit = "" ∧ d.number.toRat = 0 ∨ d.unit ∈ lengthUnits ∧ d.unit ≠ "%" := by
  have empty : "" ∉ lengthUnits := by decide
  rw [Dimension.isPlainLength, Dimension.isLength, Dimension.isPercentage, Dimension.isUnitless,
    Dimension.isZero, Bool.and_eq_true, Bool.not_eq_true', beq_eq_false_iff_ne]
  by_cases unitless : d.unit = ""
  · rw [if_pos (by simp [unitless]), Decimal.isZero_iff, unitless]
    simp [empty]
  · rw [if_neg (by simp [unitless]), List.contains_iff_mem]
    simp [unitless]

/-- The third length of a shadow is the blur, which is not negative. -/
theorem plainLengthVerdict_eq_ok_iff {d : Dimension} {index : Nat} {text : String} :
    (if !d.isPlainLength then .error (.notLength text)
      else if index = 2 ∧ d.isNegative then .error .negativeBlur else .ok () :
        Except ShadowFault Unit) = .ok () ↔
      d.isPlainLength ∧ (index = 2 → 0 ≤ d.number.toRat) := by
  have negative : d.isNegative ↔ ¬ 0 ≤ d.number.toRat := by
    rw [Dimension.isNegative, Decimal.isNegative_iff, not_le]
  by_cases length : d.isPlainLength
  · by_cases blur : index = 2 ∧ d.isNegative
    · simp [length, blur, negative.1 blur.2]
    · have fine : index = 2 → 0 ≤ d.number.toRat := fun third => by
        by_contra below
        exact blur ⟨third, negative.2 below⟩
      simpa [length, blur] using fine
  · simp [length]

theorem checkShadowLength_eq_ok_iff (trimmed : trim w = w) {index : Nat} :
    checkShadowLength index w = .ok () ↔ IsShadowLength index w := by
  rw [checkShadowLength]
  cases called : Scan.callOf? mathFunctions w with
  | some call =>
    obtain ⟨found, known⟩ := Option.filter_eq_some_iff.1 called
    have noNumber := ofChars?_eq_none_of_call? found
    dsimp only
    rw [mapError_eq_ok_iff]
    constructor
    · exact fun fine => .inl ⟨call, found, List.contains_iff_mem.1 known, fine⟩
    · rintro (⟨-, -, -, fine⟩ | ⟨value, unit, number, -⟩)
      · exact fine
      · rw [← trimmed] at number
        obtain ⟨d, read, -⟩ := Dimension.exists_ofChars?_iff.2 number
        rw [noNumber] at read
        cases read
  | none =>
    have noCall : ¬ ∃ call, Scan.call? w = some call ∧ call.name ∈ mathFunctions ∧
        checkMath w = .ok () := by
      rintro ⟨call, found, known, -⟩
      have listed : Scan.callOf? mathFunctions w = some call :=
        Option.filter_eq_some_iff.2 ⟨found, List.contains_iff_mem.2 known⟩
      rw [called] at listed
      cases listed
    rw [IsShadowLength, or_iff_right noCall]
    conv_rhs => rw [← trimmed]
    simp only [← Dimension.exists_ofChars?_iff]
    cases read : Dimension.ofChars? w with
    | none => simp
    | some d =>
      refine plainLengthVerdict_eq_ok_iff.trans ?_
      rw [isPlainLength_iff]
      constructor
      · rintro ⟨length, blur⟩
        exact ⟨_, _, ⟨d, rfl, rfl, rfl⟩, length, blur⟩
      · rintro ⟨_, _, ⟨other, same, rfl, rfl⟩, length, blur⟩
        obtain rfl := Option.some.inj same
        exact ⟨length, blur⟩

end Words

theorem checkShadowLengths_eq_ok_iff {words : List (List Char)}
    (trimmed : ∀ w ∈ words, trim w = w) {start : Nat} :
    checkShadowLengths start words = .ok () ↔
      ∀ index w, words[index]? = some w → IsShadowLength (start + index) w := by
  induction words generalizing start with
  | nil => simp [checkShadowLengths]
  | cons w words ih =>
    obtain ⟨first, others⟩ := List.forall_mem_cons.1 trimmed
    rw [checkShadowLengths, bind_unit_eq_ok_iff, checkShadowLength_eq_ok_iff first,
      ih others]
    constructor
    · rintro ⟨here, rest⟩ index v found
      cases index with
      | zero =>
        obtain rfl := Option.some.inj found
        exact here
      | succ index =>
        rw [Nat.add_comm index, ← Nat.add_assoc]
        exact rest index v found
    · intro all
      refine ⟨all 0 w rfl, fun index v found => ?_⟩
      rw [Nat.add_assoc, Nat.add_comm 1]
      exact all (index + 1) v found

theorem AtOneEnd.mem {p : List Char → Bool} {words inner : List (List Char)}
    (h : AtOneEnd p inner words) {w : List Char} (hw : w ∈ words) : w ∈ inner ∨ p w := by
  cases h with
  | neither => exact .inl hw
  | first found =>
    rcases List.mem_cons.1 hw with rfl | hw
    · exact .inr found
    · exact .inl hw
  | last found =>
    rcases List.mem_append.1 hw with hw | hw
    · exact .inl hw
    · exact .inr (List.mem_singleton.1 hw ▸ found)

theorem AtOneEnd.subset {p : List Char → Bool} {words inner : List (List Char)}
    (h : AtOneEnd p inner words) : inner ⊆ words := by
  cases h with
  | neither => exact List.Subset.refl _
  | first => exact List.subset_cons_self _ _
  | last => exact List.subset_append_left _ _

/-- **A text has no more than one reading**: where the grammar finds lengths, they are the words
that remain, whichever end `inset` and the colour stand at. -/
theorem shadowLengths_eq {words colored lengths : List (List Char)}
    (inset : AtOneEnd isInset colored words) (color : AtOneEnd isColor lengths colored)
    (some_ : lengths ≠ []) (trimmed : ∀ w ∈ words, trim w = w)
    (each : ∀ w ∈ lengths, ∃ index, IsShadowLength index w) : shadowLengths words = lengths := by
  have other : ∀ w ∈ lengths, isInset w = false ∧ isColor w = false := by
    intro w hw
    obtain ⟨index, length⟩ := each w hw
    exact length.not_other (trimmed w (inset.subset (color.subset hw)))
  have noInset : ∀ w ∈ colored, isInset w = false := by
    intro w hw
    rcases color.mem hw with length | found
    · exact (other w length).1
    · exact not_isInset_of_isColor (trimmed w (inset.subset hw)) found
  have beside : colored ≠ [] := by
    obtain ⟨w, mem⟩ := List.exists_mem_of_ne_nil _ some_
    exact List.ne_nil_of_mem (color.subset mem)
  rw [shadowLengths, inset.dropInset_eq beside noInset]
  exact color.dropColor_eq some_ fun w hw => (other w hw).2

/-- A shadow is accepted if the words that remain are lengths, as many as the bounds allow. -/
theorem checkShadow_eq_ok_iff_lengths {least greatest : Int} {cs : List Char} :
    checkShadow least greatest cs = .ok () ↔ Scan.topWords cs ≠ [] ∧
      (least ≤ (shadowLengths (Scan.topWords cs)).length ∧
        (shadowLengths (Scan.topWords cs)).length ≤ greatest) ∧
      ∀ index w, (shadowLengths (Scan.topWords cs))[index]? = some w → IsShadowLength index w := by
  have trimmed : ∀ w ∈ shadowLengths (Scan.topWords cs), trim w = w := fun w hw =>
    (Scan.of_mem_topWords ((atOneEnd_dropInset _).subset ((atOneEnd_dropColor _).subset hw))).2
  rw [checkShadow]
  simp only [throw_if_eq_ok_iff, List.isEmpty_iff]
  rw [checkShadowLengths_eq_ok_iff trimmed]
  simp only [Nat.zero_add, not_or, not_lt, ne_eq]

/-- **Which shadows are accepted**: those whose words are lengths, as many as the bounds allow, with
an optional colour at one end of them and an optional `inset` at one end of it all. -/
theorem checkShadow_eq_ok_iff {least : Int} (positive : 1 ≤ least) (greatest : Int)
    (cs : List Char) :
    checkShadow least greatest cs = .ok () ↔ IsShadow least greatest (Scan.topWords cs) := by
  have trimmed : ∀ w ∈ Scan.topWords cs, trim w = w := fun w hw => (Scan.of_mem_topWords hw).2
  rw [checkShadow_eq_ok_iff_lengths]
  constructor
  · rintro ⟨-, count, each⟩
    exact ⟨_, _, atOneEnd_dropInset _, atOneEnd_dropColor _, count.1, count.2, each⟩
  · rintro ⟨colored, lengths, inset, color, many, few, each⟩
    have some_ : lengths ≠ [] := by
      rintro rfl
      simp only [List.length_nil, Nat.cast_zero] at many
      omega
    have same := shadowLengths_eq inset color some_ trimmed fun w hw => by
      obtain ⟨index, found⟩ := List.mem_iff_getElem?.1 hw
      exact ⟨index, each index w found⟩
    rw [same]
    refine ⟨?_, ⟨many, few⟩, each⟩
    obtain ⟨w, mem⟩ := List.exists_mem_of_ne_nil _ some_
    exact List.ne_nil_of_mem (inset.subset (color.subset mem))

/-- A shadow with `inset` first and its colour last, and a blur radius that is computed. -/
theorem checkShadow_eq_ok_iff_inset :
    (1 : Int) ≤ 2 ∧
      checkShadow 2 4 "INSET 0 1px calc(2px - 3px) #f00".toList = .ok () ∧
      IsShadow 2 4 (Scan.topWords "INSET 0 1px calc(2px - 3px) #f00".toList) := by
  have accepted : checkShadow 2 4 "INSET 0 1px calc(2px - 3px) #f00".toList = .ok () := by
    decide +kernel
  exact ⟨by decide, accepted, (checkShadow_eq_ok_iff (by decide) 4 _).1 accepted⟩

end BracketCss
