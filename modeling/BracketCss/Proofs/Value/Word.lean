import BracketCss.Proofs.Text.FullCase
import BracketCss.Proofs.Value.Kept
import BracketCss.Proofs.Value.Quantity
import BracketCss.Proofs.Value.Verdict

/-!
# Accepted words

A keyword, a dimension or a colour that is accepted as a value is a single word, and what is
written for it is a plain word or a call again.

## Main definitions

* `IsPlainText s`: a keyword without special characters
* `WrittenWord w u`: a word and what is written for it

## Main results

* `isDull_of_ofChars?`: dimensions are plain words, and so is their normal form
* `IsWordValue.writtenWord`, `IsColorValue.writtenWord`: accepted words and colours
-/

namespace BracketCss

open Text

/-! ## Plain words -/

/-- What holds of the special characters holds of a character that is not plain. -/
theorem of_not_isDullChar {p : Char → Bool} (table : " ,()\"':=<%&\\/*".toList.all p) {c : Char}
    (h : isDullChar c = false) : p c := by
  rw [isDullChar, Bool.not_eq_false'] at h
  exact List.all_eq_true.1 table c (List.contains_iff_mem.1 h)

/-- A class without special characters is one of plain characters. -/
theorem isDullChar_of_class {p : Char → Bool}
    (table : " ,()\"':=<%&\\/*".toList.all fun d => !p d) {c : Char} (h : p c) : isDullChar c := by
  cases special : isDullChar c with
  | true => rfl
  | false =>
    have other := of_not_isDullChar table special
    rw [h] at other
    cases other

theorem isDullChar_of_isAsciiLetter {c : Char} (h : isAsciiLetter c) : isDullChar c :=
  isDullChar_of_class (by decide) h

theorem isDullChar_of_isHexDigit {c : Char} (h : isHexDigit c) : isDullChar c :=
  isDullChar_of_class (by decide) h

theorem isDullChar_of_isNameChar {c : Char} (h : isNameChar c) : isDullChar c :=
  isDullChar_of_class (by decide) h

/-- The special characters have no case. -/
theorem isCaseless_not_isDullChar : IsCaseless fun c => !isDullChar c :=
  .of_table (by decide) (by decide)

/-- A word is plain exactly if it is plain in lower case. -/
theorem isDullChar_lower_iff {w : List Char} :
    (∀ c ∈ lower w, isDullChar c) ↔ ∀ c ∈ w, isDullChar c := by
  simpa only [Bool.not_eq_false'] using
    @IsCaseless.none_lower_iff _ isCaseless_not_isDullChar w

/-- A word is plain exactly if it is plain in lower case, in every script. -/
theorem isDullChar_fullLower_iff {w : List Char} :
    (∀ c ∈ fullLower w, isDullChar c) ↔ ∀ c ∈ w, isDullChar c := by
  have near : ∀ c, !isDullChar c → c.toNat < 128 := fun c h =>
    of_decide_eq_true (of_not_isDullChar (p := (·.toNat < 128)) (by decide) (by simpa using h))
  have veiled : ∀ c, isDullChar (veil c) = isDullChar c := fun c =>
    Bool.not_inj (veil_of_ascii near c).2
  rw [forall_fullLower_iff veiled, isDullChar_lower_iff]

/-- A keyword without special characters. -/
def IsPlainText (s : String) : Prop := s.toList ≠ [] ∧ ∀ c ∈ s.toList, isDullChar c

/-- The bytes of the special characters. -/
def specialBytes : List UInt8 := [32, 44, 40, 41, 34, 39, 58, 61, 60, 37, 38, 92, 47, 42]

/-- A text is not empty, and none of its bytes is a special character. -/
def HasPlainBytes (s : String) : Bool :=
  s.toByteArray.data.toList != [] &&
    s.toByteArray.data.toList.all fun b => !specialBytes.contains b

/-- The bytes of a text are those of its characters. -/
theorem bytes_eq (s : String) :
    s.toByteArray.data.toList = s.toList.flatMap String.utf8EncodeChar := by
  conv_lhs => rw [← String.ofList_toList (s := s), String.toByteArray_ofList, List.utf8Encode]
  simp

/-- A character whose first byte is an ASCII byte is that byte. -/
theorem toNat_of_head?_bytes {c : Char} {b : UInt8}
    (h : (String.utf8EncodeChar c).head? = some b) (ascii : b < 128) : c.toNat = b.toNat := by
  rw [String.utf8EncodeChar, ← Char.toNat] at h
  rw [UInt8.lt_iff_toNat_lt] at ascii
  -- the first byte of a longer sequence is at least 192
  split at h
  · obtain rfl := Option.some.inj h
    simp
    omega
  · split at h
    · obtain rfl := Option.some.inj h
      simp at ascii
      omega
    · split at h
      · obtain rfl := Option.some.inj h
        simp at ascii
        omega
      · obtain rfl := Option.some.inj h
        simp at ascii
        omega

/-- Characters that are told from a byte of theirs do not occur in a text without these bytes. -/
theorem not_of_bytes {p : Char → Bool} {bytes : List UInt8}
    (told : ∀ c, p c → ∃ b ∈ bytes, b ∈ String.utf8EncodeChar c) {s : String}
    (h : s.toByteArray.data.toList.all fun b => !bytes.contains b) :
    ∀ c ∈ s.toList, p c = false := by
  rw [bytes_eq, List.all_eq_true] at h
  intro c hc
  rw [Bool.eq_false_iff]
  intro special
  obtain ⟨b, hb, mem⟩ := told c special
  have other := h b (List.mem_flatMap.2 ⟨c, hc, mem⟩)
  rw [List.contains_iff_mem.2 hb] at other
  cases other

/-- Special characters are single bytes, so that the bytes tell whether there are any. -/
theorem IsPlainText.of_bytes {s : String} (h : HasPlainBytes s) : IsPlainText s := by
  rw [HasPlainBytes, Bool.and_eq_true, bne_iff_ne] at h
  obtain ⟨some_, plain⟩ := h
  have told : ∀ c, !isDullChar c → ∃ b ∈ specialBytes, b ∈ String.utf8EncodeChar c := by
    intro c special
    rw [Bool.not_eq_true'] at special
    have encoded := of_not_isDullChar
      (p := fun d => specialBytes.any fun b => (String.utf8EncodeChar d).contains b) (by decide)
      special
    obtain ⟨b, hb, mem⟩ := List.any_eq_true.1 encoded
    exact ⟨b, hb, List.contains_iff_mem.1 mem⟩
  refine ⟨fun empty => some_ (by rw [bytes_eq, empty]; rfl), fun c hc => ?_⟩
  have kept := not_of_bytes told plain c hc
  rwa [Bool.not_eq_false'] at kept

theorem isPlainText_colorNames : ∀ k ∈ colorKeywords ++ namedColors, IsPlainText k := by
  have table : ∀ k ∈ colorKeywords ++ namedColors, HasPlainBytes k := by decide +kernel
  exact fun k hk => .of_bytes (table k hk)

theorem isPlainText_keywords :
    ∀ entry ∈ standardRules, ∀ k ∈ entry.2.keywords, IsPlainText k := by
  have table : ∀ entry ∈ standardRules, ∀ k ∈ entry.2.keywords, HasPlainBytes k := by
    decide +kernel
  exact fun entry mem k hk => .of_bytes (table entry mem k hk)

theorem isPlainText_globalKeywords : ∀ k ∈ globalKeywords, IsPlainText k := by
  have table : ∀ k ∈ globalKeywords, HasPlainBytes k := by decide
  exact fun k hk => .of_bytes (table k hk)

theorem IsPlainText.isDull {s : String} (h : IsPlainText s) : IsDull s.toList :=
  ⟨h.1, s.toList, h.2, .inl rfl⟩

theorem IsPlainText.isDull_of_fullLower {w : List Char}
    (h : IsPlainText (.ofList (fullLower w))) : IsDull w := by
  obtain ⟨some_, dull⟩ := h
  rw [String.toList_ofList] at some_ dull
  refine ⟨?_, w, isDullChar_fullLower_iff.1 dull, .inl rfl⟩
  rintro rfl
  exact some_ rfl

theorem isDull_of_forall {w : List Char} (some_ : w ≠ []) (dull : ∀ c ∈ w, isDullChar c) :
    IsDull w := ⟨some_, w, dull, .inl rfl⟩

/-- A plain word has no gap inside. -/
theorem IsDull.not_isGap {w : List Char} (h : IsDull w)
    (spaces : IsSpaced w) : ∀ c ∈ w, Scan.isGap c = false := by
  intro c hc
  have noBreak : c ≠ ' ' ∧ c ≠ ',' := by
    obtain ⟨-, body, dull, rfl | rfl⟩ := h
    · have other := (isDullChar_iff c).1 (dull c hc)
      exact ⟨other.1, other.2.1⟩
    · rcases List.mem_append.1 hc with hc | hc
      · have other := (isDullChar_iff c).1 (dull c hc)
        exact ⟨other.1, other.2.1⟩
      · rw [List.mem_singleton.1 hc]
        decide
  rw [Bool.eq_false_iff]
  intro gap
  rw [Scan.isGap, Bool.or_eq_true, beq_iff_eq] at gap
  exact gap.elim (fun blank => noBreak.1 (spaces c hc blank)) noBreak.2

/-! ## Dimensions -/

/-- A character of a number: a digit, the point or a sign. -/
def isNumeralChar (c : Char) : Bool := isDecimal c || c == '.' || c == '-' || c == '+'

theorem isDullChar_of_isNumeralChar {c : Char} (h : isNumeralChar c) : isDullChar c :=
  isDullChar_of_class (by decide) h

theorem isLow_of_isNumeralChar {c : Char} (h : isNumeralChar c) : IsLow c := by
  simp only [isNumeralChar, Bool.or_eq_true, beq_iff_eq] at h
  rcases h with ((digit | rfl) | rfl) | rfl
  · exact isLow_of_isDecimal digit
  all_goals exact ⟨by decide, by decide⟩

theorem isNumeralChar_of_isDecimal {c : Char} (h : isDecimal c) : isNumeralChar c := by
  simp [isNumeralChar, h]

theorem IsNumeral.isNumeralChar {cs : List Char} (h : IsNumeral cs) :
    cs ≠ [] ∧ ∀ c ∈ cs, BracketCss.isNumeralChar c := by
  cases h with
  | whole some_ digits => exact ⟨some_, fun c hc => isNumeralChar_of_isDecimal (digits c hc)⟩
  | fraction wholes _ decimals =>
    refine ⟨by simp, List.forall_mem_append.2 ⟨fun c hc => ?_, List.forall_mem_cons.2 ⟨rfl, ?_⟩⟩⟩
    · exact isNumeralChar_of_isDecimal (wholes c hc)
    · exact fun c hc => isNumeralChar_of_isDecimal (decimals c hc)

theorem length_lower {w : List Char} (letters : ∀ c ∈ w, isAsciiLetter c) :
    (lower w).length = w.length := by
  induction w with
  | nil => rfl
  | cons c w ih =>
    have one : (lowerChar c).length = 1 := by
      have other : c ≠ '\u0130' := by
        rintro rfl
        exact absurd (letters _ List.mem_cons_self) (by decide)
      unfold lowerChar
      rw [if_neg other]
      split
      · rfl
      · split <;> rfl
    rw [lower, List.flatMap_cons, List.length_append, one, ← lower,
      ih fun d hd => letters d (List.mem_cons_of_mem _ hd), List.length_cons, Nat.add_comm]

/-- The text of a dimension without its unit is what stands in front of it. -/
theorem numeral_eq {body unit : List Char} (unitLike : unit = [] ∨ IsUnitText unit)
    (number : Decimal) :
    Dimension.numeral ⟨number, .ofList (lower unit), body ++ unit⟩ = body := by
  have same : (lower unit).length = unit.length := by
    rcases unitLike with rfl | ⟨-, letters⟩ | rfl
    · rfl
    · exact length_lower letters
    · rfl
  rw [Dimension.numeral, ← String.length_toList, String.toList_ofList, same, List.length_append,
    Nat.add_sub_cancel, List.take_left]

/-- The normal form of a dimension is its text with the unit in lower case. -/
theorem toList_normalized {body unit : List Char} (unitLike : unit = [] ∨ IsUnitText unit)
    (number : Decimal) :
    (Dimension.normalized ⟨number, .ofList (lower unit), body ++ unit⟩).toList =
      body ++ lower unit := by
  rw [Dimension.normalized, numeral_eq unitLike, String.toList_append, String.toList_ofList,
    String.toList_ofList]

/-- A dimension is a sign, digits and a unit, and its normal form has the unit in lower case. -/
theorem exists_of_ofChars? {w : List Char} (trimmed : trim w = w) {d : Dimension}
    (h : Dimension.ofChars? w = some d) :
    ∃ body unit, w = body ++ unit ∧ body ≠ [] ∧ (∀ c ∈ body, isNumeralChar c) ∧
      ((∀ c ∈ unit, isAsciiLetter c) ∨ unit = ['%']) ∧
      d.normalized.toList = body ++ lower unit := by
  obtain ⟨sign, numeral, unit, text, signs, form, unitLike, rfl⟩ :=
    Dimension.ofChars?_eq_some_iff.1 h
  rw [trimmed] at text ⊢
  obtain ⟨some_, chars⟩ := form.isNumeralChar
  have table : ∀ s ∈ [[], ['-'], ['+']], ∀ c ∈ s, isNumeralChar c := by decide
  have letters : (∀ c ∈ unit, isAsciiLetter c) ∨ unit = ['%'] := by
    rcases unitLike with rfl | ⟨-, letters⟩ | percent
    · exact .inl (List.forall_mem_nil _)
    · exact .inl letters
    · exact .inr percent
  refine ⟨sign ++ numeral, unit, text, by simp [some_],
    List.forall_mem_append.2 ⟨table sign signs, chars⟩, letters, ?_⟩
  rw [text, toList_normalized unitLike]

/-- A dimension is a plain word, and so is its normal form. -/
theorem isDull_of_ofChars? {w : List Char} (trimmed : trim w = w) {d : Dimension}
    (h : Dimension.ofChars? w = some d) : IsDull w ∧ IsDull d.normalized.toList := by
  obtain ⟨body, unit, rfl, some_, numeral, unitLike, written⟩ := exists_of_ofChars? trimmed h
  have bodyDull : ∀ c ∈ body, isDullChar c := fun c hc =>
    isDullChar_of_isNumeralChar (numeral c hc)
  rw [written]
  rcases unitLike with letters | rfl
  · have dull : ∀ c ∈ unit, isDullChar c := fun c hc => isDullChar_of_isAsciiLetter (letters c hc)
    exact ⟨isDull_of_forall (by simp [some_]) (List.forall_mem_append.2 ⟨bodyDull, dull⟩),
      isDull_of_forall (by simp [some_])
        (List.forall_mem_append.2 ⟨bodyDull, isDullChar_lower_iff.2 dull⟩)⟩
  · have percent : IsDull (body ++ ['%']) := ⟨by simp, body, bodyDull, .inr rfl⟩
    exact ⟨percent, percent⟩

theorem not_isNumeralChar_of_isAsciiLetter {c : Char} (h : isAsciiLetter c) :
    isNumeralChar c = false := by
  have other : ∀ d ∈ ['.', '-', '+'], isAsciiLetter d = false := by decide
  have signs : c ∉ ['.', '-', '+'] := fun mem => by
    rw [other c mem] at h
    cases h
  rw [List.mem_cons, List.mem_cons, List.mem_singleton, not_or, not_or] at signs
  simp [isNumeralChar, not_isDecimal_of_isAsciiLetter h, signs]

/-- A number starts with a digit, a point or a sign. -/
theorem IsQuantityOf.head {w : List Char} {value : Rat} {unit : String}
    (h : IsQuantityOf w value unit) : ∃ c rest, w = c :: rest ∧ isNumeralChar c := by
  obtain ⟨sign, numeral, written, rfl, signs, form, -⟩ := h
  obtain ⟨c, rest, rfl, -⟩ := startsNumber_of_head form
  have first := form.isNumeralChar.2 c List.mem_cons_self
  simp only [List.mem_cons, List.not_mem_nil, or_false] at signs
  rcases signs with rfl | rfl | rfl
  · exact ⟨c, _, rfl, first⟩
  · exact ⟨'-', _, rfl, rfl⟩
  · exact ⟨'+', _, rfl, rfl⟩

/-- A text that starts with a letter is no number. -/
theorem ofChars?_eq_none_of_letter {w : List Char} (h : w.head?.any isAsciiLetter) :
    Dimension.ofChars? w = none := by
  rw [Option.eq_none_iff_forall_ne_some]
  intro d read
  obtain ⟨c, rest, first, number⟩ := (Dimension.exists_ofChars?_iff.1 ⟨d, read, rfl, rfl⟩).head
  obtain ⟨lead, trail, same, leadBlank, -⟩ := Scan.exists_trim w
  rw [same, first] at h
  cases lead with
  | nil =>
    rw [not_isNumeralChar_of_isAsciiLetter h] at number
    cases number
  | cons b lead =>
    have letter : isAsciiLetter b := h
    have blank := leadBlank b List.mem_cons_self
    rw [isBlank_of_class (p := isAsciiLetter) (by decide) letter] at blank
    cases blank

theorem head_of_call? {w : List Char} {call : Scan.Call} (h : Scan.call? w = some call) :
    ∃ c rest, w = c :: rest ∧ isAsciiLetter c := by
  obtain ⟨name, after, rfl, -, ⟨c, first, letter⟩, -⟩ := Scan.call?_eq_some h
  obtain ⟨rest, rfl⟩ := List.head?_eq_some_iff.1 first
  exact ⟨c, _, rfl, letter⟩

/-- A call is no keyword in any letter case. -/
theorem not_mem_of_call? {keywords : List String} (plain : ∀ k ∈ keywords, IsPlainText k)
    {w : List Char} {call : Scan.Call} (h : Scan.call? w = some call) :
    String.ofList (fullLower w) ∉ keywords := by
  intro listed
  obtain ⟨-, dull⟩ := plain _ listed
  obtain ⟨name, after, rfl, -⟩ := Scan.call?_eq_some h
  rw [String.toList_ofList, isDullChar_fullLower_iff] at dull
  exact absurd (dull '(' (by simp)) (by decide)

/-- A call is no number. -/
theorem ofChars?_eq_none_of_call? {w : List Char} {call : Scan.Call}
    (h : Scan.call? w = some call) : Dimension.ofChars? w = none := by
  obtain ⟨c, rest, rfl, letter⟩ := head_of_call? h
  exact ofChars?_eq_none_of_letter letter

/-! ## What is written for a word -/

/-- A text is one word, and what is written for it is a plain word or a call. -/
structure WrittenWord (w u : List Char) : Prop where
  /-- There is no gap in the word. -/
  whole : Scan.gapWords w = [w]
  /-- The word is kept. -/
  kept : Kept w u
  /-- A plain word or a call is written. -/
  regular : IsDull u ∨ IsFramed u ∧ u.getLast? = some ')'

namespace WrittenWord

variable {w u : List Char}

theorem dull (spaces : IsSpaced w) (hw : IsDull w) (hu : IsDull u) :
    WrittenWord w u :=
  ⟨Scan.gapWords_of_solid hw.1 (hw.not_isGap spaces), .dull hw hu, .inl hu⟩

/-- A keyword is written in lower case. -/
theorem keyword (spaces : IsSpaced w) (plain : IsPlainText (.ofList (fullLower w))) :
    WrittenWord w (fullLower w) := by
  have written := plain.isDull
  rw [String.toList_ofList] at written
  exact dull spaces plain.isDull_of_fullLower written

/-- A dimension is written with its unit in lower case. -/
theorem dimension (spaces : IsSpaced w) (trimmed : trim w = w) {d : Dimension}
    (h : Dimension.ofChars? w = some d) : WrittenWord w d.normalized.toList := by
  obtain ⟨hw, hu⟩ := isDull_of_ofChars? trimmed h
  exact dull spaces hw hu

end WrittenWord

/-- A call that stays as it is. -/
theorem WrittenWord.call {w : List Char} (trimmed : trim w = w) {call : Scan.Call}
    (h : Scan.call? w = some call) : WrittenWord w w := by
  obtain ⟨name, same, -, ⟨c, hc, letter⟩, -⟩ := Scan.exists_of_call? h trimmed
  obtain ⟨name, rfl⟩ := List.head?_eq_some_iff.1 hc
  refine ⟨(Scan.gapWords_call h trimmed).2, .same w, .inr ⟨?_, ?_⟩⟩
  · exact ⟨c, name ++ '(' :: call.arguments, ')', by rw [same]; simp, .inl letter, .inl rfl⟩
  · rw [same, ← List.cons_append, ← List.append_assoc, List.getLast?_concat]

/-- A call of a colour function in its normal form. -/
theorem WrittenWord.color {w : List Char} (spaces : IsSpaced w)
    (trimmed : trim w = w) {call : Scan.Call} (h : Scan.call? w = some call)
    (known : call.name ∈ colorFunctionNames) :
    WrittenWord w (call.name.toList ++ '(' :: (trim call.arguments ++ [')'])) := by
  obtain ⟨name, same, named, -, nameLike, -⟩ := Scan.exists_of_call? h trimmed
  rw [named] at known ⊢
  rw [String.toList_ofList]
  obtain ⟨some_, lettersLower⟩ := colorFunctionNames_letters _ known
  rw [String.toList_ofList] at some_ lettersLower
  have letters : ∀ c ∈ name, isAsciiLetter c := by
    intro c hc
    by_contra other
    have stays : lowerChar c = [c] := by
      unfold lowerChar
      rw [if_neg, if_neg, if_neg]
      · rintro rfl
        exact absurd (nameLike _ hc) (by decide)
      · rintro rfl
        exact absurd (nameLike _ hc) (by decide)
      · intro upper
        simp [isAsciiLetter, upper] at other
    exact other (lettersLower c (List.mem_flatMap.2 ⟨c, hc, by rw [stays]; simp⟩))
  refine ⟨(Scan.gapWords_call h trimmed).2, ?_, .inr ⟨isFramed_call some_ lettersLower _, ?_⟩⟩
  · have argumentSpaces : IsSpaced call.arguments := fun c hc =>
      spaces c (by rw [same]; simp [hc])
    have kept := Kept.color letters known argumentSpaces
    rwa [← same] at kept
  · rw [← List.cons_append, ← List.append_assoc, List.getLast?_concat]

/-! ## Accepted words -/

section Accepted

variable {rule : PropertyRule} {w : List Char} {value : String}

/-- An accepted word is written as one. -/
theorem IsWordValue.writtenWord (h : IsWordValue rule w value)
    (plain : ∀ k ∈ rule.keywords, IsPlainText k) (spaces : IsSpaced w) (trimmed : trim w = w) :
    WrittenWord w value.toList := by
  cases h with
  | keyword listed =>
    rw [String.toList_ofList]
    exact .keyword spaces (plain _ listed)
  | call found =>
    rw [String.toList_ofList]
    rw [trimmed] at found ⊢
    exact .call trimmed found
  | dimension hd => exact .dimension spaces trimmed hd
  | zero hd =>
    have zero : IsDull "0".toList :=
      isDull_of_forall (by decide) (List.forall_mem_singleton.2 rfl)
    exact .dull spaces (isDull_of_ofChars? trimmed hd).1 zero

/-- A colour in hexadecimal digits is a plain word, and so is its long form. -/
theorem isDull_of_normalizeHex? (trimmed : trim w = w) {hex : String}
    (h : normalizeHex? w = some hex) : IsDull w ∧ IsDull hex.toList := by
  simp only [normalizeHex?, trimmed] at h
  split at h
  · next digits =>
    split at h
    · cases h
    · next all =>
      rw [Bool.not_eq_true', Bool.not_eq_false, List.all_eq_true] at all
      have dull : ∀ c ∈ digits, isDullChar c := fun c hc => isDullChar_of_isHexDigit (all c hc)
      have lowered := isDullChar_lower_iff.2 dull
      refine ⟨isDull_of_forall (by simp) (List.forall_mem_cons.2 ⟨rfl, dull⟩), ?_⟩
      split at h <;> cases h <;> rw [String.toList_ofList]
      · refine isDull_of_forall (by simp) (List.forall_mem_cons.2 ⟨rfl, fun c hc => ?_⟩)
        obtain ⟨d, hd, hc⟩ := List.mem_flatMap.1 hc
        have same : c = d := by simpa using hc
        exact same ▸ lowered d hd
      all_goals exact isDull_of_forall (by simp) (List.forall_mem_cons.2 ⟨rfl, lowered⟩)
  · cases h

/-- An accepted colour is written as a word. -/
theorem IsColorValue.writtenWord {keywords : List String} (h : IsColorValue keywords w value)
    (plain : ∀ k ∈ keywords, IsPlainText k) (spaces : IsSpaced w) (trimmed : trim w = w) :
    WrittenWord w value.toList := by
  cases h with
  | name listed =>
    rw [String.toList_ofList]
    exact .keyword spaces ((List.mem_append.1 listed).elim (plain _) (isPlainText_colorNames _))
  | hex found =>
    obtain ⟨hw, hu⟩ := isDull_of_normalizeHex? trimmed found
    exact .dull spaces hw hu
  | call found known =>
    have written := WrittenWord.color spaces trimmed found known
    simpa using written

end Accepted

end BracketCss
