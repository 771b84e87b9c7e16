import BracketCss.Proofs.Text.Decoding
import BracketCss.Proofs.Threat.Report

/-!
# Mixed spellings

An attacker may write every character of a text in a way of its own: as it stands, as a percent
escape, as a character reference or as an escape of a style sheet. The decoding of all three, one
after the other, undoes every mixture, and so a threat that shows in the text shows in its mixed
spellings as well.

## Main definitions

* `IsInert c`: a printable character that starts no escape
* `Spells plain written`: `written` is a mixed spelling of `plain`

## Main results

* `decode_of_spells`: the composite decoding undoes a mixed spelling
* `names_subset_of_spells`: a spelling hides no threat
-/

namespace BracketCss

open Text

/-- A printable ASCII character that starts no escape. -/
def IsInert (c : Char) : Prop :=
  0x20 ≤ c.toNat ∧ c.toNat < 0x7F ∧ c ≠ '%' ∧ c ≠ '&' ∧ c ≠ '\\'

instance : DecidablePred IsInert := fun c =>
  inferInstanceAs (Decidable (0x20 ≤ c.toNat ∧ c.toNat < 0x7F ∧ c ≠ '%' ∧ c ≠ '&' ∧ c ≠ '\\'))

/-- The ways to write one character. -/
inductive SpellsChar (c : Char) : List Char → Prop
  /-- As it stands. -/
  | plain : SpellsChar c [c]
  /-- As a percent escape. -/
  | percent (a b : Char) (high : isHexDigit a) (low : isHexDigit b)
      (value : 16 * hexValue a + hexValue b = c.toNat) : SpellsChar c ['%', a, b]
  /-- As a decimal character reference. -/
  | decimal (digits : List Char) (nonempty : digits ≠ [])
      (decimal : ∀ d ∈ digits, isAsciiDigit d) (value : decimalNat digits = c.toNat) :
      SpellsChar c ('&' :: '#' :: (digits ++ [';']))
  /-- As a hexadecimal character reference. -/
  | hexadecimal (mark : Char) (digits : List Char) (hmark : mark = 'x' ∨ mark = 'X')
      (nonempty : digits ≠ []) (hex : ∀ d ∈ digits, isHexDigit d)
      (value : hexNat digits = c.toNat) :
      SpellsChar c ('&' :: '#' :: mark :: (digits ++ [';']))
  /-- As an escape of a style sheet. -/
  | sheet (digits : List Char) (nonempty : digits ≠ []) (short : digits.length ≤ 6)
      (hex : ∀ d ∈ digits, isHexDigit d) (value : hexNat digits = c.toNat) :
      SpellsChar c ('\\' :: (digits ++ [' ']))

/-- A text is written character by character, each in a way of its own. -/
inductive Spells : List Char → List Char → Prop
  /-- No text. -/
  | nil : Spells [] []
  /-- One character, and a spelling of the rest. -/
  | cons {c : Char} {written plain rest : List Char} (first : SpellsChar c written)
      (others : Spells plain rest) : Spells (c :: plain) (written ++ rest)

theorem not_mem_of_hex {digits : List Char} (hex : ∀ d ∈ digits, isHexDigit d) {c : Char}
    (other : isHexDigit c = false) : c ∉ digits := by
  intro mem
  rw [hex c mem] at other
  cases other

theorem isHexDigit_of_isAsciiDigit {c : Char} (h : isAsciiDigit c) : isHexDigit c := by
  simp only [isAsciiDigit, Bool.and_eq_true] at h
  simp [isHexDigit, h.1, h.2]

/-- The character that starts an escape stands in no other spelling of a character. -/
theorem SpellsChar.head?_of_mem {c mark : Char} {written : List Char} (h : SpellsChar c written)
    (escape : mark = '%' ∨ mark = '&' ∨ mark = '\\') (other : c ≠ mark) (mem : mark ∈ written) :
    written.head? = some mark := by
  have noDigit : isHexDigit mark = false := by rcases escape with rfl | rfl | rfl <;> decide
  have noSign : mark ≠ '#' ∧ mark ≠ ';' ∧ mark ≠ ' ' ∧ mark ≠ 'x' ∧ mark ≠ 'X' := by
    rcases escape with rfl | rfl | rfl <;> decide
  cases h with
  | plain => exact absurd (List.mem_singleton.1 mem).symm other
  | percent a b high low _ =>
    have hex : mark ∉ [a, b] := not_mem_of_hex (by simp [high, low]) noDigit
    rcases List.mem_cons.1 mem with rfl | mem
    · rfl
    · exact absurd mem hex
  | decimal digits _ decimal _ =>
    have hex := not_mem_of_hex (fun d hd => isHexDigit_of_isAsciiDigit (decimal d hd)) noDigit
    simp only [List.mem_cons, List.mem_append, hex, noSign, List.not_mem_nil, or_false] at mem
    rw [mem, List.head?_cons]
  | hexadecimal sign digits hsign _ hex _ =>
    have hex := not_mem_of_hex hex noDigit
    have other : mark ≠ sign := by rcases hsign with rfl | rfl <;> simp [noSign]
    simp only [List.mem_cons, List.mem_append, hex, other, noSign, List.not_mem_nil,
      or_false] at mem
    rw [mem, List.head?_cons]
  | sheet digits _ _ hex _ =>
    have hex := not_mem_of_hex hex noDigit
    simp only [List.mem_cons, List.mem_append, hex, noSign, List.not_mem_nil, or_false] at mem
    rw [mem, List.head?_cons]

theorem SpellsChar.percent_decode {c : Char} {piece : List Char} (h : SpellsChar c piece)
    (inert : IsInert c) (mem : '%' ∈ piece) (cs : List Char) :
    Percent.decode (piece ++ cs) = c :: Percent.decode cs := by
  have head := h.head?_of_mem (.inl rfl) inert.2.2.1 mem
  cases h with
  | plain => exact absurd (Option.some.inj head) inert.2.2.1
  | percent a b high low value =>
    have ascii := inert.2.1
    simp only [List.cons_append, List.nil_append]
    rw [Percent.decode_escape high low (by omega), value, Char.ofNat_toNat]
  | decimal => simp at head
  | hexadecimal => simp at head
  | sheet => simp at head

theorem SpellsChar.reference_decode {c : Char} {piece : List Char} (h : SpellsChar c piece)
    (inert : IsInert c) (mem : '&' ∈ piece) (cs : List Char) :
    CharacterReference.decode (piece ++ cs) = c :: CharacterReference.decode cs := by
  have head := h.head?_of_mem (.inr (.inl rfl)) inert.2.2.2.1 mem
  have numeric : CharacterReference.numeric c.toNat = [c] := by
    rw [CharacterReference.numeric_printable inert.1 inert.2.1, Char.ofNat_toNat]
  cases h with
  | plain => exact absurd (Option.some.inj head) inert.2.2.2.1
  | percent => simp at head
  | decimal digits nonempty decimal value =>
    simp only [List.cons_append, List.append_assoc, List.nil_append]
    rw [CharacterReference.decode_decimal nonempty decimal, value, numeric, List.singleton_append]
  | hexadecimal sign digits hsign nonempty hex value =>
    simp only [List.cons_append, List.append_assoc, List.nil_append]
    rw [CharacterReference.decode_hexadecimal hsign nonempty hex, value, numeric,
      List.singleton_append]
  | sheet => simp at head

theorem SpellsChar.sheet_decode {c : Char} {piece : List Char} (h : SpellsChar c piece)
    (inert : IsInert c) (mem : '\\' ∈ piece) (cs : List Char) :
    CssEscape.decodeCodePoints (piece ++ cs) = c :: CssEscape.decodeCodePoints cs := by
  have head := h.head?_of_mem (.inr (.inr rfl)) inert.2.2.2.2 mem
  cases h with
  | plain => exact absurd (Option.some.inj head) inert.2.2.2.2
  | percent => simp at head
  | decimal => simp at head
  | hexadecimal => simp at head
  | sheet digits nonempty short hex value =>
    simp only [List.cons_append, List.append_assoc, List.nil_append]
    rw [CssEscape.decodeCodePoints_escape nonempty short hex, value,
      CssEscape.escapedChar_printable inert.1 inert.2.1, Char.ofNat_toNat]

/-- A decoder that copies every text without its mark and undoes the escapes with it turns a
spelling into one without the mark, made of characters that were written or are meant. -/
theorem Spells.stage {decoder : List Char → List Char} {mark : Char} (nil : decoder [] = [])
    (copy : ∀ xs cs, mark ∉ xs → decoder (xs ++ cs) = xs ++ decoder cs)
    {plain written : List Char} (clean : mark ∉ plain)
    (undo : ∀ c ∈ plain, ∀ piece, SpellsChar c piece → mark ∈ piece →
      ∀ cs, decoder (piece ++ cs) = c :: decoder cs)
    (h : Spells plain written) :
    Spells plain (decoder written) ∧ mark ∉ decoder written ∧
      ∀ d ∈ decoder written, d ∈ written ∨ d ∈ plain := by
  induction h with
  | nil =>
    rw [nil]
    exact ⟨.nil, by simp, by simp⟩
  | @cons c piece plain rest first others ih =>
    rw [List.mem_cons, not_or] at clean
    obtain ⟨spelled, free, made⟩ := ih clean.2 fun d hd => undo d (List.mem_cons_of_mem _ hd)
    by_cases escaped : mark ∈ piece
    · rw [undo c List.mem_cons_self piece first escaped]
      refine ⟨.cons .plain spelled, by simp [clean.1, free], ?_⟩
      intro d hd
      rcases List.mem_cons.1 hd with rfl | hd
      · exact .inr List.mem_cons_self
      · rcases made d hd with hd | hd <;> simp [hd]
    · rw [copy piece _ escaped]
      refine ⟨.cons first spelled, by simp [escaped, free], ?_⟩
      intro d hd
      rcases List.mem_append.1 hd with hd | hd
      · simp [hd]
      · rcases made d hd with hd | hd <;> simp [hd]

/-- Without a mark every character stands for itself. -/
theorem Spells.eq_of_unmarked {plain written : List Char} (h : Spells plain written)
    (noPercent : '%' ∉ written) (noReference : '&' ∉ written) (noBackslash : '\\' ∉ written) :
    written = plain := by
  induction h with
  | nil => rfl
  | @cons c piece plain rest first others ih =>
    simp only [List.mem_append, not_or] at noPercent noReference noBackslash
    rw [ih noPercent.2 noReference.2 noBackslash.2]
    cases first with
    | plain => rfl
    | percent => simp at noPercent
    | decimal => simp at noReference
    | hexadecimal => simp at noReference
    | sheet => simp at noBackslash

/-- **The three decodings, one after the other, undo every mixed spelling.** -/
theorem decode_of_spells {plain written : List Char} (h : Spells plain written)
    (inert : ∀ c ∈ plain, IsInert c) :
    CssEscape.decode (CharacterReference.decode (Percent.decode written)) = plain := by
  have noPercent : '%' ∉ plain := fun mem => (inert _ mem).2.2.1 rfl
  have noReference : '&' ∉ plain := fun mem => (inert _ mem).2.2.2.1 rfl
  have noBackslash : '\\' ∉ plain := fun mem => (inert _ mem).2.2.2.2 rfl
  obtain ⟨h₁, percent₁, _⟩ := h.stage Percent.decode_nil
    (fun xs cs clean => Percent.decode_append clean cs) noPercent
    fun c hc piece first mem => first.percent_decode (inert c hc) mem
  obtain ⟨h₂, reference₂, made₂⟩ := h₁.stage CharacterReference.decode_nil
    (fun xs cs clean => CharacterReference.decode_append clean cs) noReference
    fun c hc piece first mem => first.reference_decode (inert c hc) mem
  obtain ⟨h₃, backslash₃, made₃⟩ := h₂.stage CssEscape.decodeCodePoints_nil
    (fun xs cs clean => CssEscape.decodeCodePoints_append clean cs) noBackslash
    fun c hc piece first mem => first.sheet_decode (inert c hc) mem
  -- a later stage brings back no mark of an earlier one
  have percent₂ : '%' ∉ CharacterReference.decode (Percent.decode written) :=
    fun mem => (made₂ _ mem).elim percent₁ noPercent
  have plain₃ := h₃.eq_of_unmarked (fun mem => (made₃ _ mem).elim percent₂ noPercent)
    (fun mem => (made₃ _ mem).elim reference₂ noReference) backslash₃
  rw [CssEscape.decode, plain₃, CssEscape.dropBackslashes_eq_self noBackslash]

/-- A text without escapes has no decoded form but itself. -/
theorem decodedForms_of_inert {s : String} (inert : ∀ c ∈ s.toList, IsInert c) :
    decodedForms s = [] := by
  have noPercent : '%' ∉ s.toList := fun mem => (inert _ mem).2.2.1 rfl
  have noReference : '&' ∉ s.toList := fun mem => (inert _ mem).2.2.2.1 rfl
  have noBackslash : '\\' ∉ s.toList := fun mem => (inert _ mem).2.2.2.2 rfl
  rw [List.eq_nil_iff_forall_not_mem]
  intro form mem
  obtain ⟨mem, other⟩ := mem_decodedForms.1 mem
  simp only [decodings, Percent.decode_eq_self noPercent,
    CharacterReference.decode_eq_self noReference, CssEscape.decode_eq_self noBackslash,
    List.map_cons, List.map_nil, String.ofList_toList, List.mem_cons, List.not_mem_nil,
    or_false, or_self] at mem
  exact other mem

/-- A threat in a text without escapes shows in every mixed spelling of the text. -/
theorem Threat.ShowsIn.of_spells {threat : Threat} {plain written : String}
    (inert : ∀ c ∈ plain.toList, IsInert c) (h : Spells plain.toList written.toList)
    (shows : threat.ShowsIn plain) : threat.ShowsIn written := by
  obtain ⟨form, mem, occurs⟩ := shows
  rw [decodedForms_of_inert inert, List.mem_singleton] at mem
  subst mem
  refine .of_decoding ?_ occurs
  simp [decodings, decode_of_spells h inert]

/-- **No mixed spelling hides a threat.** Every name reported for a text without escapes is
reported for each of its mixed spellings, and if the text is blocked, so are they. -/
theorem names_subset_of_spells {plain written : String} (inert : ∀ c ∈ plain.toList, IsInert c)
    (h : Spells plain.toList written.toList) :
    (ThreatReport.ofText plain).names ⊆ (ThreatReport.ofText written).names ∧
      ((ThreatReport.ofText plain).isBlocking → (ThreatReport.ofText written).isBlocking) := by
  constructor
  · intro name mem
    obtain ⟨threat, rfl, shows⟩ := (ThreatReport.mem_names_ofText plain name).1 mem
    exact (ThreatReport.mem_names_ofText written _).2 ⟨threat, rfl, shows.of_spells inert h⟩
  · intro blocked
    obtain ⟨threat, blocking, shows⟩ := (ThreatReport.isBlocking_ofText plain).1 blocked
    exact (ThreatReport.isBlocking_ofText written).2 ⟨threat, blocking, shows.of_spells inert h⟩

/-- A link in five ways at once. -/
theorem names_subset_of_spells_data :
    (ThreatReport.ofText "data:").isBlocking ∧
      (ThreatReport.ofText "%64&#0097;&#x74;\\61 :").isBlocking := by
  have blocked : (ThreatReport.ofText "data:").isBlocking := by decide +kernel
  refine ⟨blocked, (names_subset_of_spells ?_ ?_).2 blocked⟩
  · simp [IsInert]
  · exact .cons (.percent '6' '4' (by decide) (by decide) (by decide))
      (.cons (.decimal ['0', '0', '9', '7'] (by decide) (by simp [isAsciiDigit]) (by decide))
        (.cons (.hexadecimal 'x' ['7', '4'] (by decide) (by decide) (by simp [isHexDigit])
            (by decide))
          (.cons (.sheet ['6', '1'] (by decide) (by decide) (by simp [isHexDigit]) (by decide))
            (.cons .plain .nil))))

end BracketCss
