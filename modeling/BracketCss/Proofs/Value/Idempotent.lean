import BracketCss.Proofs.Value.Stable

/-!
# Validating a normal form

The normal form of an accepted value is accepted for the same property with the same verdict. The
long form of a hexadecimal colour and a colour call in its normal form are new words, as a zero
length is; since keywords are looked up first, they get another verdict exactly if they are keywords
of the rule that the value itself was not.

## Main results

* `normalizeHex?_normalForm`: the long form of a hexadecimal colour stays
* `isSettled_of_validateColor`, `isSettled_of_validateKind`: the verdict by the rule of a property
* `validateValue_normalForm`: the verdict on the normal form of an accepted value
-/

namespace BracketCss

open Text

/-! ## Colours -/

/-- The long form of a hexadecimal colour has six or eight digits in lower case. -/
theorem normalizeHex?_eq_some {cs : List Char} {hex : String} (h : normalizeHex? cs = some hex) :
    ∃ digits, hex.toList = '#' :: digits ∧ (∀ c ∈ digits, isHexDigit c) ∧ lower digits = digits ∧
      (digits.length = 6 ∨ digits.length = 8) := by
  simp only [normalizeHex?] at h
  split at h
  · next digits _ =>
    split at h
    · cases h
    · next all =>
      rw [Bool.not_eq_true', Bool.not_eq_false, List.all_eq_true] at all
      have low : ∀ c ∈ lower digits, isHexDigit c := forall_lower (by decide) (by decide) all
      split at h
      · next three =>
        obtain rfl := Option.some.inj h
        have doubled : ((lower digits).flatMap fun c => [c, c]) ⊆ lower digits := by
          intro d hd
          obtain ⟨c, hc, hd⟩ := List.mem_flatMap.1 hd
          have same : d = c := by simpa using hd
          rwa [same]
        refine ⟨_, String.toList_ofList, fun c hc => low c (doubled hc),
          lower_eq_self_of_subset doubled, .inl ?_⟩
        simp [List.length_flatMap, three]
      · next six =>
        obtain rfl := Option.some.inj h
        exact ⟨_, String.toList_ofList, low, lower_lower digits, .inl six⟩
      · next eight =>
        obtain rfl := Option.some.inj h
        exact ⟨_, String.toList_ofList, low, lower_lower digits, .inr eight⟩
      · cases h
  · cases h

/-- The long form of a hexadecimal colour stays. -/
theorem normalizeHex?_normalForm {cs : List Char} {hex : String}
    (h : normalizeHex? cs = some hex) : normalizeHex? hex.toList = some hex := by
  obtain ⟨digits, written, all, low, count⟩ := normalizeHex?_eq_some h
  have trimmed : trim ('#' :: digits) = '#' :: digits :=
    written ▸ (isBare_of_normalizeHex? h).trim_eq
  have all' : digits.all isHexDigit := List.all_eq_true.2 all
  have same : hex = .ofList ('#' :: digits) := by rw [← written, String.ofList_toList]
  rw [written, same]
  rcases count with six | eight
  · simp [normalizeHex?, trimmed, all', low, six]
  · simp [normalizeHex?, trimmed, all', low, eight]

section Colors

variable {keywords : List String} {w : List Char} {u : String} {type : ValueType}
  {detail : Detail}

/-- The verdict on a colour, as a value of a property. -/
def colorVerdict (keywords : List String) (w : List Char) : ValueOutcome :=
  (validateColor keywords (.ofList w)).mapFault .color

/-- A colour that is no keyword and is written in another way. -/
theorem isSettled_of_rewritten {kind : String} (bare : IsBare u.toList)
    (ordinary : IsOrdinary u.toList) (single : Scan.IsWord u.toList)
    (fresh : String.ofList (fullLower w) ∉ keywords) (other : kind ≠ "keyword")
    (again : fullLowerText u ∉ keywords →
      validateColor keywords u = .accepted u .color (.color kind)) :
    IsSettled (colorVerdict keywords) keywords w u .color (.color kind) := by
  have word : Scan.topWords u.toList = [u.toList] := single
  have text := bare.trimText_eq
  refine ⟨fun _ => ordinary, fun free => ?_, fun recaught => ⟨.color, .color "keyword", ?_, ?_⟩⟩
  · have unlisted : fullLowerText u ∉ keywords := fun listed =>
      free ⟨by rw [word, List.length_singleton], fresh, listed⟩
    rw [colorVerdict, String.ofList_toList, again unlisted]
    rfl
  · have listed : fullLowerText u ∈ keywords := recaught.caught
    simp [colorVerdict, validateColor, text, listed, Outcome.mapFault]
  · simp [other.symm]

theorem head?_names : ∀ k ∈ globalKeywords ++ colorKeywords ++ namedColors,
    k.toList.head? ≠ some '#' := by
  -- the bytes of a name are at hand, its characters have to be decoded
  have table : ∀ k ∈ globalKeywords ++ colorKeywords ++ namedColors,
      k.toByteArray.data.toList.head? ≠ some 35 := by decide +kernel
  intro k hk start
  obtain ⟨rest, same⟩ := List.head?_eq_some_iff.1 start
  refine table k hk ?_
  rw [bytes_eq, same]
  rfl

/-- A hexadecimal colour in its long form is a word of its own. -/
theorem isSettled_of_normalizeHex? {cs : List Char} (h : normalizeHex? cs = some u)
    (fresh : String.ofList (fullLower w) ∉ keywords) :
    IsSettled (colorVerdict keywords) keywords w u .color (.color "hex") := by
  have bare := isBare_of_normalizeHex? h
  obtain ⟨digits, written, all, low, -⟩ := normalizeHex?_eq_some h
  have start : u.toList.head? = some '#' := by rw [written]; rfl
  have ascii : ∀ c ∈ u.toList, c.toNat < 128 := by
    rw [written]
    exact List.forall_mem_cons.2 ⟨by decide, fun c hc =>
      toNat_lt_of_isAsciiNameChar (isAsciiNameChar_of_isHexDigit (all c hc))⟩
  have lowered : fullLowerText u = u := by
    rw [fullLowerText, Text.fullLower_eq_lower fun c hc => .inl (ascii c hc), written, lower_cons,
      low, ← @String.ofList_toList u, written]
    rfl
  have text := bare.trimText_eq
  have unnamed : u ∉ globalKeywords ++ colorKeywords ++ namedColors := fun listed =>
    head?_names u listed start
  simp only [List.mem_append, not_or] at unnamed
  refine isSettled_of_rewritten bare ⟨?_, ?_⟩ ?_ fresh (by decide) fun unlisted => ?_
  · rw [← fullLowerText, lowered]
    exact unnamed.1.1
  · rw [written]
    simp [Scan.callOf?, Scan.call?, isAsciiNameChar, isAsciiAlphanumeric, isAsciiLetter]
  · refine Scan.wordsBy_of_solid (fun _ blank => blank) bare.nonempty ?_
    rw [written]
    exact List.forall_mem_cons.2 ⟨by decide, fun c hc =>
      isBlank_of_isAsciiNameChar (isAsciiNameChar_of_isHexDigit (all c hc))⟩
  · rw [lowered] at unlisted
    simp [validateColor, text, lowered, unlisted, unnamed, start, normalizeHex?_normalForm h]

/-- A colour call in its normal form is a word of its own. -/
theorem isSettled_of_colorCall {call : Scan.Call} (trimmed : trim w = w)
    (found : Scan.callOf? colorFunctionNames w = some call)
    (checked : checkColorCall call.name call.arguments = .ok ())
    (fresh : String.ofList (fullLower w) ∉ keywords)
    (written : u = call.name ++ "(" ++ .ofList (trim call.arguments) ++ ")")
    (bare : IsBare u.toList) :
    IsSettled (colorVerdict keywords) keywords w u .color (.color call.name) := by
  obtain ⟨called, known⟩ := Option.filter_eq_some_iff.1 found
  have known := List.contains_iff_mem.1 known
  obtain ⟨some_, letters⟩ := colorFunctionNames_letters _ known
  have other : ∀ name ∈ colorFunctionNames, name ≠ "keyword" ∧ name ≠ "var" := by decide
  have chars : u.toList = call.name.toList ++ '(' :: (trim call.arguments ++ [')']) := by
    rw [written]
    simp
  have again : Scan.call? u.toList = some ⟨call.name, trim call.arguments⟩ := by
    rw [chars]
    exact Scan.call?_trim_arguments called trimmed letters
  have text := bare.trimText_eq
  have opening : '(' ∈ u.toList := by
    rw [chars]
    simp
  have plain : ∀ k : String, IsPlainText k → fullLowerText u ≠ k := by
    rintro k ⟨-, dull⟩ rfl
    rw [fullLowerText, String.toList_ofList, isDullChar_fullLower_iff] at dull
    exact absurd (dull _ opening) (by decide)
  have unnamed : fullLowerText u ∉ colorKeywords ++ namedColors := fun listed =>
    plain _ (isPlainText_colorNames _ listed) rfl
  simp only [List.mem_append, not_or] at unnamed
  refine isSettled_of_rewritten bare ⟨?_, ?_⟩ (Scan.isWord_call again bare.trim_eq) fresh
    (other _ known).1 fun unlisted => ?_
  · exact fun listed => plain _ (isPlainText_globalKeywords _ listed) rfl
  · simp [Scan.callOf?, again, (other _ known).2]
  · have start : u.toList.head? ≠ some '#' := by
      obtain ⟨c, name, same⟩ := List.exists_cons_of_ne_nil some_
      rw [chars, same]
      rintro first
      obtain rfl := Option.some.inj first
      exact absurd (letters '#' (same ▸ List.mem_cons_self)) (by decide)
    have found' : Scan.callOf? colorFunctionNames u.toList =
        some ⟨call.name, trim call.arguments⟩ := by
      simp [Scan.callOf?, again, known]
    simp [validateColor, text, unlisted, unnamed, start, found', checkColorCall_trim, checked,
      Scan.trim_trim, ← written]

theorem isSettled_of_validateColor (bare : IsBare w)
    (h : colorVerdict keywords w = .accepted u type detail) :
    IsSettled (colorVerdict keywords) keywords w u type detail := by
  have accepted := Outcome.mapFault_eq_accepted h
  have written := (isColorValue_of_validateColor bare.trim_eq accepted).isBare bare
  have text : trimText (.ofList w) = .ofList w :=
    IsBare.trimText_eq (by rwa [String.toList_ofList])
  have low : fullLowerText (.ofList w) = .ofList (fullLower w) := by simp [fullLowerText]
  have text' : trimText (.ofList (fullLower w)) = .ofList (fullLower w) :=
    IsBare.trimText_eq (by simpa only [String.toList_ofList] using bare.fullLower)
  have low' : fullLowerText (.ofList (fullLower w)) = .ofList (fullLower w) := by
    simp [fullLowerText]
  simp only [validateColor, text, low, String.toList_ofList] at accepted
  split at accepted
  · next listed =>
    obtain ⟨rfl, rfl, rfl⟩ := Outcome.accepted.inj accepted
    refine IsStable.isSettled ⟨.inr (.inr String.toList_ofList), ?_⟩ _
    simp only [colorVerdict, String.ofList_toList, validateColor, text', low', if_pos listed]
    rfl
  · next unlisted =>
    have fresh : String.ofList (fullLower w) ∉ keywords := fun listed => unlisted (by simp [listed])
    split at accepted
    · next named =>
      obtain ⟨rfl, rfl, rfl⟩ := Outcome.accepted.inj accepted
      refine IsStable.isSettled ⟨.inr (.inr String.toList_ofList), ?_⟩ _
      simp only [colorVerdict, String.ofList_toList, validateColor, text', low', if_neg unlisted,
        if_pos named]
      rfl
    · split at accepted
      · split at accepted
        · next found =>
          obtain ⟨rfl, rfl, rfl⟩ := Outcome.accepted.inj accepted
          exact isSettled_of_normalizeHex? found fresh
        · cases accepted
      · split at accepted
        · next call found =>
          split at accepted
          · next checked =>
            obtain ⟨rfl, rfl, rfl⟩ := Outcome.accepted.inj accepted
            exact isSettled_of_colorCall bare.trim_eq found checked fresh rfl written
          · cases accepted
        · cases accepted

end Colors

/-! ## All kinds -/

/-- The verdict by the rule of a property is given again, unless the normal form is recaught. -/
theorem isSettled_of_validateKind {rule : PropertyRule} {property : String} {w : List Char}
    {u : String} {type : ValueType} {detail : Detail} (bare : IsBare w)
    (h : validateKind rule property w = .accepted u type detail) :
    IsSettled (validateKind rule property) rule.keywords w u type detail := by
  have of_eq : ∀ {validate : List Char → ValueOutcome},
      (∀ v, validateKind rule property v = validate v) →
      (validate w = .accepted u type detail → IsSettled validate rule.keywords w u type detail) →
      IsSettled (validateKind rule property) rule.keywords w u type detail := by
    intro validate same settled
    obtain rfl : validateKind rule property = validate := funext same
    exact settled h
  have trimmed := bare.trim_eq
  cases kind : rule.kind with
  | length =>
    exact of_eq (fun v => by rw [validateKind, kind]) (isSettled_of_validateLengths bare)
  | lengthOrNumber =>
    exact of_eq (fun v => by rw [validateKind, kind]) (isSettled_of_validateWord trimmed)
  | color =>
    refine of_eq (fun v => ?_) (isSettled_of_validateColor bare)
    rw [validateKind, kind, colorVerdict]
  | number =>
    exact of_eq (fun v => by rw [validateKind, kind])
      fun accepted => (isStable_of_validateNumber trimmed accepted).isSettled _
  | integer =>
    exact of_eq (fun v => by rw [validateKind, kind])
      fun accepted => (isStable_of_validateInteger trimmed accepted).isSettled _
  | keyword =>
    exact of_eq (fun v => by rw [validateKind, kind])
      fun accepted => (isStable_of_validateKeyword accepted).isSettled _
  | keywordOrNumber =>
    exact of_eq (fun v => by rw [validateKind, kind])
      fun accepted => (isStable_of_validateKeywordOrNumber trimmed accepted).isSettled _
  | function =>
    exact of_eq (fun v => by rw [validateKind, kind])
      fun accepted => (isStable_of_validateCalls accepted).isSettled _
  | complex =>
    exact of_eq (fun v => by rw [validateKind, kind])
      fun accepted => (isStable_of_validateComplex accepted).isSettled _

/-- The property has a rule of which the keywords recatch the normal form `u` of `s`. -/
def PropertyTable.Recatches (table : PropertyTable) (property s u : String) : Prop :=
  ∃ rule ∈ table.rule? property, IsRecaught rule.keywords (trim s.toList) u.toList

instance (table : PropertyTable) (property s u : String) :
    Decidable (table.Recatches property s u) :=
  inferInstanceAs (Decidable (∃ rule ∈ table.rule? property,
    IsRecaught rule.keywords (trim s.toList) u.toList))

/-- A normal form that differs in letter case only is no other keyword. -/
theorem not_recatches_of_fullLower_eq {table : PropertyTable} {property s u : String}
    (same : fullLower u.toList = fullLower (trim s.toList)) : ¬ table.Recatches property s u := by
  rintro ⟨rule, -, recaught⟩
  exact recaught.fresh (same ▸ recaught.caught)

/-- **The normal form of an accepted value is accepted with the same verdict**, unless it is a
keyword of the property that the value was not; then it is accepted as that keyword. -/
theorem validateValue_normalForm {table : PropertyTable} {property s u : String}
    {type : ValueType} {detail : Detail}
    (h : validateValue table property s = .accepted u type detail) :
    (¬ table.Recatches property s u →
      validateValue table property u = .accepted u type detail) ∧
    (table.Recatches property s u → ∃ type' detail',
      validateValue table property u = .accepted (fullLowerText u) type' detail' ∧
        (type', detail') ≠ (type, detail)) := by
  have bareU := isBare_of_validateValue h
  have again_of_same : u.toList = trim s.toList →
      validateValue table property u = .accepted u type detail := by
    intro same
    rw [← h, validateValue, validateValue, bareU.trim_eq, same]
  have settled_of_lower : ∀ {P : Prop}, fullLower u.toList = fullLower (trim s.toList) →
      validateValue table property u = .accepted u type detail →
      (¬ table.Recatches property s u → validateValue table property u = .accepted u type detail) ∧
        (table.Recatches property s u → P) := fun same again =>
    ⟨fun _ => again, fun recatches => absurd recatches (not_recatches_of_fullLower_eq same)⟩
  simp only [validateValue] at h
  split at h
  · cases h
  · next some_ =>
    have bare : IsBare (trim s.toList) :=
      .of_trim (Scan.trim_trim s.toList) (by simpa using some_)
    split at h
    · next listed =>
      obtain ⟨rfl, rfl, rfl⟩ := Outcome.accepted.inj h
      refine settled_of_lower (by simp) ?_
      simp [validateValue, bare.fullLower.trim_eq, bare.fullLower.nonempty,
        List.contains_iff_mem.1 listed]
    · next notGlobal =>
      split at h
      · obtain ⟨written, -⟩ := validateFunction_eq_accepted (Outcome.mapFault_eq_accepted h)
        have same : u.toList = trim s.toList := by
          rw [written, String.toList_ofList, Scan.trim_trim]
        exact settled_of_lower (by rw [same]) (again_of_same same)
      · next notReference =>
        split at h
        · have same := toList_of_validateFree h
          exact settled_of_lower (by rw [same]) (again_of_same same)
        · next rule known =>
          have ordinary : IsOrdinary (trim s.toList) :=
            ⟨fun listed => notGlobal (List.contains_iff_mem.2 listed), notReference⟩
          have settled := isSettled_of_validateKind bare h
          rw [validateValue_of_isOrdinary known bareU (settled.ordinary ordinary)]
          refine ⟨fun free => settled.again fun recaught => free ⟨rule, known, recaught⟩, ?_⟩
          rintro ⟨rule', known', recaught⟩
          obtain rfl : rule = rule' := Option.some.inj (known.symm.trans known')
          exact settled.recaught recaught

theorem validateValue_normalForm_hex :
    validateValue .standard "color" "#aabbcc" = .accepted "#aabbcc" .color (.color "hex") := by
  have accepted : validateValue .standard "color" " #AbC " =
      .accepted "#aabbcc" .color (.color "hex") := by decide +kernel
  have fixed := validateValue_normalForm accepted
  exact fixed.1 (by decide +kernel)

/-- If the digit zero is a keyword, then a zero is a length, and its normal form a keyword. -/
theorem exists_normalForm_recaught :
    ∃ table : PropertyTable,
      table.rules = [("gap", { PropertyRule.ofKind .length with keywords := ["0"] })] ∧
      validateValue table "gap" "0.0" = .accepted "0" .length .none ∧
      validateValue table "gap" "0" ≠ .accepted "0" .length .none :=
  ⟨⟨[], _⟩, rfl, by decide +kernel, by decide +kernel⟩

end BracketCss
