import BracketCss.Proofs.Pattern.Language
import BracketCss.Proofs.Threat.Report
import BracketCss.Proofs.Value.Word

/-!
# Accepted values

An accepted value is written with the words of the text that was validated. They come back in
order, each as it was or in a form that no threat can tell from it, and unless the whole value was
searched for threats, every one of them is a plain word, a call or a quoted text.

## Main definitions

* `Written words value`: a value is written with some words
* `IsOrderly cs`: a closed text of plain words, calls and quoted texts

## Main results

* `written_of_validateKind`, `written_of_validateValue`: what is written for an accepted value
-/

namespace BracketCss

open Text

/-- A value is written with some words, of which each is kept. Either they stay the same, or each
that is written is plain or ends a call. -/
def Written (words : List (List Char)) (value : String) : Prop :=
  ∃ others, Laced others (' ' :: value.toList) ∧ List.Forall₂ Kept words others ∧
    (others = words ∨ ∀ u ∈ others, IsDull u ∨ u.getLast? = some ')') ∧
    (isSafe value ∨ ∀ u ∈ others, IsDull u ∨ IsFramed u)

section Written

variable {cs : List Char}

/-- A value that stays as it is. -/
theorem Written.same (spaces : IsSpaced cs)
    (regular : isSafe (.ofList cs) ∨ ∀ u ∈ Scan.gapWords cs, IsDull u ∨ IsFramed u) :
    Written (Scan.gapWords cs) (.ofList cs) := by
  refine ⟨Scan.gapWords cs, ?_, List.forall₂_same.2 fun w _ => .same w, .inl rfl, regular⟩
  rw [String.toList_ofList]
  exact laced_gapWords spaces

/-- Words with spaces between them. -/
theorem Written.words {words others : List (List Char)}
    (written : List.Forall₂ WrittenWord words others) :
    Written words (.ofList ([' '].intercalate others)) := by
  have each : ∀ u ∈ others, IsDull u ∨ IsFramed u ∧ u.getLast? = some ')' := by
    induction written with
    | nil => exact List.forall_mem_nil _
    | cons first _ ih => exact List.forall_mem_cons.2 ⟨first.regular, ih⟩
  refine ⟨others, ?_, written.imp fun _ _ word => word.kept,
    .inr fun u hu => (each u hu).imp_right And.right,
    .inr fun u hu => (each u hu).imp_right And.left⟩
  rw [String.toList_ofList]
  exact laced_intercalate others

theorem Written.word {w : List Char} {value : String} (h : WrittenWord w value.toList) :
    Written (Scan.gapWords w) value := by
  have one := Written.words (.cons h .nil)
  rwa [List.intercalate_singleton, String.ofList_toList, ← h.whole] at one

end Written

/-! ## Texts of regular words -/

/-- A closed text of plain words, calls and quoted texts. -/
structure IsOrderly (cs : List Char) : Prop where
  /-- Nothing stays open. -/
  closed : Scan.IsClosed cs
  /-- Every word is regular. -/
  words : ∀ u ∈ Scan.gapWords cs, IsDull u ∨ IsFramed u

namespace IsOrderly

theorem nil : IsOrderly [] := ⟨Scan.isClosed_nil, fun _ mem => by cases mem⟩

theorem append {xs ys : List Char} (hxs : IsOrderly xs) {c : Char} (hc : Scan.isGap c)
    (hys : IsOrderly ys) : IsOrderly (xs ++ c :: ys) := by
  have structural := Scan.isGap_structural hc
  constructor
  · refine hxs.closed.append ?_
    rw [← List.singleton_append]
    refine Scan.IsClosed.append (Scan.isClosed_of_plain ?_) hys.closed
    exact List.forall_mem_singleton.2 structural
  · rw [Scan.gapWords, Scan.wordsBy_append hxs.closed hc structural]
    exact List.forall_mem_append.2 ⟨hxs.words, hys.words⟩

theorem gap {ys : List Char} {c : Char} (hc : Scan.isGap c) (hys : IsOrderly ys) :
    IsOrderly (c :: ys) := by
  simpa using nil.append hc hys

end IsOrderly

theorem isStructural_of_isDullChar {c : Char} (h : isDullChar c) : Scan.isStructural c = false := by
  obtain ⟨-, -, opening, closing, double, single, -⟩ := (isDullChar_iff c).1 h
  simp [Scan.isStructural, Scan.isQuote, opening, closing, double, single]

theorem IsDull.isOrderly {w : List Char} (h : IsDull w) (spaces : IsSpaced w) :
    IsOrderly w := by
  constructor
  · refine Scan.isClosed_of_plain fun c hc => ?_
    obtain ⟨-, body, dull, rfl | rfl⟩ := h
    · exact isStructural_of_isDullChar (dull c hc)
    · rcases List.mem_append.1 hc with hc | hc
      · exact isStructural_of_isDullChar (dull c hc)
      · rw [List.mem_singleton.1 hc]
        rfl
  · rw [Scan.gapWords_of_solid h.1 (h.not_isGap spaces)]
    exact List.forall_mem_singleton.2 (.inl h)

theorem isOrderly_quoted {q : Char} (hq : Scan.isQuote q) {body : List Char}
    (inside : ∀ c ∈ body, c ≠ q) : IsOrderly (q :: (body ++ [q])) := by
  obtain ⟨closed, one⟩ := Scan.gapWords_quoted hq inside
  refine ⟨closed, ?_⟩
  rw [one]
  exact List.forall_mem_singleton.2 (.inr ⟨q, body, q, rfl, .inr hq, .inr hq⟩)

/-! ## Lengths and calls -/

theorem spaces_of_mem_topWords {cs w : List Char} (spaces : IsSpaced cs)
    (h : w ∈ Scan.topWords cs) : IsSpaced w :=
  fun c hc => spaces c ((Scan.of_mem_topWords h).1 hc)

/-- If there is no gap in any of the words, there are no others. -/
theorem gapWords_eq_topWords {cs : List Char} (closed : Scan.IsClosed cs)
    (whole : ∀ w ∈ Scan.topWords cs, Scan.gapWords w = [w]) :
    Scan.gapWords cs = Scan.topWords cs := by
  rw [← Scan.gapWords_topWords closed, List.flatMap_congr whole, List.flatMap_singleton']

section Kinds

variable {rule : PropertyRule} {property : String} {cs : List Char} {value : String}
  {type : ValueType} {detail : Detail}

/-- Accepted words side by side are written as words. -/
theorem written_of_words (plain : ∀ k ∈ rule.keywords, IsPlainText k) (spaces : IsSpaced cs)
    (closed : Scan.IsClosed cs) {values : List String}
    (h : List.Forall₂ (IsWordValue rule) (Scan.topWords cs) values) :
    Written (Scan.gapWords cs) (" ".intercalate values) := by
  have fits : ∀ w ∈ Scan.topWords cs, IsSpaced w ∧ trim w = w := fun w hw =>
    ⟨spaces_of_mem_topWords spaces hw, (Scan.of_mem_topWords hw).2⟩
  have written : List.Forall₂ WrittenWord (Scan.topWords cs) (values.map String.toList) :=
    List.forall₂_map_right_iff.2 (((List.forall₂_and_left _ _).2 ⟨fits, h⟩).imp
      fun _ _ one => one.2.writtenWord plain one.1.1 one.1.2)
  have words : Scan.gapWords cs = Scan.topWords cs :=
    gapWords_eq_topWords closed fun w hw => by
      obtain ⟨u, -, one⟩ := exists_of_mem_left written hw
      exact one.whole
  have same : " ".intercalate values =
      .ofList ([' '].intercalate (values.map String.toList)) := by
    rw [← String.toList_inj, String.toList_intercalate, String.toList_ofList]
    simp
  rw [words, same]
  exact .words written

/-- Words that could be written as single words are regular. -/
theorem isOrderly_of_topWords (closed : Scan.IsClosed cs)
    (written : ∀ w ∈ Scan.topWords cs, ∃ u, WrittenWord w u) : IsOrderly cs := by
  refine ⟨closed, fun w hw => ?_⟩
  rw [gapWords_eq_topWords closed fun w hw => (written w hw).elim fun _ one => one.whole] at hw
  obtain ⟨u, one⟩ := written w hw
  exact one.kept.regular (one.regular.imp_right And.left)

/-- Calls side by side stay as they are. -/
theorem written_of_calls (spaces : IsSpaced cs) (closed : Scan.IsClosed cs) {names : List String}
    (h : calledNames rule (Scan.topWords cs) = .ok names) :
    Written (Scan.gapWords cs) (.ofList cs) := by
  have regular : IsOrderly cs := isOrderly_of_topWords closed fun w hw => by
    obtain ⟨call, one⟩ := call_of_calledNames h w hw
    exact ⟨w, .call (Scan.of_mem_topWords hw).2 one⟩
  exact .same spaces (.inr regular.words)

/-! ## Shadows -/

theorem mem_drop_one {α : Type} {words : List α} {w : α} (h : w ∈ words) :
    w ∈ words.drop 1 ∨ words.head? = some w := by
  cases words with
  | nil => cases h
  | cons v words =>
    rcases List.mem_cons.1 h with rfl | h
    · exact .inr rfl
    · exact .inl h

theorem mem_dropLast {α : Type} {words : List α} {w : α} (h : w ∈ words) :
    w ∈ words.dropLast ∨ words.getLast? = some w := by
  rcases List.eq_nil_or_concat' words with rfl | ⟨front, v, rfl⟩
  · cases h
  · rw [List.dropLast_concat, List.getLast?_concat]
    rcases List.mem_append.1 h with h | h
    · exact .inl h
    · exact .inr (by rw [List.mem_singleton.1 h])

/-- A word of a shadow is one of its lengths, or `inset`, or its colour. -/
theorem mem_shadowLengths {words : List (List Char)} {w : List Char} (h : w ∈ words) :
    w ∈ shadowLengths words ∨ isInset w ∨ isColor w := by
  -- the first or the last word may be `inset`, and the last or the first of the others a colour
  have kept : w ∈ dropInset words ∨ isInset w := by
    unfold dropInset
    split
    · next first =>
      refine (mem_drop_one h).imp_right fun same => ?_
      simpa [same] using first
    · split
      · next last =>
        refine (mem_dropLast h).imp_right fun same => ?_
        simpa [same] using last
      · exact .inl h
  rcases kept with h | inset
  · rw [shadowLengths]
    generalize dropInset words = others at h
    unfold dropColor
    split
    · next last =>
      refine (mem_dropLast h).imp_right fun same => .inr ?_
      simpa [same] using last
    · split
      · next first =>
        refine (mem_drop_one h).imp_right fun same => .inr ?_
        simpa [same] using first
      · exact .inl h
  · exact .inr (.inl inset)

theorem checkShadowLengths_eq_ok {index : Nat} {words : List (List Char)}
    (h : checkShadowLengths index words = .ok ()) :
    ∀ w ∈ words, ∃ index, checkShadowLength index w = .ok () := by
  induction words generalizing index with
  | nil => exact List.forall_mem_nil _
  | cons w words ih =>
    rw [checkShadowLengths] at h
    cases first : checkShadowLength index w with
    | error fault =>
      rw [first] at h
      cases h
    | ok =>
      rw [first] at h
      exact List.forall_mem_cons.2 ⟨⟨index, first⟩, ih h⟩

theorem writtenWord_of_checkShadowLength {w : List Char} {index : Nat}
    (spaces : IsSpaced w) (trimmed : trim w = w)
    (h : checkShadowLength index w = .ok ()) : ∃ u, WrittenWord w u := by
  simp only [checkShadowLength] at h
  split at h
  · next call found => exact ⟨w, .call trimmed (Option.filter_eq_some_iff.1 found).1⟩
  · split at h
    · next d hd => exact ⟨_, .dimension spaces trimmed hd⟩
    · cases h

theorem isOrderly_of_checkShadow {least greatest : Int} (spaces : IsSpaced cs)
    (closed : Scan.IsClosed cs) (h : checkShadow least greatest cs = .ok ()) : IsOrderly cs := by
  have lengths : checkShadowLengths 0 (shadowLengths (Scan.topWords cs)) = .ok () := by
    simp only [checkShadow, bind, Except.bind] at h
    split at h
    · cases h
    · split at h
      · cases h
      · exact h
  refine isOrderly_of_topWords closed fun w hw => ?_
  have spaces' := spaces_of_mem_topWords spaces hw
  have trimmed := (Scan.of_mem_topWords hw).2
  rcases mem_shadowLengths hw with length | inset | color
  · obtain ⟨index, one⟩ := checkShadowLengths_eq_ok lengths w length
    exact writtenWord_of_checkShadowLength spaces' trimmed one
  · have plain : IsPlainText (.ofList (fullLower w)) := by
      rw [(fullLower_eq_iff (by decide) w).2 (eq_of_beq inset)]
      exact .of_bytes (by decide)
    exact ⟨_, .keyword spaces' plain⟩
  · rw [isColor] at color
    cases verdict : validateColor [] (.ofList w) with
    | rejected =>
      rw [verdict] at color
      cases color
    | accepted value type detail =>
      have one := isColorValue_of_validateColor trimmed verdict
      exact ⟨_, one.writtenWord (List.forall_mem_nil _) spaces' trimmed⟩

/-! ## Patterns -/

/-- A word that is plain in every letter case is plain. -/
theorem isDull_of_map_caseKey {w : List Char} {k : String} (plain : IsPlainText k)
    (same : w.map caseKey = k.toList) : IsDull w := by
  refine isDull_of_forall (fun empty => plain.1 (by rw [← same, empty]; rfl)) fun c hc => ?_
  cases special : isDullChar c with
  | true => rfl
  | false =>
    have kept := of_not_isDullChar (p := fun d => caseKey d == d) (by decide) special
    have mem : caseKey c ∈ k.toList := by
      rw [← same]
      exact List.mem_map_of_mem hc
    rw [eq_of_beq kept] at mem
    rw [plain.2 c mem] at special
    cases special

section Patterns

open Pattern

variable {before : Option Char} {after : List Char}

theorem isOrderly_of_matches_quoted {mark : Char} (hmark : Scan.isQuote mark)
    (h : Matches (quotedPattern mark) before cs after) : IsOrderly cs := by
  obtain ⟨xs, rest, rfl, first, others⟩ := matches_sequence_cons.1 h
  obtain ⟨ys, zs, rfl, inside, last⟩ := matches_sequence_cons.1 others
  obtain ⟨c, hc, rfl⟩ := matches_char.1 first
  obtain ⟨d, hd, rfl⟩ := matches_char.1 last
  rw [eq_of_beq hc, eq_of_beq hd]
  refine isOrderly_quoted hmark fun c hc => ?_
  simpa [CharClass.contains] using matches_many.1 inside c hc

theorem isOrderly_of_matches_content (spaces : IsSpaced cs)
    (h : Matches contentPattern before cs after) : IsOrderly cs := by
  obtain ⟨p, mem, matched⟩ := (matches_choice (by simp)).1 h
  rcases List.mem_append.1 mem with mem | mem
  · obtain ⟨k, listed, rfl⟩ := List.mem_map.1 mem
    have plain : ∀ k ∈ ["none", "normal", "open-quote", "close-quote", "no-open-quote",
        "no-close-quote"], HasPlainBytes k := by decide
    exact (isDull_of_map_caseKey (.of_bytes (plain k listed))
      (matches_textIgnoringCase.1 matched)).isOrderly spaces
  · rcases List.mem_cons.1 mem with rfl | mem
    · exact isOrderly_of_matches_quoted rfl matched
    · rw [List.mem_singleton.1 mem] at matched
      exact isOrderly_of_matches_quoted rfl matched

theorem isPlain_quotedPattern (mark : Char) : (quotedPattern mark).IsPlain :=
  ⟨trivial, trivial, trivial⟩

theorem isPlain_contentPattern : contentPattern.IsPlain := by
  refine isPlain_choice (List.forall_mem_append.2 ⟨fun p hp => ?_, ?_⟩)
  · obtain ⟨k, -, rfl⟩ := List.mem_map.1 hp
    exact isPlain_textIgnoringCase k
  · simp [isPlain_quotedPattern]

theorem isPlain_fontFamilyPattern : fontFamilyPattern.IsPlain := by
  have family : (choice [quotedPattern '"', quotedPattern '\'',
      seq (seq (char .asciiLetter) (many .nameChar))
        (star true (seq (char (.one ' ')) (seq (char .asciiLetter) (many .nameChar))))]).IsPlain :=
    ⟨isPlain_quotedPattern _, isPlain_quotedPattern _, ⟨trivial, trivial⟩, trivial, trivial,
      trivial⟩
  exact ⟨family, isPlain_text _, family⟩

/-- A name is a plain word. -/
theorem isDull_of_matches_name
    (h : Matches (seq (char .asciiLetter) (many .nameChar)) before cs after) : IsDull cs := by
  obtain ⟨xs, ys, rfl, first, others⟩ := matches_seq.1 h
  obtain ⟨c, letter, rfl⟩ := matches_char.1 first
  refine isDull_of_forall (by simp) (List.forall_mem_cons.2 ⟨?_, fun d hd => ?_⟩)
  · exact isDullChar_of_isAsciiLetter letter
  · exact isDullChar_of_isNameChar (matches_many.1 others d hd)

/-- Repetitions after separators keep a text orderly. -/
theorem isOrderly_append_of_matches_star {p : Pattern} {eager : Bool}
    (step : ∀ before xs after, IsSpaced xs → Matches p before xs after →
      ∀ front, IsOrderly front → IsOrderly (front ++ xs))
    (spaces : IsSpaced cs) (h : Matches (star eager p) before cs after) :
    ∀ front, IsOrderly front → IsOrderly (front ++ cs) := by
  have all : IsSpaced cs → ∀ front, IsOrderly front →
      IsOrderly (front ++ cs) := by
    refine h.star_induction (motive := fun cs => IsSpaced cs →
      ∀ front, IsOrderly front → IsOrderly (front ++ cs)) ?_ ?_
    · intro _ front orderly
      rwa [List.append_nil]
    · intro before xs ys after first others spaces front orderly
      obtain ⟨spacesXs, spacesYs⟩ := List.forall_mem_append.1 spaces
      rw [← List.append_assoc]
      exact others spacesYs _ (step before xs after spacesXs first front orderly)
  exact all spaces

/-- The pattern of one font family. -/
def IsFamily (p : Pattern) : Prop :=
  ∀ before xs after, IsSpaced xs → Matches p before xs after → IsOrderly xs

theorem isOrderly_of_matches_fontFamily (spaces : IsSpaced cs)
    (h : Matches fontFamilyPattern before cs after) : IsOrderly cs := by
  obtain ⟨xs, ys, rfl, first, others⟩ := matches_seq.1 h
  obtain ⟨spacesXs, spacesYs⟩ := List.forall_mem_append.1 spaces
  -- the family stands twice in the pattern, at the start and in the repetition
  generalize family : choice _ = p at first others
  have orderly : IsFamily p := by
    subst family
    intro before xs after spaces matched
    obtain ⟨p, mem, matched⟩ := (matches_choice (by simp)).1 matched
    simp only [List.mem_cons, List.not_mem_nil, or_false] at mem
    rcases mem with rfl | rfl | rfl
    · exact isOrderly_of_matches_quoted rfl matched
    · exact isOrderly_of_matches_quoted rfl matched
    · obtain ⟨ys, zs, rfl, name, names⟩ := matches_seq.1 matched
      obtain ⟨spacesYs, spacesZs⟩ := List.forall_mem_append.1 spaces
      refine isOrderly_append_of_matches_star ?_ spacesZs names ys
        ((isDull_of_matches_name name).isOrderly spacesYs)
      intro before zs after spaces matched front orderly
      obtain ⟨us, vs, rfl, space, name⟩ := matches_seq.1 matched
      obtain ⟨c, same, rfl⟩ := matches_char.1 space
      rw [eq_of_beq same]
      refine orderly.append rfl ((isDull_of_matches_name name).isOrderly fun c hc => ?_)
      exact spaces c (List.mem_append_right _ hc)
  refine isOrderly_append_of_matches_star ?_ spacesYs others xs (orderly _ _ _ spacesXs first)
  intro before ys after spaces matched front orderlyFront
  obtain ⟨us, vs, rfl, comma, matched⟩ := matches_seq.1 matched
  obtain rfl := matches_text.1 comma
  have orderlyVs := orderly _ _ _ (fun c hc => spaces c (List.mem_append_right _ hc)) matched
  exact orderlyFront.append rfl (orderlyVs.gap rfl)

end Patterns

/-! ## All kinds -/

theorem ThreatReport.isBlocking_of_isDangerous {report : ThreatReport}
    (h : report.isDangerous = false) : report.isBlocking = false := by
  rw [isDangerous, Bool.not_eq_false', List.isEmpty_iff] at h
  rw [isBlocking, risk, h]
  rfl

theorem written_of_validateFree (spaces : IsSpaced cs)
    (h : validateFree cs = .accepted value type detail) : Written (Scan.gapWords cs) value := by
  simp only [validateFree] at h
  split at h
  · cases h
  · next harmless =>
    obtain ⟨rfl, -, -⟩ := Outcome.accepted.inj h
    refine .same spaces (.inl ?_)
    have blocked := ThreatReport.isBlocking_of_isDangerous (Bool.not_eq_true _ ▸ harmless)
    rwa [ThreatReport.isBlocking_ofText_eq, Bool.not_eq_false'] at blocked

theorem written_of_validateComplex (plain : ∀ k ∈ rule.keywords, IsPlainText k)
    (patterns : ∀ p ∈ rule.pattern, p = fontFamilyPattern ∨ p = contentPattern)
    (spaces : IsSpaced cs) (trimmed : trim cs = cs) (closed : Scan.IsClosed cs)
    (h : validateComplex rule property cs = .accepted value type detail) :
    Written (Scan.gapWords cs) value := by
  simp only [validateComplex] at h
  split at h
  · next found => exact .word ((isWordValue_of_keyword? found h).writtenWord plain spaces trimmed)
  · split at h
    · split at h
      · next found =>
        obtain ⟨rfl, -, -⟩ := Outcome.accepted.inj h
        exact .same spaces (.inr (isOrderly_of_checkShadow spaces closed found).words)
      · cases h
    · split at h
      · next p hp =>
        split at h
        · next matched =>
          obtain ⟨rfl, -, -⟩ := Outcome.accepted.inj h
          refine .same spaces (.inr (IsOrderly.words ?_))
          rcases patterns p hp with rfl | rfl
          · exact isOrderly_of_matches_fontFamily spaces
              (Pattern.matches_of_matchesAll isPlain_fontFamilyPattern matched)
          · exact isOrderly_of_matches_content spaces
              (Pattern.matches_of_matchesAll isPlain_contentPattern matched)
        · cases h
      · split at h
        · exact written_of_validateFree spaces h
        · cases h

/-- A rule of which the keywords are plain and the pattern is known. -/
structure PropertyRule.IsPlain (rule : PropertyRule) : Prop where
  /-- The keywords are plain. -/
  keywords : ∀ k ∈ rule.keywords, IsPlainText k
  /-- The pattern, if there is one, is that of font families or of content. -/
  patterns : ∀ p ∈ rule.pattern, p = fontFamilyPattern ∨ p = contentPattern
  /-- A comma stands between the parts, or nothing but a space. -/
  separator : rule.separator = " " ∨ rule.separator = ", "

theorem written_of_validateKind (plain : rule.IsPlain) (spaces : IsSpaced cs)
    (trimmed : trim cs = cs) (closed : Scan.IsClosed cs)
    (h : validateKind rule property cs = .accepted value type detail) :
    Written (Scan.gapWords cs) value := by
  have keywords := plain.keywords
  cases isKindValue_of_validateKind trimmed h with
  | word one => exact .word (one.writtenWord keywords spaces trimmed)
  | words _ all => exact written_of_words keywords spaces closed all
  | color one => exact .word (one.writtenWord keywords spaces trimmed)
  | calls found => exact written_of_calls spaces closed found
  | complex _ found =>
    exact written_of_validateComplex keywords plain.patterns spaces trimmed closed found

end Kinds

theorem standardRules_isPlain : ∀ entry ∈ standardRules, entry.2.IsPlain := by
  have patterns : ∀ entry ∈ standardRules, ∀ p ∈ entry.2.pattern,
      p = fontFamilyPattern ∨ p = contentPattern := by decide +kernel
  have separators : ∀ entry ∈ standardRules,
      entry.2.separator = " " ∨ entry.2.separator = ", " := by decide +kernel
  exact fun entry mem => ⟨isPlainText_keywords entry mem, patterns entry mem, separators entry mem⟩

theorem mem_standardRules {property : String} {rule : PropertyRule}
    (h : PropertyTable.standard.rule? property = some rule) : (property, rule) ∈ standardRules := by
  obtain ⟨front, back, same, -⟩ := List.lookup_eq_some_iff.1 h
  have split_ : standardRules = front ++ (property, rule) :: back := same
  rw [split_]
  exact List.mem_append_right _ List.mem_cons_self

/-- What is written for a value that is accepted for a property. -/
theorem written_of_validateValue {property s value : String} {type : ValueType} {detail : Detail}
    (spaces : IsSpaced s.toList) (closed : Scan.IsClosed s.toList)
    (h : validateValue .standard property s = .accepted value type detail) :
    Written (Scan.gapWords s.toList) value := by
  have trimmed := Scan.trim_trim s.toList
  have spaces' : IsSpaced (trim s.toList) := fun c hc =>
    spaces c (Scan.trim_subset _ hc)
  rw [← Scan.gapWords_trim closed]
  replace closed := closed.trim
  obtain ⟨-, ⟨listed, rfl, -⟩ | reference | ⟨-, free⟩ | ⟨rule, known, accepted⟩⟩ :=
    validateValue_cases h
  · have written := WrittenWord.keyword spaces' (isPlainText_globalKeywords _ listed)
    refine .word ?_
    rwa [String.toList_ofList]
  · obtain ⟨rfl, call, found⟩ := validateFunction_eq_accepted reference
    rw [trimmed] at found ⊢
    refine .word ?_
    rw [String.toList_ofList]
    exact .call trimmed found
  · exact written_of_validateFree spaces' free
  · exact written_of_validateKind (standardRules_isPlain _ (mem_standardRules known)) spaces'
      trimmed closed accepted

end BracketCss
