import BracketCss.Proofs.Text.DecodedCase
import BracketCss.Proofs.Threat.Front

/-!
# Threats and the case of letters

Threats are sought in any letter case. Every class of characters in the pattern of a threat holds a
letter in both cases or in neither, so the pattern matches a text exactly if it matches its lower
case. Decoding keeps texts equal up to letter case, and a text is safe exactly if its lower case is.

## Main definitions

* `Pattern.IsCaseBlind p`: every class of a pattern holds a letter in both cases or in neither

## Main results

* `Pattern.matches_map_toLower_iff`: what such a pattern matches
* `Threat.occursIn_congr`: a threat occurs in texts that are equal up to letter case
* `isSafe_map_toLower`: a text without references is safe if and only if its lower case is
-/

namespace BracketCss

open Text

/-! ## Patterns -/

/-- The last character of a text in lower case is its last character in lower case. -/
theorem lastOf_map (f : Char → Char) (before : Option Char) (cs : List Char) :
    lastOf (before.map f) (cs.map f) = (lastOf before cs).map f := by
  induction cs generalizing before with
  | nil => rfl
  | cons c cs ih => exact ih (some c)

namespace Pattern

/-- Every class of a pattern holds a letter in both cases or in neither. -/
def IsCaseBlind : Pattern → Prop
  | char class_ => Text.IsCaseBlind class_.contains
  | seq p q | alt p q => p.IsCaseBlind ∧ q.IsCaseBlind
  | star _ p | group _ p => p.IsCaseBlind
  | empty | start | finish | boundary | noBoundary => True

theorem isCaseBlind_sequence {ps : List Pattern} (h : ∀ p ∈ ps, p.IsCaseBlind) :
    (sequence ps).IsCaseBlind := by
  induction ps with
  | nil => trivial
  | cons p ps ih =>
    obtain ⟨first, others⟩ := List.forall_mem_cons.1 h
    cases ps with
    | nil => exact first
    | cons q ps => exact ⟨first, ih others⟩

theorem isCaseBlind_choice {ps : List Pattern} (h : ∀ p ∈ ps, p.IsCaseBlind) :
    (choice ps).IsCaseBlind := by
  induction ps with
  | nil => trivial
  | cons p ps ih =>
    obtain ⟨first, others⟩ := List.forall_mem_cons.1 h
    cases ps with
    | nil => exact first
    | cons q ps => exact ⟨first, ih others⟩

theorem isCaseBlind_one {mark : Char} (h : isAsciiLetter mark = false) :
    (char (.one mark)).IsCaseBlind := by
  intro c
  rw [CharClass.contains, CharClass.contains, Bool.eq_iff_iff, beq_iff_eq, beq_iff_eq,
    toLower_eq_iff h]

theorem isCaseBlind_text {s : String} (h : ∀ c ∈ s.toList, isAsciiLetter c = false) :
    (text s).IsCaseBlind :=
  isCaseBlind_sequence (List.forall_mem_map.2 fun c hc => isCaseBlind_one (h c hc))

theorem isCaseBlind_textIgnoringCase (s : String) : (textIgnoringCase s).IsCaseBlind :=
  isCaseBlind_sequence <| List.forall_mem_map.2 fun d _ c => by
    rw [CharClass.contains, CharClass.contains, isCaseBlind_caseKey c]

theorem isCaseBlind_optional {p : Pattern} (h : p.IsCaseBlind) (eager : Bool) :
    (optional eager p).IsCaseBlind := by
  cases eager
  · exact ⟨trivial, h⟩
  · exact ⟨h, trivial⟩

theorem isCaseBlind_upTo {p : Pattern} (h : p.IsCaseBlind) (eager : Bool) (count : Nat) :
    (upTo eager p count).IsCaseBlind := by
  induction count with
  | zero => trivial
  | succ count ih =>
    have more : (seq p (upTo eager p count)).IsCaseBlind := ⟨h, ih⟩
    exact isCaseBlind_optional more eager

variable {before : Option Char} {cs after : List Char}

/-- Repetitions are none at all, or one that takes some text and others. -/
theorem matches_star_iff {eager : Bool} {p : Pattern} :
    Matches (star eager p) before cs after ↔ cs = [] ∨ ∃ xs ys, xs ≠ [] ∧ cs = xs ++ ys ∧
      Matches p before xs (ys ++ after) ∧ Matches (star eager p) (lastOf before xs) ys after := by
  refine ⟨Matches.progress, ?_⟩
  rintro (rfl | ⟨xs, ys, -, rfl, first, others⟩)
  · exact .done
  · exact .again first others

/-- **A pattern without a look at the case of letters** matches a text if it matches it in lower
case. -/
theorem matches_map_toLower_iff {p : Pattern} (blind : p.IsCaseBlind) :
    Matches p (before.map Char.toLower) (cs.map Char.toLower) (after.map Char.toLower) ↔
      Matches p before cs after := by
  induction p generalizing before cs after with
  | empty => rw [matches_empty, matches_empty, List.map_eq_nil_iff]
  | char class_ =>
    rw [matches_char, matches_char]
    constructor
    · rintro ⟨d, mem, same⟩
      obtain ⟨c, rfl, rfl⟩ := List.map_eq_singleton_iff.1 same
      exact ⟨c, blind c ▸ mem, rfl⟩
    · rintro ⟨c, mem, rfl⟩
      exact ⟨c.toLower, (blind c).symm ▸ mem, rfl⟩
  | boundary =>
    rw [matches_boundary, matches_boundary, List.map_eq_nil_iff,
      isCaseBlind_isWordChar.any_head?, isCaseBlind_isWordChar.any_option]
  | seq p q ihp ihq =>
    rw [matches_seq, matches_seq]
    constructor
    · rintro ⟨xs', ys', same, first, second⟩
      obtain ⟨xs, ys, rfl, rfl, rfl⟩ := List.map_eq_append_iff.1 same
      rw [← List.map_append] at first
      rw [lastOf_map] at second
      exact ⟨xs, ys, rfl, (ihp blind.1).1 first, (ihq blind.2).1 second⟩
    · rintro ⟨xs, ys, rfl, first, second⟩
      refine ⟨_, _, List.map_append, ?_, ?_⟩
      · rw [← List.map_append]
        exact (ihp blind.1).2 first
      · rw [lastOf_map]
        exact (ihq blind.2).2 second
  | alt p q ihp ihq => rw [matches_alt, matches_alt, ihp blind.1, ihq blind.2]
  | star eager p ih =>
    -- the repetitions take their texts from the front, so the induction is on the length
    induction size : cs.length using Nat.strong_induction_on generalizing before cs with
    | _ size shorter =>
      subst size
      rw [matches_star_iff, matches_star_iff, List.map_eq_nil_iff]
      refine or_congr_right ⟨?_, ?_⟩
      · rintro ⟨xs', ys', some_, same, first, others⟩
        obtain ⟨xs, ys, rfl, rfl, rfl⟩ := List.map_eq_append_iff.1 same
        have taken := List.length_pos_iff.2 (mt List.map_eq_nil_iff.2 some_)
        rw [← List.map_append] at first
        rw [lastOf_map] at others
        refine ⟨xs, ys, mt List.map_eq_nil_iff.2 some_, rfl, (ih blind).1 first, ?_⟩
        exact (shorter ys.length (by rw [List.length_append]; omega) rfl).1 others
      · rintro ⟨xs, ys, some_, rfl, first, others⟩
        have taken := List.length_pos_iff.2 some_
        refine ⟨_, _, mt List.map_eq_nil_iff.1 some_, List.map_append, ?_, ?_⟩
        · rw [← List.map_append]
          exact (ih blind).2 first
        · rw [lastOf_map]
          exact (shorter ys.length (by rw [List.length_append]; omega) rfl).2 others
  | start | finish | noBoundary | group => exact ⟨nofun, nofun⟩

/-- Such a pattern occurs in a text if it occurs in the lower case. -/
theorem occursIn_map_toLower {p : Pattern} (plain : p.IsPlain) (blind : p.IsCaseBlind)
    (cs : List Char) : p.occursIn (cs.map Char.toLower) = p.occursIn cs := by
  have before : ∀ xs : List Char,
      lastOf none (xs.map Char.toLower) = (lastOf none xs).map Char.toLower :=
    lastOf_map Char.toLower none
  rw [Bool.eq_iff_iff, occursIn_iff plain, occursIn_iff plain]
  constructor
  · rintro ⟨xs', ys', after', same, found⟩
    obtain ⟨xs, rest, rfl, rfl, later⟩ := List.map_eq_append_iff.1 same
    obtain ⟨ys, after, rfl, rfl, rfl⟩ := List.map_eq_append_iff.1 later
    rw [before] at found
    exact ⟨xs, ys, after, rfl, (matches_map_toLower_iff blind).1 found⟩
  · rintro ⟨xs, ys, after, rfl, found⟩
    refine ⟨xs.map Char.toLower, ys.map Char.toLower, after.map Char.toLower, by simp, ?_⟩
    rw [before]
    exact (matches_map_toLower_iff blind).2 found

end Pattern

/-! ## Threats -/

open Pattern

theorem Threat.isCaseBlind_wordThen (word : String) {mark : Char}
    (h : isAsciiLetter mark = false) : (wordThen word mark).IsCaseBlind :=
  ⟨isCaseBlind_textIgnoringCase word, isCaseBlind_isBlank, isCaseBlind_one h⟩

theorem Threat.isCaseBlind_tag (element : String) : (tag element).IsCaseBlind :=
  ⟨isCaseBlind_one (by decide), isCaseBlind_isBlank, isCaseBlind_textIgnoringCase element⟩

/-- No threat looks at the case of letters. -/
theorem Threat.isCaseBlind_pattern (threat : Threat) : threat.pattern.IsCaseBlind := by
  have digit : (char .hexDigit).IsCaseBlind := .of_table (by decide)
  have words : ∀ names : List String, (choice (names.map textIgnoringCase)).IsCaseBlind :=
    fun names =>
      isCaseBlind_choice (List.forall_mem_map.2 fun s _ => isCaseBlind_textIgnoringCase s)
  cases threat with
  | scriptUrl | basicScriptUrl | dataUrl | expressionCall | behavior | binding =>
    exact isCaseBlind_wordThen _ (by decide)
  | scriptTag | frameTag => exact isCaseBlind_tag _
  | sheetImport => exact ⟨isCaseBlind_one (by decide), isCaseBlind_textIgnoringCase _⟩
  | comment => exact ⟨isCaseBlind_text (by decide), fun _ => rfl, isCaseBlind_text (by decide)⟩
  | eventHandler =>
    have word : (several .word).IsCaseBlind := ⟨isCaseBlind_isWordChar, isCaseBlind_isWordChar⟩
    exact ⟨trivial, isCaseBlind_textIgnoringCase _, word, isCaseBlind_isBlank,
      isCaseBlind_one (by decide)⟩
  | foreignScheme => exact ⟨trivial, words _, isCaseBlind_one (by decide)⟩
  | calcInjection =>
    exact ⟨isCaseBlind_wordThen _ (by decide), .of_table (by decide), words _⟩
  | sheetEscape => exact ⟨isCaseBlind_one (by decide), digit, isCaseBlind_upTo digit _ 5⟩
  | markupEscape =>
    exact ⟨isCaseBlind_text (by decide), isCaseBlind_optional (isCaseBlind_textIgnoringCase _) _,
      ⟨digit, digit⟩, isCaseBlind_optional (isCaseBlind_one (by decide)) _⟩

/-- A threat occurs in texts that are equal up to letter case. -/
theorem Threat.occursIn_congr (threat : Threat) {s t : String}
    (same : s.toList.map Char.toLower = t.toList.map Char.toLower) :
    threat.occursIn s = threat.occursIn t := by
  have blind := occursIn_map_toLower threat.isPlain_pattern_all threat.isCaseBlind_pattern
  rw [Threat.occursIn, ← blind, same, blind, Threat.occursIn]

/-- A text is safe if no blocking threat occurs in it or in one of its decodings, be it equal to the
text or not. -/
theorem isSafe_iff_decodings (s : String) : isSafe s ↔ ∀ form ∈ s :: decodings s,
    ∀ threat : Threat, threat.isBlocking → threat.occursIn form = false := by
  have forms : ∀ form, form ∈ s :: decodedForms s ↔ form ∈ s :: decodings s := by
    intro form
    rw [List.mem_cons, List.mem_cons, mem_decodedForms]
    tauto
  simp only [isSafe_iff, forms]

/-- **A text without references** is safe if and only if its lower case is. -/
theorem isSafe_map_toLower {cs : List Char} (h : HasNoAmpersand cs) :
    isSafe (.ofList (cs.map Char.toLower)) = isSafe (.ofList cs) := by
  have plain := h.plain
  have decoded := h.not_mem_decode
  have plain' : '&' ∉ cs.map Char.toLower := mt (mem_map_iff_of_mark (by decide)).1 plain
  have decoded' : '&' ∉ Percent.decode (cs.map Char.toLower) := by
    rw [← mem_map_iff_of_mark (by decide), Percent.decode_map_toLower,
      mem_map_iff_of_mark (by decide)]
    exact decoded
  have sheet : ∀ xs ys : List Char, xs.map Char.toLower = ys.map Char.toLower →
      (CssEscape.decode xs).map Char.toLower = (CssEscape.decode ys).map Char.toLower := by
    intro xs ys same
    rw [← CssEscape.decode_map_toLower xs, same, CssEscape.decode_map_toLower]
  have occurs : ∀ (threat : Threat) (xs ys : List Char),
      xs.map Char.toLower = ys.map Char.toLower →
      threat.occursIn (.ofList xs) = threat.occursIn (.ofList ys) :=
    fun threat xs ys same => threat.occursIn_congr (by simpa using same)
  have whole : (cs.map Char.toLower).map Char.toLower = cs.map Char.toLower := by simp
  have percent := Percent.decode_map_toLower cs
  rw [Bool.eq_iff_iff, isSafe_iff_decodings, isSafe_iff_decodings]
  simp only [decodings, String.toList_ofList, CharacterReference.decode_eq_self plain,
    CharacterReference.decode_eq_self plain', CharacterReference.decode_eq_self decoded,
    CharacterReference.decode_eq_self decoded', List.map_cons, List.map_nil, List.forall_mem_cons,
    fun threat => occurs threat _ _ whole, fun threat => occurs threat _ _ percent,
    fun threat => occurs threat _ _ (sheet _ _ whole),
    fun threat => occurs threat _ _ (sheet _ _ percent)]

end BracketCss
