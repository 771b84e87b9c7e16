import BracketCss.Proofs.Class.Grammar
import BracketCss.Proofs.Threat.Shape
import BracketCss.Proofs.Value.Trimmed

/-!
# Threats behind variants

Variants in front of a text neither make a threat nor hide one. A threat opens with characters up to
a mark that stands in no variant, or with the word of a link up to a colon; and no variant ends like
such a word. So a threat that shows in the whole begins behind the variants. The character before
it is then a colon where there was none, and neither is a word character. No variant holds the
start of an escape, so the decoded forms too have the same variants in front.

## Main definitions

* `Threat.Opens cs`: how the text of a threat begins
* `Variants.inFront names s`: a text with variants in front

## Main results

* `Pattern.Matches.of_before`: of the character before a match only its kind matters
* `Threat.opens_of_matches`: every threat begins in this way
* `Threat.occursIn_front`: a threat occurs behind variants if it occurs without them
* `ThreatReport.ofText_inFront`: variants do not change a report
-/

namespace BracketCss

open Text Pattern

/-! ## The character before a match -/

/-- Behind a text that does not end in a word character, a place is as at the start. -/
theorem any_lastOf {before other : Option Char}
    (same : other.any isWordChar = before.any isWordChar) (cs : List Char) :
    (lastOf other cs).any isWordChar = (lastOf before cs).any isWordChar := by
  cases cs with
  | nil => exact same
  | cons c cs => rfl

/-- Of the character before a match, only whether it is a word character matters. -/
theorem Pattern.Matches.of_before {p : Pattern} {before other : Option Char}
    {cs after : List Char} (h : Matches p before cs after)
    (same : other.any isWordChar = before.any isWordChar) : Matches p other cs after := by
  induction h generalizing other with
  | empty => exact .empty
  | char mem => exact .char mem
  | boundary place => exact .boundary (same ▸ place)
  | seq _ _ first second => exact .seq (first same) (second (any_lastOf same _))
  | left _ ih => exact .left (ih same)
  | right _ ih => exact .right (ih same)
  | done => exact .done
  | again _ _ first others => exact .again (first same) (others (any_lastOf same _))

/-! ## How threats begin -/

namespace Threat

/-- The words of links and bindings that are threats before a colon. -/
def colonWords : List String :=
  ["javascript", "vbscript", "data", "behavior", "binding", "file", "ftp", "mailto", "tel"]

/-- The text of a threat begins without a colon up to a mark that stands in no variant, or with a
word of a link and blanks up to a colon. -/
def Opens (cs : List Char) : Prop :=
  ∃ core mark rest, cs = core ++ mark :: rest ∧ ':' ∉ core ∧
    (¬ IsFrontChar mark ∨ mark = ':' ∧ ∃ word ∈ colonWords, ∃ xs blanks,
      core = xs ++ blanks ∧ Spelled word xs ∧ ∀ c ∈ blanks, isBlank c)

theorem opens_of_mark (mark : Char) (h : ¬ IsFrontChar mark) (rest : List Char) :
    Opens (mark :: rest) :=
  ⟨[], mark, rest, rfl, List.not_mem_nil, .inl h⟩

theorem isPlain_optional {eager : Bool} {p : Pattern} (h : p.IsPlain) :
    (optional eager p).IsPlain := by
  cases eager
  · exact ⟨trivial, h⟩
  · exact ⟨h, trivial⟩

theorem isPlain_upTo {eager : Bool} {p : Pattern} (h : p.IsPlain) (count : Nat) :
    (upTo eager p count).IsPlain := by
  induction count with
  | zero => trivial
  | succ count ih => exact isPlain_optional ⟨h, ih⟩

/-- No threat asks where a text starts or ends. -/
theorem isPlain_pattern_all (threat : Threat) : threat.pattern.IsPlain := by
  cases shape : threat.shape? with
  | some found => exact isPlain_pattern shape
  | none =>
    cases threat with
    | sheetImport => exact ⟨trivial, isPlain_textIgnoringCase _⟩
    | comment => exact isPlain_sequence (by simp [isPlain_text, Pattern.IsPlain])
    | foreignScheme =>
      refine isPlain_sequence fun p hp => ?_
      simp only [List.mem_cons, List.not_mem_nil, or_false] at hp
      rcases hp with rfl | rfl | rfl
      · trivial
      · exact isPlain_choice (by simp [isPlain_textIgnoringCase])
      · trivial
    | sheetEscape =>
      have digit : (char .hexDigit).IsPlain := trivial
      exact ⟨trivial, digit, isPlain_upTo digit 5⟩
    | markupEscape =>
      have semicolon : (char (.one ';')).IsPlain := trivial
      exact ⟨isPlain_text _, isPlain_optional (isPlain_textIgnoringCase _), isPlain_several _,
        isPlain_optional semicolon⟩
    | _ => cases shape

theorem not_colon_of_spelled {word : String} (letters : ∀ c ∈ word.toList, isAsciiLetter c)
    {cs : List Char} (h : Spelled word cs) : ':' ∉ cs := by
  intro colon
  have key : caseKey ':' ∈ word.toList := by
    rw [← h]
    exact List.mem_map_of_mem colon
  exact absurd (letters _ key) (by decide)

theorem not_colon_of_blank {cs : List Char} (h : ∀ c ∈ cs, isBlank c) : ':' ∉ cs :=
  fun colon => absurd (h _ colon) (by decide)

theorem letters_of_mem_colonWords {word : String} (h : word ∈ colonWords) :
    ∀ c ∈ word.toList, isAsciiLetter c := by
  have table : ∀ word ∈ colonWords, word.toList.all isAsciiLetter := by decide
  exact List.all_eq_true.1 (table word h)

/-- A word of a link with a colon after it. -/
theorem opens_of_word {word : String} (mem : word ∈ colonWords) {xs blanks : List Char}
    (spelled : Spelled word xs) (blank : ∀ c ∈ blanks, isBlank c) (rest : List Char) :
    Opens (xs ++ (blanks ++ ':' :: rest)) := by
  refine ⟨xs ++ blanks, ':', rest, by simp, ?_, .inr ⟨rfl, word, mem, xs, blanks, rfl, spelled,
    blank⟩⟩
  exact List.not_mem_append (not_colon_of_spelled (letters_of_mem_colonWords mem) spelled)
    (not_colon_of_blank blank)

/-- A word and blanks with a parenthesis after them. -/
theorem opens_of_call {word : String} (letters : ∀ c ∈ word.toList, isAsciiLetter c)
    {xs blanks : List Char} (spelled : Spelled word xs) (blank : ∀ c ∈ blanks, isBlank c)
    (rest : List Char) : Opens (xs ++ (blanks ++ '(' :: rest)) := by
  refine ⟨xs ++ blanks, '(', rest, by simp, ?_, .inl (by decide)⟩
  exact List.not_mem_append (not_colon_of_spelled letters spelled) (not_colon_of_blank blank)

theorem opens_of_wordThen {word : String} (mem : word ∈ colonWords) {before : Option Char}
    {cs after : List Char} (h : Matches (wordThen word ':') before cs after) : Opens cs := by
  obtain ⟨core, blanks, rfl, spelled, blank⟩ := matches_wordThen.1 h
  exact opens_of_word mem spelled blank []

theorem opens_of_tag {element : String} {before : Option Char} {cs after : List Char}
    (h : Matches (tag element) before cs after) : Opens cs := by
  obtain ⟨blanks, word, rfl, -, -⟩ := matches_tag.1 h
  exact opens_of_mark _ (by decide) _

/-- **Every threat begins in this way.** -/
theorem opens_of_matches {threat : Threat} {before : Option Char} {cs after : List Char}
    (h : Matches threat.pattern before cs after) : Opens cs := by
  cases threat with
  | scriptUrl | basicScriptUrl | dataUrl | behavior | binding =>
    exact opens_of_wordThen (by decide) h
  | expressionCall =>
    obtain ⟨core, blanks, rfl, spelled, blank⟩ := matches_wordThen.1 h
    exact opens_of_call (List.all_eq_true.1 (by decide)) spelled blank []
  | calcInjection =>
    obtain ⟨core, blanks, xs, word, rfl, spelled, blank, -, -⟩ := matches_injection.1 h
    have opens := opens_of_call (List.all_eq_true.1 (by decide)) spelled blank (xs ++ word)
    simpa using opens
  | scriptTag | frameTag => exact opens_of_tag h
  | eventHandler =>
    obtain ⟨-, _, blanks, rfl, ⟨o, n, name, rfl, ho, hn, -, words⟩, blank⟩ := matches_handler.1 h
    refine ⟨o :: n :: name ++ blanks, '=', [], by simp, ?_,
      .inl (by decide)⟩
    refine List.not_mem_append ?_ (not_colon_of_blank blank)
    intro colon
    rcases List.mem_cons.1 colon with rfl | colon
    · exact absurd ho (by decide)
    · rcases List.mem_cons.1 colon with rfl | colon
      · exact absurd hn (by decide)
      · exact absurd (words _ colon) (by decide)
  | foreignScheme =>
    obtain ⟨_, _, rfl, place, others⟩ := matches_sequence_cons.1 h
    obtain ⟨rfl, -⟩ := matches_boundary.1 place
    obtain ⟨word, last, rfl, scheme, others⟩ := matches_sequence_cons.1 others
    obtain ⟨p, hp, matched⟩ := (matches_choice (by simp)).1 scheme
    obtain ⟨known, mem, rfl⟩ := List.mem_map.1 hp
    obtain ⟨c, same, rfl⟩ := matches_char.1 others
    obtain rfl := eq_of_beq same
    have table : ∀ word ∈ ["file", "ftp", "mailto", "tel"], word ∈ colonWords := by decide
    have spelled : Spelled known word := matches_textIgnoringCase.1 matched
    have opens := opens_of_word (table known mem) spelled (List.forall_mem_nil _) []
    exact opens
  | sheetImport =>
    obtain ⟨_, rest, rfl, first, -⟩ := matches_seq.1 h
    obtain ⟨c, same, rfl⟩ := matches_char.1 first
    obtain rfl := eq_of_beq same
    exact opens_of_mark _ (by decide) _
  | comment =>
    obtain ⟨_, rest, rfl, first, -⟩ := matches_sequence_cons.1 h
    rw [matches_text.1 first]
    exact opens_of_mark '/' (by decide) _
  | sheetEscape =>
    obtain ⟨_, rest, rfl, first, -⟩ := matches_sequence_cons.1 h
    obtain ⟨c, same, rfl⟩ := matches_char.1 first
    obtain rfl := eq_of_beq same
    exact opens_of_mark _ (by decide) _
  | markupEscape =>
    obtain ⟨_, rest, rfl, first, -⟩ := matches_sequence_cons.1 h
    rw [matches_text.1 first]
    exact opens_of_mark '&' (by decide) _

end Threat

/-! ## Behind variants -/

section Front

variable {names : List String} {variants : Variants}

/-- What follows any place inside the variants goes on with the end of a name and a colon. -/
theorem Variants.exists_tail_of_front {xs ys : List Char} (h : Variants.front names = xs ++ ys)
    (inside : ys ≠ []) :
    ∃ name ∈ names, ∃ tail, tail <:+ name.toList ∧ ∃ rest, ys = tail ++ ':' :: rest := by
  induction names generalizing xs with
  | nil =>
    obtain ⟨-, rfl⟩ := List.append_eq_nil_iff.1 h.symm
    exact absurd rfl inside
  | cons name names ih =>
    rw [Variants.front_cons] at h
    rcases List.append_eq_append_iff.1 h with ⟨zs, rfl, whole⟩ | ⟨zs, whole, rfl⟩
    · cases zs with
      | nil =>
        rw [List.nil_append] at whole
        exact ⟨name, List.mem_cons_self, [], List.nil_suffix, _, whole.symm⟩
      | cons z zs =>
        obtain ⟨rfl, later⟩ := List.cons.inj whole
        obtain ⟨other, mem, found⟩ := ih later
        exact ⟨other, List.mem_cons_of_mem _ mem, found⟩
    · exact ⟨name, List.mem_cons_self, zs, ⟨xs, whole.symm⟩, _, rfl⟩

/-- No variant ends with a word of a link. -/
theorem not_spelled_of_tail {name word : String} (known : name ∈ Variants.names)
    (mem : word ∈ Threat.colonWords) {tail : List Char} (suffix : tail <:+ name.toList) :
    ¬ Spelled word tail := by
  have table : ∀ name ∈ Variants.names, ∀ tail ∈ name.toList.tails, ∀ word ∈ Threat.colonWords,
      tail.map caseKey ≠ word.toList := by decide +kernel
  exact table name known tail ((List.mem_tails _ _).2 suffix) word mem

/-- No threat begins inside the variants of a text. -/
theorem Threat.not_opens_of_tail {name : String} (known : name ∈ Variants.names)
    {tail : List Char} (suffix : tail <:+ name.toList) {cs rest more : List Char}
    (same : cs ++ rest = tail ++ ':' :: more) : ¬ Threat.Opens cs := by
  have letters : ∀ c ∈ tail, isAsciiNameChar c := fun c hc =>
    isAsciiNameChar_of_mem_names known c (suffix.subset hc)
  rintro ⟨core, mark, others, rfl, noColon, kind⟩
  -- the core ends where the tail does, since the tail goes on with the first colon
  obtain ⟨rfl, rfl⟩ : core = tail ∧ mark = ':' := by
    rw [List.append_assoc, List.cons_append] at same
    rcases List.append_eq_append_iff.1 same with ⟨zs, rfl, whole⟩ | ⟨zs, rfl, whole⟩
    · cases zs with
      | nil => exact ⟨(List.append_nil _).symm, (List.cons.inj whole).1⟩
      | cons z zs =>
        obtain ⟨rfl, -⟩ := List.cons.inj whole
        have letter := letters mark (by simp)
        rcases kind with outside | ⟨rfl, -⟩
        · exact absurd (.inl letter) outside
        · exact absurd letter (by decide)
    · cases zs with
      | nil => exact ⟨List.append_nil _, (List.cons.inj whole).1.symm⟩
      | cons z zs =>
        obtain ⟨rfl, -⟩ := List.cons.inj whole
        exact absurd (by simp) noColon
  rcases kind with outside | ⟨-, word, mem, xs, blanks, rfl, spelled, blank⟩
  · exact outside (.inr rfl)
  · cases blanks with
    | nil =>
      rw [List.append_nil] at suffix
      exact not_spelled_of_tail known mem suffix spelled
    | cons c blanks =>
      have letter := letters c (by simp)
      have solid := isBlank_of_isAsciiNameChar letter
      rw [blank c List.mem_cons_self] at solid
      cases solid

/-- Variants end in a colon, which is as good as the start of a text. -/
theorem Variants.any_lastOf_front (names : List String) (cs : List Char) :
    (lastOf none (front names ++ cs)).any isWordChar = (lastOf none cs).any isWordChar := by
  have colon : ∀ before : Option Char, before.any isWordChar = false →
      (lastOf before (front names)).any isWordChar = false := by
    induction names with
    | nil => exact fun _ h => h
    | cons name names ih =>
      intro before _
      rw [front_cons, lastOf_append, lastOf_cons]
      exact ih _ (by decide)
  rw [lastOf_append]
  exact any_lastOf (colon none rfl) cs

/-- **Variants neither make a threat nor hide one.** -/
theorem Threat.occursIn_front (named : Variants.AreNamed names variants) (threat : Threat)
    (cs : List Char) :
    threat.pattern.occursIn (Variants.front names ++ cs) = threat.pattern.occursIn cs := by
  have plain : threat.pattern.IsPlain := isPlain_pattern_all threat
  rw [Bool.eq_iff_iff, Pattern.occursIn_iff plain, Pattern.occursIn_iff plain]
  constructor
  · rintro ⟨xs, ys, after, same, matched⟩
    rcases List.append_eq_append_iff.1 same with ⟨zs, rfl, rfl⟩ | ⟨zs, whole, rest⟩
    · exact ⟨zs, ys, after, rfl, matched.of_before (Variants.any_lastOf_front names zs).symm⟩
    · cases zs with
      | nil =>
        rw [List.append_nil] at whole
        have place := Variants.any_lastOf_front names []
        rw [List.append_nil, whole] at place
        exact ⟨[], ys, after, rest.symm, matched.of_before place.symm⟩
      | cons z zs =>
        obtain ⟨name, mem, tail, suffix, more, inside⟩ :=
          Variants.exists_tail_of_front whole (List.cons_ne_nil z zs)
        rw [inside, List.append_assoc, List.cons_append] at rest
        exact absurd (opens_of_matches matched)
          (not_opens_of_tail (named.mem_names name mem) suffix rest)
  · rintro ⟨xs, ys, after, rfl, matched⟩
    exact ⟨Variants.front names ++ xs, ys, after, by rw [List.append_assoc],
      matched.of_before (Variants.any_lastOf_front names xs)⟩

/-! ## Reports -/

theorem distinctFrom_map_injective {α : Type} [BEq α] [LawfulBEq α] {f : α → α}
    (injective : Function.Injective f) (seen items : List α) :
    distinctFrom id (seen.map f) (items.map f) = (distinctFrom id seen items).map f := by
  induction items generalizing seen with
  | nil => rfl
  | cons item items ih =>
    have old : (seen.map f).contains (f item) = seen.contains item := by
      rw [List.contains_eq_mem, List.contains_eq_mem, decide_eq_decide]
      exact List.mem_map_of_injective injective
    simp only [List.map_cons, distinctFrom, id, old]
    split
    · exact ih seen
    · rw [← List.map_cons, ih, List.map_cons]

/-- A text with variants in front. -/
def Variants.inFront (names : List String) (s : String) : String :=
  .ofList (front names) ++ s

@[simp] theorem Variants.toList_inFront (names : List String) (s : String) :
    (inFront names s).toList = front names ++ s.toList := by
  rw [inFront, String.toList_append, String.toList_ofList]

theorem Variants.inFront_injective (names : List String) :
    Function.Injective (inFront names) := by
  intro s t same
  have chars := congrArg String.toList same
  rw [toList_inFront, toList_inFront, List.append_cancel_left_eq] at chars
  exact String.toList_inj.1 chars

/-- No variant holds the start of an escape. -/
theorem Variants.AreNamed.not_startsEscape (named : AreNamed names variants) :
    ∀ c ∈ front names, ¬ StartsEscape c := by
  intro c hc
  rcases named.isFrontChar_front c hc with letter | rfl
  · rintro (rfl | rfl | rfl) <;> exact absurd letter (by decide)
  · rintro (h | h | h) <;> exact absurd h (by decide)

/-- The decoded forms have the same variants in front. -/
theorem decodedForms_inFront (named : Variants.AreNamed names variants) (s : String) :
    decodedForms (Variants.inFront names s) =
      (decodedForms s).map (Variants.inFront names) := by
  have decoded : decodings (Variants.inFront names s) =
      (decodings s).map (Variants.inFront names) := by
    rw [decodings_eq, decodings_eq, List.map_map]
    refine List.map_congr_left fun decode mem => ?_
    have dec := decoder_of_mem (List.mem_of_mem_tail mem)
    rw [Variants.toList_inFront, dec.append named.not_startsEscape, String.ofList_append,
      Function.comp_apply, Variants.inFront]
  have others : ∀ form,
      (Variants.inFront names form != Variants.inFront names s) = (form != s) := by
    intro form
    rw [Bool.eq_iff_iff, bne_iff_ne, bne_iff_ne, (Variants.inFront_injective names).ne_iff]
  rw [decodedForms, decoded, List.filter_map]
  simp only [Function.comp_def, others]
  exact distinctFrom_map_injective (Variants.inFront_injective names) []
    ((decodings s).filter (· != s))

theorem Threat.occursIn_inFront (named : Variants.AreNamed names variants) (threat : Threat)
    (s : String) : threat.occursIn (Variants.inFront names s) = threat.occursIn s := by
  rw [occursIn, Variants.toList_inFront, threat.occursIn_front named, ← occursIn]

/-- **Variants do not change a report.** -/
theorem ThreatReport.ofText_inFront (named : Variants.AreNamed names variants) (s : String) :
    ofText (Variants.inFront names s) = ofText s := by
  have form : ∀ (findings : List Finding) (form : String),
      addForm findings (Variants.inFront names form) = addForm findings form := by
    intro findings form
    simp only [addForm, Threat.occursIn_inFront named]
  simp only [ofText, decodedForms_inFront named, List.foldl_map, form,
    Threat.occursIn_inFront named]

end Front

end BracketCss
