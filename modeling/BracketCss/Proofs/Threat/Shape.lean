import BracketCss.Proofs.Pattern.Language
import BracketCss.Threat.Report
import Mathlib.Data.List.Induction

/-!
# The shape of a threat

Every blocking threat shows around one mark: a colon, an equals sign, an opening parenthesis or an
opening angle bracket. Before the mark stands a word, perhaps with blanks after it, and after an
angle bracket or the parenthesis of an arithmetic function stands another one. Such a word holds no
delimiter, so whether a threat shows is decided between two delimiters.

## Main definitions

* `ThreatShape`, `Threat.shape?`: the shapes, and the shape of a blocking threat
* `ThreatShape.mark`, `ThreatShape.Before`, `ThreatShape.After`: the mark and what stands around it
* `ThreatShape.ShowsIn shape cs`: the shape is found in a text

## Main results

* `Threat.occursIn_iff`: a blocking threat occurs where its shape is found
* `ThreatShape.Before.local`, `ThreatShape.After.local`: nothing beyond a delimiter matters
-/

namespace BracketCss

open Text Pattern

/-- How a blocking threat looks. -/
inductive ThreatShape where
  /-- A word, blanks and a mark. -/
  | wordThen (word : String) (mark : Char)
  /-- An opening angle bracket, blanks and the name of an element. -/
  | tag (element : String)
  /-- A word of its own that starts like the name of an event handler, blanks and an equals sign. -/
  | handler
  /-- The name of the arithmetic function, blanks and a parenthesis, with a word of code before the
  next closing parenthesis. -/
  | injection
  deriving DecidableEq

/-- The shape of a blocking threat. -/
def Threat.shape? : Threat → Option ThreatShape
  | scriptUrl => some (.wordThen "javascript" ':')
  | basicScriptUrl => some (.wordThen "vbscript" ':')
  | dataUrl => some (.wordThen "data" ':')
  | expressionCall => some (.wordThen "expression" '(')
  | behavior => some (.wordThen "behavior" ':')
  | binding => some (.wordThen "binding" ':')
  | scriptTag => some (.tag "script")
  | frameTag => some (.tag "iframe")
  | eventHandler => some .handler
  | calcInjection => some .injection
  | sheetImport | comment | foreignScheme | sheetEscape | markupEscape => none

theorem Threat.exists_shape {threat : Threat} (h : threat.isBlocking) :
    ∃ shape, threat.shape? = some shape := by
  cases threat <;> first | exact ⟨_, rfl⟩ | exact absurd h (by decide)

/-- A text is a word in any letter case. -/
def Spelled (word : String) (cs : List Char) : Prop := cs.map caseKey = word.toList

/-- The words that are code inside an arithmetic function. -/
def codeWords : List String := ["expression", "javascript", "eval"]

namespace ThreatShape

/-- The mark of a shape. -/
def mark : ThreatShape → Char
  | wordThen _ mark => mark
  | tag _ => '<'
  | handler => '='
  | injection => '('

/-- The word before the mark of a shape, if one has to stand there. -/
def Core : ThreatShape → List Char → Prop
  | wordThen word _, cs => Spelled word cs
  | tag _, _ => False
  | handler, cs => ∃ o n name, cs = o :: n :: name ∧ caseKey o = 'o' ∧ caseKey n = 'n' ∧
      name ≠ [] ∧ ∀ c ∈ name, isWordChar c
  | injection, cs => Spelled "calc" cs

/-- What stands before the mark: the core and blanks after it, and for a handler no word character
before the core. -/
def Before (shape : ThreatShape) (cs : List Char) : Prop :=
  (∃ element, shape = tag element) ∨ ∃ xs core blanks, cs = xs ++ (core ++ blanks) ∧
    shape.Core core ∧ (∀ c ∈ blanks, isBlank c) ∧
      (shape = handler → ∀ c ∈ xs.getLast?, isWordChar c = false)

/-- What stands after the mark. -/
def After : ThreatShape → List Char → Prop
  | wordThen .., _ | handler, _ => True
  | tag element, cs => ∃ blanks word rest, cs = blanks ++ (word ++ rest) ∧
      (∀ c ∈ blanks, isBlank c) ∧ Spelled element word
  | injection, cs => ∃ xs word rest, cs = xs ++ (word ++ rest) ∧ ')' ∉ xs ∧
      ∃ code ∈ codeWords, Spelled code word

/-- The shape is found in a text. -/
def ShowsIn (shape : ThreatShape) (cs : List Char) : Prop :=
  ∃ before after, cs = before ++ shape.mark :: after ∧ shape.Before before ∧ shape.After after

end ThreatShape

theorem lastOf_none (cs : List Char) : lastOf none cs = cs.getLast? := by
  induction cs using List.reverseRecOn with
  | nil => rfl
  | append_singleton cs c _ => simp

theorem matches_wordThen {word : String} {mark : Char} {before : Option Char}
    {cs after : List Char} :
    Matches (Threat.wordThen word mark) before cs after ↔ ∃ core blanks,
      cs = core ++ (blanks ++ [mark]) ∧ Spelled word core ∧ ∀ c ∈ blanks, isBlank c := by
  rw [Threat.wordThen, matches_sequence_cons]
  constructor
  · rintro ⟨core, rest, rfl, spelled, others⟩
    obtain ⟨blanks, last, rfl, blank, others⟩ := matches_sequence_cons.1 others
    obtain ⟨c, same, rfl⟩ := matches_char.1 others
    obtain rfl := eq_of_beq same
    exact ⟨core, blanks, rfl, matches_textIgnoringCase.1 spelled, matches_many.1 blank⟩
  · rintro ⟨core, blanks, rfl, spelled, blank⟩
    refine ⟨core, _, rfl, matches_textIgnoringCase.2 spelled, ?_⟩
    refine matches_sequence_cons.2 ⟨blanks, [mark], rfl, matches_many.2 blank, ?_⟩
    exact matches_char.2 ⟨mark, by simp [CharClass.contains], rfl⟩

theorem matches_tag {element : String} {before : Option Char} {cs after : List Char} :
    Matches (Threat.tag element) before cs after ↔ ∃ blanks word,
      cs = '<' :: (blanks ++ word) ∧ (∀ c ∈ blanks, isBlank c) ∧ Spelled element word := by
  rw [Threat.tag, matches_sequence_cons]
  constructor
  · rintro ⟨first, rest, rfl, opening, others⟩
    obtain ⟨c, same, rfl⟩ := matches_char.1 opening
    obtain rfl := eq_of_beq same
    obtain ⟨blanks, word, rfl, blank, others⟩ := matches_sequence_cons.1 others
    exact ⟨blanks, word, rfl, matches_many.1 blank, matches_textIgnoringCase.1 others⟩
  · rintro ⟨blanks, word, rfl, blank, spelled⟩
    refine ⟨['<'], _, rfl, matches_char.2 ⟨'<', rfl, rfl⟩, ?_⟩
    exact matches_sequence_cons.2
      ⟨blanks, word, rfl, matches_many.2 blank, matches_textIgnoringCase.2 spelled⟩

theorem isWordChar_of_caseKey_eq_o {c : Char} (h : caseKey c = 'o') : isWordChar c := by
  unfold caseKey at h
  split at h
  · next upper =>
    refine isWordChar_of_isAsciiAlphanumeric ?_
    simp [isAsciiAlphanumeric, isAsciiLetter, upper.1, upper.2]
  · split at h
    · exact absurd h (by decide)
    · split at h
      · exact absurd h (by decide)
      · split at h
        · exact absurd h (by decide)
        · rw [h]
          decide

theorem matches_handler {before : Option Char} {cs after : List Char} :
    Matches Threat.eventHandler.pattern before cs after ↔
      before.any isWordChar = false ∧ ∃ core blanks, cs = core ++ (blanks ++ ['=']) ∧
        ThreatShape.handler.Core core ∧ ∀ c ∈ blanks, isBlank c := by
  rw [Threat.pattern, matches_sequence_cons]
  constructor
  · rintro ⟨first, rest, rfl, place, others⟩
    obtain ⟨rfl, place⟩ := matches_boundary.1 place
    obtain ⟨start, rest, rfl, spelled, others⟩ := matches_sequence_cons.1 others
    obtain ⟨name, rest, rfl, words, others⟩ := matches_sequence_cons.1 others
    obtain ⟨blanks, last, rfl, blank, others⟩ := matches_sequence_cons.1 others
    obtain ⟨c, same, rfl⟩ := matches_char.1 others
    obtain rfl := eq_of_beq same
    obtain ⟨nonempty, inWord⟩ := matches_several.1 words
    obtain ⟨o, start, rfl, ho, spelled⟩ :=
      List.map_eq_cons_iff.1 (matches_textIgnoringCase.1 spelled)
    obtain ⟨n, start, rfl, hn, spelled⟩ := List.map_eq_cons_iff.1 spelled
    obtain rfl := List.map_eq_nil_iff.1 spelled
    have inside : isWordChar o := isWordChar_of_caseKey_eq_o ho
    refine ⟨?_, o :: n :: name, blanks, by simp, ⟨o, n, name, rfl, ho, hn, nonempty, inWord⟩,
      matches_many.1 blank⟩
    simpa [inside] using place
  · rintro ⟨outside, _, blanks, rfl, ⟨o, n, name, rfl, ho, hn, nonempty, words⟩, blank⟩
    have inside : isWordChar o := isWordChar_of_caseKey_eq_o ho
    refine ⟨[], _, rfl, matches_boundary.2 ⟨rfl, by simp [outside, inside]⟩, ?_⟩
    refine matches_sequence_cons.2 ⟨[o, n], name ++ (blanks ++ ['=']), rfl,
      matches_textIgnoringCase.2 ?_, ?_⟩
    · rw [List.map_cons, List.map_cons, ho, hn]
      rfl
    · refine matches_sequence_cons.2 ⟨name, _, rfl, matches_several.2 ⟨nonempty, words⟩, ?_⟩
      refine matches_sequence_cons.2 ⟨blanks, _, rfl, matches_many.2 blank, ?_⟩
      exact matches_char.2 ⟨'=', rfl, rfl⟩

theorem matches_injection {before : Option Char} {cs after : List Char} :
    Matches Threat.calcInjection.pattern before cs after ↔ ∃ core blanks xs word,
      cs = core ++ (blanks ++ ['(']) ++ (xs ++ word) ∧ Spelled "calc" core ∧
        (∀ c ∈ blanks, isBlank c) ∧ ')' ∉ xs ∧ ∃ code ∈ codeWords, Spelled code word := by
  rw [Threat.pattern, matches_sequence_cons]
  constructor
  · rintro ⟨first, rest, rfl, opening, others⟩
    obtain ⟨core, blanks, rfl, spelled, blank⟩ := matches_wordThen.1 opening
    obtain ⟨xs, word, rfl, inside, code⟩ := matches_sequence_cons.1 others
    obtain ⟨p, hp, matched⟩ := (matches_choice (by simp)).1 code
    obtain ⟨code, mem, rfl⟩ := List.mem_map.1 hp
    refine ⟨core, blanks, xs, word, rfl, spelled, blank, fun closing => ?_, code, mem,
      matches_textIgnoringCase.1 matched⟩
    have outside := matches_many.1 inside _ closing
    exact absurd outside (by decide)
  · rintro ⟨core, blanks, xs, word, rfl, spelled, blank, inside, code, mem, spelled'⟩
    refine ⟨_, _, rfl, matches_wordThen.2 ⟨core, blanks, rfl, spelled, blank⟩, ?_⟩
    refine matches_sequence_cons.2 ⟨xs, word, rfl, matches_many.2 fun c hc => ?_, ?_⟩
    · rw [CharClass.contains_outside, CharClass.contains, Bool.not_eq_true', beq_eq_false_iff_ne]
      rintro rfl
      exact inside hc
    · exact (matches_choice (by simp)).2
        ⟨_, List.mem_map.2 ⟨code, mem, rfl⟩, matches_textIgnoringCase.2 spelled'⟩

theorem Threat.isPlain_pattern {threat : Threat} {shape : ThreatShape}
    (h : threat.shape? = some shape) : threat.pattern.IsPlain := by
  have word (word : String) (mark : Char) : (wordThen word mark).IsPlain :=
    isPlain_sequence (by simp [isPlain_textIgnoringCase, isPlain_many, IsPlain])
  have element (element : String) : (tag element).IsPlain :=
    isPlain_sequence (by simp [isPlain_textIgnoringCase, isPlain_many, IsPlain])
  cases threat with
  | scriptUrl | basicScriptUrl | dataUrl | expressionCall | behavior | binding => exact word _ _
  | scriptTag | frameTag => exact element _
  | eventHandler =>
    exact isPlain_sequence
      (by simp [isPlain_textIgnoringCase, isPlain_many, isPlain_several, IsPlain])
  | calcInjection =>
    refine isPlain_sequence fun p hp => ?_
    simp only [List.mem_cons, List.not_mem_nil, or_false] at hp
    rcases hp with rfl | rfl | rfl
    · exact word _ _
    · exact isPlain_many _
    · exact isPlain_choice (by simp [isPlain_textIgnoringCase])
  | _ => cases h

section Found

variable {cs : List Char}

theorem showsIn_wordThen (word : String) (mark : Char) :
    (∃ xs ys after, cs = xs ++ (ys ++ after) ∧
      Matches (Threat.wordThen word mark) (lastOf none xs) ys after) ↔
      (ThreatShape.wordThen word mark).ShowsIn cs := by
  simp only [matches_wordThen]
  constructor
  · rintro ⟨xs, _, after, same, core, blanks, rfl, spelled, blank⟩
    refine ⟨xs ++ (core ++ blanks), after, by simp [same, ThreatShape.mark], ?_, trivial⟩
    exact .inr ⟨xs, core, blanks, rfl, spelled, blank, fun other => by cases other⟩
  · rintro ⟨_, after, same, (⟨_, other⟩ | ⟨xs, core, blanks, rfl, spelled, blank, -⟩), -⟩
    · cases other
    · exact ⟨xs, _, after, by simp [same, ThreatShape.mark], core, blanks, rfl, spelled, blank⟩

theorem showsIn_tag (element : String) :
    (∃ xs ys after, cs = xs ++ (ys ++ after) ∧
      Matches (Threat.tag element) (lastOf none xs) ys after) ↔
      (ThreatShape.tag element).ShowsIn cs := by
  simp only [matches_tag]
  constructor
  · rintro ⟨xs, _, after, same, blanks, word, rfl, blank, spelled⟩
    exact ⟨xs, blanks ++ (word ++ after), by simp [same, ThreatShape.mark], .inl ⟨_, rfl⟩,
      blanks, word, after, rfl, blank, spelled⟩
  · rintro ⟨xs, _, same, -, blanks, word, after, rfl, blank, spelled⟩
    exact ⟨xs, _, after, by simp [same, ThreatShape.mark], blanks, word, rfl, blank, spelled⟩

theorem showsIn_handler :
    (∃ xs ys after, cs = xs ++ (ys ++ after) ∧
      Matches Threat.eventHandler.pattern (lastOf none xs) ys after) ↔
      ThreatShape.handler.ShowsIn cs := by
  simp only [matches_handler, lastOf_none]
  constructor
  · rintro ⟨xs, _, after, same, outside, core, blanks, rfl, hcore, blank⟩
    refine ⟨xs ++ (core ++ blanks), after, by simp [same, ThreatShape.mark], ?_, trivial⟩
    refine .inr ⟨xs, core, blanks, rfl, hcore, blank, fun _ c hc => ?_⟩
    rw [hc] at outside
    exact outside
  · rintro ⟨_, after, same, (⟨_, other⟩ | ⟨xs, core, blanks, rfl, hcore, blank, outside⟩), -⟩
    · cases other
    · refine ⟨xs, _, after, by simp [same, ThreatShape.mark], ?_, core, blanks, rfl, hcore, blank⟩
      cases last : xs.getLast? with
      | none => rfl
      | some c => exact outside rfl c last

theorem showsIn_injection :
    (∃ xs ys after, cs = xs ++ (ys ++ after) ∧
      Matches Threat.calcInjection.pattern (lastOf none xs) ys after) ↔
      ThreatShape.injection.ShowsIn cs := by
  simp only [matches_injection]
  constructor
  · rintro ⟨xs, _, after, same, core, blanks, ys, word, rfl, spelled, blank, inside, code⟩
    refine ⟨xs ++ (core ++ blanks), ys ++ (word ++ after), by simp [same, ThreatShape.mark], ?_,
      ys, word, after, rfl, inside, code⟩
    exact .inr ⟨xs, core, blanks, rfl, spelled, blank, fun other => by cases other⟩
  · rintro ⟨_, _, same, (⟨_, other⟩ | ⟨xs, core, blanks, rfl, spelled, blank, -⟩),
      ys, word, after, rfl, inside, code⟩
    · cases other
    · exact ⟨xs, _, after, by simp [same, ThreatShape.mark], core, blanks, ys, word, rfl, spelled,
        blank, inside, code⟩

end Found

/-- A blocking threat occurs in a text if and only if its shape is found there. -/
theorem Threat.occursIn_iff {threat : Threat} {shape : ThreatShape}
    (h : threat.shape? = some shape) (s : String) :
    threat.occursIn s ↔ shape.ShowsIn s.toList := by
  rw [Threat.occursIn, Pattern.occursIn_iff (isPlain_pattern h)]
  cases threat with
  | scriptUrl | basicScriptUrl | dataUrl | expressionCall | behavior | binding =>
    obtain rfl := Option.some.inj h
    exact showsIn_wordThen _ _
  | scriptTag | frameTag =>
    obtain rfl := Option.some.inj h
    exact showsIn_tag _
  | eventHandler =>
    obtain rfl := Option.some.inj h
    exact showsIn_handler
  | calcInjection =>
    obtain rfl := Option.some.inj h
    exact showsIn_injection
  | _ => cases h

/-! ## Delimiters -/

/-- A character that stands in no word. -/
def IsDelimiter (c : Char) : Prop := c = ' ' ∨ c = ',' ∨ c = '(' ∨ c = ')'

theorem IsDelimiter.isWordChar {c : Char} (h : IsDelimiter c) : isWordChar c = false := by
  rcases h with rfl | rfl | rfl | rfl <;> decide

theorem Spelled.not_mem {word : String} (letters : ∀ c ∈ word.toList, isAsciiLetter c)
    {cs : List Char} (h : Spelled word cs) {d : Char} (delimiter : IsDelimiter d) : d ∉ cs := by
  intro mem
  have key : caseKey d ∈ word.toList := by
    rw [← h]
    exact List.mem_map_of_mem mem
  have noLetter : isAsciiLetter (caseKey d) = false := by
    rcases delimiter with rfl | rfl | rfl | rfl <;> decide
  rw [letters _ key] at noLetter
  cases noLetter

namespace ThreatShape

/-- The shape of some blocking threat. -/
def IsKnown (shape : ThreatShape) : Prop := ∃ threat : Threat, threat.shape? = some shape

theorem IsKnown.letters {word : String} {mark : Char} (h : (wordThen word mark).IsKnown) :
    ∀ c ∈ word.toList, isAsciiLetter c := by
  have table : ∀ word ∈ ["javascript", "vbscript", "data", "expression", "behavior", "binding"],
      word.toList.all isAsciiLetter := by decide
  obtain ⟨threat, h⟩ := h
  cases threat <;> cases h <;> exact List.all_eq_true.1 (table _ (by decide))

theorem IsKnown.element_letters {element : String} (h : (tag element).IsKnown) :
    ∀ c ∈ element.toList, isAsciiLetter c := by
  have table : ∀ word ∈ ["script", "iframe"], word.toList.all isAsciiLetter := by decide
  obtain ⟨threat, h⟩ := h
  cases threat <;> cases h <;> exact List.all_eq_true.1 (table _ (by decide))

theorem codeWords_letters : ∀ code ∈ codeWords, ∀ c ∈ code.toList, isAsciiLetter c := by
  have table : ∀ code ∈ codeWords, code.toList.all isAsciiLetter := by decide
  exact fun code mem => List.all_eq_true.1 (table code mem)

theorem Core.not_mem {shape : ThreatShape} (known : shape.IsKnown) {core : List Char}
    (h : shape.Core core) {d : Char} (delimiter : IsDelimiter d) : d ∉ core := by
  cases shape with
  | wordThen word mark => exact Spelled.not_mem known.letters h delimiter
  | tag => exact h.elim
  | handler =>
    obtain ⟨o, n, name, rfl, ho, hn, -, words⟩ := h
    have outside := delimiter.isWordChar
    intro mem
    rcases List.mem_cons.1 mem with rfl | mem
    · rw [isWordChar_of_caseKey_eq_o ho] at outside
      cases outside
    · rcases List.mem_cons.1 mem with rfl | mem
      · rcases delimiter with rfl | rfl | rfl | rfl <;> exact absurd hn (by decide)
      · rw [words d mem] at outside
        cases outside
  | injection => exact Spelled.not_mem (List.all_eq_true.1 (by decide)) h delimiter

theorem mem_of_getLast?_append {xs ys : List Char} {c : Char} (h : c ∈ ys.getLast?) :
    c ∈ (xs ++ ys).getLast? := by
  rw [List.getLast?_append, Option.mem_def.1 h]
  rfl

/-- What stands before a delimiter does not matter, unless only blanks follow it. -/
theorem Before.local {shape : ThreatShape} (known : shape.IsKnown) {xs ys : List Char} {d : Char}
    (delimiter : IsDelimiter d) (solid : isBlank d = false ∨ ∃ c ∈ ys, isBlank c = false)
    (h : shape.Before (xs ++ d :: ys)) : shape.Before ys := by
  rcases h with h | ⟨before, core, blanks, same, hcore, blank, outside⟩
  · exact .inl h
  · have inside : ∀ rest, core ++ blanks ≠ rest ++ d :: ys := by
      intro rest inner
      have noCore := Core.not_mem known hcore delimiter
      have tail : ∃ rest', blanks = rest' ++ d :: ys := by
        rcases List.append_eq_append_iff.1 inner with ⟨rest', -, h⟩ | ⟨rest', h, h'⟩
        · exact ⟨rest', h⟩
        · cases rest' with
          | nil => exact ⟨[], h'.symm⟩
          | cons e rest' =>
            rw [(List.cons.inj h').1] at noCore
            exact absurd (by simp [h]) noCore
      obtain ⟨rest', rfl⟩ := tail
      rcases solid with solid | ⟨c, hc, solid⟩
      · rw [blank d (by simp)] at solid
        cases solid
      · rw [blank c (by simp [hc])] at solid
        cases solid
    right
    rcases List.append_eq_append_iff.1 same with ⟨rest, rfl, inner⟩ | ⟨rest, rfl, inner⟩
    · cases rest with
      | nil => exact absurd inner.symm (inside [])
      | cons e rest =>
        obtain ⟨rfl, rfl⟩ := List.cons.inj inner
        refine ⟨rest, core, blanks, rfl, hcore, blank, fun isHandler c hc => ?_⟩
        have last : c ∈ ([d] ++ rest).getLast? := mem_of_getLast?_append hc
        exact outside isHandler c (mem_of_getLast?_append last)
    · exact absurd inner (inside rest)

/-- A text after something that is no word character may as well stand alone. -/
theorem Before.append {shape : ThreatShape} {xs ys : List Char} (h : shape.Before ys)
    (apart : ∀ c ∈ xs.getLast?, isWordChar c = false) : shape.Before (xs ++ ys) := by
  rcases h with h | ⟨before, core, blanks, rfl, hcore, blank, outside⟩
  · exact .inl h
  · refine .inr ⟨xs ++ before, core, blanks, by rw [List.append_assoc], hcore, blank, ?_⟩
    intro isHandler c hc
    cases before with
    | nil => exact apart c (by simpa using hc)
    | cons b before =>
      refine outside isHandler c ?_
      have last := List.getLast?_eq_some_getLast (List.cons_ne_nil b before)
      rwa [Option.mem_def, List.getLast?_append, last, Option.some_or, ← last] at hc

theorem Core.ne_nil {shape : ThreatShape} (known : shape.IsKnown) {core : List Char}
    (h : shape.Core core) : core ≠ [] := by
  rintro rfl
  cases shape with
  | wordThen word mark =>
    have empty : word.toList = [] := h.symm
    obtain ⟨threat, known⟩ := known
    cases threat <;> cases known <;> exact absurd empty (by decide)
  | tag => exact h
  | handler =>
    obtain ⟨_, _, _, empty, -⟩ := h
    cases empty
  | injection =>
    have empty : "calc".toList = [] := h.symm
    exact absurd empty (by decide)

/-- A character before a mark that is no blank ends the core. -/
theorem Before.getLast {shape : ThreatShape} (known : shape.IsKnown) {xs : List Char} {c : Char}
    (h : shape.Before (xs ++ [c])) (solid : isBlank c = false) :
    (∃ element, shape = tag element) ∨ ∃ core, shape.Core core ∧ c ∈ core.getLast? := by
  rcases h with h | ⟨before, core, blanks, same, hcore, blank, -⟩
  · exact .inl h
  · have last := congrArg List.getLast? same
    cases blanks using List.reverseRecOn with
    | nil =>
      have final := List.getLast?_eq_some_getLast (Core.ne_nil known hcore)
      refine .inr ⟨core, hcore, ?_⟩
      rw [List.getLast?_concat, List.append_nil, List.getLast?_append, final,
        Option.some_or] at last
      rw [Option.mem_def, final, last]
    | append_singleton blanks b _ =>
      rw [List.getLast?_concat, ← List.append_assoc, ← List.append_assoc, List.getLast?_concat,
        Option.some.injEq] at last
      rw [last, blank b (by simp)] at solid
      cases solid

theorem prefix_of_not_mem {xs ys rest : List Char} {d : Char} {after : List Char} (h : d ∉ ys)
    (same : ys ++ rest = xs ++ d :: after) : ∃ rest', xs = ys ++ rest' := by
  rcases List.append_eq_append_iff.1 same with ⟨rest', h, -⟩ | ⟨rest', h', h''⟩
  · exact ⟨rest', h⟩
  · cases rest' with
    | nil => exact ⟨[], by simpa using h'.symm⟩
    | cons e rest' =>
      rw [(List.cons.inj h'').1] at h
      exact absurd (by simp [h']) h

/-- Nothing after a closing parenthesis matters. -/
theorem After.of_closing {shape : ThreatShape} (known : shape.IsKnown) {xs ys : List Char}
    (h : shape.After (xs ++ ')' :: ys)) : shape.After xs := by
  have closing : IsDelimiter ')' := .inr (.inr (.inr rfl))
  cases shape with
  | wordThen | handler => trivial
  | tag element =>
    obtain ⟨blanks, word, rest, same, blank, spelled⟩ := h
    have absent : ')' ∉ blanks ++ word := by
      rw [List.mem_append, not_or]
      refine ⟨fun mem => absurd (blank _ mem) (by decide), ?_⟩
      exact spelled.not_mem known.element_letters closing
    rw [← List.append_assoc] at same
    obtain ⟨rest', rfl⟩ := prefix_of_not_mem absent same.symm
    exact ⟨blanks, word, rest', by rw [List.append_assoc], blank, spelled⟩
  | injection =>
    obtain ⟨before, word, rest, same, inside, code, mem, spelled⟩ := h
    have absent : ')' ∉ before ++ word := by
      rw [List.mem_append, not_or]
      exact ⟨inside, spelled.not_mem (codeWords_letters code mem) closing⟩
    rw [← List.append_assoc] at same
    obtain ⟨rest', rfl⟩ := prefix_of_not_mem absent same.symm
    exact ⟨before, word, rest', by rw [List.append_assoc], inside, code, mem, spelled⟩

theorem After.append {shape : ThreatShape} {xs : List Char} (h : shape.After xs) (ys : List Char) :
    shape.After (xs ++ ys) := by
  cases shape with
  | wordThen | handler => trivial
  | tag element =>
    obtain ⟨blanks, word, rest, rfl, blank, spelled⟩ := h
    exact ⟨blanks, word, rest ++ ys, by simp, blank, spelled⟩
  | injection =>
    obtain ⟨before, word, rest, rfl, inside, code⟩ := h
    exact ⟨before, word, rest ++ ys, by simp, inside, code⟩

/-- Nothing after a delimiter matters to a tag, unless only blanks stand before it. -/
theorem After.local {shape : ThreatShape} (known : shape.IsKnown) (other : shape ≠ injection)
    {xs ys : List Char} {d : Char} (delimiter : IsDelimiter d)
    (solid : ∃ c ∈ xs, isBlank c = false) (h : shape.After (xs ++ d :: ys)) : shape.After xs := by
  cases shape with
  | wordThen | handler => trivial
  | injection => exact absurd rfl other
  | tag element =>
    obtain ⟨blanks, word, rest, same, blank, spelled⟩ := h
    have absent := spelled.not_mem known.element_letters delimiter
    -- the delimiter cannot stand before the name, whose blanks would hold all of `xs`
    rcases List.append_eq_append_iff.1 same with ⟨more, rfl, -⟩ | ⟨more, rfl, inner⟩
    · obtain ⟨c, hc, solid⟩ := solid
      rw [blank c (by simp [hc])] at solid
      cases solid
    · obtain ⟨rest', rfl⟩ := prefix_of_not_mem absent inner
      exact ⟨blanks, word, rest', rfl, blank, spelled⟩

end ThreatShape

end BracketCss
