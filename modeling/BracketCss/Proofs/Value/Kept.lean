import BracketCss.Proofs.Value.Laced
import Mathlib.Data.List.Forall2

/-!
# Words that are kept

When a value is written in its normal form some of its words change: a number or a keyword is
written in another way, and the call of a colour function loses its capitals and the blanks next to
its parentheses. Every other word stays as it is.

## Main definitions

* `IsDull w`, `IsFramed w`: plain words, and calls and quoted texts
* `Kept w u`: a word and what is written for it

## Main results

* `IsDull.decoded`, `IsFramed.decoded`, `decode_color`: how words are decoded
-/

namespace BracketCss

open Text

/-- A character of a plain word: one that no threat and no escape needs as its mark, and that
structures nothing. -/
def isDullChar (c : Char) : Bool := !" ,()\"':=<%&\\/*".toList.contains c

/-- A plain word, perhaps with a percent sign at its end. -/
def IsDull (w : List Char) : Prop :=
  w ≠ [] ∧ ∃ body, (∀ c ∈ body, isDullChar c) ∧ (w = body ∨ w = body ++ ['%'])

/-- A call or a quoted text. -/
def IsFramed (w : List Char) : Prop :=
  ∃ c body d, w = c :: (body ++ [d]) ∧ (isAsciiLetter c ∨ Scan.isQuote c) ∧
    (d = ')' ∨ Scan.isQuote d)

/-- A word of a value and what is written for it. -/
inductive Kept : List Char → List Char → Prop
  /-- A plain word becomes another one. -/
  | dull {w u} (hw : IsDull w) (hu : IsDull u) : Kept w u
  /-- The word stays. -/
  | same (w) : Kept w w
  /-- A call of a colour function in its normal form. -/
  | color {name args : List Char} (letters : ∀ c ∈ name, isAsciiLetter c)
      (known : .ofList (lower name) ∈ colorFunctionNames) (spaces : IsSpaced args) :
      Kept (name ++ '(' :: (args ++ [')'])) (lower name ++ '(' :: (trim args ++ [')']))

theorem isDullChar_iff (c : Char) : isDullChar c ↔
    c ≠ ' ' ∧ c ≠ ',' ∧ c ≠ '(' ∧ c ≠ ')' ∧ c ≠ '"' ∧ c ≠ '\'' ∧ c ≠ ':' ∧ c ≠ '=' ∧ c ≠ '<' ∧
      c ≠ '%' ∧ c ≠ '&' ∧ c ≠ '\\' ∧ c ≠ '/' ∧ c ≠ '*' := by
  simp [isDullChar]

theorem not_startsEscape_of_isDullChar {c : Char} (h : isDullChar c) : ¬ StartsEscape c := by
  have other := (isDullChar_iff c).1 h
  rintro (rfl | rfl | rfl) <;> simp at other

section Words

variable {decode : List Char → List Char}

theorem IsDull.decoded (dec : Decoder decode) {w : List Char} (h : IsDull w) :
    decode w = w ∧ Solid decode w := by
  obtain ⟨-, body, dull, rfl | rfl⟩ := h
  · have unmarked : ∀ c ∈ w, ¬ StartsEscape c := fun c hc =>
      not_startsEscape_of_isDullChar (dull c hc)
    exact ⟨dec.eq_self unmarked, fun ys _ => by rw [dec.append unmarked, dec.eq_self unmarked]⟩
  · have plain := dec.append fun c hc => not_startsEscape_of_isDullChar (dull c hc)
    have percent : ∀ ys, AtBreak ys → decode (body ++ ['%'] ++ ys) = body ++ '%' :: decode ys := by
      intro ys hys
      rw [List.append_assoc, plain, List.singleton_append, dec.percent]
      intro c hc
      rcases hys c hc with (rfl | rfl) | rfl <;> decide
    have same := percent [] .nil
    rw [List.append_nil, dec.nil] at same
    refine ⟨same, fun ys hys => ?_⟩
    rw [percent ys hys, same, List.append_assoc, List.singleton_append]

theorem not_startsEscape_of_frame {c : Char} (h : isAsciiLetter c ∨ Scan.isQuote c) :
    ¬ StartsEscape c := by
  rintro (rfl | rfl | rfl) <;> revert h <;> decide

theorem isFirm_of_frame {c : Char} (h : c = ')' ∨ Scan.isQuote c) : IsFirm c := by
  rcases h with rfl | h
  · exact .inl rfl
  · simp only [Scan.isQuote, Bool.or_eq_true, beq_iff_eq] at h
    exact .inr (h.elim .inl fun h => .inr (.inl h))

/-- Decoding changes nothing at the ends of a call or a quoted text. -/
theorem IsFramed.decoded (dec : Decoder decode) {w : List Char} (h : IsFramed w) :
    IsFramed (decode w) ∧ (decode w).getLast? = w.getLast? ∧ Solid decode w := by
  obtain ⟨c, body, d, rfl, first, last⟩ := h
  have plain := dec.cons (not_startsEscape_of_frame first)
  obtain ⟨zs, alone, apart⟩ := dec.concat_firm (isFirm_of_frame last) body
  refine ⟨⟨c, zs, d, by rw [plain, alone], first, last⟩, ?_, fun ys _ => ?_⟩
  · rw [plain, alone, ← List.cons_append, ← List.cons_append, List.getLast?_concat,
      List.getLast?_concat]
  · rw [List.cons_append, plain, plain, List.append_assoc, List.singleton_append, apart,
      List.cons_append]

theorem colorFunctionNames_letters :
    ∀ name ∈ colorFunctionNames, name.toList ≠ [] ∧ ∀ c ∈ name.toList, isAsciiLetter c := by
  have table : ∀ name ∈ colorFunctionNames, name.toList ≠ [] ∧ name.toList.all isAsciiLetter := by
    decide
  exact fun name mem => (table name mem).imp_right List.all_eq_true.1

theorem isFramed_call {name : List Char} (nonempty : name ≠ [])
    (letters : ∀ c ∈ name, isAsciiLetter c) (args : List Char) :
    IsFramed (name ++ '(' :: (args ++ [')'])) := by
  obtain ⟨c, name, rfl⟩ := List.exists_cons_of_ne_nil nonempty
  exact ⟨c, name ++ '(' :: args, ')', by simp, .inl (letters c List.mem_cons_self), .inl rfl⟩

theorem not_startsEscape_of_isAsciiLetter {c : Char} (h : isAsciiLetter c) : ¬ StartsEscape c :=
  not_startsEscape_of_frame (.inl h)

/-- The two forms of a colour call decode to the same arguments, the blanks around them apart. -/
theorem decode_color (dec : Decoder decode) {name args : List Char}
    (letters : ∀ c ∈ name, isAsciiLetter c) (known : .ofList (lower name) ∈ colorFunctionNames)
    (spaces : IsSpaced args) :
    ∃ lead core rest, (∀ c ∈ lead, c = ' ') ∧
      decode (lower name ++ '(' :: (trim args ++ [')'])) =
        lower name ++ '(' :: (core ++ [')']) ∧
      decode (name ++ '(' :: (args ++ [')'])) = name ++ '(' :: (lead ++ (core ++ rest)) := by
  have lowered := (colorFunctionNames_letters _ known).2
  rw [String.toList_ofList] at lowered
  obtain ⟨lead, trail, split_, leadBlank, trailBlank⟩ := Scan.exists_trim args
  obtain ⟨core, cut, start⟩ := dec.cut (trim args)
  have leadSpace : ∀ c ∈ lead, c = ' ' := fun c hc =>
    spaces c (by rw [split_]; simp [hc]) (leadBlank c hc)
  have open_ : ¬ StartsEscape '(' := by decide
  have tail : ∃ rest, decode (trim args ++ (trail ++ [')'])) = core ++ rest := by
    cases trail with
    | nil => exact ⟨_, cut ')' (.inl rfl) []⟩
    | cons c trail =>
      have space : c = ' ' := spaces c (by rw [split_]; simp) (trailBlank c List.mem_cons_self)
      obtain ⟨rest, same⟩ := start (trail ++ [')'])
      exact ⟨rest, by rw [space, List.cons_append, same]⟩
  obtain ⟨rest, tail⟩ := tail
  refine ⟨lead, core, rest, leadSpace, ?_, ?_⟩
  · rw [dec.append fun c hc => not_startsEscape_of_isAsciiLetter (lowered c hc), dec.cons open_,
      cut ')' (.inl rfl), dec.nil]
  · rw [dec.append fun c hc => not_startsEscape_of_isAsciiLetter (letters c hc), dec.cons open_]
    conv_lhs => rw [split_]
    rw [List.append_assoc, List.append_assoc, dec.append, tail]
    intro c hc
    rw [leadSpace c hc]
    decide

end Words

section Pairs

variable {α β : Type} {R : α → β → Prop} {xs : List α} {ys : List β}

/-- Every member of the second list is paired with one of the first. -/
theorem exists_of_mem_right (paired : List.Forall₂ R xs ys) {y : β} (h : y ∈ ys) :
    ∃ x ∈ xs, R x y := by
  induction paired with
  | nil => cases h
  | cons first _ ih =>
    rcases List.mem_cons.1 h with rfl | h
    · exact ⟨_, List.mem_cons_self, first⟩
    · obtain ⟨x, hx, hxy⟩ := ih h
      exact ⟨x, List.mem_cons_of_mem _ hx, hxy⟩

theorem exists_of_mem_left (paired : List.Forall₂ R xs ys) {x : α} (h : x ∈ xs) :
    ∃ y ∈ ys, R x y := exists_of_mem_right (R := fun y x => R x y) paired.flip h

end Pairs

/-- A word whose written form is plain, a call or a quoted text is one itself. -/
theorem Kept.regular {w u : List Char} (h : Kept w u) (regular : IsDull u ∨ IsFramed u) :
    IsDull w ∨ IsFramed w := by
  cases h with
  | dull hw _ => exact .inl hw
  | same => exact regular
  | @color name args letters known _ =>
    refine .inr (isFramed_call ?_ letters args)
    rintro rfl
    exact (colorFunctionNames_letters _ known).1 (by simp)

end BracketCss
