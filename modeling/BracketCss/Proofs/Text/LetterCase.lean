import BracketCss.Proofs.Text.Caseless

/-!
# The case of letters

Lower-casing of ASCII letters one by one. It keeps the length of a text, so a text and its lower
case can be read side by side: what does not look at the case of letters finds the same places in
both, and what it finds in the lower case is the lower case of what it finds in the text.

## Main definitions

* `IsCaseBlind f`: a function of characters that does not look at the case of ASCII letters

## Main results

* `lower_eq_map`: an ASCII text is put into lower case letter by letter
* `IsCaseBlind.of_table`: it takes a look at the letters
* `map_eq_cons_iff_of_mark`: a character that is no letter stands first in both or in neither
* `trim_map_toLower`, `isIdentifier_map_toLower`: what is found in the lower case
-/

namespace BracketCss.Text

/-- A function of characters that does not look at the case of ASCII letters. -/
def IsCaseBlind {α : Type} (f : Char → α) : Prop := ∀ c, f c.toLower = f c

theorem toLower_cases (c : Char) :
    c.toLower = c ∨ ∃ n < 26, c = Char.ofNat (65 + n) ∧ c.toLower = Char.ofNat (65 + n + 32) := by
  have letters : ∀ n < 26, (Char.ofNat (65 + n)).toLower = Char.ofNat (65 + n + 32) := by decide
  by_cases upper : 'A' ≤ c ∧ c ≤ 'Z'
  · have low : 65 ≤ c.toNat := upper.1
    have high : c.toNat ≤ 90 := upper.2
    have same : c = Char.ofNat (65 + (c.toNat - 65)) := by
      rw [Nat.add_sub_cancel' low, Char.ofNat_toNat]
    have lowered := letters (c.toNat - 65) (by omega)
    rw [← same] at lowered
    exact .inr ⟨c.toNat - 65, by omega, same, lowered⟩
  · exact .inl (dif_neg upper)

/-- A character that is no letter is the lower case of itself alone. -/
theorem toLower_eq_iff {mark : Char} (h : isAsciiLetter mark = false) {c : Char} :
    c.toLower = mark ↔ c = mark := by
  have letters : ∀ n < 26, isAsciiLetter (Char.ofNat (65 + n)) ∧
      isAsciiLetter (Char.ofNat (65 + n + 32)) := by decide
  rcases toLower_cases c with same | ⟨n, small, rfl, low⟩
  · rw [same]
  · rw [low]
    constructor
    · rintro rfl
      exact absurd (letters n small).2 (by simp [h])
    · rintro rfl
      exact absurd (letters n small).1 (by simp [h])

/-- A class without upper-case letters has members that stay. -/
theorem toLower_eq_self {p : Char → Bool} (letters : ∀ n < 26, p (Char.ofNat (65 + n)) = false)
    {c : Char} (h : p c) : c.toLower = c := by
  rcases toLower_cases c with same | ⟨n, small, rfl, -⟩
  · exact same
  · rw [letters n small] at h
    cases h

/-! ## What does not look at the case -/

namespace IsCaseBlind

variable {α : Type} {f : Char → α} {p : Char → Bool}

/-- It takes a look at the letters. -/
theorem of_table (letters : ∀ n < 26, f (Char.ofNat (65 + n + 32)) = f (Char.ofNat (65 + n))) :
    IsCaseBlind f := by
  intro c
  rcases toLower_cases c with same | ⟨n, small, rfl, low⟩
  · rw [same]
  · rw [low, letters n small]

theorem comp (h : IsCaseBlind f) : f ∘ Char.toLower = f := funext h

theorem map (h : IsCaseBlind f) (cs : List Char) : (cs.map Char.toLower).map f = cs.map f := by
  rw [List.map_map, h.comp]

theorem takeWhile (h : IsCaseBlind p) (cs : List Char) :
    (cs.map Char.toLower).takeWhile p = (cs.takeWhile p).map Char.toLower := by
  rw [List.takeWhile_map, h.comp]

theorem dropWhile (h : IsCaseBlind p) (cs : List Char) :
    (cs.map Char.toLower).dropWhile p = (cs.dropWhile p).map Char.toLower := by
  rw [List.dropWhile_map, h.comp]

theorem all (h : IsCaseBlind p) (cs : List Char) : (cs.map Char.toLower).all p = cs.all p := by
  rw [List.all_map, h.comp]

theorem forall_iff (h : IsCaseBlind p) {cs : List Char} :
    (∀ c ∈ cs.map Char.toLower, p c) ↔ ∀ c ∈ cs, p c := by
  rw [List.forall_mem_map]
  exact forall₂_congr fun c _ => by rw [h c]

theorem any_option (h : IsCaseBlind p) (c : Option Char) :
    (c.map Char.toLower).any p = c.any p := by
  rw [Option.any_map]
  exact congrArg (c.any ·) h.comp

theorem any_head? (h : IsCaseBlind p) (cs : List Char) :
    (cs.map Char.toLower).head?.any p = cs.head?.any p := by
  rw [List.head?_map, h.any_option]

end IsCaseBlind

theorem isCaseBlind_isBlank : IsCaseBlind isBlank := .of_table (by decide)

theorem isCaseBlind_isDecimal : IsCaseBlind isDecimal := .of_table (by decide)

theorem isCaseBlind_isAsciiLetter : IsCaseBlind isAsciiLetter := .of_table (by decide)

theorem isCaseBlind_isAsciiNameChar : IsCaseBlind isAsciiNameChar := .of_table (by decide)

theorem isCaseBlind_isWordChar : IsCaseBlind isWordChar := .of_table (by decide)

theorem isCaseBlind_isNameChar : IsCaseBlind isNameChar := .of_table (by decide)

theorem isCaseBlind_isHexDigit : IsCaseBlind isHexDigit := .of_table (by decide)

theorem isCaseBlind_hexValue : IsCaseBlind hexValue := .of_table (by decide)

theorem isCaseBlind_caseKey : IsCaseBlind caseKey := .of_table (by decide)

theorem isCaseBlind_lowerChar : IsCaseBlind lowerChar := .of_table (by decide)

@[simp] theorem toLower_toLower (c : Char) : c.toLower.toLower = c.toLower := by
  have blind : IsCaseBlind Char.toLower := .of_table (by decide)
  exact blind c

/-! ## Texts -/

variable {mark : Char} {cs rest : List Char}

/-- A text in which some letters are put into lower case has the same lower case. -/
@[simp] theorem lower_map_toLower (cs : List Char) :
    lower (cs.map Char.toLower) = lower cs := by
  rw [lower, List.flatMap_map]
  exact congrArg (cs.flatMap ·) (funext isCaseBlind_lowerChar)

theorem lowerChar_eq_singleton {c : Char} (ascii : c.toNat < 128) : lowerChar c = [c.toLower] := by
  have table : ∀ n < 128, lowerChar (Char.ofNat n) = [(Char.ofNat n).toLower] := by decide
  have entry := table c.toNat ascii
  rwa [Char.ofNat_toNat] at entry

/-- An ASCII text is put into lower case letter by letter. -/
theorem lower_eq_map (ascii : ∀ c ∈ cs, c.toNat < 128) : lower cs = cs.map Char.toLower := by
  induction cs with
  | nil => rfl
  | cons c cs ih =>
    obtain ⟨first, others⟩ := List.forall_mem_cons.1 ascii
    rw [lower_cons, lowerChar_eq_singleton first, ih others, List.map_cons, List.singleton_append]

/-- A character that is no letter stands first in a text or in neither of both. -/
theorem map_eq_cons_iff_of_mark (h : isAsciiLetter mark = false) :
    cs.map Char.toLower = mark :: rest ↔ ∃ others, cs = mark :: others ∧
      others.map Char.toLower = rest := by
  rw [List.map_eq_cons_iff]
  constructor
  · rintro ⟨c, others, rfl, same, rest⟩
    exact ⟨others, by rw [(toLower_eq_iff h).1 same], rest⟩
  · rintro ⟨others, rfl, rest⟩
    exact ⟨mark, others, rfl, (toLower_eq_iff h).2 rfl, rest⟩

theorem map_eq_some_iff_of_mark (h : isAsciiLetter mark = false) {found : Option Char} :
    found.map Char.toLower = some mark ↔ found = some mark := by
  rw [Option.map_eq_some_iff]
  exact ⟨fun ⟨c, first, same⟩ => (toLower_eq_iff h).1 same ▸ first,
    fun first => ⟨mark, first, (toLower_eq_iff h).2 rfl⟩⟩

theorem head?_map_iff_of_mark (h : isAsciiLetter mark = false) :
    (cs.map Char.toLower).head? = some mark ↔ cs.head? = some mark := by
  rw [List.head?_map, map_eq_some_iff_of_mark h]

theorem getLast?_map_iff_of_mark (h : isAsciiLetter mark = false) :
    (cs.map Char.toLower).getLast? = some mark ↔ cs.getLast? = some mark := by
  rw [List.getLast?_map, map_eq_some_iff_of_mark h]

theorem mem_map_iff_of_mark (h : isAsciiLetter mark = false) :
    mark ∈ cs.map Char.toLower ↔ mark ∈ cs := by
  simp [toLower_eq_iff h]

theorem count_map_of_mark (h : isAsciiLetter mark = false) (cs : List Char) :
    (cs.map Char.toLower).count mark = cs.count mark := by
  rw [List.count_eq_countP, List.countP_map, List.count_eq_countP]
  exact List.countP_congr fun c _ => by simp [toLower_eq_iff h]

/-- A change of characters that keeps blanks does so at both ends of a text. -/
theorem trim_map {f : Char → Char} (blank : ∀ c, isBlank (f c) = isBlank c) (cs : List Char) :
    trim (cs.map f) = (trim cs).map f := by
  have same : isBlank ∘ f = isBlank := funext blank
  rw [trim, trimStart, List.dropWhile_map, same, trimEnd, ← List.map_reverse, List.dropWhile_map,
    same, ← List.map_reverse, trim, trimEnd, trimStart]

theorem trimStart_map_toLower (cs : List Char) :
    trimStart (cs.map Char.toLower) = (trimStart cs).map Char.toLower :=
  isCaseBlind_isBlank.dropWhile cs

theorem trim_map_toLower (cs : List Char) :
    trim (cs.map Char.toLower) = (trim cs).map Char.toLower :=
  trim_map isCaseBlind_isBlank cs

/-- What is done to one text after the other is done to texts put together. -/
theorem apply_intercalate {α β : Type} {f : List α → List β} (nil : f [] = [])
    (append : ∀ xs ys, f (xs ++ ys) = f xs ++ f ys) (separator : List α) (parts : List (List α)) :
    f (separator.intercalate parts) = (f separator).intercalate (parts.map f) := by
  induction parts with
  | nil => exact nil
  | cons part parts ih =>
    cases parts with
    | nil => simp
    | cons next parts =>
      rw [List.intercalate_cons_cons, append, append, ih]
      simp only [List.map_cons, List.intercalate_cons_cons]

/-! ## Names -/

theorem toNat_lt_of_isAsciiNameChar {c : Char} (h : isAsciiNameChar c) : c.toNat < 128 := by
  simp only [isAsciiNameChar, isAsciiAlphanumeric, isAsciiLetter, Bool.or_eq_true,
    Bool.and_eq_true, decide_eq_true_eq, beq_iff_eq] at h
  rcases h with ((⟨-, small⟩ | ⟨-, small⟩) | ⟨-, small⟩) | rfl
  · exact Nat.lt_of_le_of_lt (m := 122) small (by decide)
  · exact Nat.lt_of_le_of_lt (m := 90) small (by decide)
  · exact Nat.lt_of_le_of_lt (m := 57) small (by decide)
  · decide

/-- An identifier without a hyphen in front. -/
def isBareIdentifier : List Char → Bool
  | c :: rest => (isAsciiLetter c || c == '_') && rest.all isNameChar
  | [] => false

theorem isIdentifier_hyphen (rest : List Char) :
    isIdentifier ('-' :: rest) = isBareIdentifier rest := by
  cases rest <;> rfl

theorem isIdentifier_of_head? (h : cs.head? ≠ some '-') :
    isIdentifier cs = isBareIdentifier cs := by
  unfold isIdentifier
  split
  · exact absurd rfl h
  · rfl

theorem isBareIdentifier_map_toLower (cs : List Char) :
    isBareIdentifier (cs.map Char.toLower) = isBareIdentifier cs := by
  have first : IsCaseBlind fun c => isAsciiLetter c || c == '_' := .of_table (by decide)
  cases cs with
  | nil => rfl
  | cons c rest =>
    have others := isCaseBlind_isNameChar.all rest
    have start : (isAsciiLetter c.toLower || c.toLower == '_') = _ := first c
    rw [List.map_cons, isBareIdentifier, isBareIdentifier, start, others]

theorem isIdentifier_map_toLower (cs : List Char) :
    isIdentifier (cs.map Char.toLower) = isIdentifier cs := by
  by_cases hyphen : cs.head? = some '-'
  · obtain ⟨rest, rfl⟩ := List.head?_eq_some_iff.1 hyphen
    have same : ('-' :: rest).map Char.toLower = '-' :: rest.map Char.toLower := rfl
    rw [same, isIdentifier_hyphen, isIdentifier_hyphen, isBareIdentifier_map_toLower]
  · rw [isIdentifier_of_head? hyphen, ← isBareIdentifier_map_toLower,
      isIdentifier_of_head? (mt (head?_map_iff_of_mark (by decide)).1 hyphen)]

/-- A custom property has a name behind two hyphens. -/
theorem isCustomProperty_iff : isCustomProperty cs ↔
    ∃ name, cs = '-' :: '-' :: name ∧ name ≠ [] ∧ ∀ c ∈ name, isNameChar c := by
  unfold isCustomProperty
  split
  · next c rest => simp
  · next other =>
    refine ⟨nofun, ?_⟩
    rintro ⟨name, rfl, some_, -⟩
    obtain ⟨c, rest, rfl⟩ := List.exists_cons_of_ne_nil some_
    exact absurd rfl (other c rest)

theorem isCustomProperty_map_toLower (cs : List Char) :
    isCustomProperty (cs.map Char.toLower) = isCustomProperty cs := by
  rw [Bool.eq_iff_iff, isCustomProperty_iff, isCustomProperty_iff]
  constructor
  · rintro ⟨name, same, some_, all⟩
    obtain ⟨rest, rfl, later⟩ := (map_eq_cons_iff_of_mark (by decide)).1 same
    obtain ⟨name, rfl, rfl⟩ := (map_eq_cons_iff_of_mark (by decide)).1 later
    exact ⟨name, rfl, by simpa using some_, isCaseBlind_isNameChar.forall_iff.1 all⟩
  · rintro ⟨name, rfl, some_, all⟩
    exact ⟨name.map Char.toLower, rfl, by simpa using some_,
      isCaseBlind_isNameChar.forall_iff.2 all⟩

end BracketCss.Text
