import BracketCss.Text.LetterTable

/-!
# Letter case

Lower-casing and comparison without regard to case, as far as a comparison with ASCII text can
tell: beyond ASCII only the Kelvin sign and the dotted capital I lower to text with an ASCII
letter, and only those, the long s and the dotless i equal an ASCII letter when case is ignored.
Where two texts of any script are compared, the letters of every script are put into lower case:
each on its own, but for the capital sigma, which takes a form of its own at the end of a word.

## Main definitions

* `lower cs`: the text in lower case
* `caseKey c`: the representative of a character's case class
* `fullLower cs`: the text in lower case, with the letters of every script

## Main results

* `lower_append`: lower-casing goes character by character
* `lower_lower`: a text in lower case stays as it is
* `fullLower_eq_iff`: a comparison with ASCII text does not tell the two ways apart
-/

namespace BracketCss.Text

/-- The lower-case form of a character, which for the dotted capital I is two characters. -/
def lowerChar (c : Char) : List Char :=
  if 'A' ≤ c ∧ c ≤ 'Z' then [Char.ofNat (c.toNat + 32)]
  else if c = '\u212a' then ['k']
  else if c = '\u0130' then ['i', '\u0307']
  else [c]

/-- The text in lower case. -/
def lower (cs : List Char) : List Char := cs.flatMap lowerChar

/-- The text in lower case. -/
def lowerText (s : String) : String := .ofList (lower s.toList)

/-- The lower-case ASCII letter that stands for a character's case class, or the character. -/
def caseKey (c : Char) : Char :=
  if 'A' ≤ c ∧ c ≤ 'Z' then Char.ofNat (c.toNat + 32)
  else if c = '\u017f' then 's'
  else if c = '\u212a' then 'k'
  else if c = '\u0130' ∨ c = '\u0131' then 'i'
  else c

@[simp] theorem lower_nil : lower [] = [] := rfl

@[simp] theorem lower_append (xs ys : List Char) : lower (xs ++ ys) = lower xs ++ lower ys :=
  List.flatMap_append

theorem lower_lowerChar (c : Char) : lower (lowerChar c) = lowerChar c := by
  unfold lowerChar
  split
  · next upper =>
    have low : 65 ≤ c.toNat := upper.1
    have high : c.toNat ≤ 90 := upper.2
    have table : ∀ n < 26, lower [Char.ofNat (65 + n + 32)] = [Char.ofNat (65 + n + 32)] := by
      decide
    have entry := table (c.toNat - 65) (by omega)
    rwa [Nat.add_sub_cancel' low] at entry
  · split
    · rfl
    · split
      · rfl
      · next notUpper kelvin dotted =>
        simp only [lower, List.flatMap_cons, List.flatMap_nil, List.append_nil, lowerChar, notUpper,
          kelvin, dotted, if_false]

@[simp] theorem lower_lower (cs : List Char) : lower (lower cs) = lower cs := by
  induction cs with
  | nil => rfl
  | cons c cs ih =>
    have head : lower (c :: cs) = lowerChar c ++ lower cs := rfl
    rw [head, lower_append, lower_lowerChar, ih]

/-! ## Every script -/

/-- The lower-case form of a code point, if it belongs to the run. -/
def LowerRun.lower? (run : LowerRun) (n : Nat) : Option Nat :=
  if run.first ≤ n ∧ n ≤ run.last ∧ (n - run.first) % run.step = 0 then
    some (run.lower + (n - run.first))
  else none

/-- The lower-case form of a character on its own, which for the dotted capital I is two
characters. -/
def fullLowerChar (c : Char) : List Char :=
  if c.toNat < 128 then lowerChar c
  else if c = '\u0130' then ['i', '\u0307']
  else [((lowerRuns.findSome? (·.lower? c.toNat)).map Char.ofNat).getD c]

/-- A character of one of the ranges. -/
def isInRanges (ranges : List (Nat × Nat)) (c : Char) : Bool :=
  ranges.any fun r => r.1 ≤ c.toNat && c.toNat ≤ r.2

/-- Whether the first character that is not passed over is a cased one. -/
def meetsCased (cs : List Char) : Bool :=
  (cs.find? fun c => !isInRanges caseIgnorableRanges c).any (isInRanges casedRanges)

/-- The lower-case form of a text behind the characters `before`, of which the last comes first. A
capital sigma that ends a word of more than one letter takes its final form. -/
def fullLowerBehind : (before : List Char) → List Char → List Char
  | _, [] => []
  | before, c :: after =>
    (if c = '\u03a3' then
      if meetsCased before && !meetsCased after then ['\u03c2'] else ['\u03c3']
    else fullLowerChar c) ++ fullLowerBehind (c :: before) after

/-- The text in lower case, with the letters of every script. -/
def fullLower (cs : List Char) : List Char := fullLowerBehind [] cs

/-- The text in lower case, with the letters of every script. -/
def fullLowerText (s : String) : String := .ofList (fullLower s.toList)

/-- The Kelvin sign apart, what the table puts into lower case stays beyond ASCII. -/
theorem LowerRun.le_toNat_of_lower? {run : LowerRun} {n m : Nat} (mem : run ∈ lowerRuns)
    (h : run.lower? n = some m) : n = 0x212a ∨ 128 ≤ (Char.ofNat m).toNat := by
  have table : ∀ run ∈ lowerRuns, (run.first = 0x212a ∧ run.last = 0x212a) ∨
      128 ≤ run.lower ∧ (run.lower + (run.last - run.first) < 0xd800 ∨
        0xdfff < run.lower ∧ run.lower + (run.last - run.first) < 0x110000) := by
    decide +kernel
  unfold lower? at h
  split at h
  · next within =>
    obtain rfl := Option.some.inj h
    rcases table run mem with kelvin | ⟨low, inside⟩
    · left
      omega
    · right
      have valid : (run.lower + (n - run.first)).isValidChar := by
        simp only [Nat.isValidChar]
        omega
      rw [Char.ofNat, dif_pos valid]
      exact Nat.le_add_right_of_le low
  · cases h

/-- A character has one lower-case form, or its two are single characters beyond ASCII. -/
theorem fullLowerChar_cases (c : Char) : fullLowerChar c = lowerChar c ∨
    lowerChar c = [c] ∧ 128 ≤ c.toNat ∧ ∃ d, fullLowerChar c = [d] ∧ 128 ≤ d.toNat := by
  by_cases kelvin : c = '\u212a'
  · subst kelvin
    exact .inl (by decide +kernel)
  · unfold fullLowerChar
    split
    · exact .inl rfl
    · next notAscii =>
      split
      · next dotted => exact .inl (dotted ▸ rfl)
      · next noDot =>
        have notUpper : ¬('A' ≤ c ∧ c ≤ 'Z') := by
          rintro ⟨-, high⟩
          have : c.toNat ≤ 90 := high
          omega
        refine .inr ⟨?_, by omega, _, rfl, ?_⟩
        · rw [lowerChar, if_neg notUpper, if_neg kelvin, if_neg noDot]
        · cases entry : lowerRuns.findSome? (·.lower? c.toNat) with
          | none => exact Nat.le_of_not_lt notAscii
          | some m =>
            obtain ⟨run, mem, found⟩ := List.exists_of_findSome?_eq_some entry
            rcases LowerRun.le_toNat_of_lower? mem found with same | low
            · exact absurd (Char.toNat_inj.mp same) kelvin
            · exact low

theorem fullLowerBehind_cons_cases (before cs : List Char) (c : Char) :
    ∃ front, fullLowerBehind before (c :: cs) = front ++ fullLowerBehind (c :: before) cs ∧
      (front = lowerChar c ∨
        lowerChar c = [c] ∧ 128 ≤ c.toNat ∧ ∃ d, front = [d] ∧ 128 ≤ d.toNat) := by
  refine ⟨_, rfl, ?_⟩
  split
  · next sigma =>
    subst sigma
    refine .inr ⟨by decide, by decide, ?_⟩
    split
    · exact ⟨_, rfl, by decide⟩
    · exact ⟨_, rfl, by decide⟩
  · exact fullLowerChar_cases c

theorem fullLowerBehind_eq_iff {t : List Char} (ascii : ∀ c ∈ t, c.toNat < 128)
    (before cs : List Char) : fullLowerBehind before cs = t ↔ lower cs = t := by
  induction cs generalizing before t with
  | nil => rfl
  | cons c cs ih =>
    have head : lower (c :: cs) = lowerChar c ++ lower cs := rfl
    obtain ⟨front, behind, same | ⟨own, far, d, one, far'⟩⟩ :=
      fullLowerBehind_cons_cases before cs c
    · rw [behind, head, same]
      constructor
      · rintro rfl
        rw [(ih (fun d mem => ascii d (List.mem_append_right _ mem)) (c :: before)).mp rfl]
      · rintro rfl
        rw [(ih (fun d mem => ascii d (List.mem_append_right _ mem)) (c :: before)).mpr rfl]
    · rw [behind, head, own, one]
      -- Both texts start with a character beyond ASCII, which `t` has none of.
      constructor
      · rintro rfl
        exact absurd (ascii d (.head _)) (by omega)
      · rintro rfl
        exact absurd (ascii c (.head _)) (by omega)

/-- A comparison with ASCII text does not tell the two ways of lower-casing apart. -/
theorem fullLower_eq_iff {t : List Char} (ascii : ∀ c ∈ t, c.toNat < 128) (cs : List Char) :
    fullLower cs = t ↔ lower cs = t :=
  fullLowerBehind_eq_iff ascii [] cs

end BracketCss.Text
