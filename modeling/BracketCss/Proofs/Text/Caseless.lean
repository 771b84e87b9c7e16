import BracketCss.Text.Blank
import BracketCss.Text.Case
import BracketCss.Text.Digit
import BracketCss.Text.Letter

/-!
# Characters without case

A class of characters without letters, such as the blanks or the digits, is not touched by
lower-casing: its members stay, and nothing else becomes one of them. So it does not matter
whether a text is searched for such characters before or after it is put into lower case.

## Main definitions

* `IsCaseless p`: lower-casing neither removes nor adds characters of the class

## Main results

* `IsCaseless.of_table`: it takes a look at the characters that change
* `IsCaseless.takeWhile_lower`, `IsCaseless.drop_lower`: the leading characters of a class
* `IsCaseless.cons_of_lower`: the first character of a text
-/

namespace BracketCss.Text

theorem lower_cons (c : Char) (cs : List Char) : lower (c :: cs) = lowerChar c ++ lower cs := rfl

/-- A character stays, or it is one of those that change. -/
theorem lowerChar_cases (c : Char) :
    lowerChar c = [c] ∨ (∃ n < 26, c = Char.ofNat (65 + n) ∧
      lowerChar c = [Char.ofNat (65 + n + 32)]) ∨
      (c = '\u212a' ∧ lowerChar c = ['k']) ∨ (c = '\u0130' ∧ lowerChar c = ['i', '\u0307']) := by
  unfold lowerChar
  split
  · next upper =>
    have low : 65 ≤ c.toNat := upper.1
    have high : c.toNat ≤ 90 := upper.2
    refine .inr (.inl ⟨c.toNat - 65, by omega, ?_, ?_⟩)
    · rw [Nat.add_sub_cancel' low, Char.ofNat_toNat]
    · rw [Nat.add_sub_cancel' low]
  · split
    · next same => exact .inr (.inr (.inl ⟨same, rfl⟩))
    · split
      · next same => exact .inr (.inr (.inr ⟨same, rfl⟩))
      · exact .inl rfl

theorem lowerChar_ne_nil (c : Char) : lowerChar c ≠ [] := by
  rcases lowerChar_cases c with same | ⟨_, -, -, same⟩ | ⟨-, same⟩ | ⟨-, same⟩ <;> rw [same] <;>
    exact List.cons_ne_nil _ _

theorem lower_eq_nil_iff {cs : List Char} : lower cs = [] ↔ cs = [] := by
  cases cs with
  | nil => simp
  | cons c cs => simp [lower_cons, lowerChar_ne_nil]

/-- What a character becomes stays. -/
theorem lowerChar_of_mem_lowerChar {c d : Char} (h : d ∈ lowerChar c) : lowerChar d = [d] := by
  have letters : ∀ n < 26, lowerChar (Char.ofNat (65 + n + 32)) = [Char.ofNat (65 + n + 32)] := by
    decide
  rcases lowerChar_cases c with same | ⟨n, small, -, same⟩ | ⟨-, same⟩ | ⟨-, same⟩ <;>
    rw [same] at h
  · rw [List.mem_singleton.1 h, same]
  · rw [List.mem_singleton.1 h, letters n small]
  · rw [List.mem_singleton.1 h]
    rfl
  · have table : ∀ e ∈ ['i', '\u0307'], lowerChar e = [e] := by decide
    exact table d h

theorem lower_eq_self_of_subset {cs ds : List Char} (h : ds ⊆ lower cs) : lower ds = ds := by
  induction ds with
  | nil => rfl
  | cons d ds ih =>
    obtain ⟨first, others⟩ := List.cons_subset.1 h
    obtain ⟨c, -, mem⟩ := List.mem_flatMap.1 first
    rw [lower_cons, lowerChar_of_mem_lowerChar mem, ih others, List.singleton_append]

/-- What holds of a text holds of it in lower case if the characters that change keep it. -/
theorem forall_lower {p : Char → Bool}
    (letters : ∀ n < 26, p (Char.ofNat (65 + n)) → p (Char.ofNat (65 + n + 32)))
    (signs : p '\u212a' = false ∧ p '\u0130' = false) {cs : List Char} (all : ∀ c ∈ cs, p c) :
    ∀ d ∈ lower cs, p d := by
  intro d hd
  obtain ⟨c, mem, hd⟩ := List.mem_flatMap.1 hd
  have hc := all c mem
  rcases lowerChar_cases c with same | ⟨n, small, rfl, same⟩ | ⟨rfl, -⟩ | ⟨rfl, -⟩
  · rw [same, List.mem_singleton] at hd
    rwa [hd]
  · rw [same, List.mem_singleton] at hd
    rw [hd]
    exact letters n small hc
  · rw [signs.1] at hc
    cases hc
  · rw [signs.2] at hc
    cases hc

/-- Only letters become letters, two of them apart. -/
theorem letter_of_lower {d : Char} (letter : isAsciiLetter d) (other : d ≠ 'k' ∧ d ≠ 'i')
    {cs rest : List Char} (same : lower cs = d :: rest) :
    ∃ c others, cs = c :: others ∧ isAsciiLetter c ∧ lowerChar c = [d] ∧ rest = lower others := by
  cases cs with
  | nil => cases same
  | cons c cs =>
    rw [lower_cons] at same
    have letters : ∀ n < 26, isAsciiLetter (Char.ofNat (65 + n)) := by decide
    rcases lowerChar_cases c with stays | ⟨n, small, rfl, low⟩ | ⟨-, low⟩ | ⟨-, low⟩
    · rw [stays] at same
      obtain ⟨rfl, rfl⟩ := List.cons.inj same
      exact ⟨c, cs, rfl, letter, stays, rfl⟩
    · rw [low] at same
      obtain ⟨rfl, rfl⟩ := List.cons.inj same
      exact ⟨_, cs, rfl, letters n small, low, rfl⟩
    · rw [low] at same
      exact absurd (List.cons.inj same).1.symm other.1
    · rw [low] at same
      exact absurd (List.cons.inj same).1.symm other.2

/-- A class of characters that lower-casing neither removes nor adds. -/
structure IsCaseless (p : Char → Bool) : Prop where
  /-- The members stay. -/
  keep : ∀ c, p c → lowerChar c = [c]
  /-- No other character becomes a member. -/
  others : ∀ c, p c = false → ∀ d ∈ lowerChar c, p d = false

namespace IsCaseless

variable {p : Char → Bool}

/-- It takes a look at the characters that change and at those that they become. -/
theorem of_table
    (letters : ∀ n < 26, p (Char.ofNat (65 + n)) = false ∧ p (Char.ofNat (65 + n + 32)) = false)
    (signs : ∀ c ∈ ['\u212a', 'k', '\u0130', 'i', '\u0307'], p c = false) : IsCaseless p := by
  have changed : ∀ c, lowerChar c = [c] ∨ p c = false ∧ ∀ d ∈ lowerChar c, p d = false := by
    intro c
    rcases lowerChar_cases c with same | ⟨n, small, rfl, low⟩ | ⟨rfl, low⟩ | ⟨rfl, low⟩
    · exact .inl same
    all_goals rw [low]
    · exact .inr ⟨(letters n small).1, List.forall_mem_singleton.2 (letters n small).2⟩
    · exact .inr ⟨signs _ (by simp), List.forall_mem_singleton.2 (signs 'k' (by simp))⟩
    · refine .inr ⟨signs _ (by simp), List.forall_mem_cons.2 ⟨signs 'i' (by simp), ?_⟩⟩
      exact List.forall_mem_singleton.2 (signs '\u0307' (by simp))
  constructor
  · intro c hc
    rcases changed c with same | ⟨other, -⟩
    · exact same
    · rw [hc] at other
      cases other
  · intro c hc d hd
    rcases changed c with same | ⟨-, others⟩
    · rw [same, List.mem_singleton] at hd
      rwa [hd]
    · exact others d hd

/-- A text of members stays as it is. -/
theorem lower_eq_self (h : IsCaseless p) {cs : List Char} (all : ∀ c ∈ cs, p c) :
    lower cs = cs := by
  induction cs with
  | nil => rfl
  | cons c cs ih =>
    obtain ⟨hc, others⟩ := List.forall_mem_cons.1 all
    rw [lower_cons, h.keep c hc, ih others, List.singleton_append]

/-- A text has members only exactly if it does so in lower case. -/
theorem all_lower_iff (h : IsCaseless p) {cs : List Char} :
    (∀ d ∈ lower cs, p d) ↔ ∀ c ∈ cs, p c := by
  refine ⟨fun all c hc => ?_, fun all => by rwa [h.lower_eq_self all]⟩
  cases other : p c with
  | true => rfl
  | false =>
    obtain ⟨d, ds, same⟩ := List.exists_cons_of_ne_nil (lowerChar_ne_nil c)
    have first : d ∈ lowerChar c := same ▸ List.mem_cons_self
    have inside := all d (List.mem_flatMap.2 ⟨c, hc, first⟩)
    rw [h.others c other d first] at inside
    cases inside

/-- A text has no members exactly if it has none in lower case. -/
theorem none_lower_iff (h : IsCaseless p) {cs : List Char} :
    (∀ d ∈ lower cs, p d = false) ↔ ∀ c ∈ cs, p c = false := by
  constructor
  · intro none_ c hc
    cases member : p c with
    | false => rfl
    | true =>
      have kept : c ∈ lower cs := List.mem_flatMap.2 ⟨c, hc, by simp [h.keep c member]⟩
      rw [none_ c kept] at member
      cases member
  · intro none_ d hd
    obtain ⟨c, hc, hd⟩ := List.mem_flatMap.1 hd
    exact h.others c (none_ c hc) d hd

theorem any_lower (h : IsCaseless p) (cs : List Char) : (lower cs).any p = cs.any p := by
  cases none_ : cs.any p with
  | false =>
    rw [List.any_eq_false] at none_ ⊢
    simpa using h.none_lower_iff.2 (by simpa using none_)
  | true =>
    obtain ⟨c, mem, hc⟩ := List.any_eq_true.1 none_
    exact List.any_eq_true.2 ⟨c, List.mem_flatMap.2 ⟨c, mem, by simp [h.keep c hc]⟩, hc⟩

/-- The leading members of a text, and what follows them. -/
theorem takeWhile_lower (h : IsCaseless p) (cs : List Char) :
    (lower cs).takeWhile p = cs.takeWhile p ∧
      (lower cs).drop (cs.takeWhile p).length = lower (cs.drop (cs.takeWhile p).length) := by
  induction cs with
  | nil => exact ⟨rfl, rfl⟩
  | cons c cs ih =>
    rw [lower_cons]
    cases hc : p c with
    | true =>
      rw [h.keep c hc, List.singleton_append, List.takeWhile_cons_of_pos hc,
        List.takeWhile_cons_of_pos hc, ih.1]
      exact ⟨rfl, ih.2⟩
    | false =>
      obtain ⟨d, ds, same⟩ := List.exists_cons_of_ne_nil (lowerChar_ne_nil c)
      have other : ¬ p d := by
        rw [h.others c hc d (same ▸ List.mem_cons_self)]
        exact Bool.false_ne_true
      rw [List.takeWhile_cons_of_neg (by simp [hc]), same, List.cons_append,
        List.takeWhile_cons_of_neg other]
      exact ⟨rfl, by rw [List.length_nil, List.drop_zero, List.drop_zero, lower_cons, same]; rfl⟩

/-- A member stands first in a text exactly if it does so in lower case. -/
theorem cons_of_lower (h : IsCaseless p) {c : Char} (hc : p c) {cs rest : List Char}
    (same : lower cs = c :: rest) : ∃ others, cs = c :: others ∧ rest = lower others := by
  cases cs with
  | nil => cases same
  | cons d cs =>
    rw [lower_cons] at same
    cases hd : p d with
    | true =>
      rw [h.keep d hd, List.singleton_append] at same
      obtain ⟨rfl, rfl⟩ := List.cons.inj same
      exact ⟨cs, rfl, rfl⟩
    | false =>
      obtain ⟨e, es, start⟩ := List.exists_cons_of_ne_nil (lowerChar_ne_nil d)
      have other := h.others d hd e (start ▸ List.mem_cons_self)
      rw [start, List.cons_append] at same
      rw [(List.cons.inj same).1, hc] at other
      cases other

end IsCaseless

theorem isCaseless_isBlank : IsCaseless isBlank := .of_table (by decide) (by decide)

theorem isCaseless_isDecimal : IsCaseless isDecimal := .of_table (by decide) (by decide)

end BracketCss.Text
