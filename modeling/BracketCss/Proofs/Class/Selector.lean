import BracketCss.Class.Basic
import BracketCss.Property.Variant
import BracketCss.Text.Letter

/-!
# Selectors tell class names apart

The identifier of a class name determines the name, whatever state follows it in a selector: an
escaped character is told from a plain one by its backslash, a code point escape by its digits,
and neither is a bare colon, with which every state starts.

## Main results

* `hexNat_toDigits`: a number is read back from its hexadecimal digits
* `identifier_append_inj`: equal selectors have equal class names
* `applyTo_inj`, `applyTo_ofClass_inj`: the same for selectors with a state
-/

namespace BracketCss.Selector

open Text

/-- What may follow an identifier in the selector of a class: nothing, or a colon. -/
def Follows (cs : List Char) : Prop := ∀ c ∈ cs.head?, c = ':'

theorem isHexDigit_digitChar {n : Nat} (h : n < 16) :
    isHexDigit n.digitChar ∧ hexValue n.digitChar = n := by
  have table : ∀ k < 16, isHexDigit k.digitChar ∧ hexValue k.digitChar = k := by decide
  exact table n h

theorem hexNat_append_singleton (digits : List Char) (c : Char) :
    hexNat (digits ++ [c]) = 16 * hexNat digits + hexValue c := by
  simp [hexNat]

theorem isHexDigit_of_mem_toDigits {n : Nat} {c : Char} (h : c ∈ Nat.toDigits 16 n) :
    isHexDigit c := by
  induction n using Nat.strongRecOn with
  | ind n ih =>
    rw [Nat.toDigits_eq_if (by decide)] at h
    split at h
    · next small => rw [List.mem_singleton.1 h]; exact (isHexDigit_digitChar small).1
    · rcases List.mem_append.1 h with h | h
      · exact ih (n / 16) (by omega) h
      · rw [List.mem_singleton.1 h]
        exact (isHexDigit_digitChar (Nat.mod_lt n (by decide))).1

/-- A number is read back from its hexadecimal digits. -/
theorem hexNat_toDigits (n : Nat) : hexNat (Nat.toDigits 16 n) = n := by
  induction n using Nat.strongRecOn with
  | ind n ih =>
    rw [Nat.toDigits_eq_if (by decide)]
    split
    · next small => simp [hexNat, (isHexDigit_digitChar small).2]
    · rw [hexNat_append_singleton, ih (n / 16) (by omega),
        (isHexDigit_digitChar (Nat.mod_lt n (by decide))).2]
      omega

theorem isSpecial_of_isHexDigit {c : Char} (h : isHexDigit c) : isSpecial c = false := by
  have code : c.toNat < 128 := by
    simp only [isHexDigit, Bool.or_eq_true, Bool.and_eq_true, decide_eq_true_eq] at h
    rcases h with (⟨_, h⟩ | ⟨_, h⟩) | ⟨_, h⟩
    all_goals exact Nat.lt_of_le_of_lt h (by decide)
  have table : ∀ n < 128, isHexDigit (Char.ofNat n) → isSpecial (Char.ofNat n) = false := by decide
  have := table c.toNat code
  rw [Char.ofNat_toNat] at this
  exact this h

theorem escapeChar_append_inj {c d : Char} {rest tail : List Char}
    (h : escapeChar c ++ rest = escapeChar d ++ tail) : c = d ∧ rest = tail := by
  have backslash : isSpecial '\\' = true := by decide
  unfold escapeChar at h
  split at h
  -- an escaped character starts with a backslash, which is never left unescaped
  · split at h
    · simpa using h
    · next special plain =>
      rw [← (List.cons.inj h).1, backslash] at plain
      exact absurd rfl plain
  · split at h
    · next plain special =>
      rw [(List.cons.inj h).1, backslash] at plain
      exact absurd rfl plain
    · simpa using h

theorem escapeChar_append_ne {c : Char} {rest tail : List Char} (follows : Follows tail) :
    escapeChar c ++ rest ≠ tail := by
  rintro rfl
  unfold escapeChar at follows
  split at follows
  · exact absurd (follows '\\' rfl) (by decide)
  · next plain =>
    rw [follows c rfl] at plain
    exact plain (by decide)

theorem escapeChars_append_inj {cs ds rest tail : List Char} (hrest : Follows rest)
    (htail : Follows tail) (h : escapeChars cs ++ rest = escapeChars ds ++ tail) : cs = ds := by
  induction cs generalizing ds with
  | nil =>
    cases ds with
    | nil => rfl
    | cons d ds =>
      rw [escapeChars_cons, List.append_assoc] at h
      exact absurd h.symm (escapeChar_append_ne hrest)
  | cons c cs ih =>
    cases ds with
    | nil =>
      rw [escapeChars_cons, List.append_assoc] at h
      exact absurd h (escapeChar_append_ne htail)
    | cons d ds =>
      rw [escapeChars_cons, escapeChars_cons, List.append_assoc, List.append_assoc] at h
      obtain ⟨rfl, same⟩ := escapeChar_append_inj h
      rw [ih same]

theorem codePointEscape_ne_escapeChar (c d : Char) (rest tail : List Char) :
    codePointEscape c ++ rest ≠ escapeChar d ++ tail := by
  obtain ⟨digit, digits, written⟩ := List.exists_cons_of_ne_nil
    (Nat.toDigits_ne_nil (b := 16) (n := c.toNat))
  have hex : isHexDigit digit :=
    isHexDigit_of_mem_toDigits (n := c.toNat) (by rw [written]; exact List.mem_cons_self)
  rw [codePointEscape, written]
  unfold escapeChar
  split
  · next special =>
    intro same
    simp only [List.cons_append, List.nil_append, List.cons.injEq, true_and] at same
    rw [← same.1, isSpecial_of_isHexDigit hex] at special
    cases special
  · next plain =>
    intro same
    simp only [List.cons_append, List.nil_append, List.cons.injEq] at same
    rw [← same.1] at plain
    exact plain (by decide)

theorem codePointEscape_append_inj {c d : Char} {rest tail : List Char}
    (h : codePointEscape c ++ rest = codePointEscape d ++ tail) : c = d ∧ rest = tail := by
  have blank : isHexDigit ' ' = false := by decide
  have taken : ∀ (e : Char) (more : List Char),
      (Nat.toDigits 16 e.toNat ++ ' ' :: more).takeWhile isHexDigit = Nat.toDigits 16 e.toNat := by
    intro e more
    rw [List.takeWhile_append_of_pos fun _ mem => isHexDigit_of_mem_toDigits mem]
    simp [blank]
  simp only [codePointEscape, List.cons_append, List.append_assoc, List.nil_append,
    List.cons.injEq, true_and] at h
  have digits := congrArg (List.takeWhile isHexDigit) h
  rw [taken, taken] at digits
  have code := congrArg hexNat digits
  rw [hexNat_toDigits, hexNat_toDigits] at code
  obtain rfl : c = d := by rw [← Char.ofNat_toNat c, code, Char.ofNat_toNat]
  exact ⟨rfl, (List.cons.inj (List.append_cancel_left h)).2⟩

theorem identifier_append_ne {c : Char} {cs rest tail : List Char} (follows : Follows tail) :
    identifier (c :: cs) ++ rest ≠ tail := by
  rw [identifier, List.append_assoc]
  split
  · rintro rfl
    exact absurd (follows '\\' rfl) (by decide)
  · exact escapeChar_append_ne follows

/-- **The identifier of a class name determines the name**, whatever state follows it. -/
theorem identifier_append_inj {cs ds rest tail : List Char} (hrest : Follows rest)
    (htail : Follows tail) (h : identifier cs ++ rest = identifier ds ++ tail) : cs = ds := by
  cases cs with
  | nil =>
    cases ds with
    | nil => rfl
    | cons d ds => exact absurd h.symm (identifier_append_ne hrest)
  | cons c cs =>
    cases ds with
    | nil => exact absurd h (identifier_append_ne htail)
    | cons d ds =>
      rw [identifier, identifier, List.append_assoc, List.append_assoc] at h
      split at h
      · split at h
        · obtain ⟨rfl, same⟩ := codePointEscape_append_inj h
          rw [escapeChars_append_inj hrest htail same]
        · exact absurd h (codePointEscape_ne_escapeChar _ _ _ _)
      · split at h
        · exact absurd h.symm (codePointEscape_ne_escapeChar _ _ _ _)
        · obtain ⟨rfl, same⟩ := escapeChar_append_inj h
          rw [escapeChars_append_inj hrest htail same]

/-- Every state starts with a colon. -/
theorem follows_pseudo (variants : Variants) :
    Follows ((variants.pseudo.map PseudoClass.selector).getD "").toList := by
  intro c hc
  cases h : variants.pseudo with
  | none => simp [h] at hc
  | some pseudo =>
    rw [h] at hc
    have table : ∀ other ∈ PseudoClass.all, other.selector.toList.head? = some ':' := by decide
    simp only [Option.map_some, Option.getD_some, table pseudo pseudo.mem_all] at hc
    exact (Option.some.inj hc).symm

/-- Equal selectors with a state have equal class names. -/
theorem applyTo_inj {variants others : Variants} {name other : String}
    (h : variants.applyTo (ofClass name) = others.applyTo (ofClass other)) : name = other := by
  have texts := congrArg String.toList h
  simp only [Variants.applyTo, ofClass, escape, String.toList_append, String.toList_ofList,
    List.append_assoc] at texts
  exact String.toList_inj.1 (identifier_append_inj (follows_pseudo variants)
    (follows_pseudo others) (List.append_cancel_left texts))

/-- The states of selectors are told apart by their texts. -/
theorem pseudo_inj {pseudo other : Option PseudoClass}
    (h : (pseudo.map PseudoClass.selector).getD "" = (other.map PseudoClass.selector).getD "") :
    pseudo = other := by
  have table : ∀ a ∈ none :: PseudoClass.all.map some, ∀ b ∈ none :: PseudoClass.all.map some,
      (a.map PseudoClass.selector).getD "" = (b.map PseudoClass.selector).getD "" → a = b := by
    decide +kernel
  have known : ∀ p : Option PseudoClass, p ∈ none :: PseudoClass.all.map some := by
    intro p
    cases p with
    | none => exact List.mem_cons_self
    | some p => exact List.mem_cons_of_mem _ (List.mem_map_of_mem p.mem_all)
  exact table pseudo (known pseudo) other (known other) h

/-- Equal selectors with a state have equal class names and equal states. -/
theorem applyTo_ofClass_inj {variants others : Variants} {name other : String}
    (h : variants.applyTo (ofClass name) = others.applyTo (ofClass other)) :
    name = other ∧ variants.pseudo = others.pseudo := by
  obtain rfl := applyTo_inj h
  refine ⟨rfl, pseudo_inj ?_⟩
  have texts := congrArg String.toList h
  simp only [Variants.applyTo, String.toList_append] at texts
  exact String.toList_inj.1 (List.append_cancel_left texts)

end BracketCss.Selector
