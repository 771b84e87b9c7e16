import BracketCss.Proofs.Class.Cleaned
import BracketCss.Proofs.Class.Grammar

/-!
# Suggested names

A name that is not of the form of a class comes back with suggestions of what may have been meant.
They are made of the body alone, which is what is left of the name behind its variants, and none of
them holds a colon in front of its first bracket. So a suggestion never begins with the variants of
the name that it mends, and where it is read as a class, that class has no variants.

## Main definitions

* `IsBody cs`: no colon stands in front of the first bracket

## Main results

* `IsBody.of_mem_formFaults`: whatever is suggested for a body is a body
* `UtilityClass.variants_of_isBody`: a class that is read from a body has no variants
* `UtilityClass.suggestions_of_malformed`: suggestions keep the variants if and only if there are
  none
* `UtilityClass.exists_suggestion_without_variants`: a suggestion that has lost a variant
-/

namespace BracketCss

open Text

/-- No colon stands in front of the first bracket of a text. -/
def IsBody (cs : List Char) : Prop := ':' ∉ cs.takeWhile (· != '[')

instance : DecidablePred IsBody := fun cs =>
  inferInstanceAs (Decidable (':' ∉ cs.takeWhile (· != '[')))

namespace IsBody

variable {cs ds : List Char} {c : Char}

@[simp] theorem nil : IsBody [] := List.not_mem_nil

@[simp] theorem cons_iff : IsBody (c :: cs) ↔ c = '[' ∨ c ≠ ':' ∧ IsBody cs := by
  by_cases bracket : c = '['
  · simp [IsBody, bracket]
  · have kept : (c :: cs).takeWhile (· != '[') = c :: cs.takeWhile (· != '[') :=
      List.takeWhile_cons_of_pos (bne_iff_ne.2 bracket)
    rw [IsBody, kept, List.mem_cons, not_or, or_iff_right bracket, ← ne_eq, ne_comm]
    rfl

theorem of_not_mem (h : ':' ∉ cs) : IsBody cs :=
  fun colon => h ((List.takeWhile_sublist _).subset colon)

theorem not_mem (h : IsBody cs) (unbracketed : '[' ∉ cs) : ':' ∉ cs := by
  have whole : cs.takeWhile (· != '[') = cs := by
    refine List.takeWhile_eq_self_iff.2 fun c hc => bne_iff_ne.2 ?_
    rintro rfl
    exact unbracketed hc
  rwa [IsBody, whole] at h

theorem append (h : IsBody cs) (h' : IsBody ds) : IsBody (cs ++ ds) := by
  induction cs with
  | nil => exact h'
  | cons c cs ih =>
    rw [List.cons_append, cons_iff]
    exact (cons_iff.1 h).imp_right (And.imp_right ih)

/-- What a body starts with is a body. -/
theorem of_append (h : IsBody (cs ++ ds)) : IsBody cs := by
  induction cs with
  | nil => exact nil
  | cons c cs ih =>
    rw [List.cons_append, cons_iff] at h
    exact cons_iff.2 (h.imp_right (And.imp_right ih))

/-- What is left of a body without some characters in front of its bracket is a body. -/
theorem of_append_right (unbracketed : '[' ∉ cs) (h : IsBody (cs ++ ds)) : IsBody ds := by
  induction cs with
  | nil => exact h
  | cons c cs ih =>
    rw [List.mem_cons, not_or] at unbracketed
    rw [List.cons_append, cons_iff] at h
    exact ih unbracketed.2 (h.resolve_left (Ne.symm unbracketed.1)).2

/-- Characters other than the bracket may be left out of a body. -/
theorem filter {p : Char → Bool} (bracket : p '[') (h : IsBody cs) : IsBody (cs.filter p) := by
  induction cs with
  | nil => exact nil
  | cons c cs ih =>
    rcases cons_iff.1 h with rfl | ⟨plain, rest⟩
    · rw [List.filter_cons_of_pos bracket]
      exact cons_iff.2 (.inl rfl)
    · rw [List.filter_cons]
      split
      · exact cons_iff.2 (.inr ⟨plain, ih rest⟩)
      · exact ih rest

theorem takeWhile (h : IsBody cs) (p : Char → Bool) : IsBody (cs.takeWhile p) := by
  rw [← List.takeWhile_append_dropWhile (p := p) (l := cs)] at h
  exact h.of_append

/-- What starts at the first bracket is a body. -/
theorem dropWhile (cs : List Char) : IsBody (cs.dropWhile (· != '[')) := by
  obtain ⟨_, tail, -, after, -, -, stop⟩ := exists_cut cs
  rw [after, IsBody, stop]
  exact List.not_mem_nil

/-! ## Cleaning -/

theorem collapse (h : IsBody cs) : IsBody (Clean.collapse cs) := by
  induction cs with
  | nil => exact nil
  | cons c cs ih =>
    rw [Clean.collapse]
    split
    · next blank =>
      have rest : IsBody cs := by
        rcases cons_iff.1 h with rfl | ⟨-, rest⟩
        · exact absurd blank (by decide)
        · exact rest
      split
      · exact ih rest
      · exact cons_iff.2 (.inr ⟨by decide, ih rest⟩)
    · exact cons_iff.2 ((cons_iff.1 h).imp_right (And.imp_right ih))

theorem trim (h : IsBody cs) : IsBody (Text.trim cs) := by
  obtain ⟨lead, trail, same, leadBlank, -⟩ := Scan.exists_trim cs
  have unbracketed : '[' ∉ lead := fun bracket => absurd (leadBlank '[' bracket) (by decide)
  rw [same] at h
  exact (h.of_append_right unbracketed).of_append

/-- A body is cleaned to a body. -/
theorem of_clean? {limit : Int} {s name : String} (h : IsBody s.toList)
    (cleaned : Clean.clean? limit s = some name) : IsBody name.toList := by
  rw [(Clean.clean?_eq_some cleaned).1]
  exact (h.filter (by decide)).collapse.trim

end IsBody

/-! ## What is suggested -/

section Suggestions

variable {table : PropertyTable} {body : List Char} {fault : FormFault} {t : String}

theorem IsBody.of_bracketed? (h : IsBody body) (unbracketed : '[' ∉ body)
    (found : bracketed? table body = some t) : IsBody t.toList := by
  rw [bracketed?, List.findSome?_eq_some_iff] at found
  obtain ⟨-, n, -, -, found, -⟩ := found
  dsimp only at found
  rw [Option.ite_none_right_eq_some] at found
  obtain ⟨-, rfl⟩ := found.imp_right Option.some.inj
  have utility : IsBody (body.take n) :=
    .of_not_mem fun colon => h.not_mem unbracketed (List.mem_of_mem_take colon)
  simp only [String.toList_append, String.toList_ofList, List.append_assoc]
  exact utility.append (by simp [IsBody])

theorem IsBody.of_bracketFault? (h : IsBody body)
    (found : bracketFault? table body = some (fault, some t)) : IsBody t.toList := by
  unfold bracketFault? at found
  split at found
  · next unbracketed =>
    obtain ⟨-, found⟩ := Prod.mk.inj (Option.some.inj found)
    exact h.of_bracketed? unbracketed found
  · split at found
    · obtain ⟨-, found⟩ := Prod.mk.inj (Option.some.inj found)
      rw [← Option.some.inj found, String.toList_ofList]
      have rest : IsBody ('-' :: body.dropWhile (· != '[')) :=
        cons_iff.2 (.inr ⟨by decide, .dropWhile body⟩)
      exact (h.takeWhile _).append rest
    · split at found
      · obtain ⟨-, found⟩ := Prod.mk.inj (Option.some.inj found)
        rw [← Option.some.inj found, String.toList_ofList]
        exact (h.takeWhile _).append (.of_not_mem (by decide))
      · cases found

/-- **Whatever is suggested for a body is a body.** -/
theorem IsBody.of_mem_formFaults (h : IsBody body)
    (mem : (fault, some t) ∈ formFaults table body) : IsBody t.toList := by
  simp only [formFaults, List.mem_append, Option.mem_toList] at mem
  rcases mem with ((digit | unbalanced) | space) | bracket
  · split at digit <;> simp at digit
  · split at unbalanced
    · rw [List.mem_singleton, Prod.mk.injEq] at unbalanced
      obtain ⟨-, rfl⟩ := (Option.ite_none_right_eq_some.1 unbalanced.2.symm).imp_right
        Option.some.inj
      rw [String.toList_ofList]
      exact h.append (.of_not_mem (by decide))
    · cases unbalanced
  · split at space
    · rw [List.mem_singleton, Prod.mk.injEq] at space
      rw [Option.some.inj space.2, String.toList_ofList]
      exact h.filter (by decide)
    · cases space
  · exact h.of_bracketFault? bracket

end Suggestions

/-! ## Variants -/

section Variants

variable {names : List String} {variants : Variants} {cs : List Char}

theorem Variants.AreNamed.eq_nil_iff (named : AreNamed names variants) :
    names = [] ↔ variants = .plain := by
  cases named <;> simp [Variants.plain]

/-- A text behind variants is no body. -/
theorem not_isBody_front (named : Variants.AreNamed names variants) (nonempty : names ≠ [])
    (rest : List Char) : ¬ IsBody (Variants.front names ++ rest) := by
  obtain ⟨name, more, rfl⟩ := List.exists_cons_of_ne_nil nonempty
  rw [IsBody, not_not, List.takeWhile_append_of_pos named.not_bracket_front]
  simp

/-- A body begins with the variants of a name only if there are none. -/
theorem IsBody.front_isPrefix_iff (h : IsBody cs) (named : Variants.AreNamed names variants) :
    Variants.front names <+: cs ↔ names = [] := by
  constructor
  · rintro ⟨rest, rfl⟩
    by_contra nonempty
    exact not_isBody_front named nonempty rest h
  · rintro rfl
    exact List.nil_prefix

end Variants

namespace UtilityClass

variable {table : PropertyTable} {limits : InputLimits} {names : List String}
  {variants : Variants} {s name : String} {body : List Char}

/-- A name that is a body is written without variants. -/
theorem IsWritten.variants_of_isBody {utility raw : String}
    (h : IsWritten name variants utility raw) (isBody : IsBody name.toList) :
    variants = .plain := by
  obtain ⟨⟨names, named, whole⟩, -, -, -⟩ := h
  rw [whole] at isBody
  rw [← named.eq_nil_iff]
  by_contra nonempty
  exact not_isBody_front named nonempty _ isBody

/-- **A class that is read from a body has no variants.** -/
theorem variants_of_isBody {c : UtilityClass} (isBody : IsBody s.toList)
    (h : read table limits (.string s) = .ok c) : c.variants = .plain := by
  obtain ⟨_, name, same, cleaned, found⟩ := read_eq_ok h
  obtain rfl := Json.string.inj same
  exact (isWritten_of_ofClean found).variants_of_isBody (isBody.of_clean? cleaned)

/-- **What is suggested for a malformed name.** The name consists of variants and a body, and it is
not written with a utility and a raw value. Then it is refused for its form; the suggestions are
those for its body; and each of them begins with the variants of the name, and has them once it is
read, if and only if the name has no variants. -/
theorem suggestions_of_malformed (cleaned : Clean.clean? limits.classLength s = some name)
    (filled : name ≠ "") (harmless : (ThreatReport.ofText name).isBlocking = false)
    (named : Variants.AreNamed names variants) (whole : name.toList = Variants.front names ++ body)
    (isBody : IsBody body) (malformed : ∀ utility raw, ¬ IsWritten name variants utility raw) :
    ∃ failure, read table limits (.string s) = .error failure ∧ failure.code = .invalidForm ∧
      (0 ≤ limits.budget →
        failure.suggestions = (formFaults table body).filterMap (·.2)) ∧
      ∀ t ∈ failure.suggestions, (Variants.front names <+: t.toList ↔ names = []) ∧
        ∀ c, read table limits (.string t) = .ok c → (c.variants = variants ↔ names = []) := by
  have cut : splitVariants name = .ok (variants, body) :=
    splitVariants_eq_ok_iff.2 ⟨names, named, whole, isBody⟩
  have partless : bracketParts? body = none := by
    rw [Option.eq_none_iff_forall_ne_some]
    rintro ⟨utility, raw⟩ parts
    refine malformed (.ofList utility) (.ofList raw) (isWritten_iff.2 ⟨body, cut, ?_⟩)
    rwa [String.toList_ofList, String.toList_ofList]
  have stage : read table limits (.string s) = ofClean table limits name := by
    simp only [read, ofText, cleaned, String.isEmpty_iff, if_neg filled]
  rw [stage, ofClean_of_splitVariants harmless cut]
  split
  · next late =>
    refine ⟨_, rfl, rfl, fun inTime => absurd late (Rat.not_lt.2 inTime), fun t mem => ?_⟩
    cases mem
  · rw [partless]
    refine ⟨_, rfl, rfl, fun _ => rfl, fun t mem => ?_⟩
    obtain ⟨⟨fault, _⟩, listed, rfl⟩ := List.mem_filterMap.1 mem
    have suggested : IsBody t.toList := isBody.of_mem_formFaults listed
    refine ⟨suggested.front_isPrefix_iff named, fun c found => ?_⟩
    rw [variants_of_isBody suggested found, named.eq_nil_iff, eq_comm]

/-- Two variants are gone from what is suggested for a name without brackets. -/
theorem suggestions_of_malformed_hover :
    Clean.clean? InputLimits.standard.classLength " hover:2xl:p-1px" = some "hover:2xl:p-1px" ∧
      (∀ utility raw, ¬ IsWritten "hover:2xl:p-1px" ⟨some .xxl, some .hover⟩ utility raw) ∧
      ∃ failure, read .standard .standard (.string " hover:2xl:p-1px") = .error failure ∧
        failure.suggestions = ["p-[1px]"] ∧ ¬ "hover:2xl:".toList <+: "p-[1px]".toList ∧
        ∀ c, read .standard .standard (.string "p-[1px]") = .ok c →
          c.variants ≠ ⟨some .xxl, some .hover⟩ := by
  have cleaned : Clean.clean? InputLimits.standard.classLength " hover:2xl:p-1px" =
      some "hover:2xl:p-1px" := by decide +kernel
  have harmless : (ThreatReport.ofText "hover:2xl:p-1px").isBlocking = false := by decide +kernel
  have cut : splitVariants "hover:2xl:p-1px" =
      .ok (⟨some .xxl, some .hover⟩, "p-1px".toList) := by decide +kernel
  have malformed : ∀ utility raw,
      ¬ IsWritten "hover:2xl:p-1px" ⟨some .xxl, some .hover⟩ utility raw := by
    intro utility raw written
    obtain ⟨body, again, parts⟩ := isWritten_iff.1 written
    obtain ⟨-, rfl⟩ := Prod.mk.inj (Except.ok.inj (cut.symm.trans again))
    have bracketless : bracketParts? "p-1px".toList = none := by decide
    rw [bracketless] at parts
    cases parts
  have front : Variants.front [PseudoClass.hover.name, Breakpoint.xxl.name] =
      "hover:2xl:".toList := by decide
  obtain ⟨failure, refused, -, made, lost⟩ := @suggestions_of_malformed .standard .standard _ _ _ _
    "p-1px".toList cleaned (by decide) harmless (.pseudoFirst .hover .xxl) (by decide) (by decide)
    malformed
  have suggestions : failure.suggestions = ["p-[1px]"] := by
    rw [made (by decide)]
    decide +kernel
  obtain ⟨begins, reads⟩ := lost "p-[1px]" (by simp [suggestions])
  rw [front] at begins
  exact ⟨cleaned, malformed, failure, refused, suggestions,
    fun kept => by simpa using begins.1 kept,
    fun c found same => by simpa using (reads c found).1 same⟩

/-- A suggestion may be read as a class that has lost the variant of the name that it mends. -/
theorem exists_suggestion_without_variants : ∃ failure c,
    Variants.AreNamed ["hover"] ⟨none, some .hover⟩ ∧
      "hover:p-24px".toList = Variants.front ["hover"] ++ "p-24px".toList ∧
      read .standard .standard (.string "hover:p-24px") = .error failure ∧
      failure.code = .invalidForm ∧ "p-[24px]" ∈ failure.suggestions ∧
      ¬ Variants.front ["hover"] <+: "p-[24px]".toList ∧
      read .standard .standard (.string "p-[24px]") = .ok c ∧
      c.variants ≠ ⟨none, some .hover⟩ :=
  ⟨⟨.invalidForm,
      "Invalid class syntax, expected prefix-[value]: values must be wrapped in brackets",
      some "hover:p-24px", ["p-[24px]"], .nothing⟩,
    ⟨"p-[24px]", "p", "padding", "24px", "24px", ["24px"], false, .length,
      .sides ["24px", "24px", "24px", "24px"], .plain⟩,
    .pseudo .hover, by decide, by decide +kernel, rfl, by decide, by decide, by decide +kernel,
    by decide⟩

end UtilityClass

end BracketCss
