import BracketCss.Proofs.Class.Cleaned
import BracketCss.Proofs.Threat.Front

/-!
# Variants are independent of what they wrap

A body is read behind variants as it is read without them. Every stage treats the two alike:
cleaning leaves both as they are, the same threats show in both, the variants are cut off at the
last colon before the bracket, and the rest is the same text. What is read then differs in its name
and its variants only, and a refusal in the name that it is attributed to.

## Main definitions

* `UtilityClass.relabel name variants result`: a result under another name with other variants

## Main results

* `Clean.clean?_inFront`: cleaning leaves variants in front as they are
* `UtilityClass.ofClean_inFront`: a cleaned body with variants in front
* `UtilityClass.read_inFront`: a body is read behind variants as without them
-/

namespace BracketCss

open Text

variable {names : List String} {variants : Variants}

/-! ## Cleaning -/

theorem Variants.AreNamed.printed_front (named : AreNamed names variants) :
    ∀ c ∈ front names, Clean.isControl c = false ∧ isBlank c = false := by
  have table : ∀ name ∈ Variants.names, ∀ c ∈ name.toList,
      Clean.isControl c = false ∧ isBlank c = false := by decide +kernel
  intro c hc
  obtain ⟨name, mem, hc⟩ := List.mem_flatMap.1 hc
  rcases List.mem_append.1 hc with hc | hc
  · exact table name (named.mem_names name mem) c hc
  · rw [List.mem_singleton.1 hc]
    decide

namespace Clean

theorem collapse_append_of_unblank {xs : List Char} (solid : ∀ c ∈ xs, isBlank c = false)
    (cs : List Char) : collapse (xs ++ cs) = xs ++ collapse cs := by
  induction xs with
  | nil => rfl
  | cons x xs ih =>
    obtain ⟨first, rest⟩ := List.forall_mem_cons.1 solid
    rw [List.cons_append, collapse, first, if_neg Bool.false_ne_true, ih rest, List.cons_append]

/-- What holds neither control characters nor blanks stays in front of a text that is tidied. -/
theorem tidy_append_of_printed {xs : List Char}
    (printed : ∀ c ∈ xs, isControl c = false ∧ isBlank c = false) (cs : List Char) :
    tidy (xs ++ cs) = xs ++ tidy cs := by
  have kept : xs.filter (fun c => !isControl c) = xs :=
    List.filter_eq_self.2 fun c hc => by simp [(printed c hc).1]
  rw [tidy, List.filter_append, kept, collapse_append_of_unblank fun c hc => (printed c hc).2,
    ← tidy]

theorem tidy_front (named : Variants.AreNamed names variants) (cs : List Char) :
    tidy (Variants.front names ++ cs) = Variants.front names ++ tidy cs :=
  tidy_append_of_printed named.printed_front cs

/-- **Cleaning leaves variants in front of a clean text as they are.** -/
theorem clean?_inFront {limit : Int} {s : String} (named : Variants.AreNamed names variants)
    (cleaned : clean? limit s = some s) (filled : s ≠ "")
    (within : ¬ limit < (Variants.inFront names s).toList.length) :
    clean? limit (Variants.inFront names s) = some (Variants.inFront names s) := by
  have trimmed : trim (Variants.front names ++ s.toList) = Variants.front names ++ s.toList := by
    have trimmed : trim s.toList = s.toList := by
      rw [(clean?_eq_some cleaned).1, Scan.trim_trim]
    refine trim_eq_self (fun c hc => ?_) fun c hc => ?_
    · cases first : Variants.front names with
      | nil =>
        rw [first, List.nil_append, ← trimmed] at hc
        exact Scan.not_isBlank_of_head?_trim hc
      | cons d ds =>
        rw [first, List.cons_append, List.head?_cons, Option.mem_some_iff] at hc
        exact (named.printed_front c (by simp [first, hc])).2
    · have some_ : s.toList ≠ [] := fun empty => filled (String.toList_eq_nil_iff.1 empty)
      rw [List.getLast?_append_of_ne_nil _ some_, ← trimmed] at hc
      exact Scan.not_isBlank_of_getLast?_trim hc
  have tidied : tidy (Variants.front names ++ s.toList) = Variants.front names ++ s.toList := by
    rw [tidy_front named, tidy_of_clean? cleaned]
  have kept : isShrunk (Variants.front names ++ s.toList) = false := by
    simp only [isShrunk, tidied, Bool.and_eq_false_iff, decide_eq_false_iff_not]
    omega
  rw [Variants.toList_inFront] at within
  simp only [clean?, Variants.toList_inFront, if_neg within, kept, Bool.false_eq_true, if_false,
    tidied, trimmed]
  rw [← Variants.toList_inFront, String.ofList_toList]

end Clean

/-! ## Reading -/

namespace UtilityClass

variable {table : PropertyTable} {limits : InputLimits}

/-- What was read, under another name and with other variants; a refusal is attributed to the other
name. -/
def relabel (name : String) (variants : Variants) :
    Except Failure UtilityClass → Except Failure UtilityClass
  | .ok c => .ok { c with name := name, variants := variants }
  | .error failure => .error (failure.withClass name)

/-- Neither the name nor the variants matter to a value. -/
theorem ofParts_relabel (name other : String) (variants others : Variants)
    (utility raw : List Char) :
    ofParts table limits name variants utility raw =
      relabel name variants (ofParts table limits other others utility raw) := by
  simp only [ofParts]
  split
  · rfl
  · split
    · split
      · rfl
      · split <;> rfl
    · rfl

/-- A cleaned body with variants in front. -/
theorem ofClean_inFront (named : Variants.AreNamed names variants) {body : String}
    (plain : ':' ∉ body.toList.takeWhile (· != '[')) :
    ofClean table limits (Variants.inFront names body) =
      relabel (Variants.inFront names body) variants (ofClean table limits body) := by
  have report := ThreatReport.ofText_inFront named body
  cases blocked : (ThreatReport.ofText body).isBlocking with
  | true =>
    simp only [ofClean, report, blocked, if_true]
    rfl
  | false =>
    have cut : splitVariants (Variants.inFront names body) = .ok (variants, body.toList) :=
      splitVariants_eq_ok_iff.2 ⟨names, named, Variants.toList_inFront names body, plain⟩
    have alone : splitVariants body = .ok (.plain, body.toList) :=
      splitVariants_eq_ok_iff.2 ⟨[], .plain, rfl, plain⟩
    have passed : (ThreatReport.ofText (Variants.inFront names body)).isBlocking = false := by
      rw [report, blocked]
    rw [ofClean_of_splitVariants passed cut, ofClean_of_splitVariants blocked alone]
    split
    · rfl
    · cases bracketParts? body.toList with
      | some parts => exact ofParts_relabel _ _ _ _ _ _
      | none => rfl

theorem read_inFront_eq (named : Variants.AreNamed names variants) {body : String}
    (cleaned : Clean.clean? limits.classLength body = some body) (filled : body ≠ "")
    (plain : ':' ∉ body.toList.takeWhile (· != '['))
    (within : (Variants.inFront names body).toList.length ≤ limits.classLength) :
    read table limits (.string (Variants.inFront names body)) =
      relabel (Variants.inFront names body) variants (read table limits (.string body)) := by
  have again := Clean.clean?_inFront named cleaned filled (by omega)
  have filled' : Variants.inFront names body ≠ "" := by
    intro empty
    have chars := congrArg String.toList empty
    rw [Variants.inFront, String.toList_append] at chars
    exact filled (String.toList_eq_nil_iff.1 (List.append_eq_nil_iff.1 chars).2)
  simp only [read, ofText, cleaned, again, String.isEmpty_iff, if_neg filled, if_neg filled']
  exact ofClean_inFront named plain

/-- **A body is read behind variants as without them.** Both are read or neither is; what is read
differs in the name, with the selector that it determines, and in the variants only; and a refusal
in the name only. -/
theorem read_inFront (named : Variants.AreNamed names variants) {body : String}
    (cleaned : Clean.clean? limits.classLength body = some body) (filled : body ≠ "")
    (plain : ':' ∉ body.toList.takeWhile (· != '['))
    (within : (Variants.inFront names body).toList.length ≤ limits.classLength) :
    ((∃ c, read table limits (.string (Variants.inFront names body)) = .ok c) ↔
        ∃ c, read table limits (.string body) = .ok c) ∧
      (∀ c d, read table limits (.string (Variants.inFront names body)) = .ok c →
        read table limits (.string body) = .ok d →
          c = { d with name := Variants.inFront names body, variants := variants }) ∧
      ∀ failure alone, read table limits (.string (Variants.inFront names body)) = .error failure →
        read table limits (.string body) = .error alone →
          failure = alone.withClass (Variants.inFront names body) := by
  rw [read_inFront_eq named cleaned filled plain within]
  cases read table limits (.string body) with
  | ok d =>
    refine ⟨⟨fun _ => ⟨d, rfl⟩, fun _ => ⟨_, rfl⟩⟩, ?_, ?_⟩
    · rintro c _ ⟨⟩ ⟨⟩
      rfl
    · rintro _ _ ⟨⟩
  | error alone =>
    refine ⟨⟨?_, ?_⟩, ?_, ?_⟩
    · rintro ⟨_, ⟨⟩⟩
    · rintro ⟨_, ⟨⟩⟩
    · rintro _ _ ⟨⟩
    · rintro failure _ ⟨⟩ ⟨⟩
      rfl

/-- A body behind a pseudo-class and a breakpoint. -/
theorem read_inFront_hover : ∃ c, read .standard .standard (.string "hover:2xl:p-[1px]") = .ok c ∧
    c.name = "hover:2xl:p-[1px]" ∧ c.value = "1px" ∧ c.variants = ⟨some .xxl, some .hover⟩ := by
  have alone : read .standard .standard (.string "p-[1px]") =
      .ok ⟨"p-[1px]", "p", "padding", "1px", "1px", ["1px"], false, .length,
        .sides ["1px", "1px", "1px", "1px"], .plain⟩ := by decide +kernel
  have whole : Variants.inFront [PseudoClass.hover.name, Breakpoint.xxl.name] "p-[1px]" =
      "hover:2xl:p-[1px]" := by decide +kernel
  obtain ⟨both, alike, -⟩ := @read_inFront _ _ .standard .standard (.pseudoFirst .hover .xxl)
    "p-[1px]" (by decide +kernel) (by decide) (by decide) (by decide +kernel)
  obtain ⟨c, found⟩ := both.2 ⟨_, alone⟩
  obtain rfl := alike c _ found alone
  rw [whole] at found
  exact ⟨_, found, whole, rfl, rfl⟩

end UtilityClass

end BracketCss
