import BracketCss.Proofs.Class.Faithful
import BracketCss.Proofs.Value.Escape
import BracketCss.Sheet.Rule

/-!
# Balanced values

The structure of a text is decided by its quotation marks and parentheses alone. Writing a value in
its normal form keeps all of them in their order, so the declared value of a class passes the check
that its raw value has passed, as far as strings and parentheses go. In a sheet it is balanced
unless it escapes one of them.

## Main definitions

* `Scan.marks cs`: the quotation marks and parentheses of a text

## Main results

* `Scan.isBalanced_marks`: the marks of a text decide whether it is balanced
* `UtilityClass.isBalanced_rule_iff`: when the declared value of a class is balanced in a sheet
-/

namespace BracketCss

open Text

namespace Scan

/-- The quotation marks and parentheses of a text. -/
def marks (cs : List Char) : List Char := cs.filter isStructural

theorem marks_append (xs ys : List Char) : marks (xs ++ ys) = marks xs ++ marks ys :=
  List.filter_append xs ys

theorem marks_of_plain {cs : List Char} (plain : ∀ c ∈ cs, isStructural c = false) :
    marks cs = [] := by
  rw [marks, List.filter_eq_nil_iff]
  intro c hc
  rw [plain c hc]
  exact Bool.false_ne_true

theorem State.IsSound.run_marks {s : State} (h : s.IsSound) (cs : List Char) :
    s.run (marks cs) = s.run cs ∧ (s.StaysUp (marks cs) ↔ s.StaysUp cs) := by
  induction cs generalizing s with
  | nil => exact ⟨rfl, Iff.rfl⟩
  | cons c cs ih =>
    cases mark : isStructural c with
    | true =>
      obtain ⟨same, up⟩ := ih (h.step c)
      rw [marks, List.filter_cons_of_pos mark, staysUp_cons, staysUp_cons]
      exact ⟨same, and_congr_right' up⟩
    | false =>
      obtain ⟨same, up⟩ := ih h
      rw [marks, List.filter_cons_of_neg (by simp [mark]), run_cons, staysUp_cons,
        h.step_plain mark]
      refine ⟨same, Iff.trans up ?_⟩
      exact ⟨fun up => ⟨up.depth, up⟩, fun up => up.2⟩

/-- The marks of a text decide whether it is balanced. -/
theorem isBalanced_marks {cs : List Char} : IsBalanced (marks cs) ↔ IsBalanced cs := by
  obtain ⟨same, up⟩ := State.isSound_initial.run_marks cs
  constructor
  · intro h
    exact ⟨up.1 h.up, same.symm.trans h.closed⟩
  · intro h
    exact ⟨up.2 h.up, same.trans h.closed⟩

/-! ## What is kept of a value -/

theorem marks_trim (cs : List Char) : marks (trim cs) = marks cs := by
  obtain ⟨lead, trail, split_, leadBlank, trailBlank⟩ := exists_trim cs
  have blank : ∀ ds : List Char, (∀ c ∈ ds, isBlank c) → marks ds = [] := fun ds h =>
    marks_of_plain fun c hc => isBlank_structural (h c hc)
  conv_rhs => rw [split_]
  rw [marks_append, marks_append, blank lead leadBlank, blank trail trailBlank, List.nil_append,
    List.append_nil]

end Scan

theorem IsDull.marks_eq_nil {w : List Char} (h : IsDull w) : Scan.marks w = [] := by
  refine Scan.marks_of_plain fun c hc => ?_
  obtain ⟨-, body, dull, rfl | rfl⟩ := h
  · exact isStructural_of_isDullChar (dull c hc)
  · rcases List.mem_append.1 hc with hc | hc
    · exact isStructural_of_isDullChar (dull c hc)
    · rw [List.mem_singleton.1 hc]
      rfl

/-- What is written for a word has its marks. -/
theorem Kept.marks_eq {w u : List Char} (h : Kept w u) : Scan.marks w = Scan.marks u := by
  cases h with
  | dull hw hu => rw [hw.marks_eq_nil, hu.marks_eq_nil]
  | same => rfl
  | @color name args letters known spaces =>
    have lowered := (colorFunctionNames_letters _ known).2
    rw [String.toList_ofList] at lowered
    have plain : ∀ ds : List Char, (∀ c ∈ ds, isAsciiLetter c) → Scan.marks ds = [] :=
      fun ds h => Scan.marks_of_plain fun c hc =>
        isStructural_of_isDullChar (isDullChar_of_isAsciiLetter (h c hc))
    have call : ∀ ds : List Char, Scan.marks ('(' :: (ds ++ [')'])) =
        '(' :: (Scan.marks ds ++ [')']) := by
      intro ds
      rw [Scan.marks, List.filter_cons_of_pos rfl, List.filter_append]
      rfl
    rw [Scan.marks_append, Scan.marks_append, plain name letters, plain _ lowered, call, call,
      Scan.marks_trim]

/-- Gaps between words hold no marks. -/
theorem Laced.marks_eq {words : List (List Char)} {cs : List Char} (h : Laced words cs) :
    Scan.marks cs = words.flatMap Scan.marks := by
  have gaps : ∀ gap : List Char, (∀ c ∈ gap, IsBreak c) → Scan.marks gap = [] := by
    intro gap breaks
    refine Scan.marks_of_plain fun c hc => ?_
    rcases breaks c hc with rfl | rfl <;> rfl
  induction h with
  | nil breaks => exact gaps _ breaks
  | cons w some_ breaks rest ih =>
    rw [Scan.marks_append, gaps _ breaks, Scan.marks_append, ih, List.nil_append, List.flatMap_cons]

namespace UtilityClass

variable {c : UtilityClass}

/-- The value of a faithful class has the marks of its raw value. -/
theorem IsFaithful.marks_value (h : c.IsFaithful) :
    Scan.marks c.value.toList = Scan.marks c.raw.toList := by
  obtain ⟨others, laced, kept, -, -⟩ := h.written
  have raw : Laced (Scan.gapWords c.raw.toList) (' ' :: c.raw.toList) := laced_gapWords h.spaces
  have space : ∀ cs : List Char, Scan.marks (' ' :: cs) = Scan.marks cs := fun cs => rfl
  rw [← space c.value.toList, ← space c.raw.toList, laced.marks_eq, raw.marks_eq]
  generalize Scan.gapWords c.raw.toList = words at kept
  clear laced raw
  induction kept with
  | nil => rfl
  | cons first _ ih => rw [List.flatMap_cons, List.flatMap_cons, first.marks_eq, ih]

/-- The raw value of a class has passed the check. -/
theorem check_raw_of_read {table : PropertyTable} {limits : InputLimits} {token : Json}
    (h : read table limits token = .ok c) : Scan.check (trim c.raw.toList) = .ok () := by
  obtain ⟨_, _, -, -, h⟩ := read_eq_ok h
  obtain ⟨-, _, _, _, _, -, -, h⟩ := ofClean_eq_ok h
  obtain ⟨_, _, _, _, _, -, components, -, rfl⟩ := ofParts_eq_ok h
  exact (Components.ofText_eq_ok components).2.1

/-- **When the declared value of a class is balanced in a sheet.** It is, if it is balanced without
its escapes, and only then; so it is, if none of its quotation marks and parentheses is escaped. -/
theorem isBalanced_rule_iff {limits : InputLimits} {token : Json} {important : Bool}
    {rule : StyleRule} (hread : read .standard limits token = .ok c)
    (hrule : c.rule important = .ok rule) :
    (EscapeState.IsBalanced rule.value.toList ↔
        Scan.IsBalanced (withoutEscapes rule.value.toList)) ∧
      (Scan.HasHarmlessEscapes rule.value.toList → EscapeState.IsBalanced rule.value.toList) := by
  refine ⟨EscapeState.isBalanced_iff, fun harmless => harmless.isBalanced_iff.2 ?_⟩
  obtain ⟨-, -, -, rfl⟩ := rule_eq_ok hrule
  have declared :
      Scan.marks (declaredValue important c.value).toList = Scan.marks c.value.toList := by
    cases important with
    | false => rfl
    | true =>
      rw [declaredValue, if_pos rfl, String.toList_append, Scan.marks_append]
      exact List.append_nil _
  have raw := (Scan.check_eq_ok_iff.1 (check_raw_of_read hread)).1
  rw [← Scan.isBalanced_marks, Scan.marks_trim] at raw
  rw [← Scan.isBalanced_marks, declared, (isFaithful_of_read hread).marks_value]
  exact raw

end UtilityClass

end BracketCss
