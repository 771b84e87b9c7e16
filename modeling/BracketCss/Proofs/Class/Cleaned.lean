import BracketCss.Proofs.Class.Form
import Mathlib.Data.List.Chain

/-!
# Cleaning is a projection

A cleaned text holds no control character and no two blanks side by side, so cleaning it again
changes nothing. In particular a class that was read is read again from its own name.

## Main results

* `Clean.clean?_of_clean?`: a cleaned text stays as it is
* `UtilityClass.read_name`: a class is read again from its name
-/

namespace BracketCss

open Text

namespace Clean

theorem head?_collapse {cs : List Char} (h : cs.head?.any isBlank = false) :
    (collapse cs).head?.any isBlank = false := by
  cases cs with
  | nil => rfl
  | cons c cs =>
    have solid : isBlank c = false := h
    simp [collapse, solid]

/-- No two blanks stand side by side in a collapsed text. -/
theorem isChain_collapse (cs : List Char) :
    (collapse cs).IsChain fun c d => ¬ (isBlank c ∧ isBlank d) := by
  induction cs with
  | nil => exact List.IsChain.nil
  | cons c cs ih =>
    rw [collapse]
    split
    · split
      · exact ih
      · next last =>
        refine List.isChain_cons.2 ⟨fun d hd both => ?_, ih⟩
        have solid := head?_collapse (Bool.not_eq_true _ ▸ last)
        rw [Option.mem_def.1 hd] at solid
        exact absurd both.2 (by simpa using solid)
    · next solid =>
      exact List.isChain_cons.2 ⟨fun d _ both => solid both.1, ih⟩

theorem collapse_of_isChain {cs : List Char}
    (chain : cs.IsChain fun c d => ¬ (isBlank c ∧ isBlank d)) (spaced : IsSpaced cs) :
    collapse cs = cs := by
  induction cs with
  | nil => rfl
  | cons c cs ih =>
    obtain ⟨apart, chain⟩ := List.isChain_cons.1 chain
    have rest := ih chain fun d hd => spaced d (List.mem_cons_of_mem c hd)
    by_cases blank : isBlank c
    · have alone : cs.head?.any isBlank = false := by
        cases first : cs.head? with
        | none => rfl
        | some d => exact Bool.eq_false_iff.2 fun next => apart d first ⟨blank, next⟩
      rw [collapse, if_pos blank, alone, if_neg Bool.false_ne_true, rest,
        spaced c List.mem_cons_self blank]
    · rw [collapse, if_neg blank, rest]

theorem clean?_eq_some {limit : Int} {s name : String} (h : clean? limit s = some name) :
    name.toList = trim (tidy s.toList) ∧ ¬ limit < s.toList.length := by
  simp only [clean?] at h
  split at h
  · cases h
  · next within =>
    split at h
    · cases h
    · rw [← Option.some.inj h]
      exact ⟨String.toList_ofList, within⟩

/-- A cleaned text is tidy. -/
theorem tidy_of_clean? {limit : Int} {s name : String} (h : clean? limit s = some name) :
    tidy name.toList = name.toList := by
  have printed : name.toList.filter (fun c => !isControl c) = name.toList :=
    List.filter_eq_self.2 fun c hc => by simp [not_isControl_of_clean? h c hc]
  rw [tidy, printed]
  refine collapse_of_isChain ?_ (eq_space_of_clean? h)
  rw [(clean?_eq_some h).1]
  exact List.IsChain.infix (isChain_collapse _) (Scan.infix_trim _)

theorem length_of_clean? {limit : Int} {s name : String} (h : clean? limit s = some name) :
    name.toList.length ≤ s.toList.length := by
  rw [(clean?_eq_some h).1]
  calc (trim (tidy s.toList)).length
      ≤ (tidy s.toList).length := (Scan.infix_trim _).length_le
    _ ≤ (s.toList.filter fun c => !isControl c).length := length_collapse_le _
    _ ≤ s.toList.length := List.length_filter_le _ _

/-- **A cleaned text stays as it is.** -/
theorem clean?_of_clean? {limit : Int} {s name : String} (h : clean? limit s = some name) :
    clean? limit name = some name := by
  have tidied := tidy_of_clean? h
  have trimmed : trim name.toList = name.toList := by
    rw [(clean?_eq_some h).1, Scan.trim_trim]
  have within : ¬ limit < name.toList.length := by
    have shorter := length_of_clean? h
    have bound := (clean?_eq_some h).2
    omega
  have kept : isShrunk name.toList = false := by
    simp only [isShrunk, tidied, Bool.and_eq_false_iff, decide_eq_false_iff_not]
    omega
  simp only [clean?, if_neg within, kept, Bool.false_eq_true, if_false, tidied, trimmed,
    String.ofList_toList]

end Clean

/-- **A class is read again from its name.** -/
theorem UtilityClass.read_name {table : PropertyTable} {limits : InputLimits} {token : Json}
    {c : UtilityClass} (h : read table limits token = .ok c) :
    read table limits (.string c.name) = .ok c := by
  obtain ⟨s, name, rfl, cleaned, found⟩ := read_eq_ok h
  have same := name_of_ofClean found
  have again := Clean.clean?_of_clean? cleaned
  rw [read, ofText, cleaned] at h
  rw [same, read, ofText, again]
  dsimp only at h ⊢
  split at h
  · cases h
  · next full => rw [if_neg full, found]

end BracketCss
