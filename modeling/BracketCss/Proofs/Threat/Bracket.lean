import BracketCss.Proofs.Class.Faithful

/-!
# Threats before a bracket

No word of a threat holds an opening bracket, and no mark is one. So a threat that shows in a text
with a bracket has its word and its mark on the same side of it, and a word of letters, digits and
hyphens has no mark. What stands before the bracket in the name of a class does not matter: of two
classes with the same value both are blocked, or neither is.

## Main results

* `ThreatShape.showsIn_behind_iff`: a shape is found behind a utility if it is found without it
* `ThreatReport.isBlocking_behind`: a utility does not change whether a name is blocked
-/

namespace BracketCss

open Text

namespace ThreatShape

variable {shape : ThreatShape} {front ys : List Char}

/-- A core has no opening bracket. -/
theorem Core.bracket_not_mem (known : shape.IsKnown) {core : List Char} (h : shape.Core core) :
    '[' ∉ core := by
  have spelled {word : String} (letters : ∀ c ∈ word.toList, isAsciiLetter c)
      (same : Spelled word core) : '[' ∉ core := by
    intro mem
    have key : caseKey '[' ∈ word.toList := same ▸ List.mem_map_of_mem mem
    exact absurd (letters _ key) (by decide)
  cases shape with
  | wordThen => exact spelled known.letters h
  | tag => exact h.elim
  | handler =>
    obtain ⟨o, n, name, rfl, ho, hn, -, words⟩ := h
    simp only [List.mem_cons, not_or]
    refine ⟨?_, ?_, fun mem => absurd (words _ mem) (by decide)⟩
    · rintro rfl
      exact absurd ho (by decide)
    · rintro rfl
      exact absurd hn (by decide)
  | injection => exact spelled (List.all_eq_true.1 (by decide)) h

/-- What stands before a bracket does not matter, if it ends in no word character. -/
theorem Before.bracket_iff (known : shape.IsKnown)
    (apart : ∀ c ∈ front.getLast?, isWordChar c = false) :
    shape.Before (front ++ '[' :: ys) ↔ shape.Before ('[' :: ys) := by
  constructor
  · rintro (isTag | ⟨xs, core, blanks, same, hcore, blank, outside⟩)
    · exact .inl isTag
    · have absent : '[' ∉ core ++ blanks := by
        rw [List.mem_append, not_or]
        exact ⟨hcore.bracket_not_mem known, fun mem => absurd (blank _ mem) (by decide)⟩
      rcases List.append_eq_append_iff.1 same with ⟨zs, rfl, inner⟩ | ⟨zs, -, inner⟩
      · cases zs with
        | nil =>
          rw [List.nil_append] at inner
          exact absurd (inner ▸ List.mem_cons_self) absent
        | cons z zs =>
          obtain ⟨rfl, rfl⟩ := List.cons.inj inner
          exact .inr ⟨'[' :: zs, core, blanks, rfl, hcore, blank, fun isHandler c hc =>
            outside isHandler c (mem_of_getLast?_append hc)⟩
      · exact absurd (inner ▸ List.mem_append_right _ List.mem_cons_self) absent
  · exact fun h => h.append apart

/-- **A shape is found behind a utility and a bracket if it is found behind the bracket.** -/
theorem showsIn_behind_iff (known : shape.IsKnown) (letters : ∀ c ∈ front, isAsciiNameChar c)
    (apart : ∀ c ∈ front.getLast?, isWordChar c = false) :
    shape.ShowsIn (front ++ '[' :: ys) ↔ shape.ShowsIn ('[' :: ys) := by
  have other : shape.mark ≠ '[' ∧ isAsciiNameChar shape.mark = false := by
    rcases known.mark with h | h | h | h <;> rw [h] <;> decide
  constructor
  · rintro ⟨before, after, same, hbefore, hafter⟩
    rcases List.append_eq_append_iff.1 same with ⟨zs, rfl, inner⟩ | ⟨zs, rfl, inner⟩
    · cases zs with
      | nil => exact absurd (List.cons.inj inner).1.symm other.1
      | cons z zs =>
        obtain ⟨rfl, rfl⟩ := List.cons.inj inner
        exact ⟨'[' :: zs, after, rfl, (Before.bracket_iff known apart).1 hbefore, hafter⟩
    · cases zs with
      | nil => exact absurd (List.cons.inj inner).1 other.1
      | cons z zs =>
        obtain ⟨rfl, -⟩ := List.cons.inj inner
        have letter := letters shape.mark (by simp)
        rw [other.2] at letter
        cases letter
  · rintro ⟨before, after, same, hbefore, hafter⟩
    exact ⟨front ++ before, after, by rw [same, List.append_assoc], hbefore.append apart, hafter⟩

end ThreatShape

namespace ThreatReport

variable {front ys : List Char}

/-- **A utility does not change whether a name is blocked.** -/
theorem isBlocking_behind (letters : ∀ c ∈ front, isAsciiNameChar c)
    (apart : ∀ c ∈ front.getLast?, isWordChar c = false) :
    (ofText (.ofList (front ++ '[' :: ys))).isBlocking =
      (ofText (.ofList ('[' :: ys))).isBlocking := by
  have plain : ∀ c ∈ front ++ ['['], ¬ StartsEscape c := by
    intro c hc
    rcases List.mem_append.1 hc with mem | mem
    · rintro (rfl | rfl | rfl) <;> exact absurd (letters _ mem) (by decide)
    · rw [List.mem_singleton.1 mem]
      decide
  rw [Bool.eq_iff_iff, isBlocking_ofText, isBlocking_ofText]
  refine exists_congr fun threat => and_congr_right fun blocking => ?_
  obtain ⟨shape, hshape⟩ := threat.exists_shape blocking
  rw [Threat.showsIn_iff_decoders, Threat.showsIn_iff_decoders]
  refine exists_congr fun decode => and_congr_right fun mem => ?_
  have dec := decoder_of_mem mem
  have whole := dec.append plain ys
  have alone := dec.append (fun c hc => plain c (List.mem_append_right _ hc)) ys
  rw [List.append_assoc, List.append_assoc, List.singleton_append, List.singleton_append] at whole
  rw [List.singleton_append, List.singleton_append] at alone
  rw [Threat.occursIn_iff hshape, Threat.occursIn_iff hshape, String.toList_ofList,
    String.toList_ofList, String.toList_ofList, String.toList_ofList, whole, alone]
  exact ThreatShape.showsIn_behind_iff ⟨threat, hshape⟩ letters apart

end ThreatReport

end BracketCss
