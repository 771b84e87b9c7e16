import BracketCss.Proofs.Class.Cleaned

/-!
# What cleaning loses

A text of more than ten characters is refused if it loses more than half of them. The loss is
counted when the text is tidy but not yet trimmed, so the blanks at its ends are not part of it. In
a tidy text there is at most one at each end, and a long text keeps half of its characters up to
these two.

## Main definitions

* `Clean.blankEnds cs`: the number of ends of a text at which a blank stands

## Main results

* `Clean.length_of_isChain`: trimming a text without two blanks side by side takes one character
  from each end at which a blank stands
* `Clean.clean?_eq_none_iff_of_long`: which long texts are refused, and what is left of the others
-/

namespace BracketCss.Clean

open Text

/-! ## The ends of a text -/

/-- The number of ends of a text at which a blank stands. -/
def blankEnds (cs : List Char) : Nat :=
  (cs.head?.any isBlank).toNat + (cs.getLast?.any isBlank).toNat

theorem blankEnds_le (cs : List Char) : blankEnds cs ≤ 2 :=
  Nat.add_le_add (Bool.toNat_le _) (Bool.toNat_le _)

theorem isBlank_space : isBlank ' ' := by decide

theorem collapse_cons_ne_nil (c : Char) (cs : List Char) : collapse (c :: cs) ≠ [] := by
  induction cs generalizing c with
  | nil => rw [collapse]; split <;> exact List.cons_ne_nil _ _
  | cons d cs ih =>
    rw [collapse]
    split
    · split
      · exact ih d
      · exact List.cons_ne_nil _ _
    · exact List.cons_ne_nil _ _

theorem any_head?_collapse (cs : List Char) :
    (collapse cs).head?.any isBlank = cs.head?.any isBlank := by
  induction cs with
  | nil => rfl
  | cons c cs ih =>
    rw [collapse]
    split
    · next blank =>
      split
      · next next => simp [ih, next, blank]
      · simp [blank, isBlank_space]
    · next solid => simp [solid]

theorem any_getLast?_collapse (cs : List Char) :
    (collapse cs).getLast?.any isBlank = cs.getLast?.any isBlank := by
  induction cs with
  | nil => rfl
  | cons c cs ih =>
    cases cs with
    | nil =>
      rw [collapse]
      split
      · next blank => simp [collapse, blank, isBlank_space]
      · rfl
    | cons d cs =>
      have later (e : Char) : (e :: collapse (d :: cs)).getLast? = (collapse (d :: cs)).getLast? :=
        List.getLast?_cons_of_ne_nil (collapse_cons_ne_nil d cs)
      rw [List.getLast?_cons_cons, ← ih, collapse]
      split
      · split
        · rfl
        · rw [later]
      · rw [later]

/-- Collapsing keeps the ends of a text. -/
theorem blankEnds_collapse (cs : List Char) : blankEnds (collapse cs) = blankEnds cs := by
  rw [blankEnds, any_head?_collapse, any_getLast?_collapse, blankEnds]

/-! ## Trimming a collapsed text -/

/-- Blanks of which no two stand side by side are none or one. -/
theorem length_of_blank_isChain {cs : List Char}
    (chain : cs.IsChain fun c d => ¬ (isBlank c ∧ isBlank d)) (blank : ∀ c ∈ cs, isBlank c) :
    cs.length ≤ 1 := by
  match cs, chain with
  | [], _ => exact Nat.zero_le 1
  | [_], _ => exact Nat.le_refl 1
  | c :: d :: _, chain =>
    exact absurd ⟨blank c (by simp), blank d (by simp)⟩ (List.isChain_cons_cons.1 chain).1

/-- The blanks in front of a text, none or one, are counted by looking at the first character. -/
theorem length_eq_toNat {run core rest : List Char} (short : run.length ≤ 1)
    (blank : ∀ c ∈ run, isBlank c) (solid : ∀ c ∈ core.head?, isBlank c = false)
    (left : core ≠ []) : run.length = ((run ++ (core ++ rest)).head?.any isBlank).toNat := by
  match run, short with
  | [], _ =>
    obtain ⟨c, core, rfl⟩ := List.exists_cons_of_ne_nil left
    simp [solid c rfl]
  | [c], _ => simp [blank c (by simp)]

/-- **Trimming a text without two blanks side by side takes one character from each end at which a
blank stands.** -/
theorem length_of_isChain {cs : List Char}
    (chain : cs.IsChain fun c d => ¬ (isBlank c ∧ isBlank d)) (left : trim cs ≠ []) :
    cs.length = (trim cs).length + blankEnds cs := by
  obtain ⟨lead, trail, same, leadBlank, trailBlank⟩ := Scan.exists_trim cs
  have whole : (lead ++ trim cs ++ trail).IsChain fun c d => ¬ (isBlank c ∧ isBlank d) := by
    rwa [List.append_assoc, ← same]
  have leadShort : lead.length ≤ 1 :=
    length_of_blank_isChain whole.left_of_append.left_of_append leadBlank
  have trailShort : trail.length ≤ 1 :=
    length_of_blank_isChain whole.right_of_append trailBlank
  have first : lead.length = (cs.head?.any isBlank).toNat := by
    conv_rhs => rw [same]
    exact length_eq_toNat leadShort leadBlank (fun _ hc => Scan.not_isBlank_of_head?_trim hc) left
  have last : trail.length = (cs.getLast?.any isBlank).toNat := by
    rw [← List.length_reverse, ← List.head?_reverse]
    conv_rhs => rw [same, List.reverse_append, List.reverse_append, List.append_assoc]
    refine length_eq_toNat (by rwa [List.length_reverse])
      (fun c hc => trailBlank c (List.mem_reverse.1 hc)) (fun c hc => ?_) (by simpa using left)
    rw [List.head?_reverse] at hc
    exact Scan.not_isBlank_of_getLast?_trim hc
  calc cs.length = lead.length + (trim cs).length + trail.length := by
        conv_lhs => rw [same]
        simp only [List.length_append, Nat.add_assoc]
    _ = (trim cs).length + blankEnds cs := by
        rw [blankEnds, first, last]
        omega

/-- A collapsed text of which nothing is left by trimming is one blank, or empty. -/
theorem length_of_trim_eq_nil {cs : List Char}
    (chain : cs.IsChain fun c d => ¬ (isBlank c ∧ isBlank d)) (gone : trim cs = []) :
    cs.length ≤ 1 := by
  obtain ⟨lead, trail, same, leadBlank, trailBlank⟩ := Scan.exists_trim cs
  refine length_of_blank_isChain chain fun c hc => ?_
  rw [same, gone, List.nil_append, List.mem_append] at hc
  exact hc.elim (leadBlank c) (trailBlank c)

/-! ## Long texts -/

/-- The characters of a text that are left to be collapsed. -/
def printed (cs : List Char) : List Char := cs.filter fun c => !isControl c

/-- A long text is shrunk if less than half of it is left, the blanks at its ends included. -/
theorem isShrunk_iff {cs : List Char} (long : shrinkFreeLength < cs.length) :
    isShrunk cs ↔ 2 * ((trim (tidy cs)).length + blankEnds (printed cs)) < cs.length := by
  have chain := isChain_collapse (printed cs)
  rw [isShrunk, Bool.and_eq_true, decide_eq_true_eq, decide_eq_true_eq, and_iff_right long,
    ← blankEnds_collapse]
  by_cases gone : trim (tidy cs) = []
  · have short : (tidy cs).length ≤ 1 := length_of_trim_eq_nil chain gone
    have ends := blankEnds_le (collapse (printed cs))
    rw [gone, List.length_nil]
    rw [shrinkFreeLength] at long
    omega
  · have kept : (tidy cs).length = _ := length_of_isChain chain gone
    rw [kept, tidy, printed]

variable {limit : Int} {s : String}

theorem clean?_eq_none_iff :
    clean? limit s = none ↔ limit < s.toList.length ∨ isShrunk s.toList := by
  simp only [clean?]
  split
  · next beyond => simp [beyond]
  · next within => split <;> simp_all

/-- **A long text is refused if it is over the limit, or if less than half of it is left, the blanks
at its ends included.** So these blanks are all that an accepted text may lose beyond one half. -/
theorem clean?_eq_none_iff_of_long (long : shrinkFreeLength < s.toList.length) :
    (clean? limit s = none ↔ limit < s.toList.length ∨
      2 * ((trim (tidy s.toList)).length + blankEnds (printed s.toList)) < s.toList.length) ∧
    ((∃ r, clean? limit s = some r ∧ 2 * r.toList.length < s.toList.length) ↔
      s.toList.length ≤ limit ∧ 2 * (trim (tidy s.toList)).length < s.toList.length ∧
        s.toList.length ≤
          2 * ((trim (tidy s.toList)).length + blankEnds (printed s.toList))) := by
  have refused := @clean?_eq_none_iff limit s
  rw [isShrunk_iff long] at refused
  refine ⟨refused, ?_⟩
  constructor
  · rintro ⟨r, cleaned, less⟩
    rw [(clean?_eq_some cleaned).1] at less
    have accepted : clean? limit s ≠ none := by simp [cleaned]
    rw [Ne, refused, not_or, not_lt, not_lt] at accepted
    exact ⟨accepted.1, less, accepted.2⟩
  · rintro ⟨within, less, half⟩
    have accepted : clean? limit s ≠ none := by
      rw [Ne, refused, not_or, not_lt, not_lt]
      exact ⟨within, half⟩
    obtain ⟨r, cleaned⟩ := Option.ne_none_iff_exists'.1 accepted
    exact ⟨r, cleaned, by rwa [(clean?_eq_some cleaned).1]⟩

/-- Seven of eleven characters go, the last two of them by trimming. -/
theorem clean?_padded : shrinkFreeLength < "   abcd    ".toList.length ∧
    clean? classLimit "   abcd    " = some "abcd" ∧
    ∃ r, clean? classLimit "   abcd    " = some r ∧
      2 * r.toList.length < "   abcd    ".toList.length :=
  have long : shrinkFreeLength < "   abcd    ".toList.length := by decide
  ⟨long, by decide, (clean?_eq_none_iff_of_long long).2.2 (by decide)⟩

/-- A long text may be cleaned to less than half of it, so what is refused cannot be told by
comparing the cleaned text with the text. -/
theorem exists_cleaned_to_less_than_half : ∃ (limit : Int) (s r : String),
    shrinkFreeLength < s.toList.length ∧ clean? limit s = some r ∧
      2 * r.toList.length < s.toList.length ∧
      ¬ (clean? limit s = none ↔
        limit < s.toList.length ∨ 2 * (trim (tidy s.toList)).length < s.toList.length) :=
  ⟨classLimit, "   abcd    ", "abcd", by decide, by decide, by decide, by decide⟩

end BracketCss.Clean
