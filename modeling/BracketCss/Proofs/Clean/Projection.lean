import BracketCss.Proofs.Clean.Loss

/-!
# Clean texts

Cleaning leaves a text as it is if it holds no control characters and if its blanks are single
spaces, each between two other characters. Whatever is cleaned becomes such a text, so that cleaning
is a projection onto the clean texts within the limit; and a text is called unclean if and only if
it is none of them.

## Main definitions

* `Clean.isAsciiControl c`: a control character, the tab and the line breaks among them
* `Clean.IsClean cs`: the texts that are left as they are

## Main results

* `Clean.isClean_trim_tidy`: a text is clean once it is tidy and trimmed
* `Clean.isUnclean_eq_false_iff_isClean`: the clean texts are those that are not called unclean
* `Clean.clean?_projection`: cleaning is a projection onto the clean texts
-/

namespace BracketCss.Clean

open Text

/-- An ASCII control character. -/
def isAsciiControl (c : Char) : Bool := c.toNat < 32 || c.toNat == 127

/-- A text without control characters whose blanks are single spaces inside. -/
structure IsClean (cs : List Char) : Prop where
  /-- There are no control characters. -/
  printed : ∀ c ∈ cs, isAsciiControl c = false
  /-- A blank is a space, and the characters on either side of it are no blanks. -/
  single : ∀ before c after, cs = before ++ c :: after → isBlank c →
    c = ' ' ∧ (∃ b ∈ before.getLast?, isBlank b = false) ∧ ∃ d ∈ after.head?, isBlank d = false

variable {c : Char} {cs : List Char}

/-! ## Control characters -/

theorem isAsciiControl_of_isControl (h : isControl c) : isAsciiControl c := by
  simp only [isControl, isAsciiControl, Bool.or_eq_true, Bool.and_eq_true, decide_eq_true_eq,
    beq_iff_eq] at h ⊢
  omega

/-- The control characters that are not removed are blanks. -/
theorem isControl_or_isBlank (h : isAsciiControl c) : isControl c ∨ isBlank c := by
  simp only [isAsciiControl, isControl, isBlank, Bool.or_eq_true, Bool.and_eq_true,
    decide_eq_true_eq, beq_iff_eq] at h ⊢
  omega

/-- A tidy text holds no control character: they are removed or become spaces. -/
theorem not_isAsciiControl_of_mem_tidy (h : c ∈ tidy cs) : isAsciiControl c = false := by
  rw [Bool.eq_false_iff]
  intro control
  have space : c = ' ' := by
    rcases isControl_or_isBlank control with removed | blank
    · refine (mem_of_mem_collapse h).resolve_right fun kept => ?_
      simp [removed] at kept
    · exact eq_space_of_mem_collapse h blank
  rw [space] at control
  exact absurd control (by decide)

/-! ## Neighbours -/

/-- The blanks of a text without two of them side by side and without one at its end have a
neighbour behind them that is none. -/
theorem exists_head?_not_isBlank {before after : List Char}
    (chain : (before ++ c :: after).IsChain fun c d => ¬ (isBlank c ∧ isBlank d))
    (last : ∀ d ∈ (before ++ c :: after).getLast?, isBlank d = false) (blank : isBlank c) :
    ∃ d ∈ after.head?, isBlank d = false := by
  cases after with
  | nil =>
    have solid := last c (by simp)
    rw [blank] at solid
    cases solid
  | cons d after =>
    refine ⟨d, rfl, ?_⟩
    have apart := (List.isChain_append_cons_cons.1 chain).2.1
    exact Bool.eq_false_iff.2 fun next => apart ⟨blank, next⟩

/-- In the same way, they have one in front of them. -/
theorem exists_getLast?_not_isBlank {before after : List Char}
    (chain : (before ++ c :: after).IsChain fun c d => ¬ (isBlank c ∧ isBlank d))
    (first : ∀ d ∈ (before ++ c :: after).head?, isBlank d = false) (blank : isBlank c) :
    ∃ b ∈ before.getLast?, isBlank b = false := by
  rcases List.eq_nil_or_concat' before with rfl | ⟨front, b, rfl⟩
  · have solid := first c rfl
    rw [blank] at solid
    cases solid
  · refine ⟨b, by simp, ?_⟩
    rw [List.append_assoc, List.singleton_append] at chain
    have apart := (List.isChain_append_cons_cons.1 chain).2.1
    exact Bool.eq_false_iff.2 fun previous => apart ⟨previous, blank⟩

/-! ## Clean texts -/

/-- **A text is clean once it is tidy and trimmed.** -/
theorem isClean_trim_tidy (cs : List Char) : IsClean (trim (tidy cs)) := by
  have subset := Scan.trim_subset (tidy cs)
  -- trimming cuts at the ends only, so what collapsing has made of the blanks inside is kept
  have chain : (trim (tidy cs)).IsChain fun c d => ¬ (isBlank c ∧ isBlank d) :=
    List.IsChain.infix (isChain_collapse _) (Scan.infix_trim _)
  constructor
  · intro c hc
    exact not_isAsciiControl_of_mem_tidy (subset hc)
  · intro before c after whole blank
    have mem : c ∈ trim (tidy cs) := by
      rw [whole]
      exact List.mem_append_right _ List.mem_cons_self
    refine ⟨eq_space_of_mem_collapse (subset mem) blank, ?_, ?_⟩
    · refine exists_getLast?_not_isBlank (whole ▸ chain) ?_ blank
      rw [← whole]
      exact fun d hd => Scan.not_isBlank_of_head?_trim hd
    · refine exists_head?_not_isBlank (whole ▸ chain) ?_ blank
      rw [← whole]
      exact fun d hd => Scan.not_isBlank_of_getLast?_trim hd

/-- No two blanks of a clean text stand side by side. -/
theorem IsClean.isChain (h : IsClean cs) :
    cs.IsChain fun c d => ¬ (isBlank c ∧ isBlank d) := by
  rw [List.isChain_iff_forall_rel_of_append_cons_cons]
  rintro c d before after whole ⟨blank, next⟩
  obtain ⟨-, -, e, head, solid⟩ := h.single before c (d :: after) whole blank
  obtain rfl := Option.some.inj head
  rw [next] at solid
  cases solid

/-- No blank stands at an end of a clean text. -/
theorem IsClean.trim_eq (h : IsClean cs) : trim cs = cs := by
  refine trim_eq_self (fun c hc => ?_) fun c hc => ?_
  · rw [Bool.eq_false_iff]
    intro blank
    obtain ⟨after, whole⟩ := List.head?_eq_some_iff.1 hc
    obtain ⟨-, ⟨b, absent, -⟩, -⟩ := h.single [] c after whole blank
    cases absent
  · rw [Bool.eq_false_iff]
    intro blank
    obtain ⟨before, whole⟩ := List.getLast?_eq_some_iff.1 hc
    obtain ⟨-, -, d, absent, -⟩ := h.single before c [] whole blank
    cases absent

theorem IsClean.tidy_eq (h : IsClean cs) : tidy cs = cs := by
  have kept : cs.filter (fun c => !isControl c) = cs := by
    refine List.filter_eq_self.2 fun c hc => ?_
    rw [Bool.not_eq_true', Bool.eq_false_iff]
    intro control
    have other := h.printed c hc
    rw [isAsciiControl_of_isControl control] at other
    cases other
  have spaced : IsSpaced cs := by
    intro c hc blank
    obtain ⟨before, after, whole⟩ := List.append_of_mem hc
    exact (h.single before c after whole blank).1
  rw [tidy, kept, collapse_of_isChain h.isChain spaced]

/-- **The clean texts are those that are not called unclean.** -/
theorem isUnclean_eq_false_iff_isClean {s : String} : isUnclean s = false ↔ IsClean s.toList := by
  rw [isUnclean, bne_eq_false_iff_eq]
  constructor
  · intro same
    rw [same]
    exact isClean_trim_tidy s.toList
  · intro clean
    rw [clean.tidy_eq, clean.trim_eq]

/-- A clean text has lost nothing. -/
theorem IsClean.isShrunk_eq (h : IsClean cs) : isShrunk cs = false := by
  simp only [isShrunk, h.tidy_eq, Bool.and_eq_false_iff, decide_eq_false_iff_not]
  omega

theorem clean?_of_isClean {limit : Int} {s : String} (h : IsClean s.toList)
    (within : s.toList.length ≤ limit) : clean? limit s = some s := by
  rw [clean?, if_neg (Int.not_lt.2 within), h.isShrunk_eq, if_neg Bool.false_ne_true, h.tidy_eq,
    h.trim_eq, String.ofList_toList]

/-- **Cleaning is a projection onto the clean texts**: what it yields is clean and stays as it is,
and of the texts within the limit it leaves those as they are that are not called unclean. -/
theorem clean?_projection (limit : Int) (s : String) :
    (∀ r, clean? limit s = some r →
      IsClean r.toList ∧ isUnclean r = false ∧ clean? limit r = some r) ∧
    (s.toList.length ≤ limit → (isUnclean s = false ↔ clean? limit s = some s)) := by
  have projected : ∀ r, clean? limit s = some r → IsClean r.toList := by
    intro r cleaned
    rw [(clean?_eq_some cleaned).1]
    exact isClean_trim_tidy s.toList
  constructor
  · intro r cleaned
    have clean := projected r cleaned
    exact ⟨clean, isUnclean_eq_false_iff_isClean.2 clean, clean?_of_clean? cleaned⟩
  · intro within
    rw [isUnclean_eq_false_iff_isClean]
    constructor
    · intro clean
      exact clean?_of_isClean clean within
    · intro fixed
      exact projected s fixed

/-- Control characters inside a run of blanks, and blanks of other scripts at the ends. -/
theorem clean?_projection_tab : clean? classLimit "\u2003a\t\x07\x0b b\u00a0" = some "a b" ∧
    IsClean "a b".toList ∧ clean? classLimit "a b" = some "a b" ∧
    isUnclean "\u2003a\t\x07\x0b b\u00a0" = true := by
  have cleaned : clean? classLimit "\u2003a\t\x07\x0b b\u00a0" = some "a b" := by decide
  obtain ⟨projected, told⟩ := clean?_projection classLimit "\u2003a\t\x07\x0b b\u00a0"
  obtain ⟨clean, -, again⟩ := projected "a b" cleaned
  refine ⟨cleaned, clean, again, ?_⟩
  rw [← Bool.not_eq_false, told (by decide), cleaned]
  decide

end BracketCss.Clean
