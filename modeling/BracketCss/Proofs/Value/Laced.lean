import BracketCss.Proofs.Text.Firm
import BracketCss.Proofs.Value.Uncut

/-!
# Laced texts

A text is words with gaps of spaces and commas between them. Two texts with the same words differ
in their gaps only, and a text is decoded word by word if its words are.

## Main definitions

* `Laced words cs`: a text is words, each after a gap
* `IsSpaced cs`: the only blanks of a text are spaces
* `Solid decode cs`: a text is decoded on its own, whatever follows after a break

## Main results

* `Laced.decoded`: a laced text is decoded word by word
* `Laced.split_mark`, `Laced.split_word`: where a character and a word stand
* `laced_gapWords`: a text is its words, laced
-/

namespace BracketCss

open Text

/-- A space or a comma. -/
def IsBreak (c : Char) : Prop := c = ' ' ∨ c = ','

theorem IsBreak.not_startsEscape {c : Char} (h : IsBreak c) : ¬ StartsEscape c := by
  rcases h with rfl | rfl <;> decide

/-- Words, each after a gap; after the last word there may be another gap. -/
inductive Laced : List (List Char) → List Char → Prop
  /-- No word. -/
  | nil {gap} (breaks : ∀ c ∈ gap, IsBreak c) : Laced [] gap
  /-- A gap, a word, and others. -/
  | cons {gap words cs} (w : List Char) (some_ : gap ≠ []) (breaks : ∀ c ∈ gap, IsBreak c)
      (rest : Laced words cs) : Laced (w :: words) (gap ++ (w ++ cs))

/-- The text is empty, or starts with a break or a closing bracket. -/
def AtBreak (cs : List Char) : Prop := ∀ c ∈ cs.head?, IsBreak c ∨ c = ']'

theorem Laced.isBreak {words : List (List Char)} {c : Char} {cs : List Char}
    (h : Laced words (c :: cs)) : IsBreak c := by
  generalize whole : c :: cs = ds at h
  cases h with
  | nil breaks => exact breaks c (by rw [← whole]; exact List.mem_cons_self)
  | @cons gap words ds w some_ breaks rest =>
    obtain ⟨d, gap, rfl⟩ := List.exists_cons_of_ne_nil some_
    rw [(List.cons.inj whole).1]
    exact breaks d List.mem_cons_self

theorem Laced.atBreak_append {words : List (List Char)} {cs : List Char} (h : Laced words cs)
    {ys : List Char} (hys : AtBreak ys) : AtBreak (cs ++ ys) := by
  cases cs with
  | nil => exact hys
  | cons c cs =>
    intro d hd
    rw [← Option.some.inj hd]
    exact .inl h.isBreak

theorem AtBreak.nil : AtBreak [] := fun c hc => by cases hc

theorem Laced.atBreak {words : List (List Char)} {cs : List Char} (h : Laced words cs) :
    AtBreak cs := by
  simpa using h.atBreak_append .nil

theorem Laced.gap_append {words : List (List Char)} {cs gap : List Char} (h : Laced words cs)
    (breaks : ∀ c ∈ gap, IsBreak c) : Laced words (gap ++ cs) := by
  cases h with
  | nil breaks' => exact .nil (List.forall_mem_append.2 ⟨breaks, breaks'⟩)
  | @cons gap' words cs w some_ breaks' rest =>
    rw [← List.append_assoc]
    exact .cons w (by simp [some_]) (List.forall_mem_append.2 ⟨breaks, breaks'⟩) rest

/-- Laced texts one after the other are laced. -/
theorem Laced.append {words others : List (List Char)} {cs ds : List Char} (h : Laced words cs)
    (h' : Laced others ds) : Laced (words ++ others) (cs ++ ds) := by
  induction h with
  | nil breaks => exact h'.gap_append breaks
  | cons w some_ breaks _ ih =>
    rw [List.append_assoc, List.append_assoc]
    exact .cons w some_ breaks ih

/-- Any break will do in front of a text. -/
theorem Laced.regap {words : List (List Char)} {c d : Char} {cs : List Char}
    (h : Laced words (c :: cs)) (hd : IsBreak d) : Laced words (d :: cs) := by
  generalize whole : c :: cs = ds at h
  cases h with
  | nil breaks =>
    rw [← whole] at breaks
    exact .nil (List.forall_mem_cons.2 ⟨hd, (List.forall_mem_cons.1 breaks).2⟩)
  | @cons gap words ds w some_ breaks rest =>
    obtain ⟨b, gap, rfl⟩ := List.exists_cons_of_ne_nil some_
    obtain ⟨-, rfl⟩ := List.cons.inj whole
    have breaks' : ∀ b ∈ d :: gap, IsBreak b :=
      List.forall_mem_cons.2 ⟨hd, (List.forall_mem_cons.1 breaks).2⟩
    exact .cons w (by simp) breaks' rest

/-- The only blanks of a text are spaces. -/
def IsSpaced (cs : List Char) : Prop := ∀ c ∈ cs, isBlank c → c = ' '

theorem laced_trim {cs : List Char} (spaces : IsSpaced cs) :
    Laced ([trim cs].filter (· ≠ [])) (' ' :: cs) := by
  obtain ⟨lead, trail, same, leadBlank, trailBlank⟩ := Scan.exists_trim cs
  have leadBreaks : ∀ c ∈ lead, IsBreak c := fun c hc =>
    .inl (spaces c (by rw [same]; simp [hc]) (leadBlank c hc))
  have trailBreaks : ∀ c ∈ trail, IsBreak c := fun c hc =>
    .inl (spaces c (by rw [same]; simp [hc]) (trailBlank c hc))
  have leadBreaks' : ∀ c ∈ ' ' :: lead, IsBreak c := List.forall_mem_cons.2 ⟨.inl rfl, leadBreaks⟩
  by_cases empty : trim cs = []
  · rw [List.filter_cons_of_neg (by simp [empty]), List.filter_nil]
    rw [empty, List.nil_append] at same
    rw [same, ← List.cons_append]
    exact .nil (List.forall_mem_append.2 ⟨leadBreaks', trailBreaks⟩)
  · rw [List.filter_cons_of_pos (by simp [empty]), List.filter_nil]
    have laced : Laced [trim cs] (' ' :: lead ++ (trim cs ++ trail)) :=
      .cons (trim cs) (by simp) leadBreaks' (.nil trailBreaks)
    rwa [List.cons_append, ← same] at laced

/-- A text whose only blanks are spaces is its words, laced. -/
theorem laced_gapWords {cs : List Char} (spaces : IsSpaced cs) :
    Laced (Scan.gapWords cs) (' ' :: cs) := by
  -- the rest after a gap character is any shorter text, so the induction is on the length
  induction size : cs.length using Nat.strongRecOn generalizing cs with
  | ind n ih =>
    subst size
    rcases Scan.segmentsFrom_cases Scan.isGap .initial cs with
      whole | ⟨first, c, rest, rfl, hc, -, -, cut⟩
    · have one : Scan.gapWords cs = [trim cs].filter (· ≠ []) := by
        rw [Scan.gapWords, Scan.wordsBy, Scan.parts, Scan.segments, whole]
        rfl
      rw [one]
      exact laced_trim spaces
    · have more : Scan.gapWords (first ++ c :: rest) =
          [trim first].filter (· ≠ []) ++ Scan.gapWords rest := by
        rw [Scan.gapWords, Scan.wordsBy, Scan.parts, Scan.segments, cut, List.map_cons,
          ← List.singleton_append, List.filter_append]
        rfl
      have break_ : IsBreak c := by
        rw [Scan.isGap, Bool.or_eq_true, beq_iff_eq] at hc
        exact hc.elim (fun blank => .inl (spaces c (by simp) blank)) .inr
      have later := ih rest.length (by simp; omega)
        (fun d hd => spaces d (by simp [hd])) rfl
      rw [more]
      exact (laced_trim fun d hd => spaces d (by simp [hd])).append (later.regap break_)

/-- Words with spaces between them. -/
theorem laced_intercalate (words : List (List Char)) :
    Laced words (' ' :: [' '].intercalate words) := by
  have space : ∀ c ∈ [' '], IsBreak c := fun c hc => .inl (List.mem_singleton.1 hc)
  induction words with
  | nil => exact .nil space
  | cons w words ih =>
    cases words with
    | nil =>
      have one : Laced [w] ([' '] ++ (w ++ [])) :=
        .cons w (by simp) space (.nil (List.forall_mem_nil _))
      rw [List.append_nil] at one
      rwa [List.intercalate_singleton]
    | cons v words =>
      have more : Laced (w :: v :: words) ([' '] ++ (w ++ ' ' :: [' '].intercalate (v :: words))) :=
        .cons w (by simp) space ih
      rwa [List.intercalate_cons_cons, List.append_assoc]

/-! ## Decoding -/

section Decoding

variable {decode : List Char → List Char}

/-- A text is decoded on its own, whatever follows after a break. -/
def Solid (decode : List Char → List Char) (cs : List Char) : Prop :=
  ∀ ys, AtBreak ys → decode (cs ++ ys) = decode cs ++ decode ys

/-- A laced text is decoded word by word. -/
theorem Laced.decoded (dec : Decoder decode) {words : List (List Char)} {cs : List Char}
    (h : Laced words cs) (solid : ∀ w ∈ words, Solid decode w) :
    Laced (words.map decode) (decode cs) ∧ Solid decode cs := by
  induction h with
  | nil breaks =>
    have unmarked : ∀ c ∈ _, ¬ StartsEscape c := fun c hc => (breaks c hc).not_startsEscape
    refine ⟨?_, fun ys _ => ?_⟩
    · rw [dec.eq_self unmarked]
      exact .nil breaks
    · rw [dec.append unmarked, dec.eq_self unmarked]
  | @cons gap words cs w some_ breaks rest ih =>
    obtain ⟨laced, solid_cs⟩ := ih fun v hv => solid v (List.mem_cons_of_mem _ hv)
    have plain := dec.append fun c hc => (breaks c hc).not_startsEscape
    have first := solid w List.mem_cons_self
    refine ⟨?_, fun ys hys => ?_⟩
    · rw [plain, first cs rest.atBreak]
      exact .cons _ some_ breaks laced
    · rw [List.append_assoc, List.append_assoc, plain, plain, first _ (rest.atBreak_append hys),
        solid_cs ys hys, first cs rest.atBreak]
      simp only [List.append_assoc]

end Decoding

/-! ## Where a character stands -/

theorem append_eq_append_cons {xs ys before after : List Char} {m : Char}
    (h : xs ++ ys = before ++ m :: after) :
    (∃ rest, xs = before ++ m :: rest ∧ after = rest ++ ys) ∨
      ∃ rest, before = xs ++ rest ∧ ys = rest ++ m :: after := by
  rcases List.append_eq_append_iff.1 h with ⟨rest, h, h'⟩ | ⟨rest, h, h'⟩
  · exact .inr ⟨rest, h, h'⟩
  · cases rest with
    | nil => exact .inr ⟨[], by simpa using h.symm, h'.symm⟩
    | cons c rest =>
      obtain ⟨rfl, same⟩ := List.cons.inj h'
      exact .inl ⟨rest, h, same⟩

/-- A character that is no break stands in one of the words. -/
theorem Laced.split_mark {words : List (List Char)} {cs : List Char} (h : Laced words cs)
    {before after : List Char} {m : Char} (same : cs = before ++ m :: after) (hm : ¬ IsBreak m) :
    ∃ earlier later xs ys lead d rest, words = earlier ++ (xs ++ m :: ys) :: later ∧
      before = lead ++ d :: xs ∧ IsBreak d ∧ after = ys ++ rest ∧ Laced later rest := by
  induction h generalizing before with
  | nil breaks =>
    exact absurd (breaks m (by rw [same]; simp)) hm
  | @cons gap words cs w some_ breaks others ih =>
    rcases append_eq_append_cons same with ⟨rest, inGap, -⟩ | ⟨more, rfl, afterGap⟩
    · exact absurd (breaks m (by rw [inGap]; simp)) hm
    · rcases append_eq_append_cons afterGap with ⟨ys, rfl, rfl⟩ | ⟨more, rfl, afterWord⟩
      -- the mark is in the first word, and the last character of the gap stands before it
      · obtain ⟨lead, d, rfl⟩ := (List.eq_nil_or_concat gap).resolve_left some_
        exact ⟨[], words, more, ys, lead, d, cs, rfl, by simp, breaks d (by simp), rfl, others⟩
      · obtain ⟨earlier, later, xs, ys, lead, d, rest, rfl, rfl, hd, rfl, laced⟩ := ih afterWord
        exact ⟨w :: earlier, later, xs, ys, gap ++ (w ++ lead), d, rest, rfl, by simp, hd, rfl,
          laced⟩

/-- Every word stands in the text after a break. -/
theorem Laced.split_word {earlier later : List (List Char)} {w cs : List Char}
    (h : Laced (earlier ++ w :: later) cs) :
    ∃ lead d rest, cs = lead ++ d :: (w ++ rest) ∧ IsBreak d ∧ Laced later rest := by
  induction earlier generalizing cs with
  | nil =>
    cases h with
    | @cons gap _ cs _ some_ breaks rest =>
      obtain ⟨lead, d, rfl⟩ := (List.eq_nil_or_concat gap).resolve_left some_
      exact ⟨lead, d, cs, by simp, breaks d (by simp), rest⟩
  | cons v earlier ih =>
    cases h with
    | @cons gap _ cs _ some_ breaks others =>
      obtain ⟨lead, d, rest, rfl, hd, laced⟩ := ih others
      exact ⟨gap ++ (v ++ lead), d, rest, by simp, hd, laced⟩

/-- A word without breaks stands before a gap or after it. -/
theorem word_beside_gap {xs word rest ys gap tail : List Char}
    (same : xs ++ (word ++ rest) = ys ++ (gap ++ tail)) (some_ : gap ≠ [])
    (breaks : ∀ c ∈ gap, IsBreak c) (nonempty : word ≠ []) (solid : ∀ c ∈ word, ¬ IsBreak c) :
    (∃ more, ys = xs ++ (word ++ more)) ∨
      ∃ more, xs = ys ++ (gap ++ more) ∧ more ++ (word ++ rest) = tail := by
  obtain ⟨d, gap, rfl⟩ := List.exists_cons_of_ne_nil some_
  obtain ⟨c, word, rfl⟩ := List.exists_cons_of_ne_nil nonempty
  rw [← List.append_assoc, List.cons_append] at same
  rcases append_eq_append_cons same with ⟨more, inside, other⟩ | ⟨more, rfl, -⟩
  · rcases append_eq_append_cons inside with ⟨more, rfl, rfl⟩ | ⟨more, -, inWord⟩
    · rw [List.append_assoc, List.cons_append] at other
      rcases append_eq_append_cons other with ⟨_, inGap, -⟩ | ⟨more, rfl, rfl⟩
      · exact absurd (breaks c (by simp [inGap])) (solid c List.mem_cons_self)
      · exact .inr ⟨more, by simp, rfl⟩
    · exact absurd (breaks d List.mem_cons_self) (solid d (by simp [inWord]))
  · exact .inl ⟨more, by simp⟩

end BracketCss
