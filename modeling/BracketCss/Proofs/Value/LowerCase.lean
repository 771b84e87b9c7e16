import BracketCss.Proofs.Value.Trimmed

/-!
# Values in lower case

Lower-casing does not change how a value is read. Quotes, parentheses, blanks, digits and signs have
no case, and no other character turns into one of them; so a value in lower case is cut at the same
places, its words are the words in lower case, and a dimension has the same number and unit. With
the letters of every script in lower case the words differ in letters beyond ASCII at most.

## Main definitions

* `Dimension.lowered d`: a dimension in lower case

## Main results

* `Scan.State.IsSound.run_lower`: the same is open at the end
* `Scan.topWords_lower`: the words in lower case
* `Scan.callOf?_var_lower`: only a reference becomes a reference
* `Scan.isWord_fullLower`: a word in lower case is a word, in every script
* `Dimension.ofChars?_lower`, `Dimension.normalized_eq_lower`: the dimension in lower case
-/

namespace BracketCss

open Text

/-! ## Words -/

namespace Scan

theorem isCaseless_isStructural : IsCaseless isStructural := .of_table (by decide) (by decide)

variable {s : State}

theorem State.IsSound.run_lowerChar (sound : s.IsSound) (c : Char) :
    s.run (lowerChar c) = s.step c := by
  cases plain : isStructural c with
  | true =>
    rw [isCaseless_isStructural.keep c plain]
    rfl
  | false =>
    rw [sound.run_plain (isCaseless_isStructural.others c plain), sound.step_plain plain]

/-- A text in lower case leaves the same open. -/
theorem State.IsSound.run_lower (sound : s.IsSound) (cs : List Char) :
    s.run (lower cs) = s.run cs := by
  induction cs generalizing s with
  | nil => rfl
  | cons c cs ih =>
    rw [lower_cons, State.run_append, sound.run_lowerChar, ih (sound.step c), State.run_cons]

theorem isClosed_lower (cs : List Char) : IsClosed (lower cs) ↔ IsClosed cs := by
  rw [IsClosed, State.isSound_initial.run_lower, IsClosed]

section Segments

variable {separator : Char → Bool}

theorem segmentsFrom_lower (caseless : IsCaseless separator) (sound : s.IsSound)
    (cs : List Char) :
    segmentsFrom separator s (lower cs) =
      (lower (segmentsFrom separator s cs).1, (segmentsFrom separator s cs).2.map lower) := by
  induction cs generalizing s with
  | nil => rfl
  | cons c cs ih =>
    rw [lower_cons]
    cases here : s.isTop && !isStructural c && separator c with
    | true =>
      simp only [Bool.and_eq_true, Bool.not_eq_true'] at here
      obtain ⟨⟨top, structural⟩, hc⟩ := here
      obtain rfl := (State.isTop_iff s).1 top
      rw [caseless.keep c hc, List.singleton_append, segmentsFrom_separator hc structural,
        segmentsFrom_separator hc structural, segments, ih sound]
      rfl
    | false =>
      rw [segmentsFrom_step here, lower_cons]
      by_cases kept : isStructural c ∨ separator c
      · have same : lowerChar c = [c] :=
          kept.elim (isCaseless_isStructural.keep c) (caseless.keep c)
        rw [same, List.singleton_append, segmentsFrom_step here, ih (sound.step c)]
        rfl
      · simp only [not_or, Bool.not_eq_true] at kept
        have solid : ∀ d ∈ lowerChar c, separator d = false ∧ isStructural d = false :=
          fun d hd => ⟨caseless.others c kept.2 d hd, isCaseless_isStructural.others c kept.1 d hd⟩
        rw [segmentsFrom_solid_append sound solid, sound.step_plain kept.1, ih sound]

theorem segments_lower (caseless : IsCaseless separator) (cs : List Char) :
    segments separator (lower cs) = (segments separator cs).map lower := by
  rw [segments, segmentsFrom_lower caseless State.isSound_initial]
  rfl

end Segments

theorem trim_lower (cs : List Char) : trim (lower cs) = lower (trim cs) := by
  obtain ⟨lead, trail, same, leadBlank, trailBlank⟩ := exists_trim cs
  have trimmed : trim (lower (trim cs)) = lower (trim cs) := by
    by_cases nothing : trim cs = []
    · rw [nothing]
      rfl
    · have bare := (IsBare.of_trim (trim_trim cs) nothing).lower
      exact trim_eq_self bare.first bare.last
  conv_lhs => rw [same, lower_append, lower_append]
  exact trim_between (isCaseless_isBlank.all_lower_iff.2 leadBlank) trimmed
    (isCaseless_isBlank.all_lower_iff.2 trailBlank)

/-- The words of a text in lower case are its words in lower case. -/
theorem topWords_lower (cs : List Char) : topWords (lower cs) = (topWords cs).map lower := by
  have trims : trim ∘ lower = lower ∘ trim := funext trim_lower
  rw [topWords, parts, segments_lower isCaseless_isBlank, List.map_map, trims, ← List.map_map,
    List.filter_map, topWords, parts]
  congr 2
  funext w
  simp [lower_eq_nil_iff]

/-! ## References -/

theorem untilClosed_lower (sound : s.IsSound) (inside : 0 < s.depth) (cs : List Char) :
    untilClosed s (lower cs) =
      (untilClosed s cs).map fun found => (lower found.1, lower found.2) := by
  induction cs generalizing s with
  | nil => rfl
  | cons c cs ih =>
    rw [lower_cons]
    cases plain : isStructural c with
    | true =>
      have same := isCaseless_isStructural.keep c plain
      rw [same, List.singleton_append, untilClosed, untilClosed]
      split
      · rfl
      · next deeper =>
        have inside' : 0 < (s.step c).depth := by
          have := (State.step_of_inside inside c).1
          omega
        rw [ih (sound.step c) inside', Option.map_map, Option.map_map]
        congr 1
        funext found
        simp [lower_cons, same]
    | false =>
      have stays := sound.step_plain plain
      rw [untilClosed_plain_append sound inside (isCaseless_isStructural.others c plain),
        ih sound inside, untilClosed, stays, if_neg (by omega), Option.map_map, Option.map_map]
      rfl

/-- Only a reference to a custom property becomes one in lower case. -/
theorem callOf?_var_lower {cs : List Char} (h : (callOf? ["var"] (lower cs)).isSome) :
    (callOf? ["var"] cs).isSome := by
  obtain ⟨call, found⟩ := Option.isSome_iff_exists.1 h
  obtain ⟨called, named⟩ := Option.filter_eq_some_iff.1 found
  obtain ⟨name, after, same, written, -, -, blank, closed⟩ := call?_eq_some called
  obtain rfl : name = ['v', 'a', 'r'] := by
    have inside : name ⊆ lower cs := by
      rw [same]
      exact List.subset_append_left _ _
    have low : lower name = name := lower_eq_self_of_subset inside
    have var : call.name = "var" := by simpa using named
    rw [low, var] at written
    rw [← @String.toList_ofList name, ← written]
    rfl
  obtain ⟨v, _, rfl, vLetter, vLow, same₁⟩ := letter_of_lower (by decide) (by decide) same
  obtain ⟨a, _, rfl, aLetter, aLow, same₂⟩ := letter_of_lower (by decide) (by decide) same₁.symm
  obtain ⟨r, _, rfl, rLetter, rLow, same₃⟩ := letter_of_lower (by decide) (by decide) same₂.symm
  obtain ⟨cs, rfl, rest⟩ := isCaseless_isStructural.cons_of_lower (by decide) same₃.symm
  rw [rest, untilClosed_lower (fun q hq => by cases hq) (by decide)] at closed
  obtain ⟨⟨arguments, after'⟩, closed', parts_⟩ := Option.map_eq_some_iff.1 closed
  obtain ⟨-, rfl⟩ := Prod.mk.inj parts_
  have nameLike : ∀ c ∈ [v, a, r], isAsciiNameChar c := by
    simp [isAsciiNameChar, isAsciiAlphanumeric, vLetter, aLetter, rLetter]
  have call' := call?_of_untilClosed (by simpa using vLetter) nameLike closed'
    (isCaseless_isBlank.all_lower_iff.1 blank)
  have low : lower [v, a, r] = "var".toList := by
    simp [lower_cons, vLow, aLow, rLow]
  rw [low, String.ofList_toList] at call'
  rw [callOf?, show v :: a :: r :: '(' :: cs = [v, a, r] ++ '(' :: cs from rfl, call']
  simp

end Scan

/-! ## Every script -/

namespace Scan

theorem isClosed_fullLower (cs : List Char) : IsClosed (fullLower cs) ↔ IsClosed cs := by
  rw [← isUnseen_veil.isClosed_map, map_veil_fullLower, isUnseen_veil.isClosed_map, isClosed_lower]

/-- Up to letters beyond ASCII, the words are the words in lower case. -/
theorem map_veil_topWords_fullLower (cs : List Char) :
    (topWords (fullLower cs)).map (List.map veil) =
      (topWords cs).map fun w => (lower w).map veil := by
  rw [← isUnseen_veil.topWords_map, map_veil_fullLower, isUnseen_veil.topWords_map, topWords_lower,
    List.map_map]
  rfl

theorem length_topWords_fullLower (cs : List Char) :
    (topWords (fullLower cs)).length = (topWords cs).length := by
  have same := congrArg List.length (map_veil_topWords_fullLower cs)
  rwa [List.length_map, List.length_map] at same

/-- A word in lower case is a word. -/
theorem isWord_fullLower {w : List Char} (h : topWords w = [w]) :
    topWords (fullLower w) = [fullLower w] := by
  have same := map_veil_topWords_fullLower w
  rw [h, List.map_singleton, ← map_veil_fullLower, List.map_eq_singleton_iff] at same
  obtain ⟨v, words, same⟩ := same
  have mem : v ∈ topWords (fullLower w) := by simp [words]
  have part := infix_of_mem_parts (List.mem_filter.1 mem).1
  rw [words, part.eq_of_length (by simpa using congrArg List.length same)]

theorem isSome_callOf?_fullLower (names : List String) (cs : List Char) :
    (callOf? names (fullLower cs)).isSome = (callOf? names (lower cs)).isSome := by
  rw [← Option.isSome_map (f := Call.changed veil), ← isUnseen_veil.callOf?_map,
    map_veil_fullLower, isUnseen_veil.callOf?_map, Option.isSome_map]

end Scan

/-! ## Dimensions -/

namespace Dimension

theorem splitSign_lower (cs : List Char) :
    Decimal.splitSign (lower cs) =
      ((Decimal.splitSign cs).1, lower (Decimal.splitSign cs).2) := by
  have caseless : IsCaseless fun c => c == '-' || c == '+' := .of_table (by decide) (by decide)
  unfold Decimal.splitSign
  split
  · next rest same =>
    obtain ⟨others, rfl, rfl⟩ := caseless.cons_of_lower (by decide) same
    rfl
  · next rest same =>
    obtain ⟨others, rfl, rfl⟩ := caseless.cons_of_lower (by decide) same
    rfl
  · next noMinus noPlus =>
    split
    · next rest => exact absurd rfl (noMinus (lower rest))
    · next rest => exact absurd rfl (noPlus (lower rest))
    · rfl

theorem ofUnsigned?_lower (cs : List Char) :
    Decimal.ofUnsigned? (lower cs) =
      (Decimal.ofUnsigned? cs).map fun found => (found.1, lower found.2) := by
  have point : IsCaseless (· == '.') := .of_table (by decide) (by decide)
  obtain ⟨whole, after⟩ := isCaseless_isDecimal.takeWhile_lower cs
  simp only [Decimal.ofUnsigned?, whole, after]
  generalize cs.drop (cs.takeWhile isDecimal).length = rest
  by_cases pointed : ∃ others, rest = '.' :: others
  · obtain ⟨others, rfl⟩ := pointed
    have low : lower ('.' :: others) = '.' :: lower others := rfl
    obtain ⟨fraction, behind⟩ := isCaseless_isDecimal.takeWhile_lower others
    simp only [low, fraction, Nat.add_comm 1, List.drop_succ_cons, behind]
    split
    · rfl
    · split <;> simp [low]
  · have noPoint : ∀ others, rest ≠ '.' :: others := fun others same => pointed ⟨others, same⟩
    have noPoint' : ∀ others, lower rest ≠ '.' :: others := fun _ same =>
      pointed ((point.cons_of_lower rfl same).imp fun _ both => both.1)
    simp only [List.isEmpty_nil, Bool.not_true, Bool.false_eq_true, if_false]
    split <;> rfl

/-- A unit in lower case is the same unit. -/
theorem unitOfChars?_lower {cs : List Char} {unit : String} (h : unitOfChars? cs = some unit) :
    unitOfChars? (lower cs) = some unit := by
  simp only [unitOfChars?, Option.ite_none_right_eq_some, Bool.or_eq_true, List.all_eq_true,
    beq_iff_eq, Option.some.injEq] at h ⊢
  obtain ⟨unitLike, rfl⟩ := h
  refine ⟨unitLike.imp (fun letters => ?_) fun percent => by rw [percent]; rfl, by simp⟩
  exact forall_lower (by decide) (by decide) letters

/-- A dimension in lower case: the number and the unit are the same. -/
def lowered (d : Dimension) : Dimension := { d with text := lower d.text }

theorem ofChars?_lower {cs : List Char} {d : Dimension} (h : ofChars? cs = some d) :
    ofChars? (lower cs) = some d.lowered := by
  simp only [ofChars?, bind, pure, Option.bind_eq_some_iff, Option.some.injEq] at h
  obtain ⟨⟨size, rest⟩, number, unit, found, rfl⟩ := h
  simp [ofChars?, lowered, Scan.trim_lower, splitSign_lower, ofUnsigned?_lower, number,
    unitOfChars?_lower found]

/-- A dimension is put into lower case in one way: it has no letters beyond ASCII. -/
theorem fullLower_eq_lower {w : List Char} (trimmed : trim w = w) {d : Dimension}
    (h : ofChars? w = some d) : fullLower w = lower w := by
  obtain ⟨body, unit, rfl, -, numeral, unitLike, -⟩ := exists_of_ofChars? trimmed h
  refine Text.fullLower_eq_lower (List.forall_mem_append.2 ⟨fun c hc => ?_, fun c hc => ?_⟩)
  · have kinds := numeral c hc
    simp only [isNumeralChar, Bool.or_eq_true, beq_iff_eq] at kinds
    rcases kinds with ((digit | rfl) | rfl) | rfl
    · exact .inr digit
    all_goals exact .inl (by decide)
  · rcases unitLike with letters | rfl
    · exact .inl (toNat_lt_of_isAsciiNameChar
        (by simp [isAsciiNameChar, isAsciiAlphanumeric, letters c hc]))
    · rw [List.mem_singleton.1 hc]
      exact .inl (by decide)

/-- The normal form of a dimension is its text in lower case. -/
theorem normalized_eq_lower {w : List Char} (trimmed : trim w = w) {d : Dimension}
    (h : ofChars? w = some d) : d.normalized.toList = lower w := by
  have numeral : IsCaseless isNumeralChar := .of_table (by decide) (by decide)
  obtain ⟨body, unit, rfl, -, all, -, written⟩ := exists_of_ofChars? trimmed h
  rw [written, lower_append, numeral.lower_eq_self all]

end Dimension

end BracketCss
