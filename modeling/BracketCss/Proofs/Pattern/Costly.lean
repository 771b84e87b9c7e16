import BracketCss.Proofs.Pattern.Written

/-!
# Repetitions inside repeated groups

A written pattern with an unbounded repetition inside an unboundedly repeated group may take
exponential time to match. The costly shapes are sought in the written form, between one opening
parenthesis and the next closing one, so they show only in groups that hold no other group: such a
group is refused if it is repeated and holds a repetition or alternatives. A repetition that stands
in one group more is not seen, and the pattern is matched.

## Main definitions

* `holdsRepeated inside cs`: a repeated group with a character of a class shows in a text

## Main results

* `Shape.occursIn_repeatedGroup`: where a repeated group shows in a text
* `Written.ofSource?_source`: the shape that is found in a written pattern
* `Guarded.evaluate_source_eq_refused_iff`: which written patterns are refused
-/

namespace BracketCss.Pattern

open Text

/-! ## Where a repeated group shows -/

/-- A character other than a parenthesis. -/
def isInner (c : Char) : Bool := c != '(' && c != ')'

/-- A text goes on to the end of a repeated group, with a character of a class on the way and no
parenthesis. -/
def endsRepeated (inside : Char → Bool) (cs : List Char) : Bool :=
  (cs.takeWhile isInner).any inside &&
    match cs.dropWhile isInner with
    | ')' :: rest => rest.head?.any isRepetitionMark
    | _ => false

/-- Behind some opening parenthesis of a text a repeated group ends. -/
def holdsRepeated (inside : Char → Bool) : List Char → Bool
  | [] => false
  | c :: cs => c == '(' && endsRepeated inside cs || holdsRepeated inside cs

variable {inside : Char → Bool} {cs tail : List Char}

theorem holdsRepeated_append_of_notMem {xs : List Char} (absent : '(' ∉ xs) (ys : List Char) :
    holdsRepeated inside (xs ++ ys) = holdsRepeated inside ys := by
  induction xs with
  | nil => rfl
  | cons x xs ih =>
    rw [List.mem_cons, not_or] at absent
    rw [List.cons_append, holdsRepeated, beq_eq_false_iff_ne.2 (Ne.symm absent.1), Bool.false_and,
      Bool.false_or, ih absent.2]

theorem endsRepeated_append {xs : List Char} (inner : ∀ c ∈ xs, isInner c) (rest : List Char) :
    endsRepeated inside (xs ++ ')' :: rest) =
      (xs.any inside && rest.head?.any isRepetitionMark) := by
  have closing : ¬ isInner ')' := by decide
  rw [endsRepeated, List.takeWhile_append_of_pos inner, List.dropWhile_append_of_pos inner,
    List.takeWhile_cons_of_neg closing, List.dropWhile_cons_of_neg closing, List.append_nil]
  rfl

/-- A group in the way hides what stands behind it. -/
theorem endsRepeated_append_opening {xs : List Char} (inner : ∀ c ∈ xs, isInner c)
    (rest : List Char) : endsRepeated inside (xs ++ '(' :: rest) = false := by
  have opening : ¬ isInner '(' := by decide
  rw [endsRepeated, List.dropWhile_append_of_pos inner, List.dropWhile_cons_of_neg opening]
  exact Bool.and_false _

theorem endsRepeated_eq_true_iff : endsRepeated inside cs ↔
    ∃ body close rest, cs = body ++ ')' :: close :: rest ∧ (∀ c ∈ body, isInner c) ∧
      body.any inside ∧ isRepetitionMark close := by
  constructor
  · intro h
    rw [endsRepeated, Bool.and_eq_true] at h
    obtain ⟨found, ends⟩ := h
    split at ends
    · next rest after =>
      obtain ⟨close, first, mark⟩ := (Option.any_eq_true _ _).1 ends
      obtain ⟨rest, rfl⟩ := List.head?_eq_some_iff.1 first
      refine ⟨cs.takeWhile isInner, close, rest, ?_, ?_, found, mark⟩
      · rw [← after, List.takeWhile_append_dropWhile]
      · exact fun c mem => List.all_eq_true.1 List.all_takeWhile c mem
    · cases ends
  · rintro ⟨body, close, rest, rfl, inner, found, mark⟩
    rw [endsRepeated_append inner, found]
    simpa using mark

theorem holdsRepeated_eq_true_iff : holdsRepeated inside cs ↔
    ∃ front rest, cs = front ++ '(' :: rest ∧ endsRepeated inside rest := by
  induction cs with
  | nil => simp [holdsRepeated]
  | cons c cs ih =>
    rw [holdsRepeated, Bool.or_eq_true, Bool.and_eq_true, beq_iff_eq, ih]
    constructor
    · rintro (⟨rfl, ends⟩ | ⟨front, rest, rfl, ends⟩)
      · exact ⟨[], cs, rfl, ends⟩
      · exact ⟨c :: front, rest, rfl, ends⟩
    · rintro ⟨front, rest, same, ends⟩
      cases front with
      | nil =>
        obtain ⟨rfl, rfl⟩ := List.cons.inj same
        exact .inl ⟨rfl, ends⟩
      | cons d front =>
        obtain ⟨rfl, rfl⟩ := List.cons.inj same
        exact .inr ⟨front, rest, rfl, ends⟩

end BracketCss.Pattern

namespace BracketCss.Shape

open Pattern

theorem contains_anyOf (s : String) (c : Char) :
    (CharClass.anyOf s).contains c = s.toList.contains c := by
  rw [CharClass.anyOf]
  induction s.toList with
  | nil => rfl
  | cons d ds ih => rw [List.foldr_cons, CharClass.contains_union, ih, List.contains_cons]; rfl

theorem contains_outside_parentheses (c : Char) :
    (CharClass.outside (.anyOf "()")).contains c = isInner c := by
  rw [CharClass.contains_outside, contains_anyOf, Bool.eq_iff_iff]
  simp [isInner]

theorem contains_repetitionMark (c : Char) :
    (CharClass.anyOf "+*\x7b").contains c = isRepetitionMark c := by
  rw [contains_anyOf, Bool.eq_iff_iff]
  simp [isRepetitionMark, or_assoc, or_left_comm]

variable {inside : CharClass} {cs after : List Char} {before : Option Char}

theorem matches_sequence_char_cons {class_ : CharClass} {ps : List Pattern} :
    Matches (Pattern.sequence (char class_ :: ps)) before cs after ↔ ∃ c rest, cs = c :: rest ∧
      class_.contains c ∧ Matches (Pattern.sequence ps) (some c) rest after := by
  rw [matches_sequence_cons]
  constructor
  · rintro ⟨_, rest, rfl, first, others⟩
    obtain ⟨c, mem, rfl⟩ := matches_char.1 first
    exact ⟨c, rest, rfl, mem, others⟩
  · rintro ⟨c, rest, rfl, mem, others⟩
    exact ⟨[c], rest, rfl, .char mem, others⟩

/-- A repeated group that holds a character of a class, and no parenthesis. -/
theorem matches_repeatedGroup (solid : ∀ c, inside.contains c → isInner c) :
    Matches (repeatedGroup inside) before cs after ↔
    ∃ body close, cs = '(' :: (body ++ [')', close]) ∧ (∀ c ∈ body, isInner c) ∧
      body.any inside.contains ∧ isRepetitionMark close := by
  have inner : ∀ {before after xs}, Matches (many (.outside (.anyOf "()"))) before xs after ↔
      ∀ c ∈ xs, isInner c := by
    intro before after xs
    simp only [matches_many, contains_outside_parentheses]
  constructor
  · intro h
    rw [repeatedGroup] at h
    obtain ⟨_, _, rfl, opening, h⟩ := matches_sequence_char_cons.1 h
    obtain ⟨mark, _, rfl, marked, h⟩ := matches_sequence_cons.1 h
    obtain ⟨xs, _, rfl, first, h⟩ := matches_sequence_cons.1 h
    obtain ⟨d, _, rfl, held, h⟩ := matches_sequence_char_cons.1 h
    obtain ⟨ys, _, rfl, second, h⟩ := matches_sequence_cons.1 h
    obtain ⟨_, _, rfl, closing, h⟩ := matches_sequence_char_cons.1 h
    obtain ⟨close, _, rfl, repeated, h⟩ := matches_sequence_char_cons.1 h
    obtain rfl := matches_empty.1 h
    obtain rfl := eq_of_beq opening
    obtain rfl := eq_of_beq closing
    have marks : ∀ c ∈ mark, isInner c := by
      rcases matches_alt.1 marked with taken | left
      · obtain rfl := matches_text.1 taken
        decide
      · obtain rfl := matches_empty.1 left
        exact List.forall_mem_nil _
    refine ⟨mark ++ (xs ++ d :: ys), close, by simp, ?_, ?_,
      contains_repetitionMark close ▸ repeated⟩
    · have others : ∀ c ∈ d :: ys, isInner c :=
        List.forall_mem_cons.2 ⟨solid d held, inner.1 second⟩
      exact List.forall_mem_append.2 ⟨marks, List.forall_mem_append.2 ⟨inner.1 first, others⟩⟩
    · exact List.any_eq_true.2 ⟨d, by simp, held⟩
  · rintro ⟨body, close, rfl, all, found, repeated⟩
    obtain ⟨d, mem, held⟩ := List.any_eq_true.1 found
    obtain ⟨xs, ys, rfl⟩ := List.append_of_mem mem
    obtain ⟨first, second⟩ := List.forall_mem_append.1 all
    have others := (List.forall_mem_cons.1 second).2
    have repeats := (contains_repetitionMark close).trans repeated
    refine matches_sequence_char_cons.2 ⟨'(', _, rfl, rfl, ?_⟩
    refine matches_sequence_cons.2 ⟨[], _, rfl, matches_alt.2 (.inr .empty), ?_⟩
    refine matches_sequence_cons.2 ⟨xs, d :: (ys ++ [')', close]), by simp, inner.2 first, ?_⟩
    refine matches_sequence_char_cons.2 ⟨d, _, rfl, held, ?_⟩
    refine matches_sequence_cons.2 ⟨ys, _, rfl, inner.2 others, ?_⟩
    refine matches_sequence_char_cons.2 ⟨')', _, rfl, rfl, ?_⟩
    exact matches_sequence_char_cons.2 ⟨close, [], rfl, repeats, .empty⟩

/-- **A repeated group shows in a text** where one ends behind an opening parenthesis. -/
theorem occursIn_repeatedGroup (solid : ∀ c, inside.contains c → isInner c) (cs : List Char) :
    (repeatedGroup inside).occursIn cs = holdsRepeated inside.contains cs := by
  have plain : (repeatedGroup inside).IsPlain := by
    simp [repeatedGroup, Pattern.sequence, IsPlain, Pattern.optional, isPlain_text, isPlain_many]
  rw [Bool.eq_iff_iff, occursIn_iff plain, holdsRepeated_eq_true_iff]
  simp only [matches_repeatedGroup solid, endsRepeated_eq_true_iff]
  constructor
  · rintro ⟨front, _, after, rfl, body, close, rfl, all, found, repeated⟩
    exact ⟨front, body ++ ')' :: close :: after, by simp, body, close, after, rfl, all, found,
      repeated⟩
  · rintro ⟨front, _, rfl, body, close, after, rfl, all, found, repeated⟩
    exact ⟨front, '(' :: (body ++ [')', close]), after, by simp, body, close, rfl, all, found,
      repeated⟩

end BracketCss.Shape

namespace BracketCss.Pattern.Written

open Text Shape

variable {inside : Char → Bool} {tail : List Char}

/-! ## The shapes of written patterns -/

theorem isInner_of_notMem {c : Char} (plain : c ∉ specialChars) : isInner c := by
  simp only [specialChars, List.mem_cons, List.not_mem_nil, or_false, not_or] at plain
  simp [isInner, plain]

theorem isInner_repetitionText (repetition : Option Unbounded) :
    ∀ c ∈ repetitionText repetition, isInner c := by
  intro c mem
  cases repetition with
  | none => cases mem
  | some r =>
    have marks : ∀ d ∈ ['*', '+', '\x7b', ',', '\x7d'], isInner d := by decide
    rcases r.mem_text mem with mark | digit
    · exact marks c mark
    · rw [isInner, Bool.and_eq_true, bne_iff_ne, bne_iff_ne]
      constructor <;> rintro rfl <;> cases digit

theorem isInner_of_isFlat {w : Written} (flat : w.isFlat) : ∀ c ∈ w.text, isInner c := by
  induction w with
  | empty => exact List.forall_mem_nil _
  | letter c plain repetition =>
    exact List.forall_mem_cons.2 ⟨isInner_of_notMem plain, isInner_repetitionText repetition⟩
  | group => cases flat
  | concat v w ihv ihw =>
    rw [isFlat, Bool.and_eq_true] at flat
    exact List.forall_mem_append.2 ⟨ihv flat.1, ihw flat.2⟩
  | either v w ihv ihw =>
    rw [isFlat, Bool.and_eq_true] at flat
    have others : ∀ c ∈ '|' :: w.text, isInner c := List.forall_mem_cons.2 ⟨rfl, ihw flat.2⟩
    exact List.forall_mem_append.2 ⟨ihv flat.1, others⟩

/-- The first parenthesis in a pattern that holds a group opens one. -/
theorem exists_opening {w : Written} (h : w.isFlat = false) :
    ∃ xs ys, w.text = xs ++ '(' :: ys ∧ ∀ c ∈ xs, isInner c := by
  have both : ∀ {v w : Written} {between : List Char}, (∀ c ∈ between, isInner c) →
      (v.isFlat = false → ∃ xs ys, v.text = xs ++ '(' :: ys ∧ ∀ c ∈ xs, isInner c) →
      (w.isFlat = false → ∃ xs ys, w.text = xs ++ '(' :: ys ∧ ∀ c ∈ xs, isInner c) →
      (v.isFlat && w.isFlat) = false →
      ∃ xs ys, v.text ++ (between ++ w.text) = xs ++ '(' :: ys ∧ ∀ c ∈ xs, isInner c := by
    intro v w between inner ihv ihw h
    cases flat : v.isFlat with
    | false =>
      obtain ⟨xs, ys, same, all⟩ := ihv flat
      exact ⟨xs, ys ++ (between ++ w.text), by simp [same], all⟩
    | true =>
      rw [flat, Bool.true_and] at h
      obtain ⟨xs, ys, same, all⟩ := ihw h
      refine ⟨v.text ++ (between ++ xs), ys, by simp [same], ?_⟩
      have rest := List.forall_mem_append.2 ⟨inner, all⟩
      exact List.forall_mem_append.2 ⟨isInner_of_isFlat flat, rest⟩
  induction w with
  | empty | letter => cases h
  | group captures body repetition _ => exact ⟨[], _, rfl, List.forall_mem_nil _⟩
  | concat v w ihv ihw => exact both (List.forall_mem_nil _) ihv ihw h
  | either v w ihv ihw =>
    have bar : ∀ c ∈ ['|'], isInner c := by decide
    exact both bar ihv ihw h

/-- **A group is seen to be repeated** exactly if it is and holds no group. -/
theorem endsRepeated_group (marks : inside '?' = false ∧ inside ':' = false) (captures : Bool)
    (body : Written) (repetition : Option Unbounded) (edge : IsEdge tail) :
    endsRepeated inside (groupMark captures ++ (body.text ++ ')' ::
        (repetitionText repetition ++ tail))) =
      (repetition.isSome && (body.isFlat && body.text.any inside)) := by
  have inner : ∀ c ∈ groupMark captures, isInner c := by cases captures <;> decide
  have unseen : (groupMark captures).any inside = false := by
    cases captures <;> simp [groupMark, marks]
  -- the first parenthesis behind the opening one closes the group, or it opens another
  cases flat : body.isFlat with
  | true =>
    have all := List.forall_mem_append.2 ⟨inner, isInner_of_isFlat flat⟩
    rw [← List.append_assoc, endsRepeated_append all, any_head?_repetitionText repetition edge,
      List.any_append, unseen]
    simp [Bool.and_comm]
  | false =>
    obtain ⟨xs, ys, same, all⟩ := exists_opening flat
    have hidden : endsRepeated inside (groupMark captures ++ xs ++
        '(' :: (ys ++ ')' :: (repetitionText repetition ++ tail))) = false :=
      endsRepeated_append_opening (List.forall_mem_append.2 ⟨inner, all⟩) _
    rw [same, List.append_assoc, List.cons_append, ← List.append_assoc, hidden]
    simp

/-- Where repeated groups are seen in a written pattern, and in what stands behind it. -/
theorem holdsRepeated_append (marks : inside '?' = false ∧ inside ':' = false) (w : Written)
    (edge : IsEdge tail) :
    holdsRepeated inside (w.text ++ tail) =
      (w.repeatsGroup (fun body => body.isFlat && body.text.any inside) ||
        holdsRepeated inside tail) := by
  have absent : ∀ {xs : List Char}, (∀ c ∈ xs, isInner c) → '(' ∉ xs :=
    fun all mem => absurd (all _ mem) (by decide)
  induction w generalizing tail with
  | empty => rfl
  | letter c plain repetition =>
    have inner : ∀ d ∈ c :: repetitionText repetition, isInner d :=
      List.forall_mem_cons.2 ⟨isInner_of_notMem plain, isInner_repetitionText repetition⟩
    rw [text, holdsRepeated_append_of_notMem (absent inner), repeatsGroup, Bool.false_or]
  | group captures body repetition ih =>
    have start : ∀ c ∈ groupMark captures, isInner c := by cases captures <;> decide
    have closing : IsEdge (')' :: (repetitionText repetition ++ tail)) := isEdge_cons (by decide) _
    have ending : '(' ∉ ')' :: repetitionText repetition := by
      rw [List.mem_cons, not_or]
      exact ⟨by decide, absent (isInner_repetitionText repetition)⟩
    calc holdsRepeated inside ((group captures body repetition).text ++ tail)
        = (endsRepeated inside (groupMark captures ++ (body.text ++ ')' ::
              (repetitionText repetition ++ tail))) ||
            holdsRepeated inside (groupMark captures ++ (body.text ++ ')' ::
              (repetitionText repetition ++ tail)))) := by
          simp [text, holdsRepeated]
      _ = (repetition.isSome && (body.isFlat && body.text.any inside) ||
            (body.repeatsGroup (fun body => body.isFlat && body.text.any inside) ||
              holdsRepeated inside (')' :: repetitionText repetition ++ tail))) := by
          rw [endsRepeated_group marks captures body repetition edge,
            holdsRepeated_append_of_notMem (absent start), ih closing, List.cons_append]
      _ = _ := by
          rw [holdsRepeated_append_of_notMem ending, repeatsGroup, Bool.or_assoc]
  | concat v w ihv ihw =>
    rw [text, List.append_assoc, ihv (w.isEdge_append edge), ihw edge, repeatsGroup, Bool.or_assoc]
  | either v w ihv ihw =>
    have bar : IsEdge ('|' :: (w.text ++ tail)) := isEdge_cons (by decide) _
    have skip : holdsRepeated inside ('|' :: (w.text ++ tail)) =
        holdsRepeated inside (w.text ++ tail) :=
      holdsRepeated_append_of_notMem (show '(' ∉ ['|'] by decide) _
    rw [text, List.append_assoc, List.cons_append, ihv bar, skip, ihw edge, repeatsGroup,
      Bool.or_assoc]

/-- What a property that is one of two is met by: a group with the one or the other. -/
theorem repeatsGroup_or (p q : Written → Bool) (w : Written) :
    w.repeatsGroup (fun body => p body || q body) = (w.repeatsGroup p || w.repeatsGroup q) := by
  induction w with
  | empty | letter => rfl
  | group captures body repetition ih =>
    rw [repeatsGroup, repeatsGroup, repeatsGroup, ih, Bool.and_or_distrib_left]
    ac_rfl
  | concat v w ihv ihw | either v w ihv ihw =>
    rw [repeatsGroup, repeatsGroup, repeatsGroup, ihv, ihw]
    ac_rfl

/-- **Where a repeated group is found** in a written pattern, by a class of marks. -/
theorem occursIn_repeatedGroup_text {inside : CharClass} {sees : Bool}
    (marks : ∀ c, inside.contains c → IsMark c)
    (repetitions : ∀ r : Unbounded, r.text.any inside.contains = sees) (w : Written) :
    (repeatedGroup inside).occursIn w.text = w.repeatsGroup fun body => body.isFlat &&
      (inside.contains '|' && body.hasAlternatives || sees && body.hasRepetition) := by
  have absent : ∀ c, ¬ IsMark c → inside.contains c = false :=
    fun c other => Bool.eq_false_iff.2 fun held => other (marks c held)
  have solid : ∀ c, inside.contains c → isInner c := by
    intro c held
    rw [isInner, Bool.and_eq_true, bne_iff_ne, bne_iff_ne]
    constructor <;> rintro rfl <;> exact (marks _ held).2 (by decide)
  have unseen : inside.contains '?' = false ∧ inside.contains ':' = false :=
    ⟨absent _ fun mark => mark.2 (by decide), absent _ fun mark => absurd mark.1 (by decide)⟩
  have whole : holdsRepeated inside.contains (w.text ++ []) = _ :=
    holdsRepeated_append unseen w isEdge_nil
  rw [List.append_nil] at whole
  rw [occursIn_repeatedGroup solid, whole, holdsRepeated, Bool.or_false]
  simp only [any_text marks repetitions]

theorem occursIn_nestedRepetition (w : Written) :
    Shape.nestedRepetition.pattern.occursIn w.text =
      w.repeatsGroup fun body => body.isFlat && body.hasRepetition := by
  have marks : ∀ c, (CharClass.anyOf "+*\x7d").contains c → IsMark c := by
    intro c held
    rw [contains_anyOf, List.contains_iff_mem] at held
    simp only [IsMark]
    revert c
    decide
  have repetitions : ∀ r : Unbounded, r.text.any (CharClass.anyOf "+*\x7d").contains = true := by
    rintro (_ | _ | ⟨digits, _, _⟩)
    · rfl
    · rfl
    · exact List.any_eq_true.2 ⟨'\x7d', by simp [Unbounded.text], by decide⟩
  exact occursIn_repeatedGroup_text marks repetitions w

theorem occursIn_repeatedAlternatives (w : Written) :
    Shape.repeatedAlternatives.pattern.occursIn w.text =
      w.repeatsGroup fun body => body.isFlat && body.hasAlternatives := by
  have marks : ∀ c, (CharClass.one '|').contains c → IsMark c := by
    intro c held
    obtain rfl := eq_of_beq held
    exact ⟨by decide, by decide⟩
  have digits : ∀ c, (CharClass.one '|').contains c → isAsciiDigit c = false := by
    intro c held
    obtain rfl := eq_of_beq held
    rfl
  have bar : (CharClass.one '|').contains '|' = true := rfl
  have found :=
    occursIn_repeatedGroup_text marks (Unbounded.any_text_eq_false (by decide) digits) w
  simp only [bar, Bool.true_and, Bool.false_and, Bool.or_false] at found
  exact found

/-- There are no wildcards in a written pattern: each starts with a dot or with a backslash. -/
theorem occursIn_adjacentWildcards (w : Written) :
    Shape.adjacentWildcards.pattern.occursIn w.text = false := by
  have marks : ∀ c : Char, c ∈ ['.', '\\'] → IsMark c := by
    simp only [IsMark]
    decide
  have absent : ∀ c ∈ w.text, c ∉ ['.', '\\'] := by
    have digits : ∀ c : Char, ['.', '\\'].contains c → isAsciiDigit c = false := by
      simp only [List.contains_iff_mem]
      decide
    have found := any_text (fun c held => marks c (List.contains_iff_mem.1 held))
      (Unbounded.any_text_eq_false (by decide) digits) w
    intro c mem held
    have seen := List.any_eq_true.2 ⟨c, mem, List.contains_iff_mem.2 held⟩
    rw [found] at seen
    cases seen
  have plain : Shape.adjacentWildcards.pattern.IsPlain := by
    refine isPlain_choice fun p mem => ?_
    obtain ⟨wildcard, -, rfl⟩ := List.mem_map.1 mem
    simp [doubled, Pattern.sequence, IsPlain, isPlain_text, isPlain_many]
  rw [Bool.eq_false_iff, Ne, occursIn_iff plain]
  rintro ⟨front, cs, after, same, matched⟩
  obtain ⟨p, mem, matched⟩ := (matches_choice (by simp)).1 matched
  obtain ⟨wildcard, known, rfl⟩ := List.mem_map.1 mem
  obtain ⟨first, _, rfl, shown, -⟩ := matches_sequence_cons.1 matched
  obtain rfl := matches_text.1 shown
  have starts : ∀ wildcard ∈ [".*", "\\w+", "\\w*", ".+"],
      wildcard.toList.any ['.', '\\'].contains := by
    decide
  obtain ⟨c, inside, wild⟩ := List.any_eq_true.1 (starts wildcard known)
  rw [List.contains_iff_mem] at wild
  refine absent c ?_ wild
  rw [same]
  simp [inside]

/-- **The shape that is found** in a written pattern. -/
theorem ofSource?_source (w : Written) : Shape.ofSource? w.source =
    if w.repeatsGroup fun body => body.isFlat && body.hasRepetition then some .nestedRepetition
    else if w.repeatsGroup fun body => body.isFlat && body.hasAlternatives then
      some .repeatedAlternatives
    else none := by
  rw [Shape.ofSource?, source, String.toList_ofList, Shape.all, List.find?_cons, List.find?_cons,
    List.find?_cons, occursIn_nestedRepetition, occursIn_repeatedAlternatives,
    occursIn_adjacentWildcards]
  generalize w.repeatsGroup (fun body => body.isFlat && body.hasRepetition) = nested
  generalize w.repeatsGroup (fun body => body.isFlat && body.hasAlternatives) = alternatives
  cases nested <;> cases alternatives <;> rfl

theorem ofSource?_source_ne_none_iff (w : Written) :
    Shape.ofSource? w.source ≠ none ↔ w.repeatsGroup showsCost := by
  have parts : showsCost = fun body =>
      (body.isFlat && body.hasRepetition) || (body.isFlat && body.hasAlternatives) :=
    funext fun body => Bool.and_or_distrib_left ..
  rw [ofSource?_source, parts, repeatsGroup_or]
  generalize w.repeatsGroup (fun body => body.isFlat && body.hasRepetition) = nested
  generalize w.repeatsGroup (fun body => body.isFlat && body.hasAlternatives) = alternatives
  cases nested <;> cases alternatives <;> decide

end BracketCss.Pattern.Written

namespace BracketCss.Guarded

open Pattern

/-! ## Refused patterns -/

/-- What an evaluation comes to, if a text is not too long and the written form is a pattern. -/
theorem evaluate_of_read {guard : Guard} {source text : String} {p : Pattern}
    (fits : (text.toList.length : Int) ≤ guard.limit) (read : Pattern.read source = .ok p)
    (operation : Operation) :
    evaluate guard operation source (some text) =
      match Shape.ofSource? source with
      | some shape =>
        if guard.allowCostly then .ok ((operation.result p text.toList).outcome guard.budget)
        else .error (.refused shape source)
      | none => .ok ((operation.result p text.toList).outcome guard.budget) := by
  have short : ¬ guard.limit < (text.toList.length : Int) := Int.not_lt.2 fits
  have valid : (Except.ok p : Except PatternFault Pattern).mapError Fault.invalid = .ok p := rfl
  simp only [evaluate, read, if_neg short, valid]
  cases Shape.ofSource? source with
  | none => rfl
  | some shape => cases guard.allowCostly <;> rfl

/-- **Which written patterns are refused.** A shape is found in a written pattern exactly if some
repeated group shows its cost, and the pattern is matched unless it is found and not allowed. -/
theorem evaluate_source_eq_refused_iff (w : Written) (guard : Guard) (operation : Operation)
    (text : String) (fits : (text.toList.length : Int) ≤ guard.limit) :
    (Shape.ofSource? w.source ≠ none ↔ w.repeatsGroup Written.showsCost) ∧
      (∀ shape, evaluate guard operation w.source (some text) = .error (.refused shape w.source) ↔
        guard.allowCostly = false ∧ Shape.ofSource? w.source = some shape) ∧
      ((∃ outcome, evaluate guard operation w.source (some text) = .ok outcome) ↔
        guard.allowCostly ∨ ¬ w.repeatsGroup Written.showsCost) := by
  have found := w.ofSource?_source_ne_none_iff
  obtain ⟨p, read⟩ := w.exists_read
  rw [← found, evaluate_of_read fits read]
  refine ⟨Iff.rfl, ?_⟩
  cases Shape.ofSource? w.source <;> cases guard.allowCostly <;> simp

/-- The pattern `(a+)+`. -/
theorem evaluate_source_eq_refused_iff_nested :
    ∃ w : Written, w.source = "(a+)+" ∧
      evaluate ⟨50000, 500, false⟩ .search w.source (some "aaa") =
        .error (.refused .nestedRepetition w.source) := by
  let w : Written := .group true (.letter 'a' (by decide) (some .plus)) (some .plus)
  have fits : ("aaa".toList.length : Int) ≤ 50000 := by decide
  have found : Shape.ofSource? w.source = some .nestedRepetition := by
    rw [w.ofSource?_source]
    rfl
  obtain ⟨-, refused, -⟩ :=
    evaluate_source_eq_refused_iff w ⟨50000, 500, false⟩ .search "aaa" fits
  exact ⟨w, rfl, (refused _).2 ⟨rfl, found⟩⟩

/-- In `((a+))+` a repetition stands in a repeated group, and no shape is found. -/
theorem exists_repeatsGroup_hasRepetition_of_ofSource?_eq_none :
    ∃ w : Written, w.source = "((a+))+" ∧ w.repeatsGroup Written.hasRepetition ∧
      Shape.ofSource? w.source = none := by
  refine ⟨.group true (.group true (.letter 'a' (by decide) (some .plus)) none) (some .plus),
    rfl, rfl, ?_⟩
  rw [Written.ofSource?_source]
  rfl

end BracketCss.Guarded
