import BracketCss.Pattern.Guarded
import BracketCss.Proofs.Pattern.Language

/-!
# Written patterns

Patterns with unbounded repetitions of letters and groups, as they are written. Every one of them is
read as a pattern: a repetition is read right behind what it repeats, and what stands behind a whole
pattern neither repeats its end nor changes how it is read.

## Main definitions

* `Written`, `Written.text`: patterns as they are written
* `Written.hasRepetition`, `Written.hasAlternatives`, `Written.isFlat`: what a pattern holds
* `Written.repeatsGroup p w`: a group with a property is repeated somewhere in a pattern
* `Written.showsCost`: the groups that are refused when they are repeated
* `ReadsUpTo total bound progress cs rest`: a text is read up to what stands behind it

## Main results

* `Written.any_text`: which marks stand in the text of a pattern
* `Written.exists_read`: every written pattern is a pattern
-/

namespace BracketCss.Pattern

open Text

/-! ## Written patterns -/

/-- The characters that do not stand for themselves. -/
def specialChars : List Char :=
  ['\\', '.', '^', '$', '*', '+', '?', '\x7b', '\x7d', '[', ']', '|', '(', ')']

/-- A repetition without an upper bound. -/
inductive Unbounded where
  | star
  | plus
  /-- At least as often as a decimal number says. -/
  | atLeast (digits : List Char) (some_ : digits ≠ []) (decimal : ∀ c ∈ digits, isAsciiDigit c)

/-- What stands behind a repeated letter or group. -/
def Unbounded.text : Unbounded → List Char
  | star => ['*']
  | plus => ['+']
  | atLeast digits _ _ => '\x7b' :: (digits ++ [',', '\x7d'])

/-- A pattern as it is written, with unbounded repetitions of letters and groups only. -/
inductive Written where
  | empty
  /-- A letter, or any other character that stands for itself. -/
  | letter (c : Char) (plain : c ∉ specialChars) (repetition : Option Unbounded)
  /-- A pattern in parentheses, whose text is kept under a number if it `captures`. -/
  | group (captures : Bool) (body : Written) (repetition : Option Unbounded)
  /-- One pattern after another. -/
  | concat (v w : Written)
  /-- Either pattern. -/
  | either (v w : Written)

/-- What stands behind a letter or a group, if it is repeated. -/
def repetitionText (repetition : Option Unbounded) : List Char :=
  (repetition.map Unbounded.text).getD []

/-- What stands at the start of a group. -/
def groupMark (captures : Bool) : List Char := if captures then [] else ['?', ':']

namespace Written

/-- The characters of a pattern. -/
def text : Written → List Char
  | empty => []
  | letter c _ repetition => c :: repetitionText repetition
  | group captures body repetition =>
    '(' :: (groupMark captures ++ (body.text ++ ')' :: repetitionText repetition))
  | concat v w => v.text ++ w.text
  | either v w => v.text ++ '|' :: w.text

/-- The written form of a pattern. -/
def source (w : Written) : String := .ofList w.text

/-- Something is repeated, at any depth. -/
def hasRepetition : Written → Bool
  | empty => false
  | letter _ _ repetition => repetition.isSome
  | group _ body repetition => repetition.isSome || body.hasRepetition
  | concat v w | either v w => v.hasRepetition || w.hasRepetition

/-- There are alternatives, at any depth. -/
def hasAlternatives : Written → Bool
  | empty | letter .. => false
  | group _ body _ => body.hasAlternatives
  | concat v w => v.hasAlternatives || w.hasAlternatives
  | either _ _ => true

/-- There is no group. -/
def isFlat : Written → Bool
  | empty | letter .. => true
  | group .. => false
  | concat v w | either v w => v.isFlat && w.isFlat

/-- A group with a property is repeated somewhere, at any depth. -/
def repeatsGroup (p : Written → Bool) : Written → Bool
  | empty | letter .. => false
  | group _ body repetition => (repetition.isSome && p body) || body.repeatsGroup p
  | concat v w | either v w => v.repeatsGroup p || w.repeatsGroup p

/-- There is no group, but a repetition, or there are alternatives. A group of this kind is what
shows to be costly when it is repeated. -/
def showsCost (w : Written) : Bool := w.isFlat && (w.hasRepetition || w.hasAlternatives)

end Written

/-! ## Characters of written patterns -/

/-- A character that a repetition starts with. -/
def isRepetitionMark (c : Char) : Bool := c == '*' || c == '+' || c == '\x7b'

theorem isRepetitionMark_of_notMem {c : Char} (plain : c ∉ specialChars) :
    isRepetitionMark c = false := by
  simp only [specialChars, List.mem_cons, List.not_mem_nil, or_false, not_or] at plain
  simp [isRepetitionMark, plain]

/-- A text behind which no repetition goes on: it starts neither with a repetition nor with a
question mark. -/
def IsEdge (cs : List Char) : Prop := ∀ c ∈ cs.head?, isRepetitionMark c = false ∧ c ≠ '?'

theorem isEdge_nil : IsEdge [] := fun _ first => nomatch first

theorem isEdge_cons {c : Char} (h : isRepetitionMark c = false ∧ c ≠ '?') (cs : List Char) :
    IsEdge (c :: cs) := by
  intro d first
  obtain rfl := Option.some.inj first
  exact h

/-- A written pattern starts with no repetition. -/
theorem Written.isEdge_append (w : Written) {tail : List Char} (edge : IsEdge tail) :
    IsEdge (w.text ++ tail) := by
  induction w generalizing tail with
  | empty => exact edge
  | letter c plain repetition =>
    refine isEdge_cons ⟨isRepetitionMark_of_notMem plain, ?_⟩ _
    rintro rfl
    exact plain (by decide)
  | group captures body repetition _ => exact isEdge_cons (by decide) _
  | concat v w ihv ihw =>
    rw [text, List.append_assoc]
    exact ihv (ihw edge)
  | either v w ihv ihw =>
    rw [text, List.append_assoc]
    exact ihv (isEdge_cons (by decide) _)

theorem Unbounded.exists_text (r : Unbounded) : ∃ c cs, r.text = c :: cs ∧ isRepetitionMark c := by
  cases r <;> exact ⟨_, _, rfl, by decide⟩

/-- What a text starts with, if a repetition may stand before it, tells if there is one. -/
theorem any_head?_repetitionText (repetition : Option Unbounded) {tail : List Char}
    (edge : IsEdge tail) :
    (repetitionText repetition ++ tail).head?.any isRepetitionMark = repetition.isSome := by
  cases repetition with
  | none =>
    rw [Option.isSome_none, Option.any_eq_false]
    exact fun c first => by simp [(edge c first).1]
  | some r =>
    obtain ⟨c, cs, same, mark⟩ := r.exists_text
    simp [repetitionText, same, mark]

theorem Unbounded.mem_text {r : Unbounded} {c : Char} (mem : c ∈ r.text) :
    c ∈ ['*', '+', '\x7b', ',', '\x7d'] ∨ isAsciiDigit c := by
  cases r with
  | star =>
    obtain rfl := List.mem_singleton.1 mem
    exact .inl (by decide)
  | plus =>
    obtain rfl := List.mem_singleton.1 mem
    exact .inl (by decide)
  | atLeast digits _ decimal =>
    simp only [text, List.mem_cons, List.mem_append, List.not_mem_nil, or_false] at mem
    rcases mem with rfl | mem | rfl | rfl
    · exact .inl (by decide)
    · exact .inr (decimal c mem)
    · exact .inl (by decide)
    · exact .inl (by decide)

theorem Unbounded.any_text_eq_false {inside : Char → Bool}
    (marks : ∀ c ∈ ['*', '+', '\x7b', ',', '\x7d'], inside c = false)
    (digits : ∀ c, inside c → isAsciiDigit c = false) (r : Unbounded) :
    r.text.any inside = false := by
  rw [List.any_eq_false]
  intro c mem held
  rcases r.mem_text mem with mark | digit
  · rw [marks c mark] at held
    cases held
  · rw [digits c held] at digit
    cases digit

/-- The characters that neither letters nor the ends of groups are written with. -/
def IsMark (c : Char) : Prop := c ∈ specialChars ∧ c ∉ ['(', ')', '?']

/-- What a class of marks finds in a written pattern, if it sees every repetition or none. -/
theorem Written.any_text {inside : Char → Bool} {sees : Bool} (marks : ∀ c, inside c → IsMark c)
    (repetitions : ∀ r : Unbounded, r.text.any inside = sees) (w : Written) :
    w.text.any inside = (inside '|' && w.hasAlternatives || sees && w.hasRepetition) := by
  have letters : ∀ c ∉ specialChars, inside c = false :=
    fun c plain => Bool.eq_false_iff.2 fun held => plain (marks c held).1
  have groups : ∀ c ∈ ['(', ')', '?'], inside c = false :=
    fun c mem => Bool.eq_false_iff.2 fun held => (marks c held).2 mem
  have repeated : ∀ repetition, (repetitionText repetition).any inside =
      (sees && repetition.isSome) := by
    rintro (_ | r)
    · simp [repetitionText]
    · simp [repetitionText, repetitions r]
  have mark : ∀ captures, (groupMark captures).any inside = false := by
    rintro (_ | _)
    · simp [groupMark, groups '?' (by decide), letters ':' (by decide)]
    · rfl
  induction w with
  | empty => simp [text, hasAlternatives, hasRepetition]
  | letter c plain repetition =>
    simp [text, hasAlternatives, hasRepetition, letters c plain, repeated]
  | group captures body repetition ih =>
    rw [text, List.any_cons, List.any_append, List.any_append, List.any_cons, mark, repeated, ih,
      groups '(' (by decide), groups ')' (by decide), hasAlternatives, hasRepetition]
    generalize (inside '|' && body.hasAlternatives) = left
    cases left <;> cases sees <;> simp [Bool.or_comm]
  | concat v w ihv ihw =>
    rw [text, List.any_append, ihv, ihw, hasAlternatives, hasRepetition, Bool.and_or_distrib_left,
      Bool.and_or_distrib_left]
    ac_rfl
  | either v w ihv ihw =>
    rw [text, List.any_append, List.any_cons, ihv, ihw, hasAlternatives, hasRepetition,
      Bool.and_or_distrib_left]
    cases inside '|' <;> cases sees <;> simp

/-! ## Reading written patterns -/

section Reading

variable {total bound : Nat} {progress : Progress} {rest : List Char}

theorem readAlternatives_nil :
    readAlternatives total (bound + 1) progress [] = .ok (progress, []) := rfl

theorem readAlternatives_closing :
    readAlternatives total (bound + 1) progress (')' :: rest) = .ok (progress, ')' :: rest) := rfl

theorem readAlternatives_bar :
    readAlternatives total (bound + 1) progress ('|' :: rest) =
      readAlternatives total bound progress.another rest := rfl

theorem readRepetition?_letter {c : Char} (plain : c ∉ specialChars) :
    readRepetition? (c :: rest) = none := by
  simp only [specialChars, List.mem_cons, List.not_mem_nil, or_false, not_or] at plain
  simp [readRepetition?, plain]

theorem readAlternatives_letter {c : Char} (plain : c ∉ specialChars) :
    readAlternatives total (bound + 1) progress (c :: rest) =
      readAlternatives total bound (progress.push (char (.one c)) .plain) rest := by
  rw [readAlternatives]
  · rw [readRepetition?_letter plain]
  all_goals
    intros
    subst_vars
    exact plain (by decide)

theorem Unbounded.readRepetition?_text (r : Unbounded) (rest : List Char) :
    ∃ least, readRepetition? (r.text ++ rest) = some (⟨least, none⟩, rest) := by
  cases r with
  | star => exact ⟨0, rfl⟩
  | plus => exact ⟨1, rfl⟩
  | atLeast digits some_ decimal =>
    refine ⟨decimalNat digits, ?_⟩
    have comma : ¬ isAsciiDigit ',' := by decide
    have digitsOf : (digits ++ ',' :: '\x7d' :: rest).takeWhile isAsciiDigit = digits := by
      rw [List.takeWhile_append_of_pos decimal, List.takeWhile_cons_of_neg comma, List.append_nil]
    simp only [text, List.cons_append, List.append_assoc, List.nil_append]
    rw [readRepetition?, readCounts?]
    simp only [digitsOf, List.drop_left]
    rfl

theorem readAlternatives_repetition (r : Unbounded) (edge : IsEdge rest) {p : Pattern}
    {before : List (Pattern × Piece)} (pieces : progress.pieces = (p, .plain) :: before) :
    ∃ progress', readAlternatives total (bound + 1) progress (r.text ++ rest) =
      readAlternatives total bound progress' rest := by
  obtain ⟨least, read⟩ := r.readRepetition?_text rest
  -- behind a question mark the repetition would be a sparing one
  have frugal : ∀ tail, rest ≠ '?' :: tail := by
    rintro tail rfl
    exact (edge '?' rfl).2 rfl
  refine ⟨⟨progress.alternatives, (repeated ⟨least, none⟩ true p, .repetition) :: before,
    progress.next⟩, ?_⟩
  rw [readAlternatives.eq_def]
  simp only [read, pieces]
  rw [if_neg (by simp)]

theorem readAlternatives_group {captures : Bool} {body : Written} {inner : Progress}
    (read : readAlternatives total bound
        (.fresh (if captures then progress.next + 1 else progress.next))
        (body.text ++ ')' :: rest) = .ok (inner, ')' :: rest)) :
    ∃ p progress', progress'.pieces = (p, .plain) :: progress.pieces ∧
      readAlternatives total (bound + 1) progress
        ('(' :: (groupMark captures ++ (body.text ++ ')' :: rest))) =
        readAlternatives total bound progress' rest := by
  have repeats : ∀ cs, readRepetition? ('(' :: cs) = none := fun _ => rfl
  cases captures with
  | false =>
    refine ⟨_, ({ progress with next := inner.next }.push inner.finished .plain), rfl, ?_⟩
    rw [readAlternatives.eq_def]
    simp only [groupMark, Bool.false_eq_true, if_false, List.cons_append, List.nil_append, repeats]
      at read ⊢
    rw [read]
    rfl
  | true =>
    have edge : IsEdge (body.text ++ ')' :: rest) :=
      body.isEdge_append (isEdge_cons (by decide) _)
    have numbered : ∀ tail, body.text ++ ')' :: rest ≠ '?' :: tail := by
      intro tail same
      rw [same] at edge
      exact (edge '?' rfl).2 rfl
    refine ⟨_, ({ progress with next := inner.next }.push
      (group progress.next inner.finished) .plain), rfl, ?_⟩
    rw [readAlternatives]
    · simp only [groupMark, if_true, List.nil_append, repeats] at read ⊢
      rw [read]
      rfl
    · exact fun _ same => numbered _ same
    · exact fun _ _ same => numbered _ same

/-- The reader gets through a text up to what stands behind it, and its bound is not reached. -/
def ReadsUpTo (total bound : Nat) (progress : Progress) (cs rest : List Char) : Prop :=
  ∃ bound' progress', rest.length < bound' ∧
    readAlternatives total bound progress cs = readAlternatives total bound' progress' rest

theorem readsUpTo_repetitionText (repetition : Option Unbounded) (edge : IsEdge rest) {p : Pattern}
    {before : List (Pattern × Piece)} (pieces : progress.pieces = (p, .plain) :: before)
    (enough : (repetitionText repetition ++ rest).length < bound) :
    ReadsUpTo total bound progress (repetitionText repetition ++ rest) rest := by
  cases repetition with
  | none => exact ⟨bound, progress, enough, rfl⟩
  | some r =>
    obtain ⟨bound, rfl⟩ := Nat.exists_eq_succ_of_ne_zero (Nat.ne_zero_of_lt enough)
    obtain ⟨progress', read⟩ := readAlternatives_repetition r edge pieces
    refine ⟨bound, progress', ?_, read⟩
    obtain ⟨c, cs, same, -⟩ := r.exists_text
    -- the repetition takes at least the one character that a step of the bound pays for
    have size : r.text.length = cs.length + 1 := by rw [same, List.length_cons]
    have whole : (r.text ++ rest).length < bound + 1 := enough
    rw [List.length_append, size] at whole
    omega

/-- **A written pattern is read** up to what stands behind it. -/
theorem Written.readsUpTo (w : Written) (edge : IsEdge rest)
    (enough : (w.text ++ rest).length < bound) :
    ReadsUpTo total bound progress (w.text ++ rest) rest := by
  induction w generalizing bound progress rest with
  | empty => exact ⟨bound, progress, enough, rfl⟩
  | letter c plain repetition =>
    obtain ⟨bound, rfl⟩ := Nat.exists_eq_succ_of_ne_zero (Nat.ne_zero_of_lt enough)
    rw [text, List.cons_append, ReadsUpTo, readAlternatives_letter plain]
    exact readsUpTo_repetitionText repetition edge rfl (Nat.lt_of_succ_lt_succ enough)
  | group captures body repetition ih =>
    obtain ⟨bound, rfl⟩ := Nat.exists_eq_succ_of_ne_zero (Nat.ne_zero_of_lt enough)
    have whole : (group captures body repetition).text ++ rest = '(' :: (groupMark captures ++
        (body.text ++ ')' :: (repetitionText repetition ++ rest))) := by
      simp [text]
    rw [whole] at enough ⊢
    simp only [List.length_cons, List.length_append] at enough
    have inside : ReadsUpTo total bound
        (.fresh (if captures then progress.next + 1 else progress.next))
        (body.text ++ ')' :: (repetitionText repetition ++ rest))
        (')' :: (repetitionText repetition ++ rest)) := by
      refine ih (isEdge_cons (by decide) _) ?_
      simp only [List.length_cons, List.length_append]
      omega
    obtain ⟨bound', inner, more, same⟩ := inside
    obtain ⟨bound', rfl⟩ := Nat.exists_eq_succ_of_ne_zero (Nat.ne_zero_of_lt more)
    rw [readAlternatives_closing] at same
    obtain ⟨p, progress', pieces, read⟩ := readAlternatives_group same
    rw [ReadsUpTo, read]
    refine readsUpTo_repetitionText repetition edge pieces ?_
    rw [List.length_append]
    omega
  | concat v w ihv ihw =>
    rw [text, List.append_assoc] at enough ⊢
    obtain ⟨bound, progress, enough, first⟩ := ihv (w.isEdge_append edge) enough
    obtain ⟨bound', progress', enough', second⟩ := ihw edge enough
    exact ⟨bound', progress', enough', first.trans second⟩
  | either v w ihv ihw =>
    rw [text, List.append_assoc, List.cons_append] at enough ⊢
    obtain ⟨bound, progress, enough, first⟩ := ihv (isEdge_cons (by decide) _) enough
    obtain ⟨bound, rfl⟩ := Nat.exists_eq_succ_of_ne_zero (Nat.ne_zero_of_lt enough)
    rw [readAlternatives_bar] at first
    obtain ⟨bound', progress', enough', second⟩ := ihw edge (Nat.lt_of_succ_lt_succ enough)
    exact ⟨bound', progress', enough', first.trans second⟩

/-- **Every written pattern is a pattern.** -/
theorem Written.exists_read (w : Written) : ∃ p, Pattern.read w.source = .ok p := by
  have whole : ReadsUpTo w.text.length (w.text.length + 1) (.fresh 1) (w.text ++ []) [] :=
    w.readsUpTo isEdge_nil (by simp)
  obtain ⟨bound, progress, more, read⟩ := whole
  obtain ⟨bound, rfl⟩ := Nat.exists_eq_succ_of_ne_zero (Nat.ne_zero_of_lt more)
  rw [List.append_nil, readAlternatives_nil] at read
  refine ⟨progress.finished, ?_⟩
  rw [Pattern.read, source, String.toList_ofList, read]
  rfl

end Reading

end BracketCss.Pattern
