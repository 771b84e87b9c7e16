import BracketCss.Proofs.Value.Resplit

/-!
# Pieces of values

Three scanners read a value: one checks its structure, one cuts it at separators and one reads it
as a call. All three follow quotes and parentheses in the same way, and the texts that they take for
balanced are those of a grammar. So cutting loses nothing but the separators, a call is exactly a
name with a balanced text in parentheses behind it, and what is cut out of a checked value, or
stands between the parentheses of a call in it, is balanced again.

## Main definitions

* `Scan.rejoin first cuts`, `Scan.IsRejoined`: a text put together from segments and the separators
  between them
* `Scan.IsNested cs`: the grammar of balanced texts
* `Scan.IsFunctionName name`: the names that functions have
* `Scan.Piece cs piece`: what the scanners come to read when they read a text

## Main results

* `Scan.exists_isRejoined_segments`: nothing but separators is lost when a text is cut
* `Scan.isBalanced_iff_isNested`: the balanced texts are the nested ones
* `Scan.call?_eq_some_iff_isBalanced`: the texts that are one call
* `Scan.Piece.isBalanced`: the pieces of a balanced text are balanced
* `Scan.isRejoined_segments_and_check_parts`: the scanners agree
-/

namespace BracketCss.Scan

open Text

variable {separator : Char → Bool} {cs : List Char}

/-! ## Segments put together -/

/-- The text of a first segment, and of separators that each have a segment behind them. -/
def rejoin (first : List Char) (cuts : List (Char × List Char)) : List Char :=
  first ++ cuts.flatMap fun cut => cut.1 :: cut.2

theorem rejoin_cons (first : List Char) (cut : Char × List Char) (cuts : List (Char × List Char)) :
    rejoin first (cut :: cuts) = first ++ cut.1 :: rejoin cut.2 cuts := by
  simp [rejoin]

/-- A text is put together from its segments: between them stand separators, each behind a text that
leaves nothing open, and no segment holds another such separator. -/
structure IsRejoined (separator : Char → Bool) (cs first : List Char)
    (cuts : List (Char × List Char)) : Prop where
  text_eq : rejoin first cuts = cs
  separates : ∀ cut ∈ cuts, separator cut.1 ∧ isStructural cut.1 = false
  /-- What stands before a separator leaves nothing open. -/
  closed : ∀ front cut back, cuts = front ++ cut :: back → IsClosed (rejoin first front)
  uncut : ∀ segment ∈ first :: cuts.map Prod.snd, IsUncut separator segment

theorem IsRejoined.cons {first rest : List Char} {c : Char} {cuts : List (Char × List Char)}
    {second : List Char} (closed : IsClosed first) (uncut : IsUncut separator first)
    (hc : separator c) (structural : isStructural c = false)
    (h : IsRejoined separator rest second cuts) :
    IsRejoined separator (first ++ c :: rest) first ((c, second) :: cuts) where
  text_eq := by rw [rejoin_cons, h.text_eq]
  separates := List.forall_mem_cons.2 ⟨⟨hc, structural⟩, h.separates⟩
  closed := by
    intro front cut back same
    cases front with
    | nil => simpa [rejoin] using closed
    | cons other front =>
      rw [List.cons_append, List.cons.injEq] at same
      obtain ⟨rfl, same⟩ := same
      have single : IsClosed [c] := isClosed_of_plain (List.forall_mem_singleton.2 structural)
      rw [rejoin_cons, closed.append_iff, ← List.singleton_append, single.append_iff]
      exact h.closed front cut back same
  uncut := List.forall_mem_cons.2 ⟨uncut, h.uncut⟩

/-- **Nothing but separators is lost** when a text is cut. -/
theorem exists_isRejoined_segments (separator : Char → Bool) (cs : List Char) :
    ∃ first cuts, segments separator cs = first :: cuts.map Prod.snd ∧
      IsRejoined separator cs first cuts := by
  have cutting := @cutsInto_segments separator cs
  generalize segments separator cs = texts at cutting ⊢
  induction cutting with
  | @whole cs uncut =>
    exact ⟨cs, [], rfl, by simp [rejoin], by simp, by simp, by simpa using uncut⟩
  | @first first _ c _ uncut closed hc structural _ ih =>
    obtain ⟨second, cuts, rfl, rejoined⟩ := ih
    exact ⟨first, (c, second) :: cuts, rfl, rejoined.cons closed uncut hc structural⟩

/-! ## Balanced texts -/

/-- A text in which strings end at the next quote of their kind, and parentheses outside strings
come in pairs, one inside another or one behind another. -/
inductive IsNested : List Char → Prop
  /-- The empty text. -/
  | nil : IsNested []
  /-- Any other character, and what follows it. -/
  | plain {c : Char} {rest : List Char} : c ∉ ['"', '\'', '(', ')'] → IsNested rest →
      IsNested (c :: rest)
  /-- A string, and what follows it. -/
  | quoted {q : Char} {body rest : List Char} : q = '"' ∨ q = '\'' → q ∉ body → IsNested rest →
      IsNested (q :: (body ++ q :: rest))
  /-- A text in parentheses, and what follows it. -/
  | enclosed {inner rest : List Char} : IsNested inner → IsNested rest →
      IsNested ('(' :: (inner ++ ')' :: rest))

theorem isStructural_eq_false_iff {c : Char} :
    isStructural c = false ↔ c ∉ ['"', '\'', '(', ')'] := by
  simp [isStructural, isQuote, and_assoc]

theorem isQuote_iff {q : Char} : isQuote q ↔ q = '"' ∨ q = '\'' := by simp [isQuote]

/-- Within a string everything but its quote is passed over. -/
theorem State.run_string {q : Char} {body : List Char} (inside : q ∉ body) :
    State.run ⟨some q, 0⟩ body = ⟨some q, 0⟩ := by
  induction body with
  | nil => rfl
  | cons c body ih =>
    rw [List.mem_cons, not_or] at inside
    obtain ⟨other, inside⟩ := inside
    have stays : State.step ⟨some q, 0⟩ c = ⟨some q, 0⟩ := by simp [State.step, Ne.symm other]
    rw [State.run_cons, stays, ih inside]

theorem State.step_quote {q : Char} (hq : isQuote q) :
    State.initial.step q = ⟨some q, 0⟩ ∧ State.step ⟨some q, 0⟩ q = .initial := by
  simp [State.step, State.initial, hq]

theorem isBalanced_string {q : Char} (hq : isQuote q) {body : List Char} (inside : q ∉ body) :
    IsBalanced (q :: (body ++ [q])) := by
  obtain ⟨opening, closing⟩ := State.step_quote hq
  have closed : State.run ⟨some q, 0⟩ (body ++ [q]) = .initial := by
    rw [State.run_append, State.run_string inside, State.run_cons, closing, State.run_nil]
  refine ⟨State.staysUp_cons.2 ⟨Int.le_refl 0, ?_⟩, ?_⟩
  · rw [opening]
    intro front start
    rcases List.prefix_concat_iff.1 start with rfl | start
    · rw [closed]
      exact Int.le_refl 0
    · rw [State.run_string fun mem => inside (start.subset mem)]
  · rw [IsClosed, State.run_cons, opening, closed]

/-- A balanced text that starts with a quote starts with a string. -/
theorem IsBalanced.exists_string {q : Char} (hq : isQuote q) {rest : List Char}
    (h : IsBalanced (q :: rest)) :
    ∃ body after, rest = body ++ q :: after ∧ q ∉ body ∧ IsBalanced after := by
  obtain ⟨opening, -⟩ := State.step_quote hq
  have closes : q ∈ rest := by
    by_contra inside
    have open_ := h.closed
    rw [IsClosed, State.run_cons, opening, State.run_string inside] at open_
    cases open_
  obtain ⟨body, after, rfl, inside⟩ := List.eq_append_cons_of_mem closes
  refine ⟨body, after, rfl, inside, ?_⟩
  have string := isBalanced_string hq inside
  rw [show q :: (body ++ q :: after) = q :: (body ++ [q]) ++ after by simp,
    isBalanced_append_iff string.closed] at h
  exact h.2

/-- Parentheses that are all closed in the end are closed somewhere. -/
theorem exists_untilClosed {s : State} (inside : 0 < s.depth) (closed : s.run cs = .initial) :
    ∃ arguments after, untilClosed s cs = some (arguments, after) := by
  induction cs generalizing s with
  | nil =>
    obtain rfl : s = .initial := closed
    exact absurd inside (by decide)
  | cons c cs ih =>
    rw [untilClosed]
    split
    · exact ⟨[], cs, rfl⟩
    · next deeper =>
      have inside' : 0 < (s.step c).depth := by
        have := (State.step_of_inside inside c).1
        omega
      obtain ⟨arguments, after, found⟩ := ih inside' closed
      exact ⟨c :: arguments, after, by rw [found]; rfl⟩

/-- A text is read up to a parenthesis exactly if what stands before it is balanced. -/
theorem untilClosed_eq_some_iff_isBalanced {arguments after : List Char} :
    untilClosed ⟨none, 1⟩ (arguments ++ ')' :: after) = some (arguments, after) ↔
      IsBalanced arguments := by
  rw [← untilClosed_eq_some_iff, untilClosed_iff Int.one_pos, untilClosed_iff Int.one_pos]

theorem IsBalanced.enclosed {inner : List Char} (h : IsBalanced inner) :
    IsBalanced ('(' :: (inner ++ [')'])) :=
  IsBalanced.call (List.forall_mem_nil _) h

/-- A balanced text that starts with a parenthesis starts with a balanced text in parentheses. -/
theorem IsBalanced.exists_enclosed {rest : List Char} (h : IsBalanced ('(' :: rest)) :
    ∃ inner after, rest = inner ++ ')' :: after ∧ IsBalanced inner ∧ IsBalanced after := by
  obtain ⟨inner, after, found⟩ := exists_untilClosed (s := ⟨none, 1⟩) Int.one_pos h.closed
  obtain ⟨rfl, -⟩ := untilClosed_spec Int.one_pos found
  have balanced := untilClosed_eq_some_iff_isBalanced.1 found
  refine ⟨inner, after, rfl, balanced, ?_⟩
  rw [show '(' :: (inner ++ ')' :: after) = '(' :: (inner ++ [')']) ++ after by simp,
    isBalanced_append_iff balanced.enclosed.closed] at h
  exact h.2

theorem IsNested.isBalanced (h : IsNested cs) : IsBalanced cs := by
  induction h with
  | nil => exact isBalanced_plain (List.forall_mem_nil _)
  | @plain c rest other _ ih =>
    have single : IsBalanced [c] :=
      isBalanced_plain (List.forall_mem_singleton.2 (isStructural_eq_false_iff.2 other))
    exact (isBalanced_append_iff single.closed).2 ⟨single, ih⟩
  | @quoted q body rest hq inside _ ih =>
    have string := isBalanced_string (isQuote_iff.2 hq) inside
    simpa using (isBalanced_append_iff string.closed).2 ⟨string, ih⟩
  | @enclosed inner rest _ _ ihInner ihRest =>
    have front := ihInner.enclosed
    simpa using (isBalanced_append_iff front.closed).2 ⟨front, ihRest⟩

theorem IsBalanced.isNested (h : IsBalanced cs) : IsNested cs := by
  -- what stands in parentheses and behind them are any shorter texts
  induction size : cs.length using Nat.strongRecOn generalizing cs with
  | ind n ih =>
    subst size
    cases cs with
    | nil => exact .nil
    | cons c rest =>
      by_cases other : c ∉ ['"', '\'', '(', ')']
      · have single : IsBalanced [c] :=
          isBalanced_plain (List.forall_mem_singleton.2 (isStructural_eq_false_iff.2 other))
        obtain ⟨-, after⟩ := (isBalanced_append_iff single.closed).1 h
        exact .plain other (ih _ (Nat.lt_succ_self _) after rfl)
      · rw [not_not] at other
        by_cases hq : isQuote c
        · obtain ⟨body, after, rfl, inside, balanced⟩ := h.exists_string hq
          have shorter : after.length < (c :: (body ++ c :: after)).length := by
            simp only [List.length_cons, List.length_append]
            omega
          exact .quoted (isQuote_iff.1 hq) inside (ih _ shorter balanced rfl)
        · obtain rfl | rfl : c = '(' ∨ c = ')' := by
            rw [isQuote_iff] at hq
            simpa [not_or.1 hq] using other
          · obtain ⟨inner, after, rfl, enclosed, balanced⟩ := h.exists_enclosed
            have shorter : inner.length < ('(' :: (inner ++ ')' :: after)).length ∧
                after.length < ('(' :: (inner ++ ')' :: after)).length := by
              simp only [List.length_cons, List.length_append]
              omega
            exact .enclosed (ih _ shorter.1 enclosed rfl) (ih _ shorter.2 balanced rfl)
          · have down := (State.staysUp_cons.1 h.up).2.depth
            exact absurd down (by decide)

/-- **The balanced texts are the nested ones.** -/
theorem isBalanced_iff_isNested : IsBalanced cs ↔ IsNested cs :=
  ⟨IsBalanced.isNested, IsNested.isBalanced⟩

/-! ## Calls -/

/-- The name of a function: an ASCII letter, and then letters, digits and hyphens. -/
structure IsFunctionName (name : List Char) : Prop where
  letter : ∃ c ∈ name.head?, isAsciiLetter c
  nameLike : ∀ c ∈ name, isAsciiNameChar c

/-- The arguments of a call are balanced. -/
theorem isBalanced_of_call? {call : Call} (h : call? cs = some call) :
    IsBalanced call.arguments := by
  obtain ⟨_, _, -, -, -, -, -, found⟩ := call?_eq_some h
  exact untilClosed_eq_some_iff_isBalanced.1 found

/-- **A text is one call** exactly if it is a name, a balanced text in parentheses and blanks; the
call has the name in lower case, and the balanced text as its arguments. A text is balanced if its
strings and parentheses are nested. -/
theorem call?_eq_some_iff_isBalanced {call : Call} :
    (call? cs = some call ↔
      ∃ name after, cs = name ++ '(' :: (call.arguments ++ ')' :: after) ∧ IsFunctionName name ∧
        call.name = .ofList (lower name) ∧ IsBalanced call.arguments ∧ ∀ c ∈ after, isBlank c) ∧
    ∀ arguments, IsBalanced arguments ↔ IsNested arguments := by
  refine ⟨⟨fun h => ?_, ?_⟩, fun _ => isBalanced_iff_isNested⟩
  · obtain ⟨name, after, same, named, letter, nameLike, blank, -⟩ := call?_eq_some h
    exact ⟨name, after, same, ⟨letter, nameLike⟩, named, isBalanced_of_call? h, blank⟩
  · rintro ⟨name, after, rfl, ⟨letter, nameLike⟩, named, balanced, blank⟩
    have first : name.head?.any isAsciiLetter := (Option.any_eq_true _ _).2 letter
    rw [call?_of_untilClosed first nameLike (untilClosed_eq_some_iff_isBalanced.2 balanced) blank,
      ← named]

/-- A name may be read only at the start, and a call ends with the parenthesis that closes it. -/
example : call? "F-1(g(\"(\"), ')') ".toList = some ⟨"f-1", "g(\"(\"), ')'".toList⟩ ∧
    call? "f(a) g(b)".toList = none := by decide

/-! ## Pieces -/

/-- What the scanners come to read when they read a text: the text itself, the parts of a piece
between any separators, and the arguments of a piece that is a call. -/
inductive Piece (cs : List Char) : List Char → Prop
  | whole : Piece cs cs
  | part {piece part : List Char} (separator : Char → Bool) :
      Piece cs piece → part ∈ parts separator piece → Piece cs part
  | arguments {piece : List Char} {call : Call} :
      Piece cs piece → call? piece = some call → Piece cs call.arguments

theorem IsBalanced.trim (h : IsBalanced cs) : IsBalanced (trim cs) := by
  have closed := h.closed.trim
  obtain ⟨lead, trail, same, leadBlank, -⟩ := exists_trim cs
  have front : IsClosed lead := isClosed_of_plain fun c hc => isBlank_structural (leadBlank c hc)
  rw [same, isBalanced_append_iff front, isBalanced_append_iff closed] at h
  exact h.2.1

/-- **No piece of a balanced text is unbalanced.** -/
theorem Piece.isBalanced {piece : List Char} (h : Piece cs piece) (balanced : IsBalanced cs) :
    IsBalanced piece := by
  induction h with
  | whole => exact balanced
  | part separator _ mem ih =>
    obtain ⟨segment, inside, rfl⟩ := List.mem_map.1 mem
    exact (ih.of_mem_segments segment inside).trim
  | arguments _ called _ => exact isBalanced_of_call? called

/-- **The scanners agree.** Cutting loses nothing but separators at the top level, and leaves none;
the parts are the segments without blanks at their ends. The parts between commas and the words of
a checked text are checked texts, and whatever is cut out of it further, or stands between the
parentheses of a call there, is balanced. -/
theorem isRejoined_segments_and_check_parts (separator : Char → Bool) (cs : List Char) :
    (∃ first cuts, segments separator cs = first :: cuts.map Prod.snd ∧
        IsRejoined separator cs first cuts) ∧
      parts separator cs = (segments separator cs).map trim ∧
      (check cs = .ok () →
        (∀ part ∈ commaParts cs, check part = .ok ()) ∧ (∀ w ∈ topWords cs, check w = .ok ()) ∧
          ∀ piece, Piece cs piece → IsNested piece) := by
  refine ⟨exists_isRejoined_segments separator cs, rfl, fun checked => ?_⟩
  refine ⟨check_of_mem_parts checked, fun w mem => ?_, fun piece h => ?_⟩
  · exact check_of_mem_parts checked w (List.mem_of_mem_filter mem)
  · exact (h.isBalanced (check_eq_ok_iff.1 checked).1).isNested

theorem isRejoined_segments_and_check_parts_call :
    check "f(a, ')') \"b, (\", c d".toList = .ok () ∧
      commaParts "f(a, ')') \"b, (\", c d".toList =
        ["f(a, ')') \"b, (\"".toList, "c d".toList] ∧
      (∀ part ∈ commaParts "f(a, ')') \"b, (\", c d".toList, check part = .ok ()) ∧
      ∀ piece, Piece "f(a, ')') \"b, (\", c d".toList piece → IsNested piece := by
  have checked : check "f(a, ')') \"b, (\", c d".toList = .ok () := by decide
  obtain ⟨-, -, agree⟩ :=
    isRejoined_segments_and_check_parts (· == ',') "f(a, ')') \"b, (\", c d".toList
  exact ⟨checked, by decide, (agree checked).1, (agree checked).2.2⟩

end BracketCss.Scan
