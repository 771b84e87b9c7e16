import BracketCss.Proofs.Value.Words

/-!
# What is not cut

A call is one word, and so is a quoted text: within parentheses and quotes nothing is cut. So a raw
value that is taken apart and put together keeps its words.

## Main results

* `Scan.untilClosed_spec`, `Scan.exists_of_call?`: the text of a call
* `Scan.gapWords_call`, `Scan.gapWords_quoted`: a call is one word, and so is a quoted text
* `Components.ofText_eq_ok_iff`: what it takes to take a value apart, and what it comes to
* `Components.gapWords_ofText`: taking a value apart and putting it together keeps its words
-/

namespace BracketCss.Scan

open Text

/-! ## Calls -/

/-- Only a closing parenthesis outside quotes leaves the last parenthesis. -/
theorem State.step_of_inside {s : State} (inside : 0 < s.depth) (c : Char) :
    0 ≤ (s.step c).depth ∧ ((s.step c).depth = 0 → c = ')' ∧ s.step c = .initial) := by
  obtain ⟨quote, depth⟩ := s
  simp only at inside
  cases quote with
  | some q =>
    have same : (State.step ⟨some q, depth⟩ c).depth = depth := by
      simp only [State.step]
      split <;> rfl
    rw [same]
    exact ⟨by omega, fun zero => by omega⟩
  | none =>
    simp only [State.step]
    split
    · exact ⟨by simp only; omega, fun zero => by simp only at zero; omega⟩
    · split
      · exact ⟨by simp only; omega, fun zero => by simp only at zero; omega⟩
      · split
        · next closing =>
          refine ⟨by simp only; omega, fun zero => ⟨closing, ?_⟩⟩
          simp only at zero
          simp only [State.initial, zero]
        · exact ⟨by simp only; omega, fun zero => by simp only at zero; omega⟩

/-- Within parentheses nothing is cut, up to the one that closes them. -/
theorem untilClosed_spec {s : State} (inside : 0 < s.depth) {cs arguments after : List Char}
    (h : untilClosed s cs = some (arguments, after)) :
    cs = arguments ++ ')' :: after ∧ s.run (arguments ++ [')']) = .initial ∧
      ∀ separator, segmentsFrom separator s cs =
        (arguments ++ ')' :: (segmentsFrom separator .initial after).1,
          (segmentsFrom separator .initial after).2) := by
  induction cs generalizing s arguments with
  | nil => cases h
  | cons c cs ih =>
    have uncut : ∀ separator : Char → Bool,
        (s.isTop && !isStructural c && separator c) = false := by
      intro separator
      have notTop : s.isTop = false := by
        rw [State.isTop, Bool.and_eq_false_iff]
        right
        rw [beq_eq_false_iff_ne]
        omega
      rw [notTop, Bool.false_and, Bool.false_and]
    rw [untilClosed] at h
    split at h
    · next top =>
      obtain ⟨rfl, rfl⟩ := Prod.mk.inj (Option.some.inj h)
      obtain ⟨rfl, initial⟩ := (State.step_of_inside inside c).2 top
      refine ⟨rfl, initial, fun separator => ?_⟩
      rw [segmentsFrom_step (uncut separator), initial]
      rfl
    · next deeper =>
      obtain ⟨⟨rest, after'⟩, found, same⟩ := Option.map_eq_some_iff.1 h
      obtain ⟨rfl, rfl⟩ := Prod.mk.inj same
      have inside' : 0 < (s.step c).depth := by
        have := (State.step_of_inside inside c).1
        omega
      obtain ⟨rfl, top, segments_⟩ := ih inside' found
      refine ⟨rfl, top, fun separator => ?_⟩
      rw [segmentsFrom_step (uncut separator), segments_ separator]
      rfl

/-- Characters that structure nothing stand in front of what is found. -/
theorem untilClosed_plain_append {s : State} (sound : s.IsSound) (inside : 0 < s.depth)
    {xs : List Char} (plain : ∀ c ∈ xs, isStructural c = false) (ys : List Char) :
    untilClosed s (xs ++ ys) = (untilClosed s ys).map fun found => (xs ++ found.1, found.2) := by
  induction xs with
  | nil => simp
  | cons x xs ih =>
    obtain ⟨first, others⟩ := List.forall_mem_cons.1 plain
    rw [List.cons_append, untilClosed, sound.step_plain first, if_neg (by omega), ih others,
      Option.map_map]
    rfl

/-- A text is its leading characters of a class and the others. -/
theorem takeWhile_append_drop (p : Char → Bool) (cs : List Char) :
    cs.takeWhile p ++ cs.drop (cs.takeWhile p).length = cs := by
  have front := List.prefix_iff_eq_take.1 (List.takeWhile_prefix p (l := cs))
  conv_rhs => rw [← List.take_append_drop (cs.takeWhile p).length cs, ← front]

/-- What a call is made of. -/
theorem call?_eq_some {cs : List Char} {call : Call} (h : call? cs = some call) :
    ∃ name after, cs = name ++ '(' :: (call.arguments ++ ')' :: after) ∧
      call.name = .ofList (lower name) ∧ (∃ c ∈ name.head?, isAsciiLetter c) ∧
      (∀ c ∈ name, isAsciiNameChar c) ∧ (∀ c ∈ after, isBlank c) ∧
      untilClosed ⟨none, 1⟩ (call.arguments ++ ')' :: after) = some (call.arguments, after) := by
  have cut := (takeWhile_append_drop isAsciiNameChar cs).symm
  simp only [call?] at h
  split at h
  · next rest opening =>
    rw [opening] at cut
    split at h
    · next letter =>
      split at h
      · next arguments after found =>
        split at h
        · next blank =>
          obtain rfl := Option.some.inj h
          obtain ⟨rfl, -⟩ := untilClosed_spec (by decide) found
          refine ⟨_, after, cut, rfl, ?_, ?_, List.all_eq_true.1 blank, found⟩
          · obtain ⟨c, hc, letter⟩ := (Option.any_eq_true _ _).1 letter
            exact ⟨c, hc, letter⟩
          · exact fun c hc => List.all_eq_true.1 List.all_takeWhile c hc
        · cases h
      · cases h
    · cases h
  · cases h

/-- What it takes to be a call. -/
theorem call?_of_untilClosed {name rest arguments after : List Char}
    (letter : name.head?.any isAsciiLetter) (nameLike : ∀ c ∈ name, isAsciiNameChar c)
    (found : untilClosed ⟨none, 1⟩ rest = some (arguments, after))
    (blank : ∀ c ∈ after, isBlank c) :
    call? (name ++ '(' :: rest) = some ⟨.ofList (lower name), arguments⟩ := by
  have front : (name ++ '(' :: rest).takeWhile isAsciiNameChar = name := by
    rw [List.takeWhile_append_of_pos nameLike, List.takeWhile_cons_of_neg (by decide),
      List.append_nil]
  have blank' : after.all isBlank := List.all_eq_true.2 blank
  simp [call?, front, letter, found, blank']

theorem isGap_of_isAsciiNameChar {c : Char} (h : isAsciiNameChar c) :
    isGap c = false ∧ isStructural c = false := by
  have comma : c ≠ ',' := by
    rintro rfl
    cases h
  constructor
  · rw [isGap, Bool.or_eq_false_iff, beq_eq_false_iff_ne]
    exact ⟨isBlank_of_isAsciiNameChar h, comma⟩
  · rw [Bool.eq_false_iff]
    intro structural
    simp only [isStructural, isQuote, Bool.or_eq_true, beq_iff_eq] at structural
    rcases structural with ((rfl | rfl) | rfl) | rfl <;> exact absurd h (by decide)

theorem segmentsFrom_solid_append {separator : Char → Bool} {s : State} (sound : s.IsSound)
    {xs : List Char} (solid : ∀ c ∈ xs, separator c = false ∧ isStructural c = false)
    (ys : List Char) :
    segmentsFrom separator s (xs ++ ys) =
      (xs ++ (segmentsFrom separator s ys).1, (segmentsFrom separator s ys).2) := by
  induction xs with
  | nil => rfl
  | cons x xs ih =>
    obtain ⟨other, structural⟩ := solid x List.mem_cons_self
    rw [List.cons_append, segmentsFrom_step (by simp [other]), sound.step_plain structural,
      ih fun c hc => solid c (List.mem_cons_of_mem _ hc)]
    rfl

/-- A trimmed call ends with its closing parenthesis. -/
theorem exists_of_call? {cs : List Char} {call : Call} (h : call? cs = some call)
    (trimmed : trim cs = cs) :
    ∃ name, cs = name ++ '(' :: (call.arguments ++ [')']) ∧ call.name = .ofList (lower name) ∧
      (∃ c ∈ name.head?, isAsciiLetter c) ∧ (∀ c ∈ name, isAsciiNameChar c) ∧
      untilClosed ⟨none, 1⟩ (call.arguments ++ [')']) = some (call.arguments, []) := by
  obtain ⟨name, after, same, named, letter, nameLike, blank, found⟩ := call?_eq_some h
  have nothing : after = [] := by
    rcases List.eq_nil_or_concat' after with empty | ⟨front, c, rfl⟩
    · exact empty
    · have last : cs.getLast? = some c := by
        rw [same, ← List.cons_append, ← List.append_assoc, ← List.cons_append, ← List.append_assoc,
          List.getLast?_concat]
      rw [← trimmed] at last
      have solid := not_isBlank_of_getLast?_trim last
      rw [blank c (by simp)] at solid
      cases solid
  subst nothing
  exact ⟨name, same, named, letter, nameLike, found⟩

/-- A call is closed, and nothing in it separates words. -/
theorem segments_call {separator : Char → Bool}
    (names : ∀ c, isAsciiNameChar c → separator c = false) {cs : List Char} {call : Call}
    (h : call? cs = some call) (trimmed : trim cs = cs) :
    IsClosed cs ∧ segments separator cs = [cs] := by
  obtain ⟨name, same, -, -, nameLike, found⟩ := exists_of_call? h trimmed
  obtain ⟨-, top, segments_⟩ := untilClosed_spec (by decide) found
  have solid : ∀ c ∈ name, separator c = false ∧ isStructural c = false := fun c hc =>
    ⟨names c (nameLike c hc), (isGap_of_isAsciiNameChar (nameLike c hc)).2⟩
  have opening : State.initial.step '(' = ⟨none, 1⟩ := rfl
  constructor
  · rw [IsClosed, same, State.run_append,
      State.isSound_initial.run_plain fun c hc => (solid c hc).2, State.run_cons, opening, top]
  · rw [segments, same, segmentsFrom_solid_append State.isSound_initial solid,
      segmentsFrom_step (by simp [isStructural]), opening, segments_]
    rfl

/-- A call is closed, and it is one word. -/
theorem gapWords_call {cs : List Char} {call : Call} (h : call? cs = some call)
    (trimmed : trim cs = cs) : IsClosed cs ∧ gapWords cs = [cs] := by
  obtain ⟨closed, whole⟩ :=
    segments_call (fun c hc => (isGap_of_isAsciiNameChar hc).1) h trimmed
  refine ⟨closed, wordsBy_of_segments whole trimmed ?_⟩
  rintro rfl
  cases h

/-! ## Quoted texts -/

/-- Within quotes nothing is cut, up to the quote that closes them. -/
theorem segmentsFrom_quoted {q : Char} {body : List Char} (inside : ∀ c ∈ body, c ≠ q)
    (separator : Char → Bool) :
    State.run ⟨some q, 0⟩ (body ++ [q]) = .initial ∧
      segmentsFrom separator ⟨some q, 0⟩ (body ++ [q]) = (body ++ [q], []) := by
  induction body with
  | nil =>
    have closing : State.step ⟨some q, 0⟩ q = .initial := by simp [State.step]; rfl
    refine ⟨closing, ?_⟩
    rw [List.nil_append, segmentsFrom_step (by simp [State.isTop])]
    rfl
  | cons c body ih =>
    have stays : State.step ⟨some q, 0⟩ c = ⟨some q, 0⟩ := by
      simp [State.step, inside c List.mem_cons_self]
    obtain ⟨closed, whole⟩ := ih fun d hd => inside d (List.mem_cons_of_mem _ hd)
    rw [List.cons_append, State.run_cons, stays, segmentsFrom_step (by simp [State.isTop]), stays,
      whole]
    exact ⟨closed, rfl⟩

/-- A quoted text is closed, and it is one word. -/
theorem gapWords_quoted {q : Char} (hq : isQuote q) {body : List Char}
    (inside : ∀ c ∈ body, c ≠ q) :
    IsClosed (q :: (body ++ [q])) ∧ gapWords (q :: (body ++ [q])) = [q :: (body ++ [q])] := by
  have opening : State.initial.step q = ⟨some q, 0⟩ := by simp [State.step, hq]; rfl
  have structural : isStructural q := by simp [isStructural, hq]
  obtain ⟨closed, whole⟩ := segmentsFrom_quoted inside isGap
  constructor
  · rw [IsClosed, State.run_cons, opening, closed]
  · have one : segments isGap (q :: (body ++ [q])) = [q :: (body ++ [q])] := by
      rw [segments, segmentsFrom_step (by simp [structural]), opening, whole]
    have notBlank : isBlank q = false := by
      rw [Bool.eq_false_iff]
      intro blank
      rw [isBlank_structural blank] at structural
      cases structural
    have trimmed : trim (q :: (body ++ [q])) = q :: (body ++ [q]) := by
      refine trim_eq_self (fun c hc => ?_) fun c hc => ?_
      · rwa [← Option.some.inj hc]
      · rw [← List.cons_append, List.getLast?_concat] at hc
        rwa [← Option.some.inj hc]
    exact wordsBy_of_segments one trimmed (List.cons_ne_nil _ _)

end BracketCss.Scan

namespace BracketCss.Components

open Text Scan

theorem toList_respaced (part : List Char) :
    (respaced part).toList = [' '].intercalate (topWords part) := by
  rw [respaced, String.toList_intercalate, List.map_map]
  congr 1
  exact List.map_congr_left (g := id) (fun w _ => String.toList_ofList) |>.trans (List.map_id _)

/-- Putting a part together again keeps its words. -/
theorem respaced_spec {part : List Char} (closed : IsClosed part) :
    IsClosed (respaced part).toList ∧ gapWords (respaced part).toList = gapWords part := by
  have words : ∀ w ∈ topWords part, IsClosed w := fun w hw => isClosed_of_mem_topWords closed hw
  rw [toList_respaced]
  constructor
  · exact isClosed_intercalate (by simp [isStructural, isQuote]) words
  · rw [gapWords_intercalate (by simp) (by simp [isGap, isBlank]) words, gapWords_topWords closed]

/-- **What it takes to take a value apart**, and what it comes to: one call of a listed function is
kept whole, and another value is put together from its parts. -/
theorem ofText_eq_ok_iff {allowSpaces : Bool} {joiner raw : String} {components : Components} :
    ofText allowSpaces joiner raw = .ok components ↔
    trim raw.toList ≠ [] ∧ check (trim raw.toList) = .ok () ∧
      ((callOf? safeFunctions (trim raw.toList)).isSome ∧
          components = ⟨.ofList (trim raw.toList), [.ofList (trim raw.toList)], true⟩ ∨
        callOf? safeFunctions (trim raw.toList) = none ∧ [] ∉ commaParts (trim raw.toList) ∧
          (allowSpaces = false →
            ∀ part ∈ commaParts (trim raw.toList), (topWords part).length ≤ 1) ∧
          components = ⟨joiner.intercalate ((commaParts (trim raw.toList)).map respaced),
            ((commaParts (trim raw.toList)).flatMap (partsOf allowSpaces)).map String.ofList,
            false⟩) := by
  generalize hcs : trim raw.toList = cs
  have spaced : (∀ part ∈ commaParts cs, (topWords part).length ≤ 1) ↔
      firstSpaced? (commaParts cs) = none := by
    simp [firstSpaced?, List.find?_eq_none]
  simp only [ofText, bind, Except.bind, pure, Except.pure, hcs, List.isEmpty_iff, spaced]
  by_cases empty : cs = []
  · simp [empty]
  · cases checked : check cs with
    | error fault => simp [Except.mapError, empty]
    | ok =>
      cases call : callOf? safeFunctions cs with
      | some call => simp [Except.mapError, empty, eq_comm]
      | none =>
        by_cases filled : [] ∈ commaParts cs
        · simp [Except.mapError, empty, filled]
        · cases allowSpaces with
          | true => simp [Except.mapError, empty, filled, eq_comm]
          | false =>
            cases found : firstSpaced? (commaParts cs) with
            | some part => simp [Except.mapError, empty, filled]
            | none => simp [Except.mapError, empty, filled, eq_comm]

/-- A value that is taken apart is left whole, or put together again from its parts. -/
theorem ofText_eq_ok {allowSpaces : Bool} {joiner raw : String} {components : Components}
    (h : ofText allowSpaces joiner raw = .ok components) :
    trim raw.toList ≠ [] ∧ check (trim raw.toList) = .ok () ∧
      (components.normalized = .ofList (trim raw.toList) ∨
        components.normalized =
          joiner.intercalate ((commaParts (trim raw.toList)).map respaced)) := by
  obtain ⟨filled, checked, ⟨-, rfl⟩ | ⟨-, -, -, rfl⟩⟩ := ofText_eq_ok_iff.1 h
  · exact ⟨filled, checked, .inl rfl⟩
  · exact ⟨filled, checked, .inr rfl⟩

/-- **Taking a value apart and putting it together again keeps its words**, whatever commas and
spaces are used for it. -/
theorem gapWords_ofText {allowSpaces : Bool} {joiner : String}
    (hjoiner : joiner = " " ∨ joiner = ", ") {raw : String} {components : Components}
    (h : ofText allowSpaces joiner raw = .ok components) :
    IsClosed (trim raw.toList) ∧ IsClosed components.normalized.toList ∧
      gapWords components.normalized.toList = gapWords (trim raw.toList) := by
  have gap : joiner.toList ≠ [] ∧ ∀ c ∈ joiner.toList, isGap c := by
    rcases hjoiner with rfl | rfl <;> simp [isGap, isBlank]
  obtain ⟨-, checked, normal⟩ := ofText_eq_ok h
  have closed := isClosed_of_check checked
  refine ⟨closed, ?_⟩
  rcases normal with same | same
  · rw [same, String.toList_ofList]
    exact ⟨closed, rfl⟩
  · have parts_ : ∀ part ∈ commaParts (trim raw.toList), IsClosed (respaced part).toList ∧
        gapWords (respaced part).toList = gapWords part := fun part mem =>
      respaced_spec (isClosed_of_mem_parts closed mem)
    have closed' : ∀ x ∈ ((commaParts (trim raw.toList)).map respaced).map String.toList,
        IsClosed x := by
      intro x hx
      obtain ⟨s, hs, rfl⟩ := List.mem_map.1 hx
      obtain ⟨part, mem, rfl⟩ := List.mem_map.1 hs
      exact (parts_ part mem).1
    rw [same, String.toList_intercalate]
    constructor
    · exact isClosed_intercalate (fun c hc => isGap_structural (gap.2 c hc)) closed'
    · rw [gapWords_intercalate gap.1 gap.2 closed', List.flatMap_map, List.flatMap_map,
        ← gapWords_commaParts closed]
      exact List.flatMap_congr fun part mem => (parts_ part mem).2

end BracketCss.Components
