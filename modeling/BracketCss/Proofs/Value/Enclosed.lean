import BracketCss.Proofs.Value.Escape

/-!
# What stands between parentheses

The arguments of a call are a balanced text, and so is every segment between their top-level
separators. So a balanced text may be put between the parentheses of any call, as a whole or in
part, and is read as the arguments there.

## Main results

* `Scan.untilClosed_iff`: up to which parenthesis a text is read
* `Scan.IsBalanced.call?_eq_some`: a balanced text is what a call is read with
* `Scan.IsBalanced.of_mem_segments`: the segments of a balanced text
-/

namespace BracketCss.Scan

open Text

/-! ## Depths -/

/-- A state with more parentheses around it. -/
def State.deeper (s : State) (more : Int) : State := { s with depth := s.depth + more }

theorem State.step_deeper (s : State) (more : Int) (c : Char) :
    (s.deeper more).step c = (s.step c).deeper more := by
  obtain ⟨quote, depth⟩ := s
  cases quote with
  | some q =>
    simp only [State.step, State.deeper]
    split <;> rfl
  | none =>
    simp only [State.step, State.deeper]
    split
    · rfl
    · split
      · rw [Int.add_right_comm]
      · split
        · rw [Int.sub_eq_add_neg, Int.add_right_comm]
          rfl
        · rfl

/-- What is around a text does not change what it leaves open. -/
theorem State.run_deeper (s : State) (more : Int) (cs : List Char) :
    (s.deeper more).run cs = (s.run cs).deeper more := by
  induction cs generalizing s with
  | nil => rfl
  | cons c cs ih => rw [State.run_cons, State.step_deeper, ih, State.run_cons]

/-! ## Calls -/

/-- A parenthesis closes the last one that is open, outside every string. -/
theorem State.step_closing_iff {s : State} (inside : 0 < s.depth) :
    (s.step ')').depth = 0 ↔ s = ⟨none, 1⟩ := by
  obtain ⟨quote, depth⟩ := s
  simp only at inside
  cases quote with
  | some q =>
    have same : (State.step ⟨some q, depth⟩ ')').depth = depth := by
      simp only [State.step]
      split <;> rfl
    rw [same]
    exact iff_of_false (by omega) (by simp)
  | none =>
    have lower : (State.step ⟨none, depth⟩ ')').depth = depth - 1 := rfl
    simp only [lower, State.mk.injEq, true_and]
    omega

/-- **A text is read up to a parenthesis** if no parenthesis before it closes the present one. -/
theorem untilClosed_iff {s : State} (inside : 0 < s.depth) {cs after : List Char} :
    untilClosed s (cs ++ ')' :: after) = some (cs, after) ↔
      (∀ front, front <+: cs → 0 < (s.run front).depth) ∧ s.run cs = ⟨none, 1⟩ := by
  induction cs generalizing s with
  | nil =>
    rw [List.nil_append, untilClosed]
    simp only [State.step_closing_iff inside, List.prefix_nil, forall_eq, State.run_nil]
    by_cases last : s = ⟨none, 1⟩
    · simp [last]
    · simp [last]
  | cons c cs ih =>
    rw [List.cons_append, untilClosed, forall_prefix_cons]
    simp only [State.run_cons, State.run_nil, inside, true_and]
    by_cases closes : (s.step c).depth = 0
    · rw [if_pos closes]
      refine iff_of_false (by simp) fun h => ?_
      have deep := h.1 [] List.nil_prefix
      rw [State.run_nil] at deep
      omega
    · have inside' : 0 < (s.step c).depth := by
        have := (State.step_of_inside inside c).1
        omega
      rw [if_neg closes, ← ih inside']
      simp [Prod.ext_iff]

/-- **A text is read as the arguments of a call** exactly if it is balanced. -/
theorem untilClosed_eq_some_iff {cs : List Char} :
    untilClosed ⟨none, 1⟩ (cs ++ [')']) = some (cs, []) ↔ IsBalanced cs := by
  have deeper : ∀ front, State.run ⟨none, 1⟩ front = (State.initial.run front).deeper 1 :=
    State.run_deeper .initial 1
  have closed_iff : ∀ s : State, s.deeper 1 = ⟨none, 1⟩ ↔ s = .initial := by
    rintro ⟨quote, depth⟩
    simp only [State.deeper, State.initial, State.mk.injEq]
    exact and_congr_right fun _ => by omega
  rw [untilClosed_iff Int.one_pos]
  simp only [deeper, closed_iff]
  have up_iff : (∀ front, front <+: cs → 0 < ((State.initial.run front).deeper 1).depth) ↔
      State.initial.StaysUp cs := by
    refine forall₂_congr fun front _ => ?_
    simp only [State.deeper]
    omega
  rw [up_iff]
  exact ⟨fun h => ⟨h.1, h.2⟩, fun h => ⟨h.up, h.closed⟩⟩

/-- A balanced text between parentheses is what a call is read with. -/
theorem IsBalanced.call?_eq_some {name cs : List Char} (h : IsBalanced cs)
    (letter : name.head?.any isAsciiLetter) (nameLike : ∀ c ∈ name, isAsciiNameChar c) :
    call? (name ++ '(' :: (cs ++ [')'])) = some ⟨.ofList (lower name), cs⟩ :=
  call?_of_untilClosed letter nameLike (untilClosed_eq_some_iff.2 h) (List.forall_mem_nil _)

/-! ## Balanced texts -/

theorem isBalanced_append_iff {xs ys : List Char} (closed : IsClosed xs) :
    IsBalanced (xs ++ ys) ↔ IsBalanced xs ∧ IsBalanced ys := by
  have run : ∀ front, State.initial.run (xs ++ front) = State.initial.run front := fun front => by
    rw [State.run_append, closed]
  constructor
  · rintro ⟨up, all⟩
    refine ⟨⟨fun front mem => up front (mem.trans (List.prefix_append xs ys)), closed⟩,
      fun front mem => ?_, (closed.append_iff).1 all⟩
    have := up (xs ++ front) ((List.prefix_append_right_inj xs).2 mem)
    rwa [run] at this
  · rintro ⟨first, second⟩
    refine ⟨?_, closed.append second.closed⟩
    rintro front ⟨back, whole⟩
    rcases List.append_eq_append_iff.1 whole with ⟨rest, same, -⟩ | ⟨rest, rfl, same⟩
    · exact first.up front ⟨rest, same.symm⟩
    · rw [run]
      exact second.up rest ⟨back, same.symm⟩

theorem isBalanced_plain {cs : List Char} (plain : ∀ c ∈ cs, isStructural c = false) :
    IsBalanced cs := by
  refine ⟨fun front mem => ?_, isClosed_of_plain plain⟩
  rw [isClosed_of_plain fun c hc => plain c (mem.subset hc)]
  exact Int.le_refl 0

/-- **The segments of a balanced text are balanced.** -/
theorem IsBalanced.of_mem_segments {separator : Char → Bool} {cs : List Char} (h : IsBalanced cs) :
    ∀ segment ∈ segments separator cs, IsBalanced segment := by
  have cuts := @cutsInto_segments separator cs
  generalize segments separator cs = texts at cuts
  induction cuts with
  | whole => exact List.forall_mem_singleton.2 h
  | @first xs ys c _ _ closed _ structural _ ih =>
    obtain ⟨first, rest⟩ := (isBalanced_append_iff closed).1 h
    have single : IsBalanced [c] := isBalanced_plain (List.forall_mem_singleton.2 structural)
    rw [← List.singleton_append, isBalanced_append_iff single.closed] at rest
    exact List.forall_mem_cons.2 ⟨first, ih rest.2⟩

/-- A call of balanced arguments is balanced. -/
theorem IsBalanced.call {name cs : List Char} (plain : ∀ c ∈ name, isStructural c = false)
    (h : IsBalanced cs) : IsBalanced (name ++ '(' :: (cs ++ [')'])) := by
  have front := isBalanced_plain plain
  refine (isBalanced_append_iff front.closed).2 ⟨front, ?_⟩
  have run : ∀ text, State.initial.run ('(' :: text) = (State.initial.run text).deeper 1 :=
    State.run_deeper .initial 1
  have closed : IsClosed ('(' :: (cs ++ [')'])) := by
    rw [IsClosed, run, State.run_append, h.closed]
    rfl
  refine ⟨?_, closed⟩
  rintro text ⟨back, whole⟩
  cases text with
  | nil => exact Int.le_refl 0
  | cons c text =>
    rw [List.cons_append, List.cons.injEq] at whole
    obtain ⟨rfl, whole⟩ := whole
    rcases List.eq_nil_or_concat' back with rfl | ⟨back, last, rfl⟩
    · rw [List.append_nil] at whole
      rw [whole, closed]
      exact Int.le_refl 0
    · rw [← List.append_assoc] at whole
      have up := h.up text ⟨back, (List.append_inj' whole rfl).1⟩
      rw [run]
      simp only [State.deeper]
      omega

end BracketCss.Scan
