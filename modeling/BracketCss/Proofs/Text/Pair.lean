import Mathlib.Data.List.Infix

/-!
# Marks in texts

Where a mark of two characters, such as the end of a comment, stands in a text that was put
together, and how a mark of one character takes a text apart.

## Main definitions

* `HasPair a b cs`: the two characters stand side by side

## Main results

* `hasPair_append_iff`: in one of two texts, or where they meet
* `hasPair_intercalate_iff`: between separators that hold neither character
* `append_cons_inj`: what stands before the first mark and behind it
* `append_pair_inj`: the same for a mark of two characters
-/

namespace BracketCss.Text

/-- A property of all characters of a text is decided along the text. There are finitely many
characters, and all of them would be tried otherwise. -/
instance decidableForallChar {p : Char → Prop} [DecidablePred p] (cs : List Char) :
    Decidable (∀ c ∈ cs, p c) := List.decidableBAll p cs

variable {α : Type} {a b : α}

/-- The two characters stand side by side in a text. -/
def HasPair (a b : α) (cs : List α) : Prop := [a, b] <:+: cs

instance [DecidableEq α] (a b : α) : DecidablePred (HasPair a b) := fun cs =>
  inferInstanceAs (Decidable ([a, b] <:+: cs))

@[simp] theorem not_hasPair_nil : ¬ HasPair a b [] := by
  simp [HasPair]

theorem hasPair_cons_iff {c : α} {cs : List α} :
    HasPair a b (c :: cs) ↔ c = a ∧ cs.head? = some b ∨ HasPair a b cs := by
  rw [HasPair, List.infix_cons_iff]
  refine or_congr_left ?_
  rw [List.cons_prefix_cons, eq_comm]
  refine and_congr_right fun _ => ?_
  cases cs with
  | nil => simp
  | cons d cs => simp [eq_comm]

theorem hasPair_append_iff {xs ys : List α} :
    HasPair a b (xs ++ ys) ↔
      HasPair a b xs ∨ HasPair a b ys ∨ xs.getLast? = some a ∧ ys.head? = some b := by
  induction xs with
  | nil => simp
  | cons x xs ih =>
    rw [List.cons_append, hasPair_cons_iff, hasPair_cons_iff, ih]
    cases xs with
    | nil => simp [or_comm]
    | cons y xs =>
      rw [List.cons_append, List.head?_cons, List.head?_cons, List.getLast?_cons_cons, or_assoc]

theorem not_hasPair_of_not_mem {cs : List α} (h : a ∉ cs) : ¬ HasPair a b cs := by
  intro pair
  exact h (pair.subset List.mem_cons_self)

/-- Separators that hold neither character bring in no mark. -/
theorem hasPair_intercalate_iff {sep : List α} (some_ : sep ≠ []) (first : a ∉ sep)
    (second : b ∉ sep) {xs : List (List α)} :
    HasPair a b (sep.intercalate xs) ↔ ∃ x ∈ xs, HasPair a b x := by
  induction xs with
  | nil => simp
  | cons x xs ih =>
    cases xs with
    | nil => simp
    | cons y xs =>
      have last : sep.getLast? ≠ some a := by
        intro h
        exact first (List.mem_of_getLast? h)
      have head : sep.head? ≠ some b := by
        intro h
        exact second (List.mem_of_head? h)
      rw [List.intercalate_cons_cons, hasPair_append_iff, hasPair_append_iff, ih]
      simp [last, head, some_, not_hasPair_of_not_mem first]

/-- A text is taken apart at its first mark. -/
theorem append_cons_inj {mark : α} {xs ys rest tail : List α} (hxs : mark ∉ xs)
    (hys : mark ∉ ys) (h : xs ++ mark :: rest = ys ++ mark :: tail) : xs = ys ∧ rest = tail := by
  induction xs generalizing ys with
  | nil =>
    cases ys with
    | nil => exact ⟨rfl, (List.cons.inj h).2⟩
    | cons y ys => exact absurd (by simp [(List.cons.inj h).1]) hys
  | cons x xs ih =>
    cases ys with
    | nil => exact absurd (by simp [(List.cons.inj h).1]) hxs
    | cons y ys =>
      simp only [List.mem_cons, not_or] at hxs hys
      obtain ⟨rfl, same⟩ := List.cons.inj h
      obtain ⟨rfl, rest⟩ := ih hxs.2 hys.2 same
      exact ⟨rfl, rest⟩

/-- A part that goes on behind the first mark would hold it. -/
theorem hasPair_of_append_eq {xs ys rest tail : List α} (differ : a ≠ b) (some_ : ys ≠ [])
    (h : a :: b :: rest = ys ++ a :: b :: tail) : HasPair a b (xs ++ ys) := by
  cases ys with
  | nil => exact absurd rfl some_
  | cons y ys =>
    obtain ⟨rfl, same⟩ := List.cons.inj h
    cases ys with
    | nil => exact absurd (List.cons.inj same).1.symm differ
    | cons z ys =>
      obtain ⟨rfl, -⟩ := List.cons.inj same
      exact ⟨xs, ys, by simp⟩

/-- A text is taken apart at its first mark of two different characters. -/
theorem append_pair_inj {xs ys rest tail : List α} (differ : a ≠ b) (hxs : ¬ HasPair a b xs)
    (hys : ¬ HasPair a b ys) (h : xs ++ a :: b :: rest = ys ++ a :: b :: tail) :
    xs = ys ∧ rest = tail := by
  rcases List.append_eq_append_iff.1 h with ⟨more, rfl, same⟩ | ⟨more, rfl, same⟩
  · obtain rfl : more = [] := by
      by_contra some_
      exact hys (hasPair_of_append_eq differ some_ same)
    simpa using h
  · obtain rfl : more = [] := by
      by_contra some_
      exact hxs (hasPair_of_append_eq differ some_ same)
    simpa using h

end BracketCss.Text
