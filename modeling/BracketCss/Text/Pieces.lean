/-!
# Pieces

A text cut at every occurrence of a character, and the start of a list, counted from the front or
from the end.

## Main definitions

* `pieces mark cs`: the texts between the marks
* `leading n xs`: the first `n` items, or for a negative `n` all but the last `-n`

## Main results

* `pieces_ne_nil`: there is always a piece
* `pieces_of_not_mem`: a text without the mark is one piece
* `pieces_append_cons`: what stands before the first mark is the first piece
* `leading_natCast`: a count from the front is `List.take`
-/

namespace BracketCss.Text

/-- The texts between the occurrences of a character; a text without it is one piece. -/
def pieces (mark : Char) : List Char → List (List Char)
  | [] => [[]]
  | c :: cs =>
    if c = mark then [] :: pieces mark cs
    else
      match pieces mark cs with
      | [] => [[c]]
      | first :: others => (c :: first) :: others

theorem pieces_ne_nil (mark : Char) (cs : List Char) : pieces mark cs ≠ [] := by
  fun_cases pieces mark cs <;> simp_all

theorem pieces_of_not_mem {mark : Char} {cs : List Char} (h : mark ∉ cs) :
    pieces mark cs = [cs] := by
  induction cs with
  | nil => rfl
  | cons c cs ih =>
    obtain ⟨different, absent⟩ : mark ≠ c ∧ mark ∉ cs := by simpa using h
    rw [pieces, if_neg (Ne.symm different), ih absent]

theorem pieces_append_cons {mark : Char} {cs : List Char} (h : mark ∉ cs) (rest : List Char) :
    pieces mark (cs ++ mark :: rest) = cs :: pieces mark rest := by
  induction cs with
  | nil => simp [pieces]
  | cons c cs ih =>
    obtain ⟨different, absent⟩ : mark ≠ c ∧ mark ∉ cs := by simpa using h
    rw [List.cons_append, pieces, if_neg (Ne.symm different), ih absent]

/-- The first `n` items of a list; a negative `n` leaves out that many at the end. -/
def leading {α : Type} (n : Int) (xs : List α) : List α :=
  if 0 ≤ n then xs.take n.toNat else xs.take (xs.length - n.natAbs)

theorem leading_natCast {α : Type} (n : Nat) (xs : List α) : leading n xs = xs.take n := by
  simp [leading]

end BracketCss.Text
