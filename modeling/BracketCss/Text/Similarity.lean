import BracketCss.Number.Binary
import BracketCss.Text.Case

/-!
# Similarity

Which candidates are near to a misspelled word. For values the number of single-character edits
counts. For options it is the number of characters that two words have in common in the same order:
the longest common block counts, and then what is left of it and what is right of it.

## Main definitions

* `editDistance a b`: the least number of insertions, deletions and substitutions
* `closest word candidates bound`: the candidates within a distance, nearest first
* `Text.longestBlock a b`: the longest common block
* `Text.matchedLength a b`: the number of common characters
* `Text.similar word candidates`: the candidates that are alike enough

## Main results

* `editDistance_self`: equal texts need no edit
-/

namespace BracketCss

/-! ## Edits -/

open Text

/-- The row of distances after one more character `c` of the first text: the entry to the left,
the remaining characters of the second text, and the remaining entries of the row before. -/
def editRow (c : Char) : (left : Nat) → List Char → List Nat → List Nat
  | left, d :: ds, diagonal :: above :: row =>
    let here := min (min (above + 1) (left + 1)) (diagonal + if c = d then 0 else 1)
    here :: editRow c here ds (above :: row)
  | _, _, _ => []

/-- The whole row after one more character of the first text. -/
def nextEditRow (b : List Char) (row : List Nat) (c : Char) : List Nat :=
  let first := row.headD 0 + 1
  first :: editRow c first b row

/-- The last entry of the last row. Row `i` holds the distances from the first `i` characters of
`a` to the starts of `b`. -/
def tableDistance (a b : List Char) : Nat :=
  (a.foldl (nextEditRow b) (List.range (b.length + 1))).getLastD 0

/-- The least number of insertions, deletions and substitutions that turn one text into the
other. The rows are those of the shorter text. -/
def editDistance (a b : List Char) : Nat :=
  if a = b then 0
  else if a.length < b.length then tableDistance b a
  else tableDistance a b

@[simp] theorem editDistance_self (a : List Char) : editDistance a a = 0 := if_pos rfl

/-- The candidates of at most a distance from a word, letter case aside, nearest first and
equally near ones in the order of their texts. -/
def closest (word : String) (candidates : List String) (bound : Int) : List String :=
  let target := fullLower word.toList
  let scored := candidates.map fun candidate =>
    (editDistance target (fullLower candidate.toList), candidate)
  let near := scored.filter fun entry => (entry.1 : Int) ≤ bound
  (near.mergeSort fun x y => decide (x.1 < y.1) || (x.1 == y.1 && decide (x.2 ≤ y.2))).map (·.2)

/-- The distance up to which a candidate is suggested. -/
def suggestionDistance : Int := 2

/-! ## Common characters -/

namespace Text

/-- The length of the common start of two texts. -/
def commonStart : List Char → List Char → Nat
  | x :: xs, y :: ys => if x = y then commonStart xs ys + 1 else 0
  | _, _ => 0

/-- A block that two texts have in common. -/
structure Block where
  /-- Where it starts in the first text. -/
  first : Nat
  /-- Where it starts in the second text. -/
  second : Nat
  /-- Its length. -/
  length : Nat
  deriving DecidableEq, Repr

/-- The longest common block; of several, the one that starts first in the first text, and of
those the one that starts first in the second. -/
def longestBlock (a b : List Char) : Block :=
  let blocks := (List.range a.length).flatMap fun i =>
    (List.range b.length).map fun j => Block.mk i j (commonStart (a.drop i) (b.drop j))
  blocks.foldl (fun best block => if best.length < block.length then block else best) ⟨0, 0, 0⟩

/-- The number of common characters, in at most `bound` blocks one inside the other. -/
def matchedUpTo : (bound : Nat) → List Char → List Char → Nat
  | 0, _, _ => 0
  | bound + 1, a, b =>
    let block := longestBlock a b
    if block.length = 0 then 0
    else
      matchedUpTo bound (a.take block.first) (b.take block.second) + block.length +
        matchedUpTo bound (a.drop (block.first + block.length))
          (b.drop (block.second + block.length))

/-- The number of common characters of two texts. -/
def matchedLength (a b : List Char) : Nat := matchedUpTo (a.length + 1) a b

/-- The candidates that share at least three fifths of their characters with a word, at most
three of them, those that share most. -/
def similar (word : String) (candidates : List String) : List String :=
  let scored := candidates.map fun candidate =>
    (Ratio.mk (2 * matchedLength candidate.toList word.toList) (candidate.length + word.length),
      candidate)
  let near := scored.filter fun entry => 3 * entry.1.whole ≤ 5 * entry.1.part
  let before (x y : Ratio × String) : Bool :=
    let p := x.1.part * y.1.whole
    let q := y.1.part * x.1.whole
    decide (q < p) || (p == q && decide (y.2 ≤ x.2))
  ((near.mergeSort before).take 3).map (·.2)

end Text

end BracketCss
