import BracketCss.Text.Similarity
import Mathlib.Data.Prod.Lex
import Mathlib.Data.String.Basic
import Mathlib.Order.Bounds.Basic
import Mathlib.Order.MinMax

/-!
# Edits between two texts

The distance between two texts is the least number of edits of one character each that turn the
one into the other, made in any order and at any place. The table that it is read off follows the
recursion on first characters, applied to the texts read backwards: after the characters `p` of the
first text, the row holds what the recursion gives for `p` and each start of the second text. That
reading backwards, the order of the two texts and the answer for equal texts make no difference is
a property of the least number and not of the table.

## Main definitions

* `Edit a b`, `Edits n a b`: one edit, and `n` edits one after another
* `levenshtein a b`: the recursion on first characters
* `distances a b ds`: a row of the table
* `IsNearest word bound candidates found`: the candidates within the bound, nearest first

## Main results

* `levenshtein_le_of_edit`: one edit changes the recursion's result by at most one
* `isLeast_levenshtein`: the recursion gives the least number of edits
* `nextEditRow_distances`: one more character turns a row into the next
* `editDistance_eq_levenshtein`: the table gives what the recursion gives
* `closest_congr`: the order of the candidates makes no difference
* `isLeast_editDistance_and_closest_eq_iff`: the least number of edits, and exactly the candidates
  within the bound, nearest first
-/

namespace BracketCss.Text

/-! ## Edits -/

/-- One character inserted, deleted or replaced, at any place. -/
inductive Edit : List Char → List Char → Prop
  | insertion (front : List Char) (c : Char) (rest : List Char) :
      Edit (front ++ rest) (front ++ c :: rest)
  | deletion (front : List Char) (c : Char) (rest : List Char) :
      Edit (front ++ c :: rest) (front ++ rest)
  | substitution (front : List Char) (c d : Char) (rest : List Char) :
      Edit (front ++ c :: rest) (front ++ d :: rest)

/-- A number of edits, one after another, that turn one text into another. -/
inductive Edits : Nat → List Char → List Char → Prop
  | nil (a : List Char) : Edits 0 a a
  | cons {n : Nat} {a b c : List Char} : Edit a b → Edits n b c → Edits (n + 1) a c

variable {a b c : List Char} {m n : Nat}

theorem Edit.symm (h : Edit a b) : Edit b a := by
  cases h with
  | insertion front x rest => exact .deletion front x rest
  | deletion front x rest => exact .insertion front x rest
  | substitution front x y rest => exact .substitution front y x rest

theorem Edit.inFront (x : Char) (h : Edit a b) : Edit (x :: a) (x :: b) := by
  cases h with
  | insertion front y rest => exact .insertion (x :: front) y rest
  | deletion front y rest => exact .deletion (x :: front) y rest
  | substitution front y z rest => exact .substitution (x :: front) y z rest

theorem Edit.reverse (h : Edit a b) : Edit a.reverse b.reverse := by
  cases h with
  | insertion front x rest => simpa using Edit.insertion rest.reverse x front.reverse
  | deletion front x rest => simpa using Edit.deletion rest.reverse x front.reverse
  | substitution front x y rest => simpa using Edit.substitution rest.reverse x y front.reverse

namespace Edits

theorem snoc (h : Edits n a b) (last : Edit b c) : Edits (n + 1) a c := by
  induction h with
  | nil a => exact .cons last (.nil c)
  | cons first _ ih => exact .cons first (ih last)

theorem symm (h : Edits n a b) : Edits n b a := by
  induction h with
  | nil a => exact .nil a
  | cons first _ ih => exact ih.snoc first.symm

theorem inFront (x : Char) (h : Edits n a b) : Edits n (x :: a) (x :: b) := by
  induction h with
  | nil a => exact .nil (x :: a)
  | cons first _ ih => exact .cons (first.inFront x) ih

theorem reverse (h : Edits n a b) : Edits n a.reverse b.reverse := by
  induction h with
  | nil a => exact .nil a.reverse
  | cons first _ ih => exact .cons first.reverse ih

theorem min (h : Edits m a b) (h' : Edits n a b) : Edits (min m n) a b := by
  obtain eq | eq := min_choice m n
  · rwa [eq]
  · rwa [eq]

/-- A text is written by as many insertions as it has characters. -/
theorem ofNil (b : List Char) : Edits b.length [] b := by
  induction b with
  | nil => exact .nil []
  | cons y b ih => exact ih.snoc (.insertion [] y b)

end Edits

/-! ## The recursion on first characters -/

/-- The cheapest of three ways to deal with two first characters: delete the one, insert the other,
or put the one in the place of the other, which costs nothing if they are equal. -/
def levenshtein : List Char → List Char → Nat
  | [], b => b.length
  | a, [] => a.length
  | x :: a, y :: b =>
    min (min (levenshtein a (y :: b) + 1) (levenshtein (x :: a) b + 1))
      (levenshtein a b + if x = y then 0 else 1)

@[simp] theorem levenshtein_nil_left (b : List Char) : levenshtein [] b = b.length := by
  rw [levenshtein]

@[simp] theorem levenshtein_nil_right (a : List Char) : levenshtein a [] = a.length := by
  cases a <;> simp [levenshtein]

theorem levenshtein_cons_cons (x y : Char) (a b : List Char) :
    levenshtein (x :: a) (y :: b) =
      min (min (levenshtein a (y :: b) + 1) (levenshtein (x :: a) b + 1))
        (levenshtein a b + if x = y then 0 else 1) := by
  rw [levenshtein]

theorem levenshtein_self (a : List Char) : levenshtein a a = 0 := by
  induction a with
  | nil => rw [levenshtein_nil_left, List.length_nil]
  | cons x a ih => rw [levenshtein_cons_cons, ih, if_pos rfl, Nat.min_zero]

theorem levenshtein_cons_left_le (x : Char) (a b : List Char) :
    levenshtein (x :: a) b ≤ levenshtein a b + 1 := by
  cases b with
  | nil => simp
  | cons y b => rw [levenshtein_cons_cons]; omega

theorem levenshtein_cons_right_le (y : Char) (a b : List Char) :
    levenshtein a (y :: b) ≤ levenshtein a b + 1 := by
  cases a with
  | nil => simp
  | cons x a => rw [levenshtein_cons_cons]; omega

theorem levenshtein_le_cons_left (x : Char) (a b : List Char) :
    levenshtein a b ≤ levenshtein (x :: a) b + 1 := by
  -- The cheapest way for `x :: a` may begin with an insertion, which leaves `x` where it is.
  induction b with
  | nil => simp; omega
  | cons y b ih =>
    have step := levenshtein_cons_right_le y a b
    rw [levenshtein_cons_cons]
    omega

theorem levenshtein_replaced_le (x z : Char) (a b : List Char) :
    levenshtein (x :: a) b ≤ levenshtein (z :: a) b + 1 := by
  induction b with
  | nil => simp
  | cons y b ih =>
    rw [levenshtein_cons_cons, levenshtein_cons_cons]
    split <;> omega

/-- What one edit costs does not grow with a character in front of both texts. -/
theorem levenshtein_cons_le (x : Char) (h : ∀ c, levenshtein a c ≤ levenshtein b c + 1)
    (c : List Char) : levenshtein (x :: a) c ≤ levenshtein (x :: b) c + 1 := by
  induction c with
  | nil => simpa using h []
  | cons y c ih =>
    have deletion := h (y :: c)
    have substitution := h c
    rw [levenshtein_cons_cons, levenshtein_cons_cons]
    omega

theorem levenshtein_append_le (front : List Char)
    (h : ∀ c, levenshtein a c ≤ levenshtein b c + 1) (c : List Char) :
    levenshtein (front ++ a) c ≤ levenshtein (front ++ b) c + 1 := by
  induction front generalizing c with
  | nil => exact h c
  | cons x front ih => exact levenshtein_cons_le x ih c

theorem levenshtein_le_of_edit (h : Edit a b) (c : List Char) :
    levenshtein a c ≤ levenshtein b c + 1 := by
  cases h with
  | insertion front x rest => exact levenshtein_append_le front (levenshtein_le_cons_left x rest) c
  | deletion front x rest => exact levenshtein_append_le front (levenshtein_cons_left_le x rest) c
  | substitution front x y rest =>
    exact levenshtein_append_le front (levenshtein_replaced_le x y rest) c

theorem levenshtein_le_of_edits (h : Edits n a b) : levenshtein a b ≤ n := by
  induction h with
  | nil a => exact (levenshtein_self a).le
  | @cons n a b c first _ ih =>
    have step := levenshtein_le_of_edit first c
    omega

theorem edits_levenshtein (a b : List Char) : Edits (levenshtein a b) a b := by
  fun_induction levenshtein a b with
  | case1 b => exact .ofNil b
  | case2 a => exact (Edits.ofNil a).symm
  | case3 x a y b deleted inserted replaced =>
    have byDeletion : Edits (levenshtein a (y :: b) + 1) (x :: a) (y :: b) :=
      .cons (.deletion [] x a) deleted
    have byInsertion : Edits (levenshtein (x :: a) b + 1) (x :: a) (y :: b) :=
      inserted.snoc (.insertion [] y b)
    have byReplacement :
        Edits (levenshtein a b + if x = y then 0 else 1) (x :: a) (y :: b) := by
      split
      · next same => exact same ▸ replaced.inFront x
      · exact .cons (.substitution [] x y a) (replaced.inFront y)
    exact (byDeletion.min byInsertion).min byReplacement

theorem isLeast_levenshtein (a b : List Char) : IsLeast {n | Edits n a b} (levenshtein a b) :=
  ⟨edits_levenshtein a b, fun _ h => levenshtein_le_of_edits h⟩

theorem levenshtein_comm (a b : List Char) : levenshtein a b = levenshtein b a :=
  le_antisymm (levenshtein_le_of_edits (edits_levenshtein b a).symm)
    (levenshtein_le_of_edits (edits_levenshtein a b).symm)

theorem levenshtein_reverse (a b : List Char) :
    levenshtein a.reverse b.reverse = levenshtein a b := by
  -- The recursion takes first characters only; the scripts can be read from either end.
  apply le_antisymm
  · exact levenshtein_le_of_edits (edits_levenshtein a b).reverse
  · have back := (edits_levenshtein a.reverse b.reverse).reverse
    rw [List.reverse_reverse, List.reverse_reverse] at back
    exact levenshtein_le_of_edits back

end BracketCss.Text

namespace BracketCss

open Text

/-! ## The rows of the table -/

/-- The recursion's results for one text, `a`, and another that begins as `b` and gets the
characters `ds` put in front of it one by one. -/
def distances (a : List Char) : (b ds : List Char) → List Nat
  | b, [] => [levenshtein a b]
  | b, d :: ds => levenshtein a b :: distances a (d :: b) ds

theorem exists_distances_eq_cons (a b ds : List Char) :
    ∃ row, distances a b ds = levenshtein a b :: row := by
  cases ds with
  | nil => exact ⟨[], rfl⟩
  | cons d ds => exact ⟨distances a (d :: b) ds, rfl⟩

theorem getLastD_distances (a b ds : List Char) :
    (distances a b ds).getLastD 0 = levenshtein a (ds.reverse ++ b) := by
  induction ds generalizing b with
  | nil => rfl
  | cons d ds ih =>
    obtain ⟨row, eq⟩ := exists_distances_eq_cons a (d :: b) ds
    have rest := ih (d :: b)
    rw [eq] at rest
    simpa [distances, eq] using rest

theorem range'_eq_distances (b ds : List Char) :
    List.range' b.length (ds.length + 1) = distances [] b ds := by
  induction ds generalizing b with
  | nil => simp [distances]
  | cons d ds ih =>
    rw [List.length_cons, List.range'_succ, distances, levenshtein_nil_left, ← ih (d :: b),
      List.length_cons]

/-- An entry is made of the entry to its left and the two above, as the recursion makes it. -/
theorem editRow_distances (x : Char) (a b ds : List Char) :
    levenshtein (x :: a) b :: editRow x (levenshtein (x :: a) b) ds (distances a b ds) =
      distances (x :: a) b ds := by
  -- `b` is the part of the second text that is behind, read backwards, and `ds` what is ahead.
  induction ds generalizing b with
  | nil => simp [editRow, distances]
  | cons d ds ih =>
    obtain ⟨row, eq⟩ := exists_distances_eq_cons a (d :: b) ds
    have rest := ih (d :: b)
    rw [eq] at rest
    rw [distances, eq, editRow, ← levenshtein_cons_cons, rest, distances]

theorem nextEditRow_distances (x : Char) (a ds : List Char) :
    nextEditRow ds (distances a [] ds) x = distances (x :: a) [] ds := by
  obtain ⟨row, eq⟩ := exists_distances_eq_cons a [] ds
  have first : (distances a [] ds).headD 0 + 1 = levenshtein (x :: a) [] := by
    rw [eq, List.headD_cons, levenshtein_nil_right, levenshtein_nil_right, List.length_cons]
  rw [nextEditRow, first, editRow_distances]

theorem foldl_nextEditRow_distances (p a ds : List Char) :
    p.foldl (nextEditRow ds) (distances a [] ds) = distances (p.reverse ++ a) [] ds := by
  induction p generalizing a with
  | nil => rfl
  | cons x p ih =>
    rw [List.foldl_cons, nextEditRow_distances, ih, List.reverse_cons, List.append_assoc,
      List.singleton_append]

theorem tableDistance_eq_levenshtein (a b : List Char) : tableDistance a b = levenshtein a b := by
  have row : List.range (b.length + 1) = distances [] [] b := by
    rw [List.range_eq_range', ← range'_eq_distances, List.length_nil]
  rw [tableDistance, row, foldl_nextEditRow_distances, getLastD_distances, List.append_nil,
    List.append_nil, levenshtein_reverse]

theorem editDistance_eq_levenshtein (a b : List Char) : editDistance a b = levenshtein a b := by
  by_cases same : a = b
  · rw [same, editDistance_self, levenshtein_self]
  · rw [editDistance, if_neg same]
    split
    · rw [tableDistance_eq_levenshtein, levenshtein_comm]
    · exact tableDistance_eq_levenshtein a b

/-! ## The nearest candidates -/

/-- The number of edits, and no smaller one, between a word and a candidate in lower case. -/
def IsDistance (word candidate : String) (n : Nat) : Prop :=
  IsLeast {k | Edits k (fullLower word.toList) (fullLower candidate.toList)} n

/-- Those of the candidates that are within a bound of a word, nearest first. -/
structure IsNearest (word : String) (bound : Int) (candidates found : List String) : Prop where
  /-- A candidate within the bound is found as often as it was given. -/
  count_eq : ∀ t n, IsDistance word t n → (n : Int) ≤ bound → found.count t = candidates.count t
  /-- What is found is within the bound. -/
  exists_le : ∀ t ∈ found, ∃ n : Nat, IsDistance word t n ∧ (n : Int) ≤ bound
  /-- A nearer candidate stands first, and of equally near ones the one whose text is first. -/
  pairwise : found.Pairwise fun s t =>
    ∃ m n, IsDistance word s m ∧ IsDistance word t n ∧ (m < n ∨ m = n ∧ s ≤ t)

/-- What the order of the candidates goes by: the distance from the word, and then the text. -/
def rank (word candidate : String) : Nat ×ₗ String :=
  toLex (editDistance (fullLower word.toList) (fullLower candidate.toList), candidate)

/-- Whether the distance of a candidate from a word is within a bound. -/
def isNear (word : String) (bound : Int) (candidate : String) : Bool :=
  (editDistance (fullLower word.toList) (fullLower candidate.toList) : Int) ≤ bound

section Nearest

variable {word s t : String} {bound : Int} {candidates found : List String} {m n : Nat}

theorem isDistance_iff :
    IsDistance word t n ↔ n = editDistance (fullLower word.toList) (fullLower t.toList) := by
  have least := isLeast_levenshtein (fullLower word.toList) (fullLower t.toList)
  rw [← editDistance_eq_levenshtein] at least
  constructor
  · intro apart
    exact apart.unique least
  · rintro rfl
    exact least

theorem rank_le_rank_iff : rank word s ≤ rank word t ↔
    ∃ m n, IsDistance word s m ∧ IsDistance word t n ∧ (m < n ∨ m = n ∧ s ≤ t) := by
  rw [rank, rank, Prod.Lex.toLex_le_toLex]
  constructor
  · intro order
    exact ⟨_, _, isDistance_iff.mpr rfl, isDistance_iff.mpr rfl, order⟩
  · rintro ⟨m, n, left, right, order⟩
    rwa [isDistance_iff.mp left, isDistance_iff.mp right] at order

theorem rank_injective : Function.Injective (rank word) := by
  intro s t same
  exact congrArg (fun r => (ofLex r).2) same

/-- The candidates are scored, chosen and ordered by what can be said of each alone. -/
theorem closest_eq_mergeSort (word : String) (candidates : List String) (bound : Int) :
    closest word candidates bound = (candidates.filter (isNear word bound)).mergeSort
      fun s t => decide (rank word s ≤ rank word t) := by
  let scored (t : String) := (editDistance (fullLower word.toList) (fullLower t.toList), t)
  have order (s t : String) : decide (rank word s ≤ rank word t) =
      (decide ((scored s).1 < (scored t).1) ||
        ((scored s).1 == (scored t).1 && decide ((scored s).2 ≤ (scored t).2))) := by
    simp only [rank, Prod.Lex.toLex_le_toLex, Bool.decide_or, Bool.decide_and, beq_eq_decide,
      scored]
  simp only [closest]
  rw [List.filter_map, ← List.map_mergeSort fun s _ t _ => order s t, List.map_map]
  exact List.map_id _

theorem closest_perm (word : String) (candidates : List String) (bound : Int) :
    (closest word candidates bound).Perm (candidates.filter (isNear word bound)) := by
  rw [closest_eq_mergeSort]
  exact List.mergeSort_perm _ _

theorem pairwise_closest (word : String) (candidates : List String) (bound : Int) :
    (closest word candidates bound).Pairwise fun s t => rank word s ≤ rank word t := by
  rw [closest_eq_mergeSort]
  have trans (s t u : String) : decide (rank word s ≤ rank word t) →
      decide (rank word t ≤ rank word u) → decide (rank word s ≤ rank word u) := by
    simpa using le_trans
  have total (s t : String) :
      decide (rank word s ≤ rank word t) || decide (rank word t ≤ rank word s) := by
    simpa using le_total (rank word s) (rank word t)
  exact (List.pairwise_mergeSort trans total _).imp of_decide_eq_true

/-- The order leaves no choice: different candidates have different ranks. -/
theorem closest_eq_of_perm (perm : found.Perm (candidates.filter (isNear word bound)))
    (sorted : found.Pairwise fun s t => rank word s ≤ rank word t) :
    closest word candidates bound = found := by
  refine List.Perm.eq_of_pairwise ?_ (pairwise_closest word candidates bound) sorted
    ((closest_perm word candidates bound).trans perm.symm)
  intro s t _ _ first second
  exact rank_injective (le_antisymm first second)

/-- The order in which the candidates come makes no difference. -/
theorem closest_congr {candidates' : List String} (perm : candidates.Perm candidates') :
    closest word candidates bound = closest word candidates' bound :=
  closest_eq_of_perm ((closest_perm word candidates' bound).trans (perm.symm.filter _))
    (pairwise_closest word candidates' bound)

theorem isNear_iff :
    isNear word bound t = true ↔ ∃ n : Nat, IsDistance word t n ∧ (n : Int) ≤ bound := by
  simp only [isNear, isDistance_iff, exists_eq_left, decide_eq_true_eq]

/-- What is found, with its multiplicity, is a permutation of the candidates within the bound. -/
theorem isNearest_iff : IsNearest word bound candidates found ↔
    found.Perm (candidates.filter (isNear word bound)) ∧
      found.Pairwise fun s t => rank word s ≤ rank word t := by
  constructor
  · intro nearest
    refine ⟨List.perm_iff_count.mpr fun t => ?_, nearest.pairwise.imp rank_le_rank_iff.mpr⟩
    by_cases within : isNear word bound t
    · obtain ⟨n, apart, le⟩ := isNear_iff.mp within
      rw [List.count_filter within, nearest.count_eq t n apart le]
    · have notFound : t ∉ found := fun mem => within (isNear_iff.mpr (nearest.exists_le t mem))
      have notKept : t ∉ candidates.filter (isNear word bound) := fun mem =>
        within (List.mem_filter.mp mem).2
      rw [List.count_eq_zero.mpr notFound, List.count_eq_zero.mpr notKept]
  · rintro ⟨perm, sorted⟩
    refine ⟨fun t n apart le => ?_, fun t mem => ?_, sorted.imp rank_le_rank_iff.mp⟩
    · rw [perm.count_eq, List.count_filter (isNear_iff.mpr ⟨n, apart, le⟩)]
    · exact isNear_iff.mp (List.mem_filter.mp (perm.mem_iff.mp mem)).2

theorem isNearest_closest (word : String) (candidates : List String) (bound : Int) :
    IsNearest word bound candidates (closest word candidates bound) :=
  isNearest_iff.mpr ⟨closest_perm word candidates bound, pairwise_closest word candidates bound⟩

end Nearest

/-- The distance is the least number of edits, in any order and at any place, and what is found are
the candidates within the bound, each as often as it was given, nearest first. -/
theorem isLeast_editDistance_and_closest_eq_iff :
    (∀ a b : List Char, IsLeast {n | Edits n a b} (editDistance a b)) ∧
      ∀ (word : String) (candidates found : List String) (bound : Int),
        closest word candidates bound = found ↔ IsNearest word bound candidates found := by
  constructor
  · intro a b
    rw [editDistance_eq_levenshtein]
    exact isLeast_levenshtein a b
  · intro word candidates found bound
    constructor
    · rintro rfl
      exact isNearest_closest word candidates bound
    · intro nearest
      obtain ⟨perm, sorted⟩ := isNearest_iff.mp nearest
      exact closest_eq_of_perm perm sorted

example : editDistance "kitten".toList "sitting".toList = 3 := by decide

example : closest "blok" ["blocks", "flex", "Block", "blocks"] 2 =
    ["Block", "blocks", "blocks"] := by
  cbv

end BracketCss
