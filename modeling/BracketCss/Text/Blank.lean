/-!
# Blank characters

The white space of every script, trimming, and the words between blanks.

## Main definitions

* `isBlank c`, `blankCodes`: white space, as a class and as a list
* `trim cs`: the text without blanks at either end
* `blankWords cs`: the words of a text

## Main results

* `isBlank_of_class`: a class of characters without blanks
* `trim_eq_self`: a text with no blank at either end is trimmed already
-/

namespace BracketCss.Text

/-- White space: the ASCII blanks and separators, and the space characters of Unicode. -/
def isBlank (c : Char) : Bool :=
  let n := c.toNat
  (9 ≤ n && n ≤ 13) || (28 ≤ n && n ≤ 32) || n == 0x85 || n == 0xA0 || n == 0x1680 ||
    (0x2000 ≤ n && n ≤ 0x200A) || n == 0x2028 || n == 0x2029 || n == 0x202F || n == 0x205F ||
    n == 0x3000

/-- The blanks of every script. -/
def blankCodes : List Nat :=
  List.range' 9 5 ++ List.range' 28 5 ++ List.range' 0x2000 11 ++
    [0x85, 0xA0, 0x1680, 0x2028, 0x2029, 0x202F, 0x205F, 0x3000]

theorem toNat_mem_blankCodes {c : Char} (h : isBlank c) : c.toNat ∈ blankCodes := by
  simp only [isBlank, Bool.or_eq_true, Bool.and_eq_true, decide_eq_true_eq, beq_iff_eq] at h
  simp only [blankCodes, List.mem_append, List.mem_range'_1, List.mem_cons, List.not_mem_nil,
    or_false]
  omega

/-- A class of characters that avoids every blank of the table holds no blank. -/
theorem isBlank_of_class {p : Char → Bool} (table : ∀ n ∈ blankCodes, p (Char.ofNat n) = false)
    {c : Char} (h : p c) : isBlank c = false := by
  rw [← Bool.not_eq_true]
  intro blank
  have entry := table c.toNat (toNat_mem_blankCodes blank)
  rw [Char.ofNat_toNat, h] at entry
  cases entry

/-- The text without its leading blanks. -/
def trimStart (cs : List Char) : List Char := cs.dropWhile isBlank

/-- The text without its trailing blanks. -/
def trimEnd (cs : List Char) : List Char := (cs.reverse.dropWhile isBlank).reverse

/-- The text without blanks at either end. -/
def trim (cs : List Char) : List Char := trimEnd (trimStart cs)

/-- The text without blanks at either end. -/
def trimText (s : String) : String := .ofList (trim s.toList)

/-- The words of a text: its non-empty runs of characters other than blanks. -/
def blankWords (cs : List Char) : List (List Char) :=
  match _shorter : cs.dropWhile isBlank with
  | [] => []
  | c :: rest =>
    (c :: rest.takeWhile fun d => !isBlank d) :: blankWords (rest.dropWhile fun d => !isBlank d)
termination_by cs.length
decreasing_by
  have kept := (List.dropWhile_sublist isBlank (l := cs)).length_le
  have after := (List.dropWhile_sublist (fun d => !isBlank d) (l := rest)).length_le
  rw [_shorter, List.length_cons] at kept
  omega

/-- The words of a text. -/
def textWords (s : String) : List String := (blankWords s.toList).map String.ofList

@[simp] theorem trim_nil : trim [] = [] := rfl

theorem trim_eq_self {cs : List Char} (first : ∀ c ∈ cs.head?, isBlank c = false)
    (last : ∀ c ∈ cs.getLast?, isBlank c = false) : trim cs = cs := by
  have start : trimStart cs = cs := by
    cases cs with
    | nil => rfl
    | cons c cs => simp [trimStart, List.dropWhile, first c (by simp)]
  rw [trim, start, trimEnd]
  cases h : cs.reverse with
  | nil => simp_all
  | cons d ds =>
    have top : cs.getLast? = some d := by
      rw [← List.head?_reverse, h]
      rfl
    simp [List.dropWhile, last d (by simp [top]), ← h]

end BracketCss.Text
