import BracketCss.Pattern.Basic

/-!
# Matching

A backtracking matcher that tries alternatives in order of preference, so the first match found
is the one that leftmost, first-alternative matching prescribes. A repetition that takes no text
is made at most once, which is why the matcher ends.

## Main definitions

* `Cursor`: a place in a text, with the texts of the groups so far
* `Pattern.run p c k`: the first way to match `p` at `c` after which `k` succeeds
* `Pattern.search p s`, `Pattern.fullMatch p s`, `Pattern.occursIn p s`: matches in a text
* `Pattern.findAll p s`, `Pattern.splitAt p s`: the matches in turn, and the text between them

## Main results

* `run_seq`, `run_alt`: how the matcher takes patterns apart
-/

namespace BracketCss

open Text

/-- A place in a text. -/
structure Cursor where
  /-- The character before the place. -/
  before : Option Char
  /-- The text after the place. -/
  rest : List Char
  /-- The number of characters before the place. -/
  offset : Nat
  /-- The groups that have matched: number, start and end. -/
  groups : List (Nat × Nat × Nat)
  deriving Repr

namespace Cursor

/-- The start of a text. -/
def atStart (cs : List Char) : Cursor := ⟨none, cs, 0, []⟩

/-- The place after the next character, if it belongs to a class. -/
def advance? (class_ : CharClass) (c : Cursor) : Option Cursor :=
  match c.rest with
  | [] => none
  | d :: rest =>
    if class_.contains d then some ⟨some d, rest, c.offset + 1, c.groups⟩ else none

/-- A word character stands on exactly one side. -/
def isBoundary (c : Cursor) : Bool := c.before.any isWordChar != c.rest.head?.any isWordChar

/-- The start of the text. -/
def isStart (c : Cursor) : Bool := c.offset == 0

/-- The end of the text, or the place before a line feed that ends it. -/
def isFinish (c : Cursor) : Bool := c.rest == [] || c.rest == ['\n']

/-- The place with a group's text set to what lies between an earlier place and this one. -/
def closeGroup (number : Nat) (opening c : Cursor) : Cursor :=
  { c with groups := (number, opening.offset, c.offset) :: c.groups.filter (·.1 != number) }

end Cursor

namespace Pattern

/-- Repeats `step` from `c` up to `bound` times before `k`. A repetition without progress is
the last one. -/
def repeatStep {α : Type} (eager : Bool)
    (step : Cursor → (Cursor → Option α) → Option α) (k : Cursor → Option α) :
    (bound : Nat) → Cursor → Option α
  | 0, c => k c
  | bound + 1, c =>
    let again := fun _ : Unit => step c fun d =>
      if c.offset < d.offset then repeatStep eager step k bound d else k d
    if eager then (again ()).orElse fun _ => k c else (k c).orElse again

/-- The first way to match a pattern at `c` after which `k` succeeds. -/
def run {α : Type} : Pattern → Cursor → (Cursor → Option α) → Option α
  | empty, c, k => k c
  | char class_, c, k => (c.advance? class_).bind k
  | start, c, k => if c.isStart then k c else none
  | finish, c, k => if c.isFinish then k c else none
  | boundary, c, k => if c.isBoundary then k c else none
  | noBoundary, c, k => if c.isBoundary then none else k c
  | seq p q, c, k => run p c fun d => run q d k
  | alt p q, c, k => (run p c k).orElse fun _ => run q c k
  | star eager p, c, k => repeatStep eager (run p) k (c.rest.length + 1) c
  | group number p, c, k => run p c fun d => k (Cursor.closeGroup number c d)

theorem run_seq {α : Type} (p q : Pattern) (c : Cursor) (k : Cursor → Option α) :
    run (seq p q) c k = run p c fun d => run q d k := rfl

theorem run_alt {α : Type} (p q : Pattern) (c : Cursor) (k : Cursor → Option α) :
    run (alt p q) c k = (run p c k).orElse fun _ => run q c k := rfl

/-- A match: the places where it starts and ends, with the groups at its end. -/
structure Match where
  /-- The offset of the first character. -/
  start : Nat
  /-- The offset after the last character. -/
  stop : Nat
  /-- The groups that matched: number, start and end. -/
  groups : List (Nat × Nat × Nat)
  deriving Repr

/-- The match that ends at a cursor. -/
def matchEnding (start : Nat) (c : Cursor) : Match := ⟨start, c.offset, c.groups⟩

/-- The first match that starts at `c`; if `moving`, one that takes some text. -/
def matchAt (p : Pattern) (moving : Bool) (c : Cursor) : Option Cursor :=
  run p c fun d => if moving && d.offset == c.offset then none else some d

/-- The first match that starts in the text `rest` or at its end. -/
def searchFrom (p : Pattern) (moving : Bool) (before : Option Char) (offset : Nat) :
    (rest : List Char) → Option (Match × Cursor)
  | [] =>
    (matchAt p moving ⟨before, [], offset, []⟩).map fun d => (matchEnding offset d, d)
  | c :: rest =>
    match matchAt p moving ⟨before, c :: rest, offset, []⟩ with
    | some d => some (matchEnding offset d, d)
    | none => searchFrom p false (some c) (offset + 1) rest

/-- The first match in a text. -/
def search (p : Pattern) (cs : List Char) : Option Match :=
  (searchFrom p false none 0 cs).map (·.1)

/-- The match of a whole text. -/
def fullMatch (p : Pattern) (cs : List Char) : Option Match :=
  (run p (.atStart cs) fun d => if d.rest.isEmpty then some d else none).map (matchEnding 0)

/-- The pattern matches somewhere in a text. -/
def occursIn (p : Pattern) (cs : List Char) : Bool := (search p cs).isSome

/-- The pattern matches a whole text. -/
def matchesAll (p : Pattern) (cs : List Char) : Bool := (fullMatch p cs).isSome

/-- The matches in turn, at most `bound` of them, from a place on. After a match without text the
next one takes some text or starts later. -/
def findAllFrom (p : Pattern) : (bound : Nat) → (moving : Bool) → Cursor → List Match
  | 0, _, _ => []
  | bound + 1, moving, c =>
    match searchFrom p moving c.before c.offset c.rest with
    | none => []
    | some (m, d) => m :: findAllFrom p bound (m.start == m.stop) d

/-- The matches in a text, each after the one before it. -/
def findAll (p : Pattern) (cs : List Char) : List Match :=
  findAllFrom p (2 * cs.length + 2) false (.atStart cs)

/-- The text between two offsets. -/
def slice (cs : List Char) (start stop : Nat) : String :=
  .ofList ((cs.drop start).take (stop - start))

/-- The text of a match. -/
def Match.textIn (cs : List Char) (m : Match) : String := slice cs m.start m.stop

/-- The text of a group, if it matched. -/
def Match.group? (cs : List Char) (m : Match) (number : Nat) : Option String :=
  (m.groups.lookup number).map fun place => slice cs place.1 place.2

/-- The texts of the groups of a pattern, by number from one on. -/
def Match.groupTexts (p : Pattern) (cs : List Char) (m : Match) : List (Option String) :=
  (List.range (p.groupBound - 1)).map fun i => m.group? cs (i + 1)

/-- The text between matches, from an offset on, with the groups of each match after it. -/
def partsFrom (p : Pattern) (cs : List Char) (start : Nat) : List Match → List (Option String)
  | [] => [some (slice cs start cs.length)]
  | m :: rest => some (slice cs start m.start) :: m.groupTexts p cs ++ partsFrom p cs m.stop rest

/-- The parts of a text between the matches of a pattern, with the groups of each match. -/
def splitAt (p : Pattern) (cs : List Char) : List (Option String) :=
  partsFrom p cs 0 (findAll p cs)

end Pattern

end BracketCss
