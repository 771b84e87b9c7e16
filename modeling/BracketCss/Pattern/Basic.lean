import BracketCss.Text.Blank
import BracketCss.Text.Case
import BracketCss.Text.Digit
import BracketCss.Text.Letter

/-!
# Patterns

Regular expressions as trees over classes of characters.

## Main definitions

* `CharClass`, `CharClass.contains`: sets of characters
* `Pattern`: the trees
* `Pattern.text`, `Pattern.textIgnoringCase`: a fixed text
* `Pattern.plus`, `Pattern.optional`, `Pattern.times`: the derived repetitions
-/

namespace BracketCss

open Text

/-- A set of characters. -/
inductive CharClass where
  /-- One character. -/
  | one (c : Char)
  /-- Every character of the case class of `c`, which is its lower-case letter. -/
  | ignoringCase (c : Char)
  /-- The characters from `low` to `high`. -/
  | range (low high : Char)
  /-- The decimal digits of every script. -/
  | digit
  /-- The blanks. -/
  | blank
  /-- The word characters. -/
  | word
  /-- No character. -/
  | nothing
  /-- The characters of either set. -/
  | union (a b : CharClass)
  /-- The characters outside a set. -/
  | outside (a : CharClass)
  deriving DecidableEq, Repr

namespace CharClass

/-- A character belongs to a set. -/
def contains : CharClass → Char → Bool
  | one d, c => c == d
  | ignoringCase d, c => caseKey c == d
  | range low high, c => low ≤ c && c ≤ high
  | digit, c => isDecimal c
  | blank, c => isBlank c
  | word, c => isWordChar c
  | nothing, _ => false
  | union a b, c => contains a c || contains b c
  | outside a, c => !contains a c

/-- The characters of a text. -/
def anyOf (s : String) : CharClass := s.toList.foldr (fun c rest => union (one c) rest) nothing

/-- Every character. -/
def all : CharClass := outside nothing

/-- Every character but the line feed. -/
def inLine : CharClass := outside (one '\n')

/-- The ASCII letters. -/
def asciiLetter : CharClass := union (range 'a' 'z') (range 'A' 'Z')

/-- Word characters and the hyphen. -/
def nameChar : CharClass := union word (one '-')

/-- The hexadecimal digits. -/
def hexDigit : CharClass := union (range '0' '9') (union (range 'a' 'f') (range 'A' 'F'))

@[simp] theorem contains_all (c : Char) : all.contains c = true := rfl

@[simp] theorem contains_union (a b : CharClass) (c : Char) :
    (union a b).contains c = (a.contains c || b.contains c) := rfl

@[simp] theorem contains_outside (a : CharClass) (c : Char) :
    (outside a).contains c = !a.contains c := rfl

end CharClass

/-- A regular expression. -/
inductive Pattern where
  /-- The empty text. -/
  | empty
  /-- One character of a class. -/
  | char (class_ : CharClass)
  /-- The start of the text. -/
  | start
  /-- The end of the text, or the place before a line feed that ends it. -/
  | finish
  /-- A place with a word character on exactly one side. -/
  | boundary
  /-- A place with a word character on both sides or on none. -/
  | noBoundary
  /-- One pattern after another. -/
  | seq (p q : Pattern)
  /-- Either pattern, the first one preferred. -/
  | alt (p q : Pattern)
  /-- Any number of repetitions: as many as possible if `eager`, as few as possible if not. -/
  | star (eager : Bool) (p : Pattern)
  /-- A pattern whose latest text is kept under a number. -/
  | group (number : Nat) (p : Pattern)
  deriving DecidableEq, Repr

namespace Pattern

/-- The patterns in order. -/
def sequence : List Pattern → Pattern
  | [] => empty
  | [p] => p
  | p :: rest => seq p (sequence rest)

/-- Any of the patterns, the earlier ones preferred; without patterns the empty text. -/
def choice : List Pattern → Pattern
  | [] => empty
  | [p] => p
  | p :: rest => alt p (choice rest)

/-- A fixed text. -/
def text (s : String) : Pattern := sequence (s.toList.map fun c => char (.one c))

/-- A fixed text in any letter case, given in lower case. -/
def textIgnoringCase (s : String) : Pattern :=
  sequence (s.toList.map fun c => char (.ignoringCase c))

/-- One or more repetitions. -/
def plus (eager : Bool) (p : Pattern) : Pattern := seq p (star eager p)

/-- None or one occurrence, one preferred if `eager`. -/
def optional (eager : Bool) (p : Pattern) : Pattern := if eager then alt p empty else alt empty p

/-- Up to `count` repetitions. -/
def upTo (eager : Bool) (p : Pattern) : (count : Nat) → Pattern
  | 0 => empty
  | count + 1 => optional eager (seq p (upTo eager p count))

/-- Exactly `count` repetitions. -/
def times (p : Pattern) (count : Nat) : Pattern := sequence (List.replicate count p)

/-- Any number of characters of a class, as many as possible. -/
def many (class_ : CharClass) : Pattern := star true (char class_)

/-- At least one character of a class, as many as possible. -/
def several (class_ : CharClass) : Pattern := plus true (char class_)

/-- The numbers of the groups in a pattern are below this. -/
def groupBound : Pattern → Nat
  | seq p q | alt p q => max p.groupBound q.groupBound
  | star _ p => p.groupBound
  | group n p => max (n + 1) p.groupBound
  | _ => 0

end Pattern

end BracketCss
