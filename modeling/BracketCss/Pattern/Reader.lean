import BracketCss.Number.Decimal
import BracketCss.Pattern.Basic

/-!
# Reading patterns

The written form of patterns: literals, the dot, classes, groups with and without number,
alternatives, the repetitions `*`, `+`, `?` and counts in braces, each also in its sparing form,
the anchors `^` and `$`, and escapes.

## Main definitions

* `PatternFault`, `PatternFault.message`: why a written form is refused
* `Pattern.read s`: the pattern of a written form
-/

namespace BracketCss

open Text

/-- Why a written form is no pattern, with the offset at which that shows. -/
inductive PatternFault where
  /-- A group without its closing parenthesis. -/
  | unterminatedGroup (position : Nat)
  /-- A class without its closing bracket. -/
  | unterminatedClass (position : Nat)
  /-- A repetition with nothing before it. -/
  | nothingToRepeat (position : Nat)
  /-- A repetition of a repetition. -/
  | multipleRepeat (position : Nat)
  /-- A closing parenthesis without its group. -/
  | unbalancedParenthesis (position : Nat)
  /-- A range whose ends are out of order or not characters. -/
  | badRange (written : String) (position : Nat)
  /-- A backslash before a letter that has no meaning. -/
  | badEscape (written : String) (position : Nat)
  /-- A backslash at the end. -/
  | danglingBackslash (position : Nat)
  /-- A least count above the greatest. -/
  | countsReversed (position : Nat)
  /-- A kind of group that is not known. -/
  | unknownExtension (written : String) (position : Nat)
  deriving DecidableEq, Repr

/-- The text of a fault. -/
def PatternFault.message : PatternFault → String
  | unterminatedGroup n => s!"missing ), unterminated subpattern at position {n}"
  | unterminatedClass n => s!"unterminated character set at position {n}"
  | nothingToRepeat n => s!"nothing to repeat at position {n}"
  | multipleRepeat n => s!"multiple repeat at position {n}"
  | unbalancedParenthesis n => s!"unbalanced parenthesis at position {n}"
  | badRange written n => s!"bad character range {written} at position {n}"
  | badEscape written n => s!"bad escape {written} at position {n}"
  | danglingBackslash n => s!"bad escape (end of pattern) at position {n}"
  | countsReversed n => s!"min repeat greater than max repeat at position {n}"
  | unknownExtension written n => s!"unknown extension {written} at position {n}"

namespace Pattern

/-- The class of an escaped letter. -/
def escapedClass? : Char → Option CharClass
  | 'd' => some .digit
  | 'D' => some (.outside .digit)
  | 's' => some .blank
  | 'S' => some (.outside .blank)
  | 'w' => some .word
  | 'W' => some (.outside .word)
  | _ => none

/-- The character of an escaped letter. -/
def escapedChar? : Char → Option Char
  | 'a' => some '\x07'
  | 'f' => some '\x0c'
  | 'n' => some '\n'
  | 'r' => some '\r'
  | 't' => some '\t'
  | 'v' => some '\x0b'
  | c => if isAsciiAlphanumeric c then none else some c

/-- One element of a class: a character or a set of them. -/
inductive ClassElement where
  /-- A character, which may start a range. -/
  | char (c : Char)
  /-- A set. -/
  | set (class_ : CharClass)

/-- The set of an element. -/
def ClassElement.toClass : ClassElement → CharClass
  | char c => .one c
  | set class_ => class_

/-- Reads one element of a class at an offset of the whole form, with the text after it. -/
def readElement (total : Nat) : List Char → Except PatternFault (ClassElement × List Char)
  | '\\' :: c :: rest =>
    match escapedClass? c, (if c = 'b' then some '\x08' else escapedChar? c) with
    | some class_, _ => .ok (.set class_, rest)
    | none, some d => .ok (.char d, rest)
    | none, none => .error (.badEscape (.ofList ['\\', c]) (total - rest.length - 2))
  | ['\\'] => .error (.danglingBackslash (total - 1))
  | c :: rest => .ok (.char c, rest)
  | [] => .error (.unterminatedClass total)

/-- Reads the elements of a class up to its closing bracket. The class opens at `opening`, and a
closing bracket that comes `first` is an element. -/
def readElements (total opening : Nat) :
    (bound : Nat) → (first : Bool) → CharClass → List Char →
      Except PatternFault (CharClass × List Char)
  | 0, _, _, _ => .error (.unterminatedClass opening)
  | bound + 1, first, seen, cs =>
    match cs with
    | [] => .error (.unterminatedClass opening)
    | ']' :: rest =>
      if first then readElements total opening bound false (.union seen (.one ']')) rest
      else .ok (seen, rest)
    | _ => do
      let (element, rest) ← readElement total cs
      match rest with
      | '-' :: ']' :: tail => .ok (.union (.union seen element.toClass) (.one '-'), tail)
      | '-' :: [] => .error (.unterminatedClass opening)
      | '-' :: tail =>
        let (last, after) ← readElement total tail
        let written := String.ofList (cs.take (cs.length - after.length))
        match element, last with
        | .char low, .char high =>
          if high < low then .error (.badRange written (total - cs.length))
          else readElements total opening bound false (.union seen (.range low high)) after
        | _, _ => .error (.badRange written (total - cs.length))
      | _ => readElements total opening bound false (.union seen element.toClass) rest

/-- How often something is repeated: the least count, and the greatest if there is one. -/
structure Counts where
  /-- The least count. -/
  least : Nat
  /-- The greatest count. -/
  greatest : Option Nat

/-- The counts between braces that follow an opening brace, with the text after them. A count may
be any number; that counts from 2 ^ 32 - 1 on overflow is left out. -/
def readCounts? (cs : List Char) : Option (Counts × List Char) :=
  let low := cs.takeWhile isAsciiDigit
  match cs.drop low.length with
  | '\x7d' :: rest =>
    if low.isEmpty then none else some (⟨decimalNat low, some (decimalNat low)⟩, rest)
  | ',' :: body =>
    let high := body.takeWhile isAsciiDigit
    match body.drop high.length with
    | '\x7d' :: rest =>
      some (⟨decimalNat low, if high.isEmpty then none else some (decimalNat high)⟩, rest)
    | _ => none
  | _ => none

/-- The repetition that a text starts with, if it does, with the text after it. -/
def readRepetition? : List Char → Option (Counts × List Char)
  | '*' :: rest => some (⟨0, none⟩, rest)
  | '+' :: rest => some (⟨1, none⟩, rest)
  | '?' :: rest => some (⟨0, some 1⟩, rest)
  | '\x7b' :: rest => readCounts? rest
  | _ => none

/-- A pattern repeated as often as counts say. -/
def repeated (counts : Counts) (eager : Bool) (p : Pattern) : Pattern :=
  let more := match counts.greatest with
    | none => star eager p
    | some n => upTo eager p (n - counts.least)
  sequence (List.replicate counts.least p ++ [more])

/-- What the last piece of a sequence is, as far as a repetition after it minds. -/
inductive Piece where
  /-- Something that takes text. -/
  | plain
  /-- A place. -/
  | place
  /-- A repetition. -/
  | repetition
  deriving DecidableEq

/-- An escape outside a class, after its backslash: a pattern and what kind of piece it is. -/
def readEscape (position : Nat) (c : Char) : Except PatternFault (Pattern × Piece) :=
  match escapedClass? c, escapedChar? c with
  | some class_, _ => .ok (char class_, .plain)
  | none, some d => .ok (char (.one d), .plain)
  | none, none =>
    if c = 'b' then .ok (boundary, .place)
    else if c = 'B' then .ok (noBoundary, .place)
    else if c = 'A' then .ok (start, .place)
    else .error (.badEscape (.ofList ['\\', c]) position)

/-- What has been read: the alternatives before the present one, its pieces with the last one
first, and the number for the next group. -/
structure Progress where
  /-- The finished alternatives, the last one first. -/
  alternatives : List Pattern
  /-- The pieces of the present alternative, the last one first. -/
  pieces : List (Pattern × Piece)
  /-- The number for the next group. -/
  next : Nat

namespace Progress

/-- The start of a form or a group. -/
def fresh (next : Nat) : Progress := ⟨[], [], next⟩

/-- One more piece. -/
def push (progress : Progress) (p : Pattern) (piece : Piece) : Progress :=
  { progress with pieces := (p, piece) :: progress.pieces }

/-- The present alternative. -/
def present (progress : Progress) : Pattern := sequence (progress.pieces.reverse.map (·.1))

/-- The start of another alternative. -/
def another (progress : Progress) : Progress :=
  { progress with alternatives := progress.present :: progress.alternatives, pieces := [] }

/-- The pattern read. -/
def finished (progress : Progress) : Pattern :=
  choice (progress.present :: progress.alternatives).reverse

end Progress

/-- Reads up to the end or to a closing parenthesis, which it leaves. -/
def readAlternatives (total : Nat) :
    (bound : Nat) → Progress → List Char → Except PatternFault (Progress × List Char)
  | 0, progress, cs => .ok (progress, cs)
  | bound + 1, progress, cs =>
    let position := total - cs.length
    match readRepetition? cs with
    | some (counts, rest) =>
      let (eager, rest) := match rest with
        | '?' :: tail => (false, tail)
        | _ => (true, rest)
      if counts.greatest.any (· < counts.least) then
        .error (.countsReversed (position + 1))
      else
        match progress.pieces with
        | (p, .plain) :: before =>
          readAlternatives total bound
            ⟨progress.alternatives, (repeated counts eager p, .repetition) :: before,
              progress.next⟩ rest
        | (_, .repetition) :: _ => .error (.multipleRepeat position)
        | _ => .error (.nothingToRepeat position)
    | none =>
      match cs with
      | [] => .ok (progress, [])
      | ')' :: _ => .ok (progress, cs)
      | '|' :: rest => readAlternatives total bound progress.another rest
      | '.' :: rest =>
        readAlternatives total bound (progress.push (char .inLine) .plain) rest
      | '^' :: rest => readAlternatives total bound (progress.push start .place) rest
      | '$' :: rest => readAlternatives total bound (progress.push finish .place) rest
      | '[' :: rest => do
        let (negated, body) := match rest with
          | '^' :: tail => (true, tail)
          | _ => (false, rest)
        let (class_, after) ← readElements total position (body.length + 1) true .nothing body
        readAlternatives total bound
          (progress.push (char (if negated then .outside class_ else class_)) .plain) after
      | '(' :: '?' :: ':' :: rest => do
        let (inner, after) ← readAlternatives total bound (.fresh progress.next) rest
        match after with
        | ')' :: tail =>
          readAlternatives total bound
            ({ progress with next := inner.next }.push inner.finished .plain) tail
        | _ => .error (.unterminatedGroup position)
      | '(' :: '?' :: c :: _ =>
        .error (.unknownExtension (.ofList ['?', c]) (position + 1))
      | '(' :: rest => do
        let (inner, after) ← readAlternatives total bound (.fresh (progress.next + 1)) rest
        match after with
        | ')' :: tail =>
          readAlternatives total bound
            ({ progress with next := inner.next }.push (group progress.next inner.finished)
              .plain) tail
        | _ => .error (.unterminatedGroup position)
      | '\\' :: c :: rest => do
        let (p, piece) ← readEscape position c
        readAlternatives total bound (progress.push p piece) rest
      | ['\\'] => .error (.danglingBackslash position)
      | c :: rest => readAlternatives total bound (progress.push (char (.one c)) .plain) rest

/-- The pattern of a written form. -/
def read (s : String) : Except PatternFault Pattern := do
  let cs := s.toList
  let (progress, rest) ← readAlternatives cs.length (cs.length + 1) (.fresh 1) cs
  if rest.isEmpty then .ok progress.finished
  else .error (.unbalancedParenthesis (cs.length - rest.length))

end Pattern

end BracketCss
