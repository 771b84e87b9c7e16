import BracketCss.Text.Blank
import BracketCss.Text.Letter
import BracketCss.Threat.Report

/-!
# Classes in markup

The classes that the `class` and `className` attributes of a document name. A document is not
parsed: an attribute is the word `class` or `className`, an equals sign and a quoted text,
wherever they stand.

## Main definitions

* `Markup.attributeAt? cs`: the value of an attribute at the start of a text
* `Markup.attributes cs`: the values of all attributes
* `Markup.classes`, `Markup.classesOfAll`: the distinct classes of one or several documents

## Main results

* `attributeAt?_shorter`: an attribute takes up a part of the text
-/

namespace BracketCss.Markup

open Text

/-- The text after a word that the text starts with. -/
def after? (word : List Char) (cs : List Char) : Option (List Char) :=
  if word.isPrefixOf cs then some (cs.drop word.length) else none

/-- The value after the name of an attribute, and the text behind it. -/
def valueAt? (cs : List Char) : Option (List Char × List Char) :=
  match trimStart cs with
  | '=' :: rest =>
    match trimStart rest with
    | mark :: inside =>
      if mark = '"' ∨ mark = '\'' then
        match inside.dropWhile (· != mark) with
        | [] => none
        | _ :: behind => some (inside.takeWhile (· != mark), behind)
      else none
    | [] => none
  | _ => none

/-- The value of an attribute that a text starts with, and the text behind it. -/
def attributeAt? (cs : List Char) : Option (List Char × List Char) :=
  (after? "className".toList cs).bind valueAt? <|> (after? "class".toList cs).bind valueAt?

theorem valueAt?_shorter {cs value behind : List Char} (h : valueAt? cs = some (value, behind)) :
    behind.length < cs.length := by
  have outer := (List.dropWhile_sublist isBlank (l := cs)).length_le
  simp only [valueAt?, trimStart] at h
  split at h
  · next rest first =>
    rw [first, List.length_cons] at outer
    have inner := (List.dropWhile_sublist isBlank (l := rest)).length_le
    split at h
    · next mark inside second =>
      rw [second, List.length_cons] at inner
      split at h
      · have last := (List.dropWhile_sublist (· != mark) (l := inside)).length_le
        split at h
        · cases h
        · next third =>
          rw [third, List.length_cons] at last
          simp only [Option.some.injEq, Prod.mk.injEq] at h
          obtain ⟨rfl, rfl⟩ := h
          omega
      · cases h
    · cases h
  · cases h

theorem attributeAt?_shorter {cs value behind : List Char}
    (h : attributeAt? cs = some (value, behind)) : behind.length < cs.length := by
  have drop {word : List Char} (h : (after? word cs).bind valueAt? = some (value, behind)) :
      behind.length < cs.length := by
    obtain ⟨rest, found, taken⟩ := Option.bind_eq_some_iff.1 h
    have := valueAt?_shorter taken
    simp only [after?] at found
    split at found
    · simp only [Option.some.injEq] at found
      rw [← found, List.length_drop] at this
      omega
    · cases found
  simp only [attributeAt?] at h
  cases first : (after? "className".toList cs).bind valueAt? with
  | some found =>
    rw [first] at h
    exact drop (first.trans h)
  | none =>
    rw [first] at h
    exact drop h

/-- The values of the attributes after a character; `seen` holds those before, the last one
first. An attribute does not start inside a word. -/
def attributesFrom (seen : List (List Char)) (before : Option Char) (cs : List Char) :
    List (List Char) :=
  match cs with
  | [] => seen.reverse
  | c :: rest =>
    if before.any isWordChar then attributesFrom seen (some c) rest
    else
      match _found : attributeAt? (c :: rest) with
      | some (value, behind) => attributesFrom (value :: seen) (some '"') behind
      | none => attributesFrom seen (some c) rest
termination_by cs.length
decreasing_by
  · simp
  · exact attributeAt?_shorter _found
  · simp

/-- The values of the class attributes of a text. -/
def attributes (cs : List Char) : List (List Char) := attributesFrom [] none cs

/-- The classes that a document names, without repetitions. -/
def classes (document : String) : List String :=
  distinct ((attributes document.toList).flatMap fun value => (blankWords value).map .ofList)

/-- The classes that several documents name, without repetitions. -/
def classesOfAll (documents : List String) : List String := distinct (documents.flatMap classes)

end BracketCss.Markup
