import BracketCss.Sheet.Group
import BracketCss.Sheet.Options

/-!
# Sheets

The text of a sheet: groups without a media prelude first, then one block for each breakpoint,
ascending.

## Main definitions

* `StyleGroup.block`: the text of a group
* `mediaRuns groups`: groups side by side with the same media prelude
* `renderSheet options groups`: the text of a sheet

## Main results

* `mediaRuns_flatten`: the runs hold the groups in order
-/

namespace BracketCss

/-- The selectors under a scope. -/
def underScope (scope : Option String) (selectors : List String) : List String :=
  match scope with
  | none => selectors
  | some outer => selectors.map fun selector => outer ++ " " ++ selector

namespace StyleGroup

/-- The text of a group in one line, without any space that can be spared. -/
def minified (scope : Option String) (group : StyleGroup) : String :=
  ",".intercalate (underScope scope group.selectors) ++ "\x7b" ++
    ";".intercalate ((sortDeclarations group.declarations).map fun entry =>
      entry.1 ++ ":" ++ entry.2) ++ "\x7d"

/-- The lines of a group, each after an indentation. -/
def lines (options : SheetOptions) (indent : String) (group : StyleGroup) : List String :=
  (if options.comments then [indent ++ "/* " ++ ", ".intercalate group.classNames ++ " */"]
    else []) ++
  [indent ++ ", ".intercalate (underScope options.scope group.selectors) ++ " \x7b"] ++
  ((sortDeclarations group.declarations).map fun entry =>
    indent ++ "  " ++ entry.1 ++ ": " ++ entry.2 ++ ";") ++
  [indent ++ "\x7d"]

/-- The text of a group. -/
def block (options : SheetOptions) (indent : String) (group : StyleGroup) : String :=
  if options.minify then group.minified options.scope
  else "\n".intercalate (group.lines options indent)

end StyleGroup

/-- Groups side by side with the same media prelude. -/
def mediaRuns : List StyleGroup → List (Option String × List StyleGroup)
  | [] => []
  | group :: groups =>
    match mediaRuns groups with
    | (media, members) :: runs =>
      if group.media = media then (media, group :: members) :: runs
      else (group.media, [group]) :: (media, members) :: runs
    | [] => [(group.media, [group])]

theorem mediaRuns_flatten (groups : List StyleGroup) :
    (mediaRuns groups).flatMap (·.2) = groups := by
  induction groups with
  | nil => rfl
  | cons group groups ih =>
    rw [mediaRuns]
    split
    · next media members runs h =>
      rw [h] at ih
      split <;> simpa using ih
    · next h =>
      rw [h] at ih
      simp [← ih]

/-- The spaces after the colons of a media prelude that can be spared. -/
def closeColons : List Char → List Char
  | ':' :: ' ' :: cs => ':' :: closeColons cs
  | c :: cs => c :: closeColons cs
  | [] => []

/-- The text of a media block. -/
def mediaBlock (options : SheetOptions) (media : String) (members : List StyleGroup) : String :=
  if options.minify then
    .ofList (closeColons media.toList) ++ "\x7b" ++
      "".intercalate (members.map (·.block options "")) ++ "\x7d"
  else
    media ++ " \x7b\n" ++ "\n\n".intercalate (members.map (·.block options "  ")) ++ "\n\x7d"

/-- The texts of a run of groups. -/
def runTexts (options : SheetOptions) : Option String × List StyleGroup → List String
  | (none, members) => members.map (·.block options "")
  | (some media, members) => [mediaBlock options media members]

/-- The comment at the head of a sheet. -/
def headerComment : String := "/* Generated by zyracss */"

/-- Groups in the order in which a sheet has them. -/
def sortGroups (groups : List StyleGroup) : List StyleGroup :=
  groups.mergeSort fun a b => decide (mediaOrder a.media ≤ mediaOrder b.media)

/-- The texts that a sheet is made of. -/
def sheetTexts (options : SheetOptions) (groups : List StyleGroup) : List String :=
  (if options.comments && !options.minify then [headerComment] else []) ++
    (mediaRuns (sortGroups groups)).flatMap (runTexts options)

/-- The text of a sheet. -/
def renderSheet (options : SheetOptions) (groups : List StyleGroup) : String :=
  let texts := sheetTexts options groups
  if texts.isEmpty then ""
  else if options.minify then "".intercalate texts
  else "\n\n".intercalate texts ++ "\n"

end BracketCss
