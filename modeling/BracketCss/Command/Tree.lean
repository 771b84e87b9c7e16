import BracketCss.Distinct
import BracketCss.Pattern.Match
import BracketCss.Text.Pieces

/-!
# File trees

The files below a directory, by the names on the way to them, and the patterns that name several
files at once. A star stands for any characters of one name, a question mark for one, brackets
for one of a class, and a name of two stars for any number of directories. Names that start with
a dot are meant only where the pattern says so.

## Main definitions

* `FileTree`, `FileTree.locate?`: files, and where a path leads
* `namePattern pattern`: the pattern of one name
* `FileTree.expand`: what a pattern names
* `FileTree.inputs`: the files that a path or pattern names, sorted
-/

namespace BracketCss.Command

open Text

/-- The files below a directory: the names on the way to each, and its text, if it is text. -/
structure FileTree where
  /-- The files. -/
  files : List (List String × Option String)

/-- A file as it was named. -/
structure NamedFile where
  /-- The path as it is shown. -/
  shown : List String
  /-- The names on the way to the file. -/
  path : List String
  deriving DecidableEq, Repr

/-- A path as text. -/
def pathText (names : List String) : String :=
  if names.isEmpty then "." else "/".intercalate names

/-- The names of a written path, without those that stay where they are. -/
def pathNames (path : String) : List String :=
  ((pieces '/' path.toList).map String.ofList).filter fun name => name != "" && name != "."

/-- A path that does not start at the present directory. -/
def isAbsolute (path : String) : Bool := path.toList.head? == some '/'

namespace FileTree

variable (tree : FileTree)

/-- The path leads to a file. -/
def isFile (path : List String) : Bool := tree.files.any (·.1 == path)

/-- The path leads to a directory: the present one, or one on the way to a file. -/
def isDirectory (path : List String) : Bool :=
  path.isEmpty || tree.files.any fun file => path.isPrefixOf file.1 && path != file.1

/-- Where a name leads from a directory; nowhere from anything else, nor above the present
directory. -/
def step? (directory : List String) (name : String) : Option (List String) :=
  if !tree.isDirectory directory then none
  else if name == ".." then if directory.isEmpty then none else some directory.dropLast
  else some (directory ++ [name])

/-- Where names lead. -/
def locate? (names : List String) : Option (List String) := names.foldlM tree.step? []

/-- The names in a directory. -/
def children (directory : List String) : List String :=
  distinct (tree.files.filterMap fun file =>
    if directory.isPrefixOf file.1 then (file.1.drop directory.length).head? else none)

end FileTree

/-- A name that is hidden. -/
def isHidden (name : String) : Bool := name.toList.head? == some '.'

/-- The class between brackets: single characters and ranges. -/
def bracketClass : List Char → CharClass
  | first :: '-' :: last :: rest => .union (.range first last) (bracketClass rest)
  | c :: rest => .union (.one c) (bracketClass rest)
  | [] => .nothing

/-- How many characters after an opening bracket cannot be its closing one. -/
def bracketLead : List Char → Nat
  | '!' :: ']' :: _ => 2
  | '!' :: _ => 1
  | ']' :: _ => 1
  | _ => 0

/-- The text between an opening bracket and its closing one, which is not the first character, and
the text after it. -/
def bracketBody? (cs : List Char) : Option (List Char × List Char) :=
  let rest := cs.drop (bracketLead cs)
  match rest.dropWhile (· != ']') with
  | _ :: after => some (cs.take (bracketLead cs) ++ rest.takeWhile (· != ']'), after)
  | [] => none

theorem bracketBody?_shorter {cs body after : List Char}
    (h : bracketBody? cs = some (body, after)) : after.length < cs.length := by
  have kept := (List.dropWhile_sublist (· != ']') (l := cs.drop (bracketLead cs))).length_le
  simp only [bracketBody?] at h
  split at h
  · next closing =>
    simp only [Option.some.injEq, Prod.mk.injEq] at h
    obtain ⟨_, rfl⟩ := h
    rw [closing, List.length_cons, List.length_drop] at kept
    omega
  · cases h

/-- The class of a bracket: negated by an exclamation mark. -/
def classOfBody : List Char → CharClass
  | '!' :: body => .outside (bracketClass body)
  | body => bracketClass body

/-- The pattern of a name. -/
def namePattern (cs : List Char) : Pattern :=
  match cs with
  | [] => .empty
  | '*' :: rest => .seq (.many .all) (namePattern rest)
  | '?' :: rest => .seq (.char .all) (namePattern rest)
  | '[' :: rest =>
    match _body : bracketBody? rest with
    | some (body, after) => .seq (.char (classOfBody body)) (namePattern after)
    | none => .seq (.char (.one '[')) (namePattern rest)
  | c :: rest => .seq (.char (.one c)) (namePattern rest)
termination_by cs.length
decreasing_by
  · simp
  · simp
  · exact Nat.lt_succ_of_lt (bracketBody?_shorter _body)
  · simp
  · simp

/-- A name in a path that stands for several. -/
def isNamePattern (name : String) : Bool :=
  name.toList.any fun c => c == '*' || c == '?' || c == '['

/-- A name is meant by a pattern. -/
def nameMatches (pattern name : String) : Bool :=
  (isHidden pattern || !isHidden name) && (namePattern pattern.toList).matchesAll name.toList

/-- The starts of a list, the empty one first. -/
def starts {α : Type} : List α → List (List α)
  | [] => [[]]
  | x :: xs => [] :: (starts xs).map (x :: ·)

namespace FileTree

variable (tree : FileTree)

/-- Everything that is not hidden in or below a directory, by the names that lead there from it;
first the directory itself. -/
def below (directory : List String) : List (List String) :=
  if tree.isDirectory directory then
    distinct ([] :: (tree.files.filterMap fun file =>
      if directory.isPrefixOf file.1 then some (file.1.drop directory.length)
      else none).flatMap fun names => starts (names.takeWhile fun name => !isHidden name))
  else []

/-- What the names of a pattern lead to from a place. -/
def expand (place : NamedFile) : List String → List NamedFile
  | [] => [place]
  | name :: rest =>
    if name == "" || name == "." then
      if tree.isDirectory place.path then expand place rest else []
    else if name == "**" then
      (tree.below place.path).flatMap fun more =>
        expand ⟨place.shown ++ more, place.path ++ more⟩ rest
    else if isNamePattern name then
      ((tree.children place.path).filter (nameMatches name)).flatMap fun child =>
        expand ⟨place.shown ++ [child], place.path ++ [child]⟩ rest
    else
      match tree.step? place.path name with
      | none => []
      | some path => expand ⟨place.shown ++ [name], path⟩ rest

/-- The file that a path names. -/
def named? (path : String) : Option NamedFile :=
  if isAbsolute path then none
  else
    let names := pathNames path
    ((tree.locate? names).filter tree.isFile).map (⟨names, ·⟩)

/-- The files that a path or a pattern names, sorted by path. -/
def inputs (pattern : String) : List NamedFile :=
  match tree.named? pattern with
  | some file => [file]
  | none =>
    if isAbsolute pattern then []
    else
      let found := tree.expand ⟨[], []⟩ ((pieces '/' pattern.toList).map String.ofList)
      (distinct (found.filter fun file => tree.isFile file.path)).mergeSort fun a b =>
        !List.lex b.shown a.shown fun x y => decide (x < y)

/-- The text of a file, if it is text. -/
def text? (path : List String) : Option String := (tree.files.lookup path).join

end FileTree

end BracketCss.Command
