/-!
# Variants

A class may be limited to a least width of the window and to a state of its element. Widths are
named by breakpoints, which ascend; states by pseudo-classes.

## Main definitions

* `Breakpoint`, `Breakpoint.query`: a least width and its media prelude
* `PseudoClass`, `PseudoClass.selector`: a state and its selector
* `Variants`: what a class is limited to
* `mediaOrder`: the place of a media prelude in a sheet

## Main results

* `mediaOrder_query`: a breakpoint's prelude has the place of the breakpoint
-/

namespace BracketCss

/-- A least width of the window. -/
inductive Breakpoint where
  /-- From 640 pixels on. -/
  | sm
  /-- From 768 pixels on. -/
  | md
  /-- From 1024 pixels on. -/
  | lg
  /-- From 1280 pixels on. -/
  | xl
  /-- From 1536 pixels on. -/
  | xxl
  deriving DecidableEq, Repr

namespace Breakpoint

/-- The breakpoints, the smallest first. -/
def all : List Breakpoint := [sm, md, lg, xl, xxl]

/-- The name of a breakpoint. -/
def name : Breakpoint → String
  | sm => "sm"
  | md => "md"
  | lg => "lg"
  | xl => "xl"
  | xxl => "2xl"

/-- The least width in pixels. -/
def width : Breakpoint → Nat
  | sm => 640
  | md => 768
  | lg => 1024
  | xl => 1280
  | xxl => 1536

/-- The breakpoint of a name. -/
def ofName? (s : String) : Option Breakpoint := all.find? fun breakpoint => breakpoint.name == s

/-- The prelude of the media block of a breakpoint. -/
def query (breakpoint : Breakpoint) : String := s!"@media (min-width: {breakpoint.width}px)"

theorem mem_all (breakpoint : Breakpoint) : breakpoint ∈ all := by
  cases breakpoint <;> decide

end Breakpoint

/-- A state of an element. -/
inductive PseudoClass where
  /-- Under the pointer. -/
  | hover
  /-- Has the focus. -/
  | focus
  /-- Being pressed. -/
  | active
  /-- A link that was followed. -/
  | visited
  /-- The focus is on or inside it. -/
  | focusWithin
  /-- Has the focus and shows it. -/
  | focusVisible
  /-- Takes no input. -/
  | disabled
  /-- The first of its parent. -/
  | firstChild
  /-- The last of its parent. -/
  | lastChild
  /-- At an odd place in its parent. -/
  | odd
  /-- At an even place in its parent. -/
  | even
  deriving DecidableEq, Repr

namespace PseudoClass

/-- The pseudo-classes. -/
def all : List PseudoClass :=
  [hover, focus, active, visited, focusWithin, focusVisible, disabled, firstChild, lastChild, odd,
    even]

/-- The name of a pseudo-class. -/
def name : PseudoClass → String
  | hover => "hover"
  | focus => "focus"
  | active => "active"
  | visited => "visited"
  | focusWithin => "focus-within"
  | focusVisible => "focus-visible"
  | disabled => "disabled"
  | firstChild => "first-child"
  | lastChild => "last-child"
  | odd => "odd"
  | even => "even"

/-- The pseudo-class of a name. -/
def ofName? (s : String) : Option PseudoClass := all.find? fun pseudo => pseudo.name == s

/-- The selector of a pseudo-class, as it follows the selector of a class. -/
def selector : PseudoClass → String
  | odd => ":nth-child(odd)"
  | even => ":nth-child(even)"
  | pseudo => ":" ++ pseudo.name

theorem mem_all (pseudo : PseudoClass) : pseudo ∈ all := by
  cases pseudo <;> decide

end PseudoClass

/-- What a class is limited to. -/
structure Variants where
  /-- The least width of the window. -/
  breakpoint : Option Breakpoint
  /-- The state of the element. -/
  pseudo : Option PseudoClass
  deriving DecidableEq, Repr

namespace Variants

/-- No limit. -/
def plain : Variants := ⟨none, none⟩

/-- The names of all variants, breakpoints first. -/
def names : List String := Breakpoint.all.map (·.name) ++ PseudoClass.all.map (·.name)

/-- The selector of a class with the state that it is limited to. -/
def applyTo (variants : Variants) (selector : String) : String :=
  selector ++ (variants.pseudo.map PseudoClass.selector).getD ""

/-- The media prelude, if the width is limited. -/
def media (variants : Variants) : Option String := variants.breakpoint.map Breakpoint.query

end Variants

/-- The place of a media prelude in a sheet: rules without one first, then the breakpoints in
their order, then every other prelude. -/
def mediaOrder : Option String → Int
  | none => -1
  | some media => Breakpoint.all.findIdx fun breakpoint => breakpoint.query == media

theorem mediaOrder_query (breakpoint : Breakpoint) :
    mediaOrder (some breakpoint.query) = Breakpoint.all.idxOf breakpoint := by
  cases breakpoint <;> decide +kernel

end BracketCss
