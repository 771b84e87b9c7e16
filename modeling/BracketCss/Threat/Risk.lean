/-!
# Risk levels

How severe a dangerous pattern is, in ascending order.

## Main definitions

* `Risk`, `Risk.rank`, `Risk.isBlocking`: the levels, their order, and those that block
* `Risk.greatest levels`: the greatest level of a list

## Main results

* `rank_le_greatest`: no listed level is above the greatest
* `greatest_mem`: the greatest of some levels is one of them
-/

namespace BracketCss

/-- The severity of a dangerous pattern. -/
inductive Risk where
  /-- Harmless. -/
  | none
  /-- Worth noting. -/
  | low
  /-- Suspicious. -/
  | medium
  /-- Dangerous. -/
  | high
  /-- Able to run code. -/
  | critical
  deriving DecidableEq, Repr

namespace Risk

/-- The levels in ascending order. -/
def all : List Risk := [none, low, medium, high, critical]

/-- The place of a level in the ascending order. -/
def rank : Risk → Nat
  | none => 0
  | low => 1
  | medium => 2
  | high => 3
  | critical => 4

/-- The name of a level. -/
def name : Risk → String
  | none => "none"
  | low => "low"
  | medium => "medium"
  | high => "high"
  | critical => "critical"

/-- The level of a name. -/
def ofName? (s : String) : Option Risk := all.find? fun risk => risk.name == s

/-- Input at this level goes no further. -/
def isBlocking (risk : Risk) : Bool := high.rank ≤ risk.rank

/-- The greater of two levels. -/
def worse (a b : Risk) : Risk := if a.rank < b.rank then b else a

/-- The greatest of the levels, `none` if there are none. -/
def greatest : List Risk → Risk
  | [] => none
  | risk :: levels => worse risk (greatest levels)

/-- The levels in ascending order, equal ones in their own order. -/
def sorted (levels : List Risk) : List Risk := levels.mergeSort fun a b => decide (a.rank ≤ b.rank)

theorem rank_worse (a b : Risk) : (worse a b).rank = max a.rank b.rank := by
  unfold worse
  split <;> omega

theorem rank_le_greatest {risk : Risk} {levels : List Risk} (h : risk ∈ levels) :
    risk.rank ≤ (greatest levels).rank := by
  induction levels with
  | nil => simp at h
  | cons a levels ih =>
    rw [greatest, rank_worse]
    rcases List.mem_cons.1 h with rfl | h
    · omega
    · have := ih h
      omega

theorem greatest_mem {levels : List Risk} (h : levels ≠ []) : greatest levels ∈ levels := by
  induction levels with
  | nil => exact absurd rfl h
  | cons a levels ih =>
    rw [greatest, worse]
    split
    · next less =>
      cases levels with
      | nil => simp [greatest, rank] at less
      | cons b rest => exact List.mem_cons_of_mem _ (ih (by simp))
    · simp

end Risk

end BracketCss
