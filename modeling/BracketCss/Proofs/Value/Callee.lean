import BracketCss.Proofs.Value.Quantity
import BracketCss.Value.Math.Expr
import Mathlib.Data.List.DropRight
import Mathlib.Data.List.Infix

/-!
# The names of called functions

The name that stands before an opening parenthesis, for every parenthesis of a text at once. A text
is read from its start, and what counts at a parenthesis is the name that was read right before it,
and whether that name stands directly behind a digit: the name in `1px-calc(2px)` starts with the
unit of a number, and the function is what follows the hyphen.

## Main definitions

* `IsName`, `IsWholeName front name`: a name, and one that no character before it belongs to
* `StartsWithUnit name`, `MayBeCalled functions afterDigit name`: the name is that of an allowed
  function, or directly behind a digit the unit of the number with what follows it
* `NameState`, `NameState.step`: what was read right before a place
* `CallsFrom functions s cs`, `CallsOnly functions cs`: all functions that a text calls are allowed

## Main results

* `callsFrom_append_iff`: texts are put together
* `CallsOnly.of_cutsInto`, `callsOnly_trim_iff`: the segments and the blanks of a text
* `CallsOnly.mayBeCalled`: the names of all functions that are called
-/

namespace BracketCss

open Text

/-! ## Names -/

/-- A name starts with an ASCII letter or a low line. -/
def startsName (c : Char) : Bool := isAsciiLetter c || c == '_'

/-- A name: an ASCII letter or a low line, then name characters. -/
def IsName (cs : List Char) : Prop :=
  ∃ c rest, cs = c :: rest ∧ startsName c ∧ ∀ d ∈ rest, isNameChar d

/-- A name that is no part of a longer one with the text before it. -/
def IsWholeName (front name : List Char) : Prop :=
  IsName name ∧ ∀ more, more <:+ front → IsName (more ++ name) → more = []

instance : (cs : List Char) → Decidable (IsName cs)
  | [] => isFalse (by simp [IsName])
  | c :: rest => decidable_of_iff (startsName c && rest.all isNameChar) (by simp [IsName])

instance (front name : List Char) : Decidable (IsWholeName front name) :=
  decidable_of_iff
    (IsName name ∧ front.tails.all fun more => !decide (IsName (more ++ name)) || more.isEmpty) <|
    by simp [IsWholeName, Decidable.imp_iff_not_or]

/-- The text behind the last hyphen. -/
def lastPart (name : List Char) : List Char := name.rtakeWhile (· != '-')

/-- A name starts with the letters of a unit, up to a hyphen. -/
def StartsWithUnit (name : List Char) : Prop :=
  ∃ unit more, name = unit ++ '-' :: more ∧ unit ≠ [] ∧ ∀ c ∈ unit, isAsciiLetter c

/-- A name may stand before an opening parenthesis. If it stands directly behind a digit, it starts
with the unit of that number, and the function is what follows the last hyphen; without a function
there, the parenthesis belongs to no call. -/
def MayBeCalled (functions : List String) (afterDigit : Bool) (name : List Char) : Prop :=
  if afterDigit then StartsWithUnit name ∧
    (lastPart name = [] ∨ String.ofList (lower (lastPart name)) ∈ mathFunctions)
  else String.ofList (lower name) ∈ functions

theorem StartsWithUnit.append {name : List Char} (h : StartsWithUnit name) (more : List Char) :
    StartsWithUnit (name ++ more) := by
  obtain ⟨unit, rest, rfl, some_, letters⟩ := h
  exact ⟨unit, rest ++ more, by rw [List.append_assoc, List.cons_append], some_, letters⟩

theorem isNameChar_of_startsName {c : Char} (h : startsName c) : isNameChar c := by
  rw [startsName, Bool.or_eq_true, beq_iff_eq] at h
  rcases h with letter | rfl
  · simp [isNameChar, isWordChar, isAsciiAlphanumeric, letter]
  · rfl

theorem isNameChar_of_isAsciiNameChar {c : Char} (h : isAsciiNameChar c) : isNameChar c := by
  rw [isAsciiNameChar, Bool.or_eq_true] at h
  rcases h with alphanumeric | hyphen
  · rw [isNameChar, isWordChar_of_isAsciiAlphanumeric alphanumeric, Bool.true_or]
  · rw [isNameChar, hyphen, Bool.or_true]

theorem IsName.forall {name : List Char} (h : IsName name) : ∀ c ∈ name, isNameChar c := by
  obtain ⟨c, rest, rfl, starts, chars⟩ := h
  exact List.forall_mem_cons.2 ⟨isNameChar_of_startsName starts, chars⟩

/-- The digits of every script are among the numbers of all scripts. -/
theorem isNameChar_of_isDecimal {c : Char} (h : isDecimal c) : isNameChar c := by
  have word : isWordChar c := by
    rw [isDecimal] at h
    simp only [decimalValue?] at h
    split at h
    · split at h
      · next _ digit =>
        refine isWordChar_of_isAsciiAlphanumeric ?_
        have low : '0' ≤ c := digit.1
        have high : c ≤ '9' := digit.2
        simp [isAsciiAlphanumeric, low, high]
      · cases h
    · next beyond =>
      rw [Option.isSome_map, List.find?_isSome] at h
      obtain ⟨first, mem, between⟩ := h
      have table : ∀ first ∈ scriptZeros,
          letterOrNumberRanges.any fun r => r.1.ble first && (first + 9).ble r.2 := by
        decide +kernel
      obtain ⟨range, listed, inside⟩ := List.any_eq_true.1 (table first mem)
      simp only [Bool.and_eq_true, decide_eq_true_eq] at between
      rw [Bool.and_eq_true, Nat.ble_eq, Nat.ble_eq] at inside
      have found : letterOrNumberRanges.any fun r => r.1 ≤ c.toNat && c.toNat ≤ r.2 := by
        refine List.any_eq_true.2 ⟨range, listed, ?_⟩
        simp only [Bool.and_eq_true, decide_eq_true_eq]
        omega
      have high : 128 ≤ c.toNat := Nat.not_lt.1 beyond
      simp [isWordChar, high, found]
  rw [isNameChar, word, Bool.true_or]

/-! ## What was read -/

/-- What was read right before a place: no name, or the name so far. A digit may stand directly
before the place, or before the name. -/
inductive NameState where
  /-- No name. -/
  | outside (afterDigit : Bool)
  /-- A name so far. -/
  | inside (afterDigit : Bool) (name : List Char)
  deriving DecidableEq, Repr

namespace NameState

/-- The effect of a character. -/
def step : NameState → Char → NameState
  | outside afterDigit, c =>
    if startsName c then inside afterDigit [c] else outside (isDecimal c)
  | inside afterDigit name, c =>
    if isNameChar c then inside afterDigit (name ++ [c]) else outside false

/-- The effect of a text. -/
def run (s : NameState) (cs : List Char) : NameState := cs.foldl step s

@[simp] theorem run_nil (s : NameState) : s.run [] = s := rfl

@[simp] theorem run_cons (s : NameState) (c : Char) (cs : List Char) :
    s.run (c :: cs) = (s.step c).run cs := rfl

@[simp] theorem run_append (s : NameState) (xs ys : List Char) :
    s.run (xs ++ ys) = (s.run xs).run ys := List.foldl_append

/-- An opening parenthesis may follow: there is no name, or that of an allowed function. -/
def Allows (functions : List String) : NameState → Prop
  | outside _ => True
  | inside afterDigit name => MayBeCalled functions afterDigit name

/-- A character that no name has ends the name before it. -/
theorem step_of_not_isNameChar (s : NameState) {c : Char} (other : isNameChar c = false) :
    s.step c = outside false := by
  have noStart : startsName c = false := by
    rw [Bool.eq_false_iff]
    intro starts
    rw [isNameChar_of_startsName starts] at other
    cases other
  have noDigit : isDecimal c = false := by
    rw [Bool.eq_false_iff]
    intro digit
    rw [isNameChar_of_isDecimal digit] at other
    cases other
  cases s with
  | outside => rw [step, noStart, noDigit, if_neg Bool.false_ne_true]
  | inside => rw [step, other, if_neg Bool.false_ne_true]

/-- A name goes on as long as there are name characters. -/
theorem run_inside (afterDigit : Bool) (name : List Char) {cs : List Char}
    (chars : ∀ c ∈ cs, isNameChar c) :
    (inside afterDigit name).run cs = inside afterDigit (name ++ cs) := by
  induction cs generalizing name with
  | nil => rw [run_nil, List.append_nil]
  | cons c cs ih =>
    obtain ⟨here, rest⟩ := List.forall_mem_cons.1 chars
    rw [run_cons, step, if_pos here, ih _ rest, List.append_assoc, List.singleton_append]

theorem run_outside (afterDigit : Bool) {name : List Char} (h : IsName name) :
    (outside afterDigit).run name = inside afterDigit name := by
  obtain ⟨c, rest, rfl, starts, chars⟩ := h
  rw [run_cons, step, if_pos starts, run_inside afterDigit [c] chars, List.singleton_append]

/-- What a state says about the text that was read. -/
def Describes (front : List Char) : NameState → Prop
  | outside afterDigit => afterDigit = front.getLast?.any isDecimal
  | inside _ name => name <:+ front ∧ IsName name

/-- **What was read** right before a place is found by reading the text before it. -/
theorem describes_run (front : List Char) : ((outside false).run front).Describes front := by
  induction front using List.reverseRecOn with
  | nil => rfl
  | append_singleton front c ih =>
    rw [run_append, run_cons, run_nil]
    cases before : (outside false).run front with
    | outside afterDigit =>
      rw [step]
      by_cases starts : startsName c
      · rw [if_pos starts]
        exact ⟨List.suffix_append _ _, c, [], rfl, starts, List.forall_mem_nil _⟩
      · rw [if_neg starts]
        simp [Describes]
    | inside afterDigit name =>
      rw [before] at ih
      obtain ⟨⟨lead, rfl⟩, first, rest, rfl, starts, chars⟩ := ih
      rw [step]
      by_cases goesOn : isNameChar c
      · rw [if_pos goesOn]
        refine ⟨⟨lead, by rw [List.append_assoc]⟩, first, rest ++ [c], rfl, starts, ?_⟩
        exact List.forall_mem_append.2 ⟨chars, List.forall_mem_singleton.2 goesOn⟩
      · rw [if_neg goesOn]
        have noDigit : isDecimal c = false := by
          rw [Bool.eq_false_iff]
          exact fun digit => goesOn (isNameChar_of_isDecimal digit)
        rw [Describes, List.getLast?_concat, Option.any_some, noDigit]

/-- **A whole name is what is read last**, with the digit that may stand before it. -/
theorem run_of_isWholeName {front name : List Char} (h : IsWholeName front name) :
    (outside false).run (front ++ name) = inside (front.getLast?.any isDecimal) name := by
  obtain ⟨isName, whole⟩ := h
  have known := describes_run front
  rw [run_append]
  cases before : (outside false).run front with
  | outside afterDigit =>
    rw [before] at known
    rw [run_outside afterDigit isName, show afterDigit = _ from known]
  | inside afterDigit longer =>
    rw [before] at known
    obtain ⟨ends, first, rest, rfl, starts, chars⟩ := known
    have empty := whole _ ends ⟨first, rest ++ name, rfl, starts,
      List.forall_mem_append.2 ⟨chars, isName.forall⟩⟩
    cases empty

end NameState

/-! ## Texts -/

/-- Every opening parenthesis of a text is allowed where it stands, where `s` says what was read
before the text. -/
def CallsFrom (functions : List String) (s : NameState) : List Char → Prop
  | [] => True
  | c :: cs => (c = '(' → s.Allows functions) ∧ CallsFrom functions (s.step c) cs

/-- A text calls allowed functions only. -/
def CallsOnly (functions : List String) (cs : List Char) : Prop :=
  CallsFrom functions (.outside false) cs

section Texts

variable {functions : List String} {s : NameState} {xs ys cs : List Char}

theorem callsFrom_append_iff : CallsFrom functions s (xs ++ ys) ↔
    CallsFrom functions s xs ∧ CallsFrom functions (s.run xs) ys := by
  induction xs generalizing s with
  | nil => simp [CallsFrom]
  | cons x xs ih => rw [List.cons_append, CallsFrom, CallsFrom, ih, NameState.run_cons, and_assoc]

/-- A text without opening parentheses calls nothing. -/
theorem callsFrom_of_forall_ne (s : NameState) (none_ : ∀ c ∈ cs, c ≠ '(') :
    CallsFrom functions s cs := by
  induction cs generalizing s with
  | nil => trivial
  | cons c cs ih =>
    obtain ⟨here, rest⟩ := List.forall_mem_cons.1 none_
    exact ⟨fun opening => absurd opening here, ih _ rest⟩

/-- A character that no name has cuts a text in two. -/
theorem callsFrom_append_cons_iff {c : Char} (other : isNameChar c = false) (plain : c ≠ '(') :
    CallsFrom functions s (xs ++ c :: ys) ↔ CallsFrom functions s xs ∧ CallsOnly functions ys := by
  rw [callsFrom_append_iff, CallsFrom, NameState.step_of_not_isNameChar _ other]
  exact and_congr_right' (and_iff_right fun opening => absurd opening plain)

/-- A call, of which the name is allowed. -/
theorem callsFrom_call_iff : CallsFrom functions s (xs ++ '(' :: (ys ++ [')'])) ↔
    CallsFrom functions s xs ∧ (s.run xs).Allows functions ∧ CallsOnly functions ys := by
  have closing := @callsFrom_append_cons_iff functions (.outside false) ys [] ')' (by decide)
    (by decide)
  rw [callsFrom_append_iff, CallsFrom, NameState.step_of_not_isNameChar _ (by decide), closing]
  simp [CallsOnly, CallsFrom]

theorem not_isNameChar_of_isBlank {c : Char} (h : isBlank c) :
    isNameChar c = false ∧ c ≠ '(' := by
  constructor
  · rw [Bool.eq_false_iff]
    intro name
    rw [isBlank_of_isNameChar name] at h
    cases h
  · rintro rfl
    cases h

theorem callsOnly_blanks_append_iff (blank : ∀ c ∈ xs, isBlank c) :
    CallsOnly functions (xs ++ ys) ↔ CallsOnly functions ys := by
  induction xs with
  | nil => rfl
  | cons c xs ih =>
    obtain ⟨here, rest⟩ := List.forall_mem_cons.1 blank
    obtain ⟨other, plain⟩ := not_isNameChar_of_isBlank here
    have cut := @callsFrom_append_cons_iff functions (.outside false) [] (xs ++ ys) c other plain
    exact cut.trans ((and_iff_right trivial).trans (ih rest))

/-- Blanks at the ends call nothing. -/
theorem callsOnly_trim_iff : CallsOnly functions (trim cs) ↔ CallsOnly functions cs := by
  obtain ⟨lead, trail, same, leadBlank, trailBlank⟩ := Scan.exists_trim cs
  have last : ∀ s : NameState, CallsFrom functions s trail := fun s =>
    callsFrom_of_forall_ne s fun c hc => (not_isNameChar_of_isBlank (trailBlank c hc)).2
  conv_rhs => rw [same, callsOnly_blanks_append_iff leadBlank, CallsOnly, callsFrom_append_iff]
  exact (and_iff_left (last _)).symm

/-- A text that is cut at separators calls what its segments call. -/
theorem CallsOnly.of_cutsInto {separator : Char → Bool} {segments : List (List Char)}
    (names : ∀ c, separator c → isNameChar c = false)
    (cuts : Scan.CutsInto separator cs segments)
    (each : ∀ segment ∈ segments, CallsOnly functions (trim segment)) : CallsOnly functions cs := by
  induction cuts with
  | whole => exact callsOnly_trim_iff.1 (each _ List.mem_cons_self)
  | @first front rest c others _ _ hc structural _ ih =>
    obtain ⟨here, behind⟩ := List.forall_mem_cons.1 each
    have plain : c ≠ '(' := by
      rintro rfl
      cases structural
    exact (callsFrom_append_cons_iff (names c hc) plain).2
      ⟨callsOnly_trim_iff.1 here, ih behind⟩

theorem CallsOnly.of_parts {separator : Char → Bool}
    (names : ∀ c, separator c → isNameChar c = false)
    (each : ∀ part ∈ Scan.parts separator cs, CallsOnly functions part) :
    CallsOnly functions cs :=
  .of_cutsInto names (Scan.cutsInto_segments cs) (List.forall_mem_map.1 each)

theorem CallsOnly.of_topWords (each : ∀ word ∈ Scan.topWords cs, CallsOnly functions word) :
    CallsOnly functions cs := by
  refine .of_parts (fun c blank => (not_isNameChar_of_isBlank blank).1) fun part mem => ?_
  by_cases empty : part = []
  · subst empty
    trivial
  · exact each part (List.mem_filter.2 ⟨mem, by simpa using empty⟩)

/-- **The names of the functions that are called** are those of allowed ones. -/
theorem CallsOnly.mayBeCalled {front name rest : List Char}
    (h : CallsOnly functions (front ++ (name ++ '(' :: rest))) (whole : IsWholeName front name) :
    MayBeCalled functions (front.getLast?.any isDecimal) name := by
  rw [CallsOnly, ← List.append_assoc, callsFrom_append_iff,
    NameState.run_of_isWholeName whole] at h
  exact h.2.1 rfl

end Texts

end BracketCss
