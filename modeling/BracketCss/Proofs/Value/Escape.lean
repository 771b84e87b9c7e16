import BracketCss.Proofs.Value.Uncut

/-!
# Escapes in values

In a sheet a backslash makes the next character literal, inside strings and outside. The check of a
value's structure knows no escapes: it counts every quotation mark and every parenthesis. The two
readings agree on a text none of whose quotation marks and parentheses is escaped. On any other text
they may differ, and what decides is the text without its escapes.

## Main definitions

* `Scan.IsBalanced cs`: the structure that the check demands
* `EscapeState`, `EscapeState.step`: what is open at a place of a sheet, and the effect of a
  character
* `EscapeState.IsBalanced cs`: the same structure, read as in a sheet
* `withoutEscapes cs`, `escapedChars cs`: a text without its escapes, and what they escape

## Main results

* `Scan.check_eq_ok_iff`: what the check accepts
* `EscapeState.isBalanced_iff`: a text is balanced in a sheet if it is balanced without its escapes
* `EscapeState.isBalanced_of_check`: when a text that passes the check is balanced in a sheet
-/

namespace BracketCss

theorem forall_prefix_cons {P : List Char → Prop} {c : Char} {cs : List Char} :
    (∀ front, front <+: c :: cs → P front) ↔ P [] ∧ ∀ front, front <+: cs → P (c :: front) := by
  constructor
  · intro h
    exact ⟨h [] List.nil_prefix, fun front mem => h _ (List.cons_prefix_cons.2 ⟨rfl, mem⟩)⟩
  · rintro ⟨nil, cons⟩ front mem
    rcases List.prefix_cons_iff.1 mem with rfl | ⟨rest, rfl, inside⟩
    · exact nil
    · exact cons rest inside

/-! ## What the check accepts -/

namespace Scan

/-- No parenthesis is closed before it was opened. -/
def State.StaysUp (s : State) (cs : List Char) : Prop :=
  ∀ front, front <+: cs → 0 ≤ (s.run front).depth

/-- No reserved separator stands at the top level. -/
def State.ReservesNothing (s : State) (cs : List Char) : Prop :=
  ∀ front, front <+: cs → (s.run front).isTop → ∀ c ∈ (cs.drop front.length).head?,
    isReserved c = false

/-- Every string is closed, and so is every parenthesis that was opened, and no other. -/
structure IsBalanced (cs : List Char) : Prop where
  up : State.initial.StaysUp cs
  closed : IsClosed cs

namespace State

variable {s : State} {c : Char} {cs : List Char}

theorem staysUp_nil : s.StaysUp [] ↔ 0 ≤ s.depth := by
  simp only [StaysUp, List.prefix_nil, forall_eq, run_nil]

theorem staysUp_cons : s.StaysUp (c :: cs) ↔ 0 ≤ s.depth ∧ (s.step c).StaysUp cs := by
  rw [StaysUp, forall_prefix_cons]
  rfl

theorem StaysUp.depth (h : s.StaysUp cs) : 0 ≤ s.depth := h [] List.nil_prefix

theorem reservesNothing_nil : s.ReservesNothing [] := by
  intro front _ _ c hc
  rw [List.drop_nil] at hc
  cases hc

theorem reservesNothing_cons : s.ReservesNothing (c :: cs) ↔
    (s.isTop → isReserved c = false) ∧ (s.step c).ReservesNothing cs := by
  rw [ReservesNothing, forall_prefix_cons]
  refine and_congr ?_ Iff.rfl
  simp

end State

theorem checkFrom_eq_ok_iff {s : State} (up : 0 ≤ s.depth) (position : Nat) (cs : List Char) :
    checkFrom position s cs = .ok () ↔
      (s.StaysUp cs ∧ s.run cs = .initial) ∧ s.ReservesNothing cs := by
  induction cs generalizing s position with
  | nil =>
    have empty : s.run [] = .initial ↔ s.quote = none ∧ s.depth = 0 := by
      cases s
      simp [State.initial]
    rw [checkFrom, empty, State.staysUp_nil]
    cases open_ : s.quote with
    | some q => simp
    | none =>
      by_cases level : s.depth = 0
      · simp [level, State.reservesNothing_nil]
      · simp [level]
  | cons c cs ih =>
    rw [checkFrom, State.staysUp_cons, State.reservesNothing_cons, State.run_cons]
    split
    · next fallen =>
      refine iff_of_false (by simp) ?_
      rintro ⟨⟨⟨-, stays⟩, -⟩, -⟩
      have := stays.depth
      omega
    · next kept =>
      split
      · next reserved =>
        rw [Bool.and_eq_true] at reserved
        refine iff_of_false (by simp) ?_
        rintro ⟨-, free, -⟩
        rw [free reserved.1] at reserved
        cases reserved.2
      · next free =>
        rw [Bool.and_eq_true, not_and, Bool.not_eq_true] at free
        rw [ih (by omega)]
        tauto

/-- **The check accepts exactly the balanced texts** without a reserved separator at the top
level. -/
theorem check_eq_ok_iff {cs : List Char} :
    check cs = .ok () ↔ IsBalanced cs ∧ State.initial.ReservesNothing cs := by
  rw [check, checkFrom_eq_ok_iff (Int.le_refl 0)]
  exact and_congr_left' ⟨fun h => ⟨h.1, h.2⟩, fun h => ⟨h.up, h.closed⟩⟩

end Scan

/-! ## Reading as in a sheet -/

/-- A place of a sheet: what is open there, and whether a backslash before it makes the next
character literal. -/
structure EscapeState where
  /-- What is open. -/
  state : Scan.State
  /-- A backslash stands before the place and is not escaped itself. -/
  isEscaped : Bool
  deriving DecidableEq, Repr

namespace EscapeState

/-- The start of a text. -/
def initial : EscapeState := ⟨.initial, false⟩

/-- The effect of a character. -/
def step (p : EscapeState) (c : Char) : EscapeState :=
  if p.isEscaped then ⟨p.state, false⟩
  else if c = '\\' then ⟨p.state, true⟩
  else ⟨p.state.step c, false⟩

/-- The effect of a text. -/
def run (p : EscapeState) (cs : List Char) : EscapeState := cs.foldl step p

@[simp] theorem run_nil (p : EscapeState) : p.run [] = p := rfl

@[simp] theorem run_cons (p : EscapeState) (c : Char) (cs : List Char) :
    p.run (c :: cs) = (p.step c).run cs := rfl

/-- No parenthesis is closed before it was opened. -/
def StaysUp (p : EscapeState) (cs : List Char) : Prop :=
  ∀ front, front <+: cs → 0 ≤ (p.run front).state.depth

/-- Read as in a sheet, every string is closed, and so is every parenthesis that was opened, and no
other. -/
structure IsBalanced (cs : List Char) : Prop where
  up : initial.StaysUp cs
  closed : (initial.run cs).state = .initial

theorem staysUp_nil {p : EscapeState} : p.StaysUp [] ↔ 0 ≤ p.state.depth := by
  simp only [StaysUp, List.prefix_nil, forall_eq, run_nil]

theorem staysUp_cons {p : EscapeState} {c : Char} {cs : List Char} :
    p.StaysUp (c :: cs) ↔ 0 ≤ p.state.depth ∧ (p.step c).StaysUp cs := by
  rw [StaysUp, forall_prefix_cons]
  rfl

end EscapeState

/-! ## Escapes -/

/-- A text without its escapes: each backslash goes with the character that it makes literal. -/
def withoutEscapes : List Char → List Char
  | [] => []
  | ['\\'] => []
  | '\\' :: _ :: cs => withoutEscapes cs
  | c :: cs => c :: withoutEscapes cs

/-- The characters that are made literal. -/
def escapedChars : List Char → List Char
  | [] => []
  | ['\\'] => []
  | '\\' :: c :: cs => c :: escapedChars cs
  | _ :: cs => escapedChars cs

/-- A text is empty, a last backslash, an escape with what follows it, or a plain character with
what follows it. -/
@[elab_as_elim]
theorem escapeInduction {motive : List Char → Prop} (nil : motive []) (last : motive ['\\'])
    (escape : ∀ c cs, motive cs → motive ('\\' :: c :: cs))
    (plain : ∀ c cs, c ≠ '\\' → motive cs → motive (c :: cs)) (cs : List Char) : motive cs := by
  fun_induction withoutEscapes cs with
  | case1 => exact nil
  | case2 => exact last
  | case3 c cs ih => exact escape c cs ih
  | case4 c cs alone other ih =>
    refine plain c cs ?_ ih
    rintro rfl
    cases cs with
    | nil => exact alone rfl rfl
    | cons d cs => exact other d cs rfl rfl

theorem withoutEscapes_cons {c : Char} (cs : List Char) (h : c ≠ '\\') :
    withoutEscapes (c :: cs) = c :: withoutEscapes cs := by
  rw [withoutEscapes.eq_def]
  split <;> simp_all

theorem escapedChars_cons {c : Char} (cs : List Char) (h : c ≠ '\\') :
    escapedChars (c :: cs) = escapedChars cs := by
  rw [escapedChars.eq_def]
  split <;> simp_all

namespace EscapeState

theorem step_plain (s : Scan.State) {c : Char} (h : c ≠ '\\') :
    step ⟨s, false⟩ c = ⟨s.step c, false⟩ := by
  simp only [step, Bool.false_eq_true, if_false, if_neg h]

/-- Escapes open nothing and close nothing: what is open after a text, and at each place of it, is
what is open without them. -/
theorem run_withoutEscapes (s : Scan.State) (cs : List Char) :
    (run ⟨s, false⟩ cs).state = s.run (withoutEscapes cs) ∧
      (StaysUp ⟨s, false⟩ cs ↔ s.StaysUp (withoutEscapes cs)) := by
  induction cs using escapeInduction generalizing s with
  | nil => exact ⟨rfl, staysUp_nil.trans Scan.State.staysUp_nil.symm⟩
  | last =>
    refine ⟨rfl, ?_⟩
    rw [staysUp_cons, staysUp_nil]
    exact and_self_iff.trans Scan.State.staysUp_nil.symm
  | escape c cs ih =>
    obtain ⟨state, up⟩ := ih s
    refine ⟨state, ?_⟩
    have twice : StaysUp ⟨s, false⟩ ('\\' :: c :: cs) ↔
        0 ≤ s.depth ∧ 0 ≤ s.depth ∧ StaysUp ⟨s, false⟩ cs := by
      rw [staysUp_cons, staysUp_cons]
      rfl
    rw [twice]
    refine Iff.trans ?_ up
    exact ⟨fun h => h.2.2, fun h => ⟨h [] List.nil_prefix, h [] List.nil_prefix, h⟩⟩
  | plain c cs other ih =>
    obtain ⟨state, up⟩ := ih (s.step c)
    rw [withoutEscapes_cons cs other, run_cons, step_plain s other, staysUp_cons,
      step_plain s other, Scan.State.staysUp_cons, Scan.State.run_cons]
    exact ⟨state, and_congr_right' up⟩

/-- **A text is balanced in a sheet if it is balanced without its escapes**, and only then. -/
theorem isBalanced_iff {cs : List Char} : IsBalanced cs ↔ Scan.IsBalanced (withoutEscapes cs) := by
  obtain ⟨state, up⟩ := run_withoutEscapes .initial cs
  constructor
  · intro h
    exact ⟨up.1 h.up, state.symm.trans h.closed⟩
  · intro h
    exact ⟨up.2 h.up, state.trans h.closed⟩

end EscapeState

namespace Scan

/-- Nothing that is escaped in a text is a quotation mark or a parenthesis. -/
def HasHarmlessEscapes (cs : List Char) : Prop := ∀ c ∈ escapedChars cs, isStructural c = false

instance (cs : List Char) : Decidable (HasHarmlessEscapes cs) :=
  inferInstanceAs (Decidable (∀ c ∈ escapedChars cs, isStructural c = false))

/-- Escapes of characters that structure nothing do not matter to the check. -/
theorem State.IsSound.run_withoutEscapes {s : State} (h : s.IsSound) {cs : List Char}
    (harmless : HasHarmlessEscapes cs) :
    s.run (withoutEscapes cs) = s.run cs ∧ (s.StaysUp (withoutEscapes cs) ↔ s.StaysUp cs) := by
  have backslash {t : State} (sound : t.IsSound) : t.step '\\' = t := sound.step_plain (by decide)
  induction cs using escapeInduction generalizing s with
  | nil => exact ⟨rfl, Iff.rfl⟩
  | last =>
    refine ⟨(backslash h).symm, ?_⟩
    rw [staysUp_cons, backslash h]
    exact ⟨fun up => ⟨up.depth, up⟩, fun up => up.2⟩
  | escape c cs ih =>
    obtain ⟨plain, rest⟩ := List.forall_mem_cons.1 harmless
    obtain ⟨same, up⟩ := ih h rest
    rw [run_cons, run_cons, backslash h, h.step_plain plain, staysUp_cons, staysUp_cons,
      backslash h, h.step_plain plain]
    refine ⟨same, Iff.trans up ?_⟩
    exact ⟨fun up => ⟨up.depth, up.depth, up⟩, fun up => up.2.2⟩
  | plain c cs other ih =>
    rw [HasHarmlessEscapes, escapedChars_cons cs other] at harmless
    obtain ⟨same, up⟩ := ih (h.step c) harmless
    rw [withoutEscapes_cons cs other, run_cons, run_cons, staysUp_cons, staysUp_cons]
    exact ⟨same, and_congr_right' up⟩

/-- The two readings agree on a text with harmless escapes. -/
theorem HasHarmlessEscapes.isBalanced_iff {cs : List Char} (h : HasHarmlessEscapes cs) :
    EscapeState.IsBalanced cs ↔ IsBalanced cs := by
  obtain ⟨same, up⟩ := State.isSound_initial.run_withoutEscapes h
  rw [EscapeState.isBalanced_iff]
  constructor
  · intro balanced
    exact ⟨up.1 balanced.up, same.symm.trans balanced.closed⟩
  · intro balanced
    exact ⟨up.2 balanced.up, same.trans balanced.closed⟩

end Scan

/-- **When a text that passes the check is balanced in a sheet.** It is, if it is balanced without
its escapes, and only then; so it is, if none of its quotation marks and parentheses is escaped. -/
theorem EscapeState.isBalanced_of_check {cs : List Char} (accepted : Scan.check cs = .ok ()) :
    (IsBalanced cs ↔ Scan.IsBalanced (withoutEscapes cs)) ∧
      (Scan.HasHarmlessEscapes cs → IsBalanced cs) := by
  refine ⟨isBalanced_iff, fun harmless => ?_⟩
  exact harmless.isBalanced_iff.2 (Scan.check_eq_ok_iff.1 accepted).1

/-- An escaped letter in a string, and an escaped comma in a call. -/
theorem EscapeState.isBalanced_of_check_comma :
    Scan.check "var(--x, 'a\\b' \\, c)".toList = .ok () ∧
      IsBalanced "var(--x, 'a\\b' \\, c)".toList := by
  have accepted : Scan.check "var(--x, 'a\\b' \\, c)".toList = .ok () := by decide
  exact ⟨accepted, (isBalanced_of_check accepted).2 (by decide)⟩

/-- A text may pass the check and leave its string open, since the quotation mark that should end it
is escaped. -/
theorem EscapeState.exists_check_not_isBalanced :
    ∃ cs, Scan.check cs = .ok () ∧ ¬ IsBalanced cs := by
  refine ⟨['\'', '\\', '\''], by decide, fun balanced => ?_⟩
  exact absurd balanced.closed (by decide)

end BracketCss
