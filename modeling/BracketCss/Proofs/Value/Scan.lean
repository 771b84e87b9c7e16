import BracketCss.Value.Components
import Mathlib.Data.List.Basic
import Mathlib.Data.List.TakeWhile

/-!
# Segments

A value is cut into segments at the separators outside its quotes and parentheses. Cutting after a
part that leaves nothing open is the same as cutting the part and the rest; everything else about
segments follows from this one equation.

## Main definitions

* `Scan.IsClosed cs`: the text leaves no quote and no parenthesis open
* `Scan.IsUncut separator cs`, `Scan.CutsInto separator cs texts`: what a text is cut into

## Main results

* `segments_append`: cutting after a closed part
* `segments_eq_iff`: the segments of a text
* `isClosed_of_check`: a value without a fault in its structure leaves nothing open
-/

namespace BracketCss.Text

theorem isBlank_of_isAsciiNameChar {c : Char} (h : isAsciiNameChar c) : isBlank c = false :=
  isBlank_of_class (by decide) h

/-- No blank is part of a name. -/
theorem isBlank_of_isNameChar {c : Char} (h : isNameChar c) : isBlank c = false :=
  isBlank_of_class (by decide +kernel) h

end BracketCss.Text

namespace BracketCss.Scan

open Text

/-- A text leaves nothing open. -/
def IsClosed (cs : List Char) : Prop := State.initial.run cs = .initial

theorem State.isTop_iff (s : State) : s.isTop ↔ s = .initial := by
  cases s
  simp [isTop, initial]

/-- The open quote, if there is one, is a quotation mark. -/
def State.IsSound (s : State) : Prop := ∀ q ∈ s.quote, isQuote q

theorem State.isSound_initial : State.initial.IsSound := fun q hq => by cases hq

theorem State.IsSound.step {s : State} (h : s.IsSound) (c : Char) : (s.step c).IsSound := by
  obtain ⟨quote, depth⟩ := s
  cases quote with
  | some q =>
    simp only [State.step]
    split
    · intro d hd
      cases hd
    · exact h
  | none =>
    simp only [State.step]
    split
    · next isQuote_ =>
      intro d hd
      rw [← Option.some.inj hd]
      exact isQuote_
    · split
      · exact h
      · split <;> exact h

theorem State.IsSound.run {s : State} (h : s.IsSound) (cs : List Char) : (s.run cs).IsSound := by
  induction cs generalizing s with
  | nil => exact h
  | cons c cs ih => exact ih (h.step c)

/-- A character that structures nothing has no effect. -/
theorem State.IsSound.step_plain {s : State} (h : s.IsSound) {c : Char}
    (plain : isStructural c = false) : s.step c = s := by
  simp only [isStructural, Bool.or_eq_false_iff, beq_eq_false_iff_ne] at plain
  obtain ⟨⟨noQuote, noOpening⟩, noClosing⟩ := plain
  obtain ⟨quote, depth⟩ := s
  cases quote with
  | some q =>
    have other : c ≠ q := by
      rintro rfl
      rw [h c rfl] at noQuote
      cases noQuote
    simp [State.step, other]
  | none => simp [State.step, noQuote, noOpening, noClosing]

theorem State.IsSound.run_plain {s : State} (h : s.IsSound) {cs : List Char}
    (plain : ∀ c ∈ cs, isStructural c = false) : s.run cs = s := by
  induction cs with
  | nil => rfl
  | cons c cs ih =>
    rw [State.run_cons, h.step_plain (plain c List.mem_cons_self),
      ih fun d hd => plain d (List.mem_cons_of_mem _ hd)]

theorem isClosed_nil : IsClosed [] := rfl

theorem isClosed_of_plain {cs : List Char} (plain : ∀ c ∈ cs, isStructural c = false) :
    IsClosed cs := State.isSound_initial.run_plain plain

theorem IsClosed.append_iff {xs ys : List Char} (h : IsClosed xs) :
    IsClosed (xs ++ ys) ↔ IsClosed ys := by
  rw [IsClosed, State.run_append, h, IsClosed]

theorem IsClosed.append {xs ys : List Char} (hxs : IsClosed xs) (hys : IsClosed ys) :
    IsClosed (xs ++ ys) := hxs.append_iff.2 hys

theorem isBlank_structural {c : Char} (h : isBlank c) : isStructural c = false := by
  rw [Bool.eq_false_iff]
  intro structural
  simp only [isStructural, isQuote, Bool.or_eq_true, beq_iff_eq] at structural
  rcases structural with ((rfl | rfl) | rfl) | rfl <;> exact absurd h (by decide)

theorem exists_trim (cs : List Char) :
    ∃ lead trail, cs = lead ++ (trim cs ++ trail) ∧ (∀ c ∈ lead, isBlank c) ∧
      ∀ c ∈ trail, isBlank c := by
  refine ⟨cs.takeWhile isBlank, ((trimStart cs).reverse.takeWhile isBlank).reverse, ?_, ?_, ?_⟩
  · rw [trim, trimEnd, ← List.reverse_append, List.takeWhile_append_dropWhile, List.reverse_reverse,
      trimStart, List.takeWhile_append_dropWhile]
  · exact fun c hc => List.all_eq_true.1 List.all_takeWhile c hc
  · exact fun c hc => List.all_eq_true.1 List.all_takeWhile c (List.mem_reverse.1 hc)

theorem isClosed_trim (cs : List Char) : IsClosed (trim cs) ↔ IsClosed cs := by
  obtain ⟨lead, trail, same, leadBlank, trailBlank⟩ := exists_trim cs
  have sound : (State.initial.run (trim cs)).IsSound := State.isSound_initial.run _
  conv_rhs => rw [IsClosed, same, State.run_append, State.run_append,
    isClosed_of_plain fun c hc => isBlank_structural (leadBlank c hc),
    sound.run_plain fun c hc => isBlank_structural (trailBlank c hc)]
  rfl

theorem IsClosed.trim {cs : List Char} (h : IsClosed cs) : IsClosed (trim cs) :=
  (isClosed_trim cs).2 h

/-! ## Segments -/

section Segments

variable {separator : Char → Bool}

theorem segmentsFrom_separator {c : Char} (hc : separator c) (structural : isStructural c = false)
    (cs : List Char) :
    segmentsFrom separator .initial (c :: cs) = ([], segments separator cs) := by
  rw [segmentsFrom, if_pos (by simp [hc, structural]; rfl)]
  rfl

theorem segmentsFrom_step {s : State} {c : Char}
    (inside : (s.isTop && !isStructural c && separator c) = false) (cs : List Char) :
    segmentsFrom separator s (c :: cs) =
      (c :: (segmentsFrom separator (s.step c) cs).1,
        (segmentsFrom separator (s.step c) cs).2) := by
  rw [segmentsFrom, if_neg (by simp [inside])]

/-- A text is one segment, or a segment ends before a separator. -/
theorem segmentsFrom_cases (separator : Char → Bool) (s : State) (cs : List Char) :
    segmentsFrom separator s cs = (cs, []) ∨
      ∃ first c rest, cs = first ++ c :: rest ∧ separator c ∧ isStructural c = false ∧
        s.run first = .initial ∧
        segmentsFrom separator s cs = (first, segments separator rest) := by
  induction cs generalizing s with
  | nil => exact .inl rfl
  | cons c cs ih =>
    cases here : s.isTop && !isStructural c && separator c with
    | true =>
      simp only [Bool.and_eq_true, Bool.not_eq_true'] at here
      obtain ⟨⟨top, structural⟩, hc⟩ := here
      obtain rfl := (State.isTop_iff s).1 top
      exact .inr ⟨[], c, cs, rfl, hc, structural, rfl, segmentsFrom_separator hc structural cs⟩
    | false =>
      rw [segmentsFrom_step here]
      rcases ih (s.step c) with whole | ⟨first, d, rest, rfl, hd, structural, top, cut⟩
      · rw [whole]
        exact .inl rfl
      · rw [cut]
        exact .inr ⟨c :: first, d, rest, rfl, hd, structural, top, rfl⟩

theorem segmentsFrom_append {s : State} {xs : List Char} (top : s.run xs = .initial) {c : Char}
    (hc : separator c) (structural : isStructural c = false) (ys : List Char) :
    segmentsFrom separator s (xs ++ c :: ys) =
      ((segmentsFrom separator s xs).1,
        (segmentsFrom separator s xs).2 ++ segments separator ys) := by
  induction xs generalizing s with
  | nil =>
    obtain rfl := top
    exact segmentsFrom_separator hc structural ys
  | cons x xs ih =>
    cases here : s.isTop && !isStructural x && separator x with
    | true =>
      simp only [Bool.and_eq_true, Bool.not_eq_true'] at here
      obtain ⟨⟨initial, structural'⟩, hx⟩ := here
      obtain rfl := (State.isTop_iff s).1 initial
      rw [State.run_cons, State.isSound_initial.step_plain structural'] at top
      rw [List.cons_append, segmentsFrom_separator hx structural',
        segmentsFrom_separator hx structural', segments, ih top]
      rfl
    | false =>
      rw [List.cons_append, segmentsFrom_step here, segmentsFrom_step here, ih top]

/-- Cutting after a closed part is cutting the part and the rest. -/
theorem segments_append {xs : List Char} (closed : IsClosed xs) {c : Char} (hc : separator c)
    (structural : isStructural c = false) (ys : List Char) :
    segments separator (xs ++ c :: ys) = segments separator xs ++ segments separator ys := by
  rw [segments, segmentsFrom_append closed hc structural]
  rfl

/-- No separator stands at the top level of a text, that is behind a part that leaves nothing
open. -/
def IsUncut (separator : Char → Bool) (cs : List Char) : Prop :=
  ∀ front c rest, cs = front ++ c :: rest → separator c → isStructural c = false → ¬ IsClosed front

/-- A text is cut at the separators at its top level, and there only. -/
inductive CutsInto (separator : Char → Bool) : List Char → List (List Char) → Prop
  /-- There is none. -/
  | whole {cs : List Char} : IsUncut separator cs → CutsInto separator cs [cs]
  /-- The first of them stands behind the first segment. -/
  | first {cs rest : List Char} {c : Char} {others : List (List Char)} :
      IsUncut separator cs → IsClosed cs → separator c → isStructural c = false →
      CutsInto separator rest others → CutsInto separator (cs ++ c :: rest) (cs :: others)

theorem segments_eq_singleton_iff {cs : List Char} :
    segments separator cs = [cs] ↔ IsUncut separator cs := by
  constructor
  · rintro whole front c rest rfl hc structural closed
    have front_ := List.length_pos_iff.2 (segments_ne_nil separator front)
    have rest_ := List.length_pos_iff.2 (segments_ne_nil separator rest)
    have total := congrArg List.length whole
    rw [segments_append closed hc structural, List.length_append, List.length_singleton] at total
    omega
  · intro uncut
    rcases segmentsFrom_cases separator .initial cs with
      whole | ⟨first, c, rest, same, hc, structural, top, -⟩
    · rw [segments, whole]
    · exact absurd top (uncut first c rest same hc structural)

theorem cutsInto_segments (cs : List Char) : CutsInto separator cs (segments separator cs) := by
  -- the rest after a separator is any shorter text, so the induction is on the length
  induction size : cs.length using Nat.strongRecOn generalizing cs with
  | ind n ih =>
    subst size
    rcases segmentsFrom_cases separator .initial cs with
      whole | ⟨first, c, rest, rfl, hc, structural, top, cut⟩
    · have one : segments separator cs = [cs] := by rw [segments, whole]
      rw [one]
      exact .whole (segments_eq_singleton_iff.1 one)
    · have parts_ : segments separator (first ++ c :: rest) = first :: segments separator rest := by
        rw [segments, cut]
      have uncut : segments separator first = [first] := by
        rw [segmentsFrom_append top hc structural] at cut
        obtain ⟨same, others⟩ := Prod.mk.inj cut
        have alone : segmentsFrom separator .initial first = (first, []) :=
          Prod.ext same (List.append_left_eq_self.1 others)
        rw [segments, alone]
      rw [parts_]
      exact .first (segments_eq_singleton_iff.1 uncut) top hc structural
        (ih rest.length (by simp; omega) rest rfl)

/-- **The segments of a text are what it is cut into.** -/
theorem segments_eq_iff {cs : List Char} {texts : List (List Char)} :
    segments separator cs = texts ↔ CutsInto separator cs texts := by
  constructor
  · rintro rfl
    exact cutsInto_segments cs
  · intro cuts
    induction cuts with
    | whole uncut => exact segments_eq_singleton_iff.2 uncut
    | first uncut closed hc structural _ ih =>
      rw [segments_append closed hc structural, segments_eq_singleton_iff.2 uncut, ih]
      rfl

theorem length_parts_le_one_iff {cs : List Char} :
    (parts separator cs).length ≤ 1 ↔ IsUncut separator cs := by
  rw [parts, List.length_map]
  constructor
  · intro few
    obtain ⟨segment, single⟩ : ∃ segment, segments separator cs = [segment] := by
      rw [← List.length_eq_one_iff]
      have some_ := List.length_pos_iff.2 (segments_ne_nil separator cs)
      omega
    rcases segments_eq_iff.1 single with uncut | ⟨-, -, -, -, others⟩
    · exact uncut
    · cases others
  · intro uncut
    rw [segments_eq_singleton_iff.2 uncut]
    rfl

/-- The parts of a text are what it is cut into, without blanks at their ends. -/
theorem parts_eq_iff {cs : List Char} {texts : List (List Char)} :
    parts separator cs = texts ↔
      ∃ segments, CutsInto separator cs segments ∧ segments.map trim = texts := by
  constructor
  · rintro rfl
    exact ⟨_, cutsInto_segments cs, rfl⟩
  · rintro ⟨_, cuts, rfl⟩
    rw [parts, segments_eq_iff.2 cuts]

/-- A segment is not cut again, and every segment but the last leaves nothing open. -/
theorem segments_spec (cs : List Char) :
    (∀ segment ∈ segments separator cs, IsUncut separator segment) ∧
      (segments separator cs).Pairwise fun segment _ => IsClosed segment := by
  have cuts := @cutsInto_segments separator cs
  generalize segments separator cs = texts at cuts ⊢
  induction cuts with
  | whole uncut => exact ⟨List.forall_mem_singleton.2 uncut, List.pairwise_singleton _ _⟩
  | first uncut closed _ _ _ ih =>
    exact ⟨List.forall_mem_cons.2 ⟨uncut, ih.1⟩, List.pairwise_cons.2 ⟨fun _ _ => closed, ih.2⟩⟩

/-- Segments of a closed text are closed, and what is read off them piece by piece may be read off
the whole text, if cutting the text cuts what is read. -/
theorem flatMap_segments {α : Type} (read : List Char → List α)
    (cut : ∀ xs c ys, IsClosed xs → separator c → isStructural c = false →
      read (xs ++ c :: ys) = read xs ++ read ys)
    {cs : List Char} (closed : IsClosed cs) :
    (∀ segment ∈ segments separator cs, IsClosed segment) ∧
      (segments separator cs).flatMap read = read cs := by
  have cuts := @cutsInto_segments separator cs
  generalize segments separator cs = texts at cuts ⊢
  induction cuts with
  | whole => simp [closed]
  | @first first rest c others _ top hc structural _ ih =>
    have closed' : IsClosed rest := by
      rw [IsClosed, State.run_append, top, State.run_cons,
        State.isSound_initial.step_plain structural] at closed
      exact closed
    obtain ⟨all, same⟩ := ih closed'
    rw [List.flatMap_cons, same, cut first c rest top hc structural]
    exact ⟨List.forall_mem_cons.2 ⟨top, all⟩, rfl⟩

end Segments

/-! ## Checked values -/

theorem run_of_checkFrom {position : Nat} {s : State} {cs : List Char}
    (h : checkFrom position s cs = .ok ()) : s.run cs = .initial := by
  induction cs generalizing position s with
  | nil =>
    simp only [checkFrom] at h
    split at h
    · cases h
    · next noQuote =>
      split at h
      · cases h
      · next balanced =>
        rw [State.run_nil, ← State.isTop_iff]
        cases quote : s.quote with
        | none => simpa [State.isTop, quote] using balanced
        | some q => simp [quote] at noQuote
  | cons c cs ih =>
    simp only [checkFrom] at h
    split at h
    · cases h
    · split at h
      · cases h
      · exact ih h

theorem isClosed_of_check {cs : List Char} (h : check cs = .ok ()) : IsClosed cs :=
  run_of_checkFrom h

end BracketCss.Scan
