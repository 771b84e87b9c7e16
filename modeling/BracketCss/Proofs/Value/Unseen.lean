import BracketCss.Proofs.Text.FullCase
import BracketCss.Proofs.Value.Uncut

/-!
# Changes that scanning does not see

Scanning looks at quotes, parentheses, blanks and separators, and a call has a name of ASCII
characters. A change of characters that leaves these as they are, and makes no other character one
of them, is not seen: the parts of the changed text are the changed parts, and it is a call of the
function that the text is a call of. To put ASCII letters into lower case is such a change, and so
is to veil the letters beyond ASCII.

## Main definitions

* `Scan.IsUnseen f`: a change of characters that scanning does not see
* `Scan.Call.changed f`: a call with its arguments changed

## Main results

* `Scan.IsUnseen.parts_map`: the parts between separators
* `Scan.IsUnseen.call?_map`: the call that a text is
-/

namespace BracketCss.Scan

open Text

/-- A change of characters that scanning does not see. -/
structure IsUnseen (f : Char → Char) : Prop where
  /-- Quotes and parentheses stay. -/
  keep : ∀ c, isStructural c → f c = c
  /-- No other character becomes one of them. -/
  structural : ∀ c, isStructural (f c) = isStructural c
  /-- Blanks stay blanks. -/
  blank : ∀ c, isBlank (f c) = isBlank c
  /-- The characters of names stay such characters. -/
  nameChar : ∀ c, isAsciiNameChar (f c) = isAsciiNameChar c
  /-- ASCII letters stay such letters. -/
  letter : ∀ c, isAsciiLetter (f c) = isAsciiLetter c
  /-- A name in lower case stays. -/
  low : ∀ c, isAsciiNameChar c → lowerChar (f c) = lowerChar c

theorem isUnseen_toLower : IsUnseen Char.toLower where
  keep := fun _ => toLower_eq_self (by decide)
  structural := IsCaseBlind.of_table (by decide)
  blank := isCaseBlind_isBlank
  nameChar := isCaseBlind_isAsciiNameChar
  letter := isCaseBlind_isAsciiLetter
  low := fun c _ => isCaseBlind_lowerChar c

theorem isUnseen_veil : IsUnseen veil := by
  have nameChar : ∀ c, isAsciiNameChar c → c.toNat < 128 := fun _ =>
    toNat_lt_of_isAsciiNameChar
  have letter : ∀ c, isAsciiLetter c → c.toNat < 128 := fun c h =>
    nameChar c (by simp [isAsciiNameChar, isAsciiAlphanumeric, h])
  have structural : ∀ c, isStructural c → c.toNat < 128 := by
    intro c h
    simp only [isStructural, isQuote, Bool.or_eq_true, beq_iff_eq] at h
    rcases h with ((rfl | rfl) | rfl) | rfl <;> decide
  refine ⟨fun c => (veil_of_ascii structural c).1, fun c => (veil_of_ascii structural c).2,
    fun c => ?_, fun c => (veil_of_ascii nameChar c).2, fun c => (veil_of_ascii letter c).2,
    fun c hc => by rw [(veil_of_ascii nameChar c).1 hc]⟩
  unfold veil
  split
  · rfl
  · next solid =>
    rw [Bool.or_eq_true, not_or, Bool.not_eq_true, Bool.not_eq_true] at solid
    rw [solid.2]
    decide

variable {f : Char → Char} {s : State}

namespace IsUnseen

theorem step (unseen : IsUnseen f) (sound : s.IsSound) (c : Char) : s.step (f c) = s.step c := by
  cases structural : isStructural c with
  | true => rw [unseen.keep c structural]
  | false =>
    rw [sound.step_plain structural, sound.step_plain ((unseen.structural c).trans structural)]

theorem run_map (unseen : IsUnseen f) (sound : s.IsSound) (cs : List Char) :
    s.run (cs.map f) = s.run cs := by
  induction cs generalizing s with
  | nil => rfl
  | cons c cs ih =>
    rw [List.map_cons, State.run_cons, State.run_cons, unseen.step sound, ih (sound.step c)]

theorem isClosed_map (unseen : IsUnseen f) (cs : List Char) :
    IsClosed (cs.map f) ↔ IsClosed cs := by
  rw [IsClosed, unseen.run_map State.isSound_initial, IsClosed]

theorem segmentsFrom_map (unseen : IsUnseen f) {separator : Char → Bool}
    (blind : ∀ c, separator (f c) = separator c) (sound : s.IsSound) (cs : List Char) :
    segmentsFrom separator s (cs.map f) =
      ((segmentsFrom separator s cs).1.map f,
        (segmentsFrom separator s cs).2.map (List.map f)) := by
  induction cs generalizing s with
  | nil => rfl
  | cons c cs ih =>
    rw [List.map_cons, segmentsFrom, segmentsFrom, unseen.structural, blind c, unseen.step sound,
      ih sound, ih (sound.step c)]
    split <;> rfl

theorem trim_map (unseen : IsUnseen f) (cs : List Char) : trim (cs.map f) = (trim cs).map f :=
  Text.trim_map unseen.blank cs

/-- The parts of a changed text are its changed parts. -/
theorem parts_map (unseen : IsUnseen f) {separator : Char → Bool}
    (blind : ∀ c, separator (f c) = separator c) (cs : List Char) :
    parts separator (cs.map f) = (parts separator cs).map (List.map f) := by
  have trims : trim ∘ List.map f = List.map f ∘ trim := funext unseen.trim_map
  rw [parts, segments, unseen.segmentsFrom_map blind State.isSound_initial]
  show ((segments separator cs).map (List.map f)).map trim = _
  rw [List.map_map, trims, ← List.map_map, parts]

theorem topWords_map (unseen : IsUnseen f) (cs : List Char) :
    topWords (cs.map f) = (topWords cs).map (List.map f) := by
  rw [topWords, unseen.parts_map unseen.blank, List.filter_map, topWords]
  congr 2
  funext w
  simp

/-! ## Calls -/

theorem untilClosed_map (unseen : IsUnseen f) (sound : s.IsSound) (cs : List Char) :
    untilClosed s (cs.map f) =
      (untilClosed s cs).map fun found => (found.1.map f, found.2.map f) := by
  induction cs generalizing s with
  | nil => rfl
  | cons c cs ih =>
    rw [List.map_cons, untilClosed, untilClosed, unseen.step sound]
    split
    · rfl
    · rw [ih (sound.step c), Option.map_map, Option.map_map]
      rfl

end IsUnseen

/-- A call with its arguments changed; its name is in lower case and stays. -/
def Call.changed (f : Char → Char) (call : Call) : Call :=
  { call with arguments := call.arguments.map f }

theorem call?_eq_none {cs : List Char}
    (h : (cs.drop (cs.takeWhile isAsciiNameChar).length).head? ≠ some '(') : call? cs = none := by
  unfold call?
  dsimp only
  split
  · next same => exact absurd (congrArg List.head? same) h
  · rfl

namespace IsUnseen

theorem map_eq_cons_iff (unseen : IsUnseen f) {mark : Char} (structural : isStructural mark)
    {cs rest : List Char} :
    cs.map f = mark :: rest ↔ ∃ others, cs = mark :: others ∧ others.map f = rest := by
  rw [List.map_eq_cons_iff]
  constructor
  · rintro ⟨c, others, rfl, same, rest⟩
    have own : f c = c := unseen.keep c (by rw [← unseen.structural, same, structural])
    exact ⟨others, by rw [← same, own], rest⟩
  · rintro ⟨others, rfl, rest⟩
    exact ⟨mark, others, rfl, unseen.keep mark structural, rest⟩

/-- A changed text is a call of the function that the text is a call of. -/
theorem call?_map (unseen : IsUnseen f) (cs : List Char) :
    call? (cs.map f) = (call? cs).map (Call.changed f) := by
  have nameChar : isAsciiNameChar ∘ f = isAsciiNameChar := funext unseen.nameChar
  have name : (cs.map f).takeWhile isAsciiNameChar = (cs.takeWhile isAsciiNameChar).map f := by
    rw [List.takeWhile_map, nameChar]
  have low : lower ((cs.takeWhile isAsciiNameChar).map f) =
      lower (cs.takeWhile isAsciiNameChar) := by
    rw [lower, List.flatMap_map]
    exact List.flatMap_congr fun c hc => unseen.low c (List.mem_takeWhile_imp hc)
  have start : ((cs.takeWhile isAsciiNameChar).map f).head?.any isAsciiLetter =
      (cs.takeWhile isAsciiNameChar).head?.any isAsciiLetter := by
    rw [List.head?_map, Option.any_map]
    exact congrArg (Option.any · _) (funext unseen.letter)
  by_cases opening : (cs.drop (cs.takeWhile isAsciiNameChar).length).head? = some '('
  · obtain ⟨rest, same⟩ := List.head?_eq_some_iff.1 opening
    have sound : State.IsSound ⟨none, 1⟩ := fun q hq => by cases hq
    have open_ : f '(' = '(' := unseen.keep '(' rfl
    simp only [call?, name, List.length_map, ← List.map_drop, start, low, same, List.map_cons,
      open_, unseen.untilClosed_map sound]
    split
    · cases untilClosed ⟨none, 1⟩ rest with
      | none => rfl
      | some found =>
        have blank : isBlank ∘ f = isBlank := funext unseen.blank
        simp only [Option.map_some, List.all_map, blank]
        split <;> rfl
    · rfl
  · rw [call?_eq_none opening, call?_eq_none]
    · rfl
    · rw [name, List.length_map, ← List.map_drop]
      intro first
      obtain ⟨rest, same⟩ := List.head?_eq_some_iff.1 first
      obtain ⟨others, same, -⟩ := (unseen.map_eq_cons_iff (by decide)).1 same
      exact opening (by rw [same]; rfl)

theorem callOf?_map (unseen : IsUnseen f) (names : List String) (cs : List Char) :
    callOf? names (cs.map f) = (callOf? names cs).map (Call.changed f) := by
  rw [callOf?, callOf?, unseen.call?_map, Option.filter_map]
  rfl

end IsUnseen

end BracketCss.Scan
