import BracketCss.Proofs.Value.Trimmed

/-!
# Values put together again

A word of a value is a single word by itself, and all words but the last leave nothing open. So
words with a space between them are cut at these spaces again. A call whose arguments lose the
blanks at their ends is a call of the same name, and its arguments have the same parts.

## Main definitions

* `Scan.IsWord w`: the text is its own single word

## Main results

* `Scan.isWord_of_mem_topWords`, `Scan.pairwise_isClosed_topWords`: the words of a text
* `Scan.isWord_of_single`: a text with no more than one word is that word
* `Scan.topWords_intercalate`: words with spaces between them
* `Scan.call?_trim_arguments`: a call without blanks around its arguments
* `checkColorCall_trim`: the same colour
-/

namespace BracketCss

open Text

namespace Scan

/-! ## Segments of segments -/

section Segments

variable {separator : Char → Bool} {s : State}

/-- What is not cut has a start that is not cut. -/
theorem segmentsFrom_of_append {xs ys : List Char}
    (whole : segmentsFrom separator s (xs ++ ys) = (xs ++ ys, [])) :
    segmentsFrom separator s xs = (xs, []) := by
  rcases segmentsFrom_cases separator s xs with same | ⟨first, c, rest, rfl, hc, structural, top, -⟩
  · exact same
  · rw [List.append_assoc, List.cons_append, segmentsFrom_append top hc structural] at whole
    obtain ⟨-, nothing⟩ := List.append_eq_nil_iff.1 (Prod.mk.inj whole).2
    exact absurd nothing (segments_ne_nil _ _)

end Segments

/-! ## Words of words -/

/-- A text is its own single word. -/
def IsWord (w : List Char) : Prop := topWords w = [w]

theorem IsWord.of_segments {w : List Char} (whole : segments isBlank w = [w])
    (trimmed : trim w = w) (some_ : w ≠ []) : IsWord w :=
  wordsBy_of_segments whole trimmed some_

/-- A text that is not cut at blanks starts with none. -/
theorem not_isBlank_of_segments {c : Char} {cs : List Char}
    (whole : segments isBlank (c :: cs) = [c :: cs]) : isBlank c = false := by
  rw [Bool.eq_false_iff]
  intro blank
  rw [segments, segmentsFrom_separator blank (isBlank_structural blank)] at whole
  cases whole

theorem isWord_of_mem_topWords {cs w : List Char} (h : w ∈ topWords cs) : IsWord w := by
  obtain ⟨mem, some_⟩ := List.mem_filter.1 h
  obtain ⟨segment, inside, rfl⟩ := List.mem_map.1 mem
  have whole := segments_eq_singleton_iff.2 ((segments_spec cs).1 segment inside)
  obtain ⟨lead, trail, same, leadBlank, -⟩ := exists_trim segment
  obtain rfl : lead = [] := by
    cases lead with
    | nil => rfl
    | cons c lead =>
      rw [same, List.cons_append] at whole
      have solid := not_isBlank_of_segments whole
      rw [leadBlank c List.mem_cons_self] at solid
      cases solid
  rw [List.nil_append] at same
  refine .of_segments ?_ (trim_trim segment) (of_decide_eq_true some_)
  have uncut : segmentsFrom isBlank .initial (trim segment ++ trail) =
      (trim segment ++ trail, []) := by
    rw [← same]
    obtain ⟨first, others⟩ := List.cons.inj whole
    exact Prod.ext first others
  rw [segments, segmentsFrom_of_append uncut]

/-- A text that starts with no blank has a word. -/
theorem exists_mem_topWords {cs : List Char} (some_ : cs ≠ [])
    (solid : ∀ c ∈ cs.head?, isBlank c = false) : ∃ w, w ∈ topWords cs := by
  cases cs with
  | nil => exact absurd rfl some_
  | cons c cs =>
    have solid : isBlank c = false := solid c rfl
    have first : ∃ front others, segments isBlank (c :: cs) = (c :: front) :: others := by
      rw [segments, segmentsFrom_step (by simp [solid])]
      exact ⟨_, _, rfl⟩
    obtain ⟨front, others, same⟩ := first
    refine ⟨trim (c :: front), List.mem_filter.2 ⟨?_, ?_⟩⟩
    · rw [parts, same, List.map_cons]
      exact List.mem_cons_self
    · rw [decide_eq_true_iff]
      intro none_
      obtain ⟨lead, trail, whole, leadBlank, trailBlank⟩ := exists_trim (c :: front)
      rw [none_, List.nil_append] at whole
      have mem : c ∈ lead ++ trail := whole ▸ List.mem_cons_self
      rcases List.mem_append.1 mem with mem | mem
      · exact absurd (leadBlank c mem) (by simp [solid])
      · exact absurd (trailBlank c mem) (by simp [solid])

/-- A text that ends with no blank has a word. -/
theorem exists_mem_topWords_of_last {cs : List Char} (some_ : cs ≠ [])
    (solid : ∀ c ∈ cs.getLast?, isBlank c = false) : ∃ w, w ∈ topWords cs := by
  obtain ⟨lead, trail, same, leadBlank, trailBlank⟩ := exists_trim cs
  have inner : trim cs ≠ [] := by
    intro none_
    rw [none_, List.nil_append] at same
    obtain ⟨c, last⟩ : ∃ c, cs.getLast? = some c := ⟨_, List.getLast?_eq_some_getLast some_⟩
    have mem := List.mem_of_getLast? last
    rw [same] at mem
    rcases List.mem_append.1 mem with mem | mem
    · exact absurd (leadBlank c mem) (by simp [solid c last])
    · exact absurd (trailBlank c mem) (by simp [solid c last])
  have skip : topWords (lead ++ (trim cs ++ trail)) = topWords (trim cs ++ trail) :=
    wordsBy_gap_append (fun c hc => ⟨leadBlank c hc, isBlank_structural (leadBlank c hc)⟩) _
  rw [same, skip]
  refine exists_mem_topWords (by simp [inner]) fun c hc => ?_
  rw [List.head?_append_of_ne_nil _ inner] at hc
  exact not_isBlank_of_head?_trim hc

/-- A bare text that is cut into no more than one word is that word. -/
theorem isWord_of_single {cs : List Char} (bare : IsBare cs)
    (single : (topWords cs).length ≤ 1) : IsWord cs := by
  rcases segmentsFrom_cases isBlank .initial cs with
    whole | ⟨first, c, rest, rfl, hc, structural, top, -⟩
  · have one : segments isBlank cs = [cs] := by rw [segments, whole]
    exact .of_segments one bare.trim_eq bare.nonempty
  · have front : first ≠ [] := by
      rintro rfl
      have solid := bare.first c rfl
      rw [hc] at solid
      cases solid
    have back : rest ≠ [] := by
      rintro rfl
      have solid := bare.last c (by simp)
      rw [hc] at solid
      cases solid
    obtain ⟨v, hv⟩ := exists_mem_topWords front fun d hd =>
      bare.first d (by rwa [List.head?_append_of_ne_nil _ front])
    obtain ⟨w, hw⟩ := exists_mem_topWords_of_last back fun d hd => by
      refine bare.last d ?_
      rw [List.getLast?_append_of_ne_nil _ (List.cons_ne_nil _ _)]
      rwa [List.getLast?_cons_of_ne_nil back]
    have cut : topWords (first ++ c :: rest) = topWords first ++ topWords rest :=
      wordsBy_append top hc structural rest
    have some_ := List.length_pos_of_mem hv
    have others := List.length_pos_of_mem hw
    rw [cut, List.length_append] at single
    omega

/-- All words but the last leave nothing open. -/
theorem pairwise_isClosed_topWords (cs : List Char) :
    (topWords cs).Pairwise fun w _ => IsClosed w :=
  (List.pairwise_map.2 ((segments_spec cs).2.imp fun closed => closed.trim)).filter _

/-- Words with spaces between them are cut at these spaces. -/
theorem topWords_intercalate {words : List (List Char)} (whole : ∀ w ∈ words, IsWord w)
    (closed : words.Pairwise fun w _ => IsClosed w) :
    topWords ([' '].intercalate words) = words := by
  have space : ∀ c ∈ [' '], isBlank c ∧ isStructural c = false := by simp; decide
  calc topWords ([' '].intercalate words)
      = words.flatMap topWords := flatMap_intercalate (List.cons_ne_nil _ _) space closed
    _ = words.flatMap fun w => [w] := List.flatMap_congr whole
    _ = words := List.flatMap_singleton' words

/-- A call is one word. -/
theorem isWord_call {cs : List Char} {call : Call} (h : call? cs = some call)
    (trimmed : trim cs = cs) : IsWord cs := by
  have solid : ∀ c, isAsciiNameChar c → isBlank c = false := fun c hc =>
    isBlank_of_isAsciiNameChar hc
  refine .of_segments (segments_call solid h trimmed).2 trimmed ?_
  rintro rfl
  cases h

/-! ## Parts of a trimmed text -/

section Parts

variable {separator : Char → Bool} {s : State}

/-- Blanks at the end of a text belong to its last segment, whatever stands in front of it. -/
theorem segmentsFrom_append_blanks (solid : ∀ c, isBlank c → separator c = false)
    (sound : s.IsSound) {trail : List Char} (blank : ∀ c ∈ trail, isBlank c) (cs : List Char) :
    (∀ front, trim (front ++ (segmentsFrom separator s (cs ++ trail)).1) =
        trim (front ++ (segmentsFrom separator s cs).1)) ∧
      (segmentsFrom separator s (cs ++ trail)).2.map trim =
        (segmentsFrom separator s cs).2.map trim := by
  induction cs generalizing s with
  | nil =>
    have whole := segmentsFrom_solid_append sound
      (fun c hc => ⟨solid c (blank c hc), isBlank_structural (blank c hc)⟩) []
    rw [List.append_nil] at whole
    rw [List.nil_append, whole]
    refine ⟨fun front => ?_, rfl⟩
    rw [segmentsFrom, List.append_nil, List.append_nil, trim_append_blanks blank]
  | cons c cs ih =>
    rw [List.cons_append]
    cases here : s.isTop && !isStructural c && separator c with
    | true =>
      simp only [Bool.and_eq_true, Bool.not_eq_true'] at here
      obtain ⟨⟨top, structural⟩, hc⟩ := here
      obtain rfl := (State.isTop_iff s).1 top
      obtain ⟨first, others⟩ := ih sound
      rw [segmentsFrom_separator hc structural, segmentsFrom_separator hc structural]
      exact ⟨fun _ => rfl, congrArg₂ List.cons (first []) others⟩
    | false =>
      obtain ⟨first, others⟩ := ih (sound.step c)
      rw [segmentsFrom_step here, segmentsFrom_step here]
      refine ⟨fun front => ?_, others⟩
      simpa using first (front ++ [c])

/-- A trimmed text has the same parts, unless blanks separate them. -/
theorem parts_trim (solid : ∀ c, isBlank c → separator c = false) (cs : List Char) :
    parts separator (trim cs) = parts separator cs := by
  obtain ⟨lead, trail, same, leadBlank, trailBlank⟩ := exists_trim cs
  have leadSolid : ∀ c ∈ lead, separator c = false ∧ isStructural c = false := fun c hc =>
    ⟨solid c (leadBlank c hc), isBlank_structural (leadBlank c hc)⟩
  obtain ⟨first, others⟩ :=
    segmentsFrom_append_blanks solid State.isSound_initial trailBlank (trim cs)
  conv_rhs => rw [same, parts, segments, segmentsFrom_solid_append State.isSound_initial leadSolid]
  rw [parts, segments, List.map_cons, List.map_cons, trim_blanks_append leadBlank, others]
  exact congrArg (· :: _) (first []).symm

end Parts

/-! ## Calls -/

/-- Characters that structure nothing may be left out of the arguments. -/
theorem untilClosed_leave_out {s : State} (sound : s.IsSound) (inside : 0 < s.depth)
    {plain : List Char} (hplain : ∀ c ∈ plain, isStructural c = false)
    {xs ys zs after : List Char}
    (h : untilClosed s (xs ++ (plain ++ ys)) = some (xs ++ (plain ++ zs), after)) :
    untilClosed s (xs ++ ys) = some (xs ++ zs, after) := by
  induction xs generalizing s with
  | nil =>
    rw [List.nil_append, untilClosed_plain_append sound inside hplain] at h
    obtain ⟨⟨arguments, after'⟩, found, same⟩ := Option.map_eq_some_iff.1 h
    simp only [Prod.mk.injEq, List.nil_append, List.append_cancel_left_eq] at same
    obtain ⟨rfl, rfl⟩ := same
    exact found
  | cons x xs ih =>
    rw [List.cons_append, untilClosed] at h ⊢
    split at h
    · cases h
    · next deeper =>
      have inside' : 0 < (s.step x).depth := by
        have := (State.step_of_inside inside x).1
        omega
      obtain ⟨⟨arguments, after'⟩, found, same⟩ := Option.map_eq_some_iff.1 h
      simp only [Prod.mk.injEq, List.cons_append, List.cons.injEq, true_and] at same
      obtain ⟨rfl, rfl⟩ := same
      rw [if_neg deeper, ih (sound.step x) inside' found]
      rfl

/-- A call written with its lower-case name and without blanks around its arguments. -/
theorem call?_trim_arguments {cs : List Char} {call : Call} (h : call? cs = some call)
    (trimmed : trim cs = cs) (letters : ∀ c ∈ call.name.toList, isAsciiLetter c) :
    call? (call.name.toList ++ '(' :: (trim call.arguments ++ [')'])) =
      some ⟨call.name, trim call.arguments⟩ := by
  obtain ⟨name, -, named, ⟨c, first, -⟩, -, found⟩ := exists_of_call? h trimmed
  have sound : State.IsSound ⟨none, 1⟩ := fun q hq => by cases hq
  obtain ⟨lead, trail, same, leadBlank, trailBlank⟩ := exists_trim call.arguments
  have closed : untilClosed ⟨none, 1⟩ (trim call.arguments ++ [')']) =
      some (trim call.arguments, []) := by
    generalize trim call.arguments = core at same ⊢
    rw [same, List.append_assoc] at found
    have behind : untilClosed ⟨none, 1⟩ (core ++ trail ++ [')']) = some (core ++ trail, []) :=
      @untilClosed_leave_out _ sound (by decide) _
        (fun c hc => isBlank_structural (leadBlank c hc)) [] _ _ _ found
    rw [List.append_assoc, ← List.append_nil (core ++ trail), List.append_assoc] at behind
    have alone := untilClosed_leave_out sound (by decide)
      (fun c hc => isBlank_structural (trailBlank c hc)) behind
    rwa [List.append_nil] at alone
  have head : call.name.toList.head?.any isAsciiLetter := by
    have some_ : call.name.toList ≠ [] := by
      rw [named, String.toList_ofList, Ne, lower_eq_nil_iff]
      rintro rfl
      cases first
    obtain ⟨d, rest, start⟩ := List.exists_cons_of_ne_nil some_
    rw [start]
    exact letters d (start ▸ List.mem_cons_self)
  have nameLike : ∀ c ∈ call.name.toList, isAsciiNameChar c := fun c hc => by
    simp [isAsciiNameChar, isAsciiAlphanumeric, letters c hc]
  have low : lower call.name.toList = call.name.toList := by
    rw [named, String.toList_ofList, lower_lower]
  rw [call?_of_untilClosed head nameLike closed (List.forall_mem_nil _), low, String.ofList_toList]

end Scan

/-! ## Colours -/

theorem checkColorCall_trim (name : String) (arguments : List Char) :
    checkColorCall name (trim arguments) = checkColorCall name arguments := by
  have comma : Scan.commaParts (trim arguments) = Scan.commaParts arguments :=
    Scan.parts_trim (fun c hc => by rw [beq_eq_false_iff_ne]; rintro rfl; cases hc) arguments
  have slash : Scan.parts (· == '/') (trim arguments) = Scan.parts (· == '/') arguments :=
    Scan.parts_trim (fun c hc => by rw [beq_eq_false_iff_ne]; rintro rfl; cases hc) arguments
  have split_ : ColorArguments.split name (trim arguments) =
      ColorArguments.split name arguments := by
    simp only [ColorArguments.split, comma, slash]
  have strict : (trim arguments).contains ',' = arguments.contains ',' := by
    obtain ⟨lead, trail, same, leadBlank, trailBlank⟩ := Scan.exists_trim arguments
    have absent : ∀ blanks : List Char, (∀ c ∈ blanks, isBlank c) → ',' ∉ blanks :=
      fun blanks blank mem => absurd (blank ',' mem) (by decide)
    rw [Bool.eq_iff_iff, List.contains_iff_mem, List.contains_iff_mem]
    conv_rhs => rw [same]
    simp [absent lead leadBlank, absent trail trailBlank]
  simp only [checkColorCall, split_, strict]

end BracketCss
