import BracketCss.Proofs.Value.Enclosed
import BracketCss.Proofs.Value.Escape
import BracketCss.Proofs.Value.Single

/-!
# Values split again

A value that is not kept whole is split into its words between commas and blanks, and no other
character of it is lost. Put together with spaces, or with commas if no blanks were allowed, these
words are split again into the same words: they stay balanced, nothing new separates them, and they
are no single call unless the value was one.

## Main definitions

* `Scan.solid cs`: a text without the commas and blanks at its top level
* `Scan.IsSolid w`: a word as it stands between gaps
* `Components.IsUsual allowSpaces joiner`: how the values of a property are read

## Main results

* `Scan.flatten_gapWords`: the words of a text are what is left of it
* `Scan.check_append_iff`, `Scan.check_intercalate`: balanced words make a balanced text
* `Scan.IsSolid.gapWords_intercalate`: words that are put together are found again
* `Components.ofText_resplit`: splitting loses nothing and is stable
-/

namespace BracketCss

open Text

namespace Scan

/-! ## What is left without gaps -/

/-- A text from a place on without the commas and blanks at its top level. -/
def solidFrom (s : State) : List Char → List Char
  | [] => []
  | c :: cs => if s.isTop && isGap c then solidFrom s cs else c :: solidFrom (s.step c) cs

/-- A text without the commas and blanks at its top level. -/
def solid (cs : List Char) : List Char := solidFrom .initial cs

variable {separator : Char → Bool} {s : State} {cs : List Char}

theorem solidFrom_append (sound : s.IsSound) (xs ys : List Char) :
    solidFrom s (xs ++ ys) = solidFrom s xs ++ solidFrom (s.run xs) ys := by
  induction xs generalizing s with
  | nil => rfl
  | cons x xs ih =>
    rw [List.cons_append, solidFrom, solidFrom, State.run_cons]
    split
    · next gap =>
      rw [sound.step_plain (isGap_structural (Bool.and_eq_true_iff.1 gap).2), ih sound]
    · rw [ih (sound.step x), List.cons_append]

theorem solid_append {xs : List Char} (closed : IsClosed xs) (ys : List Char) :
    solid (xs ++ ys) = solid xs ++ solid ys := by
  rw [solid, solidFrom_append State.isSound_initial, closed]
  rfl

theorem solid_gap_cons {c : Char} (gap : isGap c) (cs : List Char) :
    solid (c :: cs) = solid cs := by
  rw [solid, solidFrom, if_pos]
  · rfl
  · simp [State.isTop, State.initial, gap]

theorem solid_gaps {gaps : List Char} (h : ∀ c ∈ gaps, isGap c) : solid gaps = [] := by
  induction gaps with
  | nil => rfl
  | cons c gaps ih =>
    obtain ⟨first, others⟩ := List.forall_mem_cons.1 h
    rw [solid_gap_cons first, ih others]

/-- Blanks at the ends are left out anyway. -/
theorem solid_trim (closed : IsClosed cs) : solid (trim cs) = solid cs := by
  obtain ⟨lead, trail, same, leadBlank, trailBlank⟩ := exists_trim cs
  have gaps : ∀ blanks : List Char, (∀ c ∈ blanks, isBlank c) → solid blanks = [] :=
    fun blanks blank => solid_gaps fun c hc => isGap_of_isBlank c (blank c hc)
  have front : IsClosed lead := isClosed_of_plain fun c hc => isBlank_structural (leadBlank c hc)
  conv_rhs => rw [same, solid_append front, solid_append closed.trim, gaps lead leadBlank,
    gaps trail trailBlank, List.nil_append, List.append_nil]

/-- A text that is not cut at gaps has none at its top level. -/
theorem solid_of_isUncut (uncut : IsUncut isGap cs) : solid cs = cs := by
  -- along the text, what has been passed leads to the state
  have along : ∀ front back, cs = front ++ back →
      solidFrom (State.initial.run front) back = back := by
    intro front back same
    induction back generalizing front with
    | nil => rfl
    | cons c back ih =>
      have rest := ih (front ++ [c]) (by simp [same])
      rw [State.run_append, State.run_cons, State.run_nil] at rest
      rw [solidFrom, if_neg, rest]
      intro gap
      obtain ⟨top, gap⟩ := Bool.and_eq_true_iff.1 gap
      exact uncut front c back same gap (isGap_structural gap) ((State.isTop_iff _).1 top)
  exact along [] cs rfl

/-! ## Texts that are not cut -/

/-- What stands behind a closed part of a text that is not cut is not cut. -/
theorem IsUncut.of_append {front xs back : List Char}
    (h : IsUncut separator (front ++ (xs ++ back))) (closed : IsClosed front) :
    IsUncut separator xs := by
  rintro start c rest rfl hc structural closed'
  exact h (front ++ start) c (rest ++ back) (by simp) hc structural (closed.append closed')

theorem IsUncut.trim (h : IsUncut separator cs) : IsUncut separator (trim cs) := by
  obtain ⟨lead, trail, same, leadBlank, -⟩ := exists_trim cs
  rw [same] at h
  exact h.of_append (isClosed_of_plain fun c hc => isBlank_structural (leadBlank c hc))

theorem IsUncut.append {xs ys : List Char} (hxs : IsUncut separator xs) (closed : IsClosed xs)
    (hys : IsUncut separator ys) : IsUncut separator (xs ++ ys) := by
  intro front c rest same hc structural top
  rcases List.append_eq_append_iff.1 same with ⟨more, rfl, back⟩ | ⟨more, rfl, back⟩
  · exact hys more c rest back hc structural (closed.append_iff.1 top)
  · cases more with
    | nil => exact hys [] c rest back.symm hc structural isClosed_nil
    | cons d more =>
      obtain ⟨rfl, -⟩ := List.cons.inj back
      exact hxs front c more rfl hc structural top

theorem isUncut_of_solid (h : ∀ c ∈ cs, separator c = false) : IsUncut separator cs := by
  rintro front c rest rfl hc - -
  rw [h c (by simp)] at hc
  cases hc

theorem isUncut_intercalate {gap : List Char} (hgap : ∀ c ∈ gap, separator c = false)
    (plain : ∀ c ∈ gap, isStructural c = false) {xs : List (List Char)}
    (uncut : ∀ x ∈ xs, IsUncut separator x) (closed : ∀ x ∈ xs, IsClosed x) :
    IsUncut separator (gap.intercalate xs) := by
  induction xs with
  | nil => exact isUncut_of_solid (List.forall_mem_nil _)
  | cons x xs ih =>
    obtain ⟨first, others⟩ := List.forall_mem_cons.1 uncut
    obtain ⟨top, tops⟩ := List.forall_mem_cons.1 closed
    cases xs with
    | nil => rwa [List.intercalate_singleton]
    | cons y ys =>
      rw [List.intercalate_cons_cons]
      exact (first.append top (isUncut_of_solid hgap)).append
        (top.append (isClosed_of_plain plain)) (ih others tops)

/-- A text is cut at no more places if fewer characters separate. -/
theorem IsUncut.mono {other : Char → Bool} (h : IsUncut other cs)
    (coarser : ∀ c, separator c → other c) : IsUncut separator cs :=
  fun front c rest same hc structural => h front c rest same (coarser c hc) structural

/-- A text is not cut at gaps if it is cut neither at blanks nor at commas. -/
theorem isUncut_isGap (blanks : IsUncut isBlank cs) (commas : IsUncut (· == ',') cs) :
    IsUncut isGap cs := by
  intro front c rest same hc structural
  rcases Bool.or_eq_true_iff.1 hc with blank | comma
  · exact blanks front c rest same blank structural
  · exact commas front c rest same comma structural

/-- A segment of a text that is not cut at other separators is not cut at them. -/
theorem IsUncut.of_mem_segments {other : Char → Bool} (h : IsUncut other cs) :
    ∀ segment ∈ segments separator cs, IsUncut other segment := by
  have cuts := @cutsInto_segments separator cs
  generalize segments separator cs = texts at cuts
  induction cuts with
  | whole => exact List.forall_mem_singleton.2 h
  | @first xs ys c _ _ closed _ structural _ ih =>
    have first : IsUncut other xs := IsUncut.of_append (h : IsUncut other ([] ++ _)) isClosed_nil
    rw [List.append_cons, ← List.append_nil ys] at h
    refine List.forall_mem_cons.2 ⟨first, ih (h.of_append ?_)⟩
    exact closed.append (isClosed_of_plain (List.forall_mem_singleton.2 structural))

/-! ## Words between gaps -/

/-- **The words of a text are what is left of it.** -/
theorem flatten_gapWords (closed : IsClosed cs) : (gapWords cs).flatten = solid cs := by
  have cut : ∀ xs c ys, IsClosed xs → isGap c → isStructural c = false →
      solid (xs ++ c :: ys) = solid xs ++ solid ys := fun xs c ys hxs hc _ => by
    rw [solid_append hxs, solid_gap_cons hc]
  obtain ⟨all, same⟩ := flatMap_segments solid cut closed
  have trimmed : ∀ segment ∈ segments isGap cs, trim segment = solid segment := by
    intro segment mem
    rw [← solid_trim (all segment mem)]
    exact (solid_of_isUncut ((segments_spec cs).1 segment mem).trim).symm
  calc (gapWords cs).flatten = (parts isGap cs).flatMap id := by
        rw [← List.flatMap_id', ← flatMap_filter_ne_nil id rfl]
        rfl
    _ = (segments isGap cs).flatMap trim := List.flatMap_map ..
    _ = solid cs := by rw [List.flatMap_congr trimmed, same]

/-- A word of a part between commas has no gap at its top level. -/
theorem isUncut_of_mem {part w : List Char} (hpart : part ∈ commaParts cs)
    (hw : w ∈ topWords part) : IsUncut isGap w := by
  obtain ⟨segment, mem, rfl⟩ := List.mem_map.1 hpart
  obtain ⟨piece, inside, rfl⟩ := List.mem_map.1 (List.mem_of_mem_filter hw)
  have commas := ((segments_spec cs).1 segment mem).trim
  exact isUncut_isGap ((segments_spec (trim segment)).1 piece inside).trim
    (commas.of_mem_segments piece inside).trim

/-- **Splitting at commas and then at blanks** is splitting at either. -/
theorem flatMap_topWords_commaParts (closed : IsClosed cs) :
    (commaParts cs).flatMap topWords = gapWords cs := by
  have single : ∀ part ∈ commaParts cs, topWords part = gapWords part := by
    intro part mem
    rw [← gapWords_topWords (isClosed_of_mem_parts closed mem)]
    conv_lhs => rw [← List.flatMap_singleton' (topWords part)]
    refine List.flatMap_congr fun w hw => ?_
    have bare := isBare_of_mem_topWords hw
    exact (wordsBy_of_segments (segments_eq_singleton_iff.2 (isUncut_of_mem mem hw)) bare.trim_eq
      bare.nonempty).symm
  rw [List.flatMap_congr single, gapWords_commaParts closed]

/-! ## Checked texts -/

theorem State.reservesNothing_append (xs ys : List Char) : s.ReservesNothing (xs ++ ys) ↔
    s.ReservesNothing xs ∧ (s.run xs).ReservesNothing ys := by
  induction xs generalizing s with
  | nil => exact (and_iff_right reservesNothing_nil).symm
  | cons x xs ih =>
    rw [List.cons_append, reservesNothing_cons, reservesNothing_cons, ih, run_cons, and_assoc]

/-- Two texts are checked apart, if the first one leaves nothing open. -/
theorem check_append_iff {xs ys : List Char} (closed : IsClosed xs) :
    check (xs ++ ys) = .ok () ↔ check xs = .ok () ∧ check ys = .ok () := by
  rw [check_eq_ok_iff, check_eq_ok_iff, check_eq_ok_iff, isBalanced_append_iff closed,
    State.reservesNothing_append, closed]
  exact and_and_and_comm

theorem check_trim (h : check cs = .ok ()) : check (trim cs) = .ok () := by
  have closed := isClosed_of_check h
  obtain ⟨lead, trail, same, leadBlank, -⟩ := exists_trim cs
  have front : IsClosed lead := isClosed_of_plain fun c hc => isBlank_structural (leadBlank c hc)
  rw [same, check_append_iff front, check_append_iff closed.trim] at h
  exact h.2.1

/-- **The parts of a checked text are checked.** -/
theorem check_of_mem_parts (h : check cs = .ok ()) :
    ∀ part ∈ parts separator cs, check part = .ok () := by
  refine List.forall_mem_map.2 fun segment mem => check_trim ?_
  revert segment
  have cuts := @cutsInto_segments separator cs
  generalize segments separator cs = texts at cuts
  induction cuts with
  | whole => exact List.forall_mem_singleton.2 h
  | @first xs ys c _ _ closed _ structural _ ih =>
    obtain ⟨first, rest⟩ := (check_append_iff closed).1 h
    have single : IsClosed [c] := isClosed_of_plain (List.forall_mem_singleton.2 structural)
    rw [← List.singleton_append, check_append_iff single] at rest
    exact List.forall_mem_cons.2 ⟨first, ih rest.2⟩

theorem check_intercalate {gap : List Char} (hgap : check gap = .ok ()) {xs : List (List Char)}
    (checked : ∀ x ∈ xs, check x = .ok ()) : check (gap.intercalate xs) = .ok () := by
  induction xs with
  | nil => rfl
  | cons x xs ih =>
    obtain ⟨first, others⟩ := List.forall_mem_cons.1 checked
    cases xs with
    | nil => rwa [List.intercalate_singleton]
    | cons y ys =>
      have front := isClosed_of_check first
      have back := isClosed_of_check hgap
      rw [List.intercalate_cons_cons, check_append_iff (front.append back), check_append_iff front]
      exact ⟨⟨first, hgap⟩, ih others⟩

/-! ## Words put together -/

/-- A word as it stands between gaps. -/
structure IsSolid (w : List Char) : Prop where
  /-- There is no gap at its top level. -/
  uncut : IsUncut isGap w
  /-- There is no blank at its ends. -/
  bare : IsBare w
  /-- It is a value that may be taken apart. -/
  checked : check w = .ok ()

namespace IsSolid

variable {w : List Char} {words : List (List Char)}

theorem closed (h : IsSolid w) : IsClosed w := isClosed_of_check h.checked

theorem uncut_commas (h : IsSolid w) : IsUncut (· == ',') w :=
  h.uncut.mono fun c hc => by simp [isGap, eq_of_beq hc]

/-- A word is its only word. -/
theorem gapWords_eq (h : IsSolid w) : gapWords w = [w] :=
  wordsBy_of_segments (segments_eq_singleton_iff.2 h.uncut) h.bare.trim_eq h.bare.nonempty

/-- A word is its only part between commas. -/
theorem commaParts_eq (h : IsSolid w) : commaParts w = [w] := by
  rw [commaParts, parts, segments_eq_singleton_iff.2 h.uncut_commas, List.map_singleton,
    h.bare.trim_eq]

/-- Words with gaps between them are found again. -/
theorem gapWords_intercalate {gap : List Char} (nonempty : gap ≠ []) (gaps : ∀ c ∈ gap, isGap c)
    (solid : ∀ w ∈ words, IsSolid w) : gapWords (gap.intercalate words) = words := by
  rw [Scan.gapWords_intercalate nonempty gaps fun w hw => (solid w hw).closed,
    List.flatMap_congr fun w hw => (solid w hw).gapWords_eq, List.flatMap_singleton']

/-- Words with commas and blanks between them are cut at these commas. -/
theorem commaParts_intercalate (filled : words ≠ []) (solid : ∀ w ∈ words, IsSolid w) :
    commaParts ([',', ' '].intercalate words) = words := by
  induction words with
  | nil => exact absurd rfl filled
  | cons w words ih =>
    obtain ⟨first, others⟩ := List.forall_mem_cons.1 solid
    cases words with
    | nil =>
      rw [List.intercalate_singleton]
      exact first.commaParts_eq
    | cons v words =>
      have behind := ih (List.cons_ne_nil _ _) others
      have blank : commaParts (' ' :: [',', ' '].intercalate (v :: words)) = v :: words := by
        have comma : ∀ c, isBlank c → (c == ',') = false := by
          intro c hc
          rw [beq_eq_false_iff_ne]
          rintro rfl
          cases hc
        have whole : IsBare ([',', ' '].intercalate (v :: words)) :=
          .intercalate (List.cons_ne_nil v words) fun w hw => (others w hw).bare
        rw [← List.singleton_append, commaParts, ← parts_trim comma,
          trim_blanks_append (List.forall_mem_singleton.2 rfl), whole.trim_eq]
        exact behind
      rw [List.intercalate_cons_cons, List.append_assoc, List.cons_append, List.singleton_append,
        commaParts, parts, segments_append first.closed (by rfl) rfl, List.map_append]
      exact congrArg₂ (· ++ ·) first.commaParts_eq blank

end IsSolid

/-- The words of a checked text are solid. -/
theorem isSolid_of_mem_gapWords (checked : check cs = .ok ()) : ∀ w ∈ gapWords cs, IsSolid w := by
  intro w hw
  rw [← flatMap_topWords_commaParts (isClosed_of_check checked)] at hw
  obtain ⟨part, mem, hw⟩ := List.mem_flatMap.1 hw
  exact ⟨isUncut_of_mem mem hw, isBare_of_mem_topWords hw,
    check_of_mem_parts (check_of_mem_parts checked part mem) w (List.mem_of_mem_filter hw)⟩

end Scan

/-! ## Texts put together -/

section Intercalate

variable {α β : Type} {sep : List α}

theorem intercalate_append {xs ys : List (List α)} (front : xs ≠ []) (back : ys ≠ []) :
    sep.intercalate (xs ++ ys) = sep.intercalate xs ++ sep ++ sep.intercalate ys := by
  induction xs with
  | nil => exact absurd rfl front
  | cons x xs ih =>
    cases xs with
    | nil => rw [List.singleton_append, List.intercalate_cons_of_ne_nil back,
        List.intercalate_singleton]
    | cons z zs =>
      rw [List.cons_append, List.intercalate_cons_of_ne_nil (by simp), ih (List.cons_ne_nil z zs),
        List.intercalate_cons_of_ne_nil (List.cons_ne_nil z zs)]
      simp only [List.append_assoc]

/-- What is put together of texts that are put together themselves is put together of all their
parts. -/
theorem intercalate_flatMap (read : β → List (List α)) {xs : List β}
    (filled : ∀ x ∈ xs, read x ≠ []) :
    sep.intercalate (xs.map fun x => sep.intercalate (read x)) =
      sep.intercalate (xs.flatMap read) := by
  induction xs with
  | nil => rfl
  | cons x xs ih =>
    obtain ⟨first, others⟩ := List.forall_mem_cons.1 filled
    cases xs with
    | nil => simp
    | cons y ys =>
      have rest : (y :: ys).flatMap read ≠ [] := by
        rw [List.flatMap_cons]
        exact List.append_ne_nil_of_left_ne_nil (others y List.mem_cons_self) _
      rw [List.flatMap_cons, intercalate_append first rest, ← ih others, List.map_cons,
        List.intercalate_cons_of_ne_nil (by simp)]

end Intercalate

namespace Components

open Scan

variable {allowSpaces : Bool} {joiner raw : String} {components : Components} {cs : List Char}

/-- The words of an accepted value, in order. -/
theorem flatMap_partsOf (closed : IsClosed cs) (filled : [] ∉ commaParts cs)
    (single : allowSpaces = false → ∀ part ∈ commaParts cs, (topWords part).length ≤ 1) :
    (commaParts cs).flatMap (partsOf allowSpaces) = gapWords cs := by
  rw [← flatMap_topWords_commaParts closed]
  refine List.flatMap_congr fun part mem => ?_
  cases allowSpaces with
  | true => rfl
  | false =>
    have bare := isBare_of_mem_commaParts filled part mem
    exact (isWord_of_single bare (single rfl part mem)).symm

theorem gapWords_ne_nil (closed : IsClosed cs) (filled : [] ∉ commaParts cs) :
    gapWords cs ≠ [] := by
  obtain ⟨part, mem⟩ := List.exists_mem_of_ne_nil _
    (List.map_eq_nil_iff.not.2 (segments_ne_nil (· == ',') cs))
  obtain ⟨w, hw⟩ := List.exists_mem_of_ne_nil _ (topWords_ne_nil filled part mem)
  rw [← flatMap_topWords_commaParts closed]
  exact List.ne_nil_of_mem (List.mem_flatMap.2 ⟨part, mem, hw⟩)

/-- How the values of a property are read: with spaces in a part, and put between the parts, or
without, and with commas between them. -/
def IsUsual (allowSpaces : Bool) (joiner : String) : Prop :=
  allowSpaces = true ∧ joiner = " " ∨ allowSpaces = false ∧ joiner = ", "

theorem IsUsual.gap (usual : IsUsual allowSpaces joiner) : joiner.toList ≠ [] ∧
    (∀ c ∈ joiner.toList, isGap c) ∧ check joiner.toList = .ok () := by
  rcases usual with ⟨-, rfl⟩ | ⟨-, rfl⟩ <;> simp [isGap, isBlank] <;> decide

/-- The value that is put together from its parts has single spaces or commas between its words. -/
theorem toList_rejoined (closed : IsClosed cs) (filled : [] ∉ commaParts cs)
    (single : allowSpaces = false → ∀ part ∈ commaParts cs, (topWords part).length ≤ 1)
    (usual : IsUsual allowSpaces joiner) :
    (joiner.intercalate ((commaParts cs).map respaced)).toList =
      joiner.toList.intercalate (gapWords cs) := by
  rw [String.toList_intercalate, List.map_map, ← flatMap_topWords_commaParts closed]
  rcases usual with ⟨-, rfl⟩ | ⟨rfl, rfl⟩
  · rw [← intercalate_flatMap _ (topWords_ne_nil filled)]
    exact congrArg (List.intercalate _) (List.map_congr_left fun part _ => toList_respaced part)
  · refine congrArg (List.intercalate _) ?_
    have word : ∀ part ∈ commaParts cs, topWords part = [part] := fun part mem =>
      isWord_of_single (isBare_of_mem_commaParts filled part mem) (single rfl part mem)
    calc (commaParts cs).map (String.toList ∘ respaced)
        = (commaParts cs).map id := List.map_congr_left fun part mem => by
          rw [Function.comp_apply, toList_respaced, word part mem, List.intercalate_singleton, id]
      _ = (commaParts cs).flatMap fun part => [part] := by
          rw [List.map_id, List.flatMap_singleton']
      _ = (commaParts cs).flatMap topWords := (List.flatMap_congr word).symm

/-! ## Splitting again -/

section Again

variable {words : List (List Char)}

/-- No part of words that are put together is empty, and where no spaces are allowed, each part is
one word. -/
theorem commaParts_rejoined (some_ : words ≠ []) (solid : ∀ w ∈ words, IsSolid w)
    (usual : IsUsual allowSpaces joiner) :
    [] ∉ commaParts (joiner.toList.intercalate words) ∧ (allowSpaces = false →
      ∀ part ∈ commaParts (joiner.toList.intercalate words), (topWords part).length ≤ 1) := by
  rcases usual with ⟨rfl, rfl⟩ | ⟨rfl, rfl⟩
  · have uncut : IsUncut (· == ',') ([' '].intercalate words) :=
      isUncut_intercalate (by decide) (by decide) (fun w hw => (solid w hw).uncut_commas)
        fun w hw => (solid w hw).closed
    have bare : IsBare ([' '].intercalate words) :=
      .intercalate some_ fun w hw => (solid w hw).bare
    refine ⟨?_, fun spaced => absurd spaced (by decide)⟩
    show [] ∉ commaParts ([' '].intercalate words)
    rw [commaParts, Scan.parts, segments_eq_singleton_iff.2 uncut, List.map_singleton,
      bare.trim_eq]
    simpa using bare.nonempty.symm
  · have cut : commaParts (", ".toList.intercalate words) = words :=
      IsSolid.commaParts_intercalate some_ solid
    rw [cut]
    refine ⟨fun empty => (solid [] empty).bare.nonempty rfl, fun _ w hw => ?_⟩
    refine (List.length_filter_le _ _).trans (length_parts_le_one_iff.2 ?_)
    exact (solid w hw).uncut.mono isGap_of_isBlank

/-- Words that are put together are no single call, unless there is one of them. -/
theorem callOf?_rejoined (some_ : words ≠ []) (solid : ∀ w ∈ words, IsSolid w)
    (usual : IsUsual allowSpaces joiner)
    (single : ∀ w, words = [w] → callOf? safeFunctions w = none) :
    callOf? safeFunctions (joiner.toList.intercalate words) = none := by
  have bare : IsBare (joiner.toList.intercalate words) :=
    .intercalate some_ fun w hw => (solid w hw).bare
  rw [Option.eq_none_iff_forall_ne_some]
  intro call found
  have one := (gapWords_call (Option.mem_filter_iff.1 found).1 bare.trim_eq).2
  rw [IsSolid.gapWords_intercalate usual.gap.1 usual.gap.2.1 solid] at one
  rw [single _ one] at found
  cases found

/-- Words that are put together in one of the usual ways are split into themselves. -/
theorem ofText_rejoined (some_ : words ≠ []) (solid : ∀ w ∈ words, IsSolid w)
    (usual : IsUsual allowSpaces joiner)
    (single : ∀ w, words = [w] → callOf? safeFunctions w = none) :
    ofText allowSpaces joiner (.ofList (joiner.toList.intercalate words)) =
      .ok ⟨.ofList (joiner.toList.intercalate words), words.map String.ofList, false⟩ := by
  have bare : IsBare (joiner.toList.intercalate words) :=
    .intercalate some_ fun w hw => (solid w hw).bare
  have checked : check (joiner.toList.intercalate words) = .ok () :=
    check_intercalate usual.gap.2.2 fun w hw => (solid w hw).checked
  have closed := isClosed_of_check checked
  have again := IsSolid.gapWords_intercalate usual.gap.1 usual.gap.2.1 solid
  obtain ⟨filled, parts⟩ := commaParts_rejoined some_ solid usual
  have joined := toList_rejoined closed filled parts usual
  rw [again] at joined
  refine ofText_eq_ok_iff.2 ?_
  rw [String.toList_ofList, bare.trim_eq]
  refine ⟨bare.nonempty, checked, .inr ⟨callOf?_rejoined some_ solid usual single, filled, parts,
    ?_⟩⟩
  rw [flatMap_partsOf closed filled parts, again,
    String.toList_inj.1 (joined.trans String.toList_ofList.symm)]

end Again

/-- **Splitting a value loses nothing and is stable.** The words of a value that is not kept whole
are the value without the commas and blanks at its top level. With spaces allowed and put between
the words, or with none allowed and commas put between them, the normalized value is taken apart
into the same. -/
theorem ofText_resplit (h : ofText allowSpaces joiner raw = .ok components) :
    (components.isCall = false →
        components.parts.flatMap String.toList = Scan.solid raw.toList) ∧
      (allowSpaces = true ∧ joiner = " " ∨ allowSpaces = false ∧ joiner = ", " →
        ofText allowSpaces joiner components.normalized = .ok components) := by
  obtain ⟨nonempty, checked, ⟨call, rfl⟩ | ⟨call, filled, single, rfl⟩⟩ := ofText_eq_ok_iff.1 h
  · refine ⟨fun cut => absurd cut (by simp), fun _ => ofText_eq_ok_iff.2 ?_⟩
    rw [String.toList_ofList, trim_trim]
    exact ⟨nonempty, checked, .inl ⟨call, rfl⟩⟩
  · have closed := isClosed_of_check checked
    have words := flatMap_partsOf closed filled single
    refine ⟨fun _ => ?_, fun usual => ?_⟩
    · rw [words, List.flatMap_map]
      simp only [String.toList_ofList]
      rw [List.flatMap_id', flatten_gapWords closed, solid_trim ((isClosed_trim _).1 closed)]
    · have joined := String.toList_inj.1
        ((toList_rejoined closed filled single usual).trans String.toList_ofList.symm)
      rw [words, joined]
      refine ofText_rejoined (gapWords_ne_nil closed filled) (isSolid_of_mem_gapWords checked) usual
        fun w one => ?_
      rw [← flatMap_topWords_commaParts closed] at one
      obtain rfl := eq_of_flatMap_topWords (trim_trim raw.toList) filled one
      exact call

/-- `1px  f(2, 3),4px` has three words, which are put together with spaces. -/
theorem ofText_resplit_words :
    ofText true " " "1px  f(2, 3),4px" =
        .ok ⟨"1px f(2, 3) 4px", ["1px", "f(2, 3)", "4px"], false⟩ ∧
      ["1px", "f(2, 3)", "4px"].flatMap String.toList = Scan.solid "1px  f(2, 3),4px".toList ∧
      ofText true " " "1px f(2, 3) 4px" =
        .ok ⟨"1px f(2, 3) 4px", ["1px", "f(2, 3)", "4px"], false⟩ := by
  have read : ofText true " " "1px  f(2, 3),4px" =
      .ok ⟨"1px f(2, 3) 4px", ["1px", "f(2, 3)", "4px"], false⟩ := by decide +kernel
  have resplit := ofText_resplit read
  exact ⟨read, resplit.1 rfl, resplit.2 (.inl ⟨rfl, rfl⟩)⟩

end Components

end BracketCss
