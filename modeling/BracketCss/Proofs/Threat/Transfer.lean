import BracketCss.Proofs.Threat.Shape
import BracketCss.Proofs.Value.Kept

/-!
# Threats in values

A value is searched for threats before it is taken apart. What is written for it afterwards has the
same calls and quoted texts in it, with other gaps between them, and nothing else that a threat
could be made of. So a threat that shows in the written value, in whatever way it is decoded, shows
in the text that was searched.

## Main results

* `ThreatShape.After.relace`: code in an arithmetic function does not depend on the gaps
* `ThreatShape.ShowsIn.transfer`: a threat in the written value shows in the text before it
-/

namespace BracketCss

open Text

theorem IsBreak.isDelimiter {c : Char} (h : IsBreak c) : IsDelimiter c := by
  rcases h with rfl | rfl
  · exact .inl rfl
  · exact .inr (.inl rfl)

namespace ThreatShape

theorem codeWord_solid {word : List Char} (h : ∃ code ∈ codeWords, Spelled code word) :
    word ≠ [] ∧ ∀ c ∈ word, ¬ IsBreak c := by
  have some_ : ∀ code ∈ codeWords, code.toList ≠ [] := by decide
  obtain ⟨code, mem, spelled⟩ := h
  refine ⟨?_, fun c hc break_ => spelled.not_mem (codeWords_letters code mem) break_.isDelimiter hc⟩
  rintro rfl
  exact some_ code mem spelled.symm

/-- Code that follows the name of the arithmetic function does so whatever the gaps are. -/
theorem After.relace {words : List (List Char)} {cs ds xs : List Char} (hcs : Laced words cs)
    (hds : Laced words ds) (h : injection.After (xs ++ cs)) : injection.After (xs ++ ds) := by
  induction hcs generalizing xs ds with
  | @nil gap breaks =>
    obtain ⟨before, word, rest, same, inside, code⟩ := h
    obtain ⟨nonempty, solid⟩ := codeWord_solid code
    by_cases empty : gap = []
    · have here : injection.After xs := by
        rw [empty, List.append_nil] at same
        exact ⟨before, word, rest, same, inside, code⟩
      exact here.append ds
    · rw [← List.append_nil gap] at same
      rcases word_beside_gap same.symm empty breaks nonempty solid with
        ⟨more, rfl⟩ | ⟨more, -, none_⟩
      · have here : injection.After (before ++ (word ++ more)) :=
          ⟨before, word, more, rfl, inside, code⟩
        exact here.append ds
      · simp [nonempty] at none_
  | @cons gap words cs w some_ breaks rest ih =>
    obtain ⟨before, word, rest', same, inside, code⟩ := h
    obtain ⟨nonempty, solid⟩ := codeWord_solid code
    -- a word of code has no break in it, so it does not reach over the gap
    rcases word_beside_gap same.symm some_ breaks nonempty solid with
      ⟨more, rfl⟩ | ⟨more, rfl, others⟩
    · have here : injection.After (before ++ (word ++ more)) :=
        ⟨before, word, more, rfl, inside, code⟩
      exact here.append ds
    · cases hds with
      | @cons gap' _ ds _ _ breaks' rest'' =>
        have later : injection.After (w ++ cs) :=
          ⟨more, word, rest', others.symm, fun mem => inside (by simp [mem]), code⟩
        obtain ⟨before', word', rest', same', inside', code'⟩ := ih rest'' later
        refine ⟨xs ++ (gap' ++ before'), word', rest', by simp [same'], ?_, code'⟩
        simp only [List.mem_append, not_or] at inside ⊢
        refine ⟨inside.1, fun mem => ?_, inside'⟩
        rcases breaks' _ mem with h | h <;> exact absurd h (by decide)

theorem ShowsIn.of_part {shape : ThreatShape} {cs : List Char} (h : shape.ShowsIn cs)
    {xs : List Char} (apart : ∀ c ∈ xs.getLast?, isWordChar c = false) (ys : List Char) :
    shape.ShowsIn (xs ++ (cs ++ ys)) := by
  obtain ⟨before, after, rfl, hbefore, hafter⟩ := h
  exact ⟨xs ++ before, after ++ ys, by simp, hbefore.append apart, hafter.append ys⟩

theorem IsKnown.mark {shape : ThreatShape} (known : shape.IsKnown) :
    shape.mark = ':' ∨ shape.mark = '(' ∨ shape.mark = '=' ∨ shape.mark = '<' := by
  obtain ⟨threat, known⟩ := known
  cases threat <;> cases known <;> simp [ThreatShape.mark]

theorem not_isBlank_of_frame {c : Char} (h : isAsciiLetter c ∨ Scan.isQuote c) :
    isBlank c = false := by
  rcases h with letter | quote
  · have noGap := (Scan.isGap_of_isAsciiNameChar (c := c)
      (by simp [isAsciiNameChar, isAsciiAlphanumeric, letter])).1
    rw [Scan.isGap, Bool.or_eq_false_iff] at noGap
    exact noGap.1
  · simp only [Scan.isQuote, Bool.or_eq_true, beq_iff_eq] at quote
    rcases quote with rfl | rfl <;> decide

/-- No mark stands in a plain word. -/
theorem IsKnown.not_mem_dull {shape : ThreatShape} (known : shape.IsKnown) {w : List Char}
    (h : IsDull w) : shape.mark ∉ w := by
  obtain ⟨-, body, dull, hw⟩ := h
  have inBody : shape.mark ∉ body := by
    intro mem
    have other := (isDullChar_iff _).1 (dull _ mem)
    rcases known.mark with h | h | h | h <;> rw [h] at other <;> simp at other
  have notPercent : shape.mark ≠ '%' := by
    rcases known.mark with h | h | h | h <;> rw [h] <;> decide
  rcases hw with rfl | rfl <;> simp [inBody, notPercent]

/-- In a call or a quoted text something else stands on either side of a mark. -/
theorem IsKnown.split_framed {shape : ThreatShape} (known : shape.IsKnown) {xs ys : List Char}
    (h : IsFramed (xs ++ shape.mark :: ys)) :
    (∃ c ∈ xs, isBlank c = false) ∧ ∃ ys' d, ys = ys' ++ [d] ∧ isBlank d = false := by
  obtain ⟨c, body, d, same, first, last⟩ := h
  have noMark : shape.mark ≠ c ∧ shape.mark ≠ d := by
    constructor
    · rintro rfl
      rcases known.mark with h | h | h | h <;> rw [h] at first <;> revert first <;> decide
    · rintro rfl
      rcases known.mark with h | h | h | h <;> rw [h] at last <;> revert last <;> decide
  constructor
  · cases xs with
    | nil => exact absurd (List.cons.inj same).1 noMark.1
    | cons x xs =>
      rw [(List.cons.inj same).1]
      exact ⟨c, List.mem_cons_self, not_isBlank_of_frame first⟩
  · cases ys using List.reverseRecOn with
    | nil =>
      have final := congrArg List.getLast? same
      rw [List.getLast?_concat, ← List.cons_append, List.getLast?_concat] at final
      exact absurd (Option.some.inj final) noMark.2
    | append_singleton ys y _ =>
      refine ⟨ys, y, rfl, ?_⟩
      have final := congrArg List.getLast? same
      rw [← List.cons_append, ← List.append_assoc, List.getLast?_concat, ← List.cons_append,
        List.getLast?_concat] at final
      rw [Option.some.inj final]
      rcases last with rfl | quote
      · decide
      · exact not_isBlank_of_frame (.inr quote)

theorem mem_of_getLast?_append_cons {xs ys : List Char} {c d : Char}
    (h : c ∈ (xs ++ d :: ys).getLast?) : c ∈ d :: ys := by
  rw [List.getLast?_append, List.getLast?_eq_some_getLast (List.cons_ne_nil d ys), Option.some_or,
    ← List.getLast?_eq_some_getLast] at h
  exact List.mem_of_getLast? h

/-- No threat is a name of a colour function with the parenthesis after it. -/
theorem IsKnown.not_before_color {shape : ThreatShape} (known : shape.IsKnown)
    (hmark : shape.mark = '(') {lowered : List Char} (h : .ofList lowered ∈ colorFunctionNames) :
    ¬ shape.Before lowered := by
  -- the name of a colour function ends in no letter that code before a parenthesis ends in
  have table : ∀ name ∈ colorFunctionNames, name.toList.getLast?.all fun c =>
      !isBlank c && caseKey c != 'n' && caseKey c != 'c' := by decide
  have nonempty := (colorFunctionNames_letters _ h).1
  have ends := table _ h
  rw [String.toList_ofList] at nonempty ends
  intro hbefore
  obtain ⟨front, c, rfl⟩ := List.eq_nil_or_concat' lowered |>.resolve_left nonempty
  obtain ⟨⟨solid, other⟩, other'⟩ : (isBlank c = false ∧ caseKey c ≠ 'n') ∧ caseKey c ≠ 'c' := by
    simpa using ends
  rcases hbefore.getLast known solid with ⟨element, rfl⟩ | ⟨core, hcore, last⟩
  · exact absurd (show '<' = '(' from hmark) (by decide)
  · have spelled : ∀ word, Spelled word core → word.toList.getLast? = some (caseKey c) := by
      intro word same
      rw [← same, List.getLast?_map, Option.mem_def.1 last, Option.map_some]
    obtain ⟨threat, hshape⟩ := known
    cases threat <;> cases hshape <;> first
      | exact absurd hmark (by decide)
      | exact other (Option.some.inj (spelled "expression" hcore)).symm
      | exact other' (Option.some.inj (spelled "calc" hcore)).symm

/-- A threat in a colour call in its normal form shows in the call as it was written. -/
theorem ShowsIn.of_color {shape : ThreatShape} (known : shape.IsKnown) {name lowered : List Char}
    (hlowered : .ofList lowered ∈ colorFunctionNames) {lead core rest : List Char}
    (spaces : ∀ c ∈ lead, c = ' ') (h : shape.ShowsIn (lowered ++ '(' :: (core ++ [')']))) :
    shape.ShowsIn (name ++ '(' :: (lead ++ (core ++ rest))) := by
  obtain ⟨before, after, same, hbefore, hafter⟩ := h
  have inner : ∃ xs ys, core = xs ++ shape.mark :: ys ∧ before = lowered ++ '(' :: xs ∧
      after = ys ++ [')'] := by
    have letters := (colorFunctionNames_letters _ hlowered).2
    rw [String.toList_ofList] at letters
    rcases append_eq_append_cons same with ⟨more, inName, -⟩ | ⟨more, rfl, behind⟩
    · have letter := letters shape.mark (by simp [inName])
      rcases known.mark with h | h | h | h <;> rw [h] at letter <;> exact absurd letter (by decide)
    · cases more with
      | nil =>
        rw [List.append_nil] at hbefore
        exact absurd hbefore (known.not_before_color (List.cons.inj behind).1.symm hlowered)
      | cons c xs =>
        obtain ⟨rfl, inside⟩ := List.cons.inj behind
        rcases append_eq_append_cons inside with ⟨ys, rfl, rfl⟩ | ⟨more, rfl, final⟩
        · exact ⟨xs, ys, rfl, rfl, rfl⟩
        · have closing : shape.mark = ')' := by
            cases more with
            | nil => exact (List.cons.inj final).1.symm
            | cons d more => simp at final
          rcases known.mark with h | h | h | h <;> rw [h] at closing <;>
            exact absurd closing (by decide)
  obtain ⟨xs, ys, rfl, rfl, rfl⟩ := inner
  have opening : IsDelimiter '(' := .inr (.inr (.inl rfl))
  have part : shape.ShowsIn (xs ++ shape.mark :: ys) :=
    ⟨xs, ys, rfl, hbefore.local known opening (.inl (by decide)), hafter.of_closing known⟩
  rw [← List.cons_append, ← List.append_assoc]
  refine part.of_part (fun c hc => ?_) rest
  rcases List.mem_cons.1 (mem_of_getLast?_append_cons hc) with rfl | hc
  · decide
  · rw [spaces c hc]
    decide

end ThreatShape

section Transfer

variable {decode : List Char → List Char} {words others : List (List Char)} {raw value : List Char}

theorem solid_of_regular (dec : Decoder decode) {w : List Char} (h : IsDull w ∨ IsFramed w) :
    Solid decode w := by
  rcases h with dull | framed
  · exact (dull.decoded dec).2
  · exact (framed.decoded dec).2.2

/-- What follows an opening bracket is decoded apart from what stands before it. -/
theorem Laced.decode_bracketed (dec : Decoder decode) (h : Laced words (' ' :: raw))
    (solid : ∀ w ∈ words, Solid decode w) (outside : List Char) :
    Laced (words.map decode) (' ' :: decode raw) ∧
      ∃ front back,
        decode (outside ++ '[' :: (raw ++ [']'])) = front ++ '[' :: (decode raw ++ back) := by
  have space := dec.cons (c := ' ') (by decide)
  obtain ⟨laced, apart⟩ := h.decoded dec solid
  rw [space] at laced
  obtain ⟨front, cut, -⟩ := dec.cut outside
  refine ⟨laced, front, decode [']'], ?_⟩
  have inner := apart [']'] fun c hc => .inr (Option.some.inj hc).symm
  rw [List.cons_append, space, space, List.cons_append] at inner
  rw [cut '[' (.inr (.inr (.inr rfl))), (List.cons.inj inner).2]

/-- A part of a laced text between brackets stands after something that is no word character. -/
theorem ThreatShape.ShowsIn.of_bracketed {shape : ThreatShape}
    {front back cs part lead rest : List Char} {d : Char}
    (same : ' ' :: cs = lead ++ d :: (part ++ rest)) (hd : IsBreak d)
    (shows : shape.ShowsIn part) : shape.ShowsIn (front ++ '[' :: (cs ++ back)) := by
  have place : ∃ lead', cs = lead' ++ (part ++ rest) ∧ ∀ c ∈ (front ++ '[' :: lead').getLast?,
      isWordChar c = false := by
    cases lead with
    | nil =>
      refine ⟨[], (List.cons.inj same).2, fun c hc => ?_⟩
      rw [List.getLast?_concat] at hc
      rw [← Option.some.inj hc]
      decide
    | cons x lead =>
      refine ⟨lead ++ [d], by simpa using (List.cons.inj same).2, fun c hc => ?_⟩
      rw [← List.cons_append, ← List.append_assoc, List.getLast?_concat] at hc
      rw [← Option.some.inj hc]
      exact hd.isDelimiter.isWordChar
  obtain ⟨lead', rfl, apart⟩ := place
  have shown := shows.of_part apart (rest ++ back)
  simpa using shown

/-- The mark of a threat that shows in a decoded text stands in one of the words, which is a call or
a quoted text. What stands before the mark is in that word; what stands after it may not be. -/
theorem ThreatShape.ShowsIn.exists_word (dec : Decoder decode) {shape : ThreatShape}
    (known : shape.IsKnown) (regular : ∀ u ∈ others, IsDull u ∨ IsFramed u) {cs : List Char}
    (laced : Laced (others.map decode) (' ' :: cs)) (shows : shape.ShowsIn cs) :
    ∃ u ∈ others, ¬ IsDull u ∧ IsFramed u ∧ ∃ earlier later xs ys e rest,
      others.map decode = earlier ++ decode u :: later ∧
      decode u = xs ++ shape.mark :: (ys ++ [e]) ∧ isBlank e = false ∧ shape.Before xs ∧
      shape.After (ys ++ [e] ++ rest) ∧ Laced later rest := by
  obtain ⟨before, after, rfl, hbefore, hafter⟩ := shows
  have noBreak : ¬ IsBreak shape.mark := by
    rcases known.mark with h | h | h | h <;> rw [h] <;> rintro (h | h) <;>
      exact absurd h (by decide)
  obtain ⟨earlier, later, xs, ys, lead, d, rest, hwords, hfront, hd, rfl, hrest⟩ :=
    laced.split_mark (List.cons_append (a := ' ')).symm noBreak
  have mem : xs ++ shape.mark :: ys ∈ others.map decode := by simp [hwords]
  obtain ⟨u, hu, hdecode⟩ := List.mem_map.1 mem
  have notDull : ¬ IsDull u := by
    intro dull
    rw [(dull.decoded dec).1] at hdecode
    exact known.not_mem_dull dull (by simp [hdecode])
  have framed := (regular u hu).resolve_left notDull
  have framed' := (framed.decoded dec).1
  rw [hdecode] at framed'
  obtain ⟨solidBefore, ys, e, rfl, solidAfter⟩ := known.split_framed framed'
  have hxs : shape.Before xs := by
    have spaced : shape.Before ([' '] ++ before) := hbefore.append fun c hc => by
      rw [← Option.some.inj hc]
      decide
    rw [List.singleton_append, hfront] at spaced
    exact spaced.local known hd.isDelimiter (.inr solidBefore)
  rw [← hdecode] at hwords
  exact ⟨u, hu, notDull, framed, earlier, later, xs, ys, e, rest, hwords, hdecode, solidAfter, hxs,
    hafter, hrest⟩

/-- A threat that shows in what is written for a word shows in the word. -/
theorem ThreatShape.ShowsIn.of_kept (dec : Decoder decode) {shape : ThreatShape}
    (known : shape.IsKnown) {w u : List Char} (kept : Kept w u) (notDull : ¬ IsDull u)
    (shows : shape.ShowsIn (decode u)) : shape.ShowsIn (decode w) := by
  cases kept with
  | dull _ hu => exact absurd hu notDull
  | same => exact shows
  | color letters hknown spaces =>
    obtain ⟨lead, core, rest, hlead, normal, written⟩ := decode_color dec letters hknown spaces
    rw [normal] at shows
    rw [written]
    exact shows.of_color known hknown hlead

/-- **Nothing is uncovered.** A threat that shows in a decoded value shows in the decoded text with
the value between brackets, if every word of the value is plain, or a call or a quoted text, and
either all words are those that were written or no quoted text is among them. -/
theorem ThreatShape.ShowsIn.transfer (dec : Decoder decode) (hraw : Laced words (' ' :: raw))
    (hvalue : Laced others (' ' :: value)) (kept : List.Forall₂ Kept words others)
    (regular : ∀ u ∈ others, IsDull u ∨ IsFramed u)
    (closed : others = words ∨ ∀ u ∈ others, IsDull u ∨ u.getLast? = some ')')
    {shape : ThreatShape} (known : shape.IsKnown) (shows : shape.ShowsIn (decode value))
    (outside : List Char) : shape.ShowsIn (decode (outside ++ '[' :: (raw ++ [']']))) := by
  have solid : ∀ u ∈ others, Solid decode u := fun u hu => solid_of_regular dec (regular u hu)
  have solid' : ∀ w ∈ words, Solid decode w := by
    intro w hw
    obtain ⟨u, hu, hwu⟩ := exists_of_mem_left kept hw
    exact solid_of_regular dec (hwu.regular (regular u hu))
  obtain ⟨laced', front, back, whole⟩ := hraw.decode_bracketed dec solid' outside
  have laced := (hvalue.decoded dec solid).1
  rw [dec.cons (by decide)] at laced
  obtain ⟨u, hu, notDull, framed, earlier, later, xs, ys, e, rest, hwords, hdecode, unblank, hxs,
    hafter, hrest⟩ := shows.exists_word dec known regular laced
  rw [whole]
  by_cases crossing : shape = .injection ∧ others = words
  · obtain ⟨rfl, rfl⟩ := crossing
    rw [hwords, hdecode] at laced'
    obtain ⟨lead', d', rest', same', hd', hrest'⟩ := laced'.split_word
    have part : ThreatShape.injection.ShowsIn
        ((xs ++ ThreatShape.injection.mark :: (ys ++ [e])) ++ rest') :=
      ⟨xs, ys ++ [e] ++ rest', by simp, hxs, hafter.relace hrest hrest'⟩
    rw [← List.append_nil (_ ++ rest')] at same'
    exact part.of_bracketed same' hd'
  · have hys : shape.After (ys ++ [e]) := by
      by_cases injects : shape = .injection
      · have closing : u.getLast? = some ')' := by
          have second := closed.resolve_left fun same => crossing ⟨injects, same⟩
          exact (second u hu).resolve_left notDull
        rw [← (framed.decoded dec).2.1, hdecode, ← List.cons_append, ← List.append_assoc,
          List.getLast?_concat, Option.some.injEq] at closing
        rw [closing, List.append_assoc, List.singleton_append] at hafter
        exact (hafter.of_closing known).append [e]
      · cases rest with
        | nil => rwa [List.append_nil] at hafter
        | cons c rest =>
          exact hafter.local known injects hrest.isBreak.isDelimiter ⟨e, by simp, unblank⟩
    obtain ⟨w, hw, hwu⟩ := exists_of_mem_right kept hu
    have part : shape.ShowsIn (decode w) :=
      .of_kept dec known hwu notDull ⟨xs, _, hdecode, hxs, hys⟩
    obtain ⟨earlier', later', split_⟩ := List.append_of_mem (List.mem_map_of_mem (f := decode) hw)
    rw [split_] at laced'
    obtain ⟨lead', d', rest', same', hd', -⟩ := laced'.split_word
    exact part.of_bracketed same' hd'

end Transfer

end BracketCss
