import BracketCss.Pattern.Match
import Mathlib.Logic.Basic

/-!
# What a pattern matches

The matcher tries the ways to match a pattern one after another. Here they are described without
an order: a relation between a pattern, a text, and what stands before and after the text. The
matcher succeeds exactly if the relation holds for some text that it may take.

## Main definitions

* `lastOf before cs`: the character before the place after `cs`
* `IsPlain p`: the pattern has no groups and asks neither for the start nor for the end
* `Pattern.Matches p before cs after`: `p` matches `cs` between `before` and `after`

## Main results

* `isSome_repeatStep`, `isSome_run`: the matcher finds a match if there is one
* `occursIn_iff`, `matches_of_matchesAll`: matches anywhere and of a whole text
* `matches_sequence_cons`, `matches_choice`, `matches_many`, `matches_textIgnoringCase`: the
  patterns that are put together from others
-/

namespace BracketCss

open Text

/-- The character before the place after a text, given the one before the text. -/
def lastOf (before : Option Char) (cs : List Char) : Option Char :=
  cs.foldl (fun _ c => some c) before

@[simp] theorem lastOf_nil (before : Option Char) : lastOf before [] = before := rfl

@[simp] theorem lastOf_cons (before : Option Char) (c : Char) (cs : List Char) :
    lastOf before (c :: cs) = lastOf (some c) cs := rfl

@[simp] theorem lastOf_append (before : Option Char) (xs ys : List Char) :
    lastOf before (xs ++ ys) = lastOf (lastOf before xs) ys := List.foldl_append

namespace Pattern

/-- A pattern without groups that asks neither for the start nor for the end of the text, nor for
a place inside a word. -/
def IsPlain : Pattern → Prop
  | empty | char _ | boundary => True
  | start | finish | noBoundary | group .. => False
  | seq p q | alt p q => p.IsPlain ∧ q.IsPlain
  | star _ p => p.IsPlain

theorem isPlain_sequence {ps : List Pattern} (h : ∀ p ∈ ps, p.IsPlain) :
    (sequence ps).IsPlain := by
  induction ps with
  | nil => trivial
  | cons p ps ih =>
    cases ps with
    | nil => exact h p List.mem_cons_self
    | cons q ps =>
      exact ⟨h p List.mem_cons_self, ih fun r hr => h r (List.mem_cons_of_mem _ hr)⟩

theorem isPlain_choice {ps : List Pattern} (h : ∀ p ∈ ps, p.IsPlain) : (choice ps).IsPlain := by
  induction ps with
  | nil => trivial
  | cons p ps ih =>
    cases ps with
    | nil => exact h p List.mem_cons_self
    | cons q ps =>
      exact ⟨h p List.mem_cons_self, ih fun r hr => h r (List.mem_cons_of_mem _ hr)⟩

theorem isPlain_text (s : String) : (text s).IsPlain :=
  isPlain_sequence fun p hp => by
    obtain ⟨c, -, rfl⟩ := List.mem_map.1 hp
    trivial

theorem isPlain_textIgnoringCase (s : String) : (textIgnoringCase s).IsPlain :=
  isPlain_sequence fun p hp => by
    obtain ⟨c, -, rfl⟩ := List.mem_map.1 hp
    trivial

theorem isPlain_many (class_ : CharClass) : (many class_).IsPlain := trivial

theorem isPlain_several (class_ : CharClass) : (several class_).IsPlain := ⟨trivial, trivial⟩

/-- A pattern matches a text that stands between a character and another text. -/
inductive Matches : Pattern → Option Char → List Char → List Char → Prop
  /-- The empty text. -/
  | empty {before after} : Matches empty before [] after
  /-- One character of the class. -/
  | char {class_ before after} {c : Char} (h : class_.contains c) :
      Matches (char class_) before [c] after
  /-- A place with a word character on exactly one side. -/
  | boundary {before} {after : List Char}
      (h : before.any isWordChar != after.head?.any isWordChar) : Matches boundary before [] after
  /-- One after the other. -/
  | seq {p q before xs ys after} (first : Matches p before xs (ys ++ after))
      (second : Matches q (lastOf before xs) ys after) : Matches (seq p q) before (xs ++ ys) after
  /-- The first alternative. -/
  | left {p q before xs after} (h : Matches p before xs after) : Matches (alt p q) before xs after
  /-- The second alternative. -/
  | right {p q before xs after} (h : Matches q before xs after) : Matches (alt p q) before xs after
  /-- No repetition. -/
  | done {eager p before after} : Matches (star eager p) before [] after
  /-- One repetition and others. -/
  | again {eager p before xs ys after} (first : Matches p before xs (ys ++ after))
      (others : Matches (star eager p) (lastOf before xs) ys after) :
      Matches (star eager p) before (xs ++ ys) after

/-- Repetitions that take no text may be left out. -/
theorem Matches.progress {eager : Bool} {p : Pattern} {before : Option Char}
    {cs after : List Char} (h : Matches (star eager p) before cs after) :
    cs = [] ∨ ∃ xs ys, xs ≠ [] ∧ cs = xs ++ ys ∧ Matches p before xs (ys ++ after) ∧
      Matches (star eager p) (lastOf before xs) ys after := by
  generalize whole : star eager p = r at h
  induction h with
  | done => exact .inl rfl
  | @again _ _ before xs ys after first others _ ih =>
    obtain ⟨rfl, rfl⟩ := Pattern.star.inj whole
    -- an empty repetition is skipped, and the induction finds a later one
    cases xs with
    | nil => exact ih rfl
    | cons x xs => exact .inr ⟨x :: xs, ys, by simp, rfl, first, others⟩
  | _ => cases whole

variable {α : Type}

theorem isSome_orElse (x : Option α) (y : Unit → Option α) :
    (x.orElse y).isSome ↔ x.isSome ∨ (y ()).isSome := by
  cases x <;> simp

/-- Repetition succeeds if and only if some repetitions match a text after which `k` succeeds, given
that a single repetition does. -/
theorem isSome_repeatStep {p : Pattern} {eager : Bool} {groups : List (Nat × Nat × Nat)}
    (single : ∀ before cs offset (k : Cursor → Option α),
      (run p ⟨before, cs, offset, groups⟩ k).isSome ↔
        ∃ xs after, cs = xs ++ after ∧ Matches p before xs after ∧
          (k ⟨lastOf before xs, after, offset + xs.length, groups⟩).isSome)
    (k : Cursor → Option α) (bound : Nat) (before : Option Char) (cs : List Char) (offset : Nat)
    (less : cs.length < bound) :
    (repeatStep eager (run p) k bound ⟨before, cs, offset, groups⟩).isSome ↔
      ∃ xs after, cs = xs ++ after ∧ Matches (star eager p) before xs after ∧
        (k ⟨lastOf before xs, after, offset + xs.length, groups⟩).isSome := by
  induction bound generalizing before cs offset with
  | zero => exact absurd less (Nat.not_lt_zero _)
  | succ bound ih =>
    have once := single before cs offset fun d =>
      if offset < d.offset then repeatStep eager (run p) k bound d else k d
    have either : (repeatStep eager (run p) k (bound + 1) ⟨before, cs, offset, groups⟩).isSome ↔
        (run p ⟨before, cs, offset, groups⟩ fun d =>
          if offset < d.offset then repeatStep eager (run p) k bound d else k d).isSome ∨
        (k ⟨before, cs, offset, groups⟩).isSome := by
      cases eager
      · rw [repeatStep, if_neg (by simp), isSome_orElse, or_comm]
      · rw [repeatStep, if_pos rfl, isSome_orElse]
    rw [either, once]
    constructor
    · rintro (⟨xs, rest, rfl, first, h⟩ | h)
      · cases xs with
        | nil => exact ⟨[], rest, rfl, .done, by simpa using h⟩
        | cons x xs =>
          rw [if_pos (by simp)] at h
          rw [List.length_append, List.length_cons] at less
          obtain ⟨ys, after, rfl, others, h⟩ := (ih _ rest _ (by omega)).1 h
          refine ⟨x :: xs ++ ys, after, by rw [List.append_assoc], .again first others, ?_⟩
          rw [lastOf_append, List.length_append, ← Nat.add_assoc]
          exact h
      · exact ⟨[], cs, rfl, .done, h⟩
    · rintro ⟨cs, after, rfl, matched, h⟩
      rcases matched.progress with rfl | ⟨xs, ys, moves, rfl, first, others⟩
      · exact .inr h
      · have size := List.length_pos_iff.2 moves
        refine .inl ⟨xs, ys ++ after, by rw [List.append_assoc], first, ?_⟩
        rw [if_pos (show offset < offset + xs.length by omega)]
        simp only [List.length_append] at less
        refine (ih _ _ _ ?_).2 ⟨ys, after, rfl, others, ?_⟩
        · rw [List.length_append]
          omega
        · rw [lastOf_append, List.length_append, ← Nat.add_assoc] at h
          exact h

/-- The matcher succeeds if and only if the pattern matches a text after which `k` succeeds. -/
theorem isSome_run {p : Pattern} (plain : p.IsPlain) (before : Option Char) (cs : List Char)
    (offset : Nat) (groups : List (Nat × Nat × Nat)) (k : Cursor → Option α) :
    (run p ⟨before, cs, offset, groups⟩ k).isSome ↔
      ∃ xs after, cs = xs ++ after ∧ Matches p before xs after ∧
        (k ⟨lastOf before xs, after, offset + xs.length, groups⟩).isSome := by
  -- the continuation stands for whatever the matcher does next, so it is generalized as well
  induction p generalizing before cs offset k with
  | empty =>
    constructor
    · exact fun h => ⟨[], cs, rfl, .empty, h⟩
    · rintro ⟨xs, after, rfl, matched, h⟩
      cases matched
      exact h
  | char class_ =>
    constructor
    · intro h
      cases cs with
      | nil => cases h
      | cons c cs =>
        simp only [run, Cursor.advance?] at h
        split at h
        · next mem => exact ⟨[c], cs, rfl, .char mem, h⟩
        · cases h
    · rintro ⟨xs, after, rfl, matched, h⟩
      cases matched with
      | char mem =>
        simp only [run, Cursor.advance?, List.cons_append, mem, if_true]
        exact h
  | boundary =>
    constructor
    · intro h
      simp only [run] at h
      split at h
      · next place => exact ⟨[], cs, rfl, .boundary place, h⟩
      · cases h
    · rintro ⟨xs, after, rfl, matched, h⟩
      cases matched with
      | boundary place => exact (congrArg Option.isSome (if_pos place)).trans h
  | seq p q ihp ihq =>
    rw [run_seq, ihp plain.1]
    constructor
    · rintro ⟨xs, rest, rfl, first, h⟩
      obtain ⟨ys, after, rfl, second, h⟩ := (ihq plain.2 _ _ _ _).1 h
      refine ⟨xs ++ ys, after, by rw [List.append_assoc], .seq first second, ?_⟩
      rw [lastOf_append, List.length_append, ← Nat.add_assoc]
      exact h
    · rintro ⟨_, after, rfl, matched, h⟩
      cases matched with
      | @seq _ _ _ xs ys _ first second =>
        refine ⟨xs, ys ++ after, by rw [List.append_assoc], first, ?_⟩
        refine (ihq plain.2 _ _ _ _).2 ⟨ys, after, rfl, second, ?_⟩
        rw [lastOf_append, List.length_append, ← Nat.add_assoc] at h
        exact h
  | alt p q ihp ihq =>
    rw [run_alt, isSome_orElse, ihp plain.1, ihq plain.2]
    constructor
    · rintro (⟨xs, after, rfl, matched, h⟩ | ⟨xs, after, rfl, matched, h⟩)
      · exact ⟨xs, after, rfl, .left matched, h⟩
      · exact ⟨xs, after, rfl, .right matched, h⟩
    · rintro ⟨xs, after, rfl, matched, h⟩
      cases matched with
      | left matched => exact .inl ⟨xs, after, rfl, matched, h⟩
      | right matched => exact .inr ⟨xs, after, rfl, matched, h⟩
  | star eager p ih =>
    exact isSome_repeatStep (ih plain) k _ before cs offset (Nat.lt_succ_self _)
  | start | finish | noBoundary | group => exact plain.elim

theorem isSome_matchAt {p : Pattern} (plain : p.IsPlain) (before : Option Char) (cs : List Char)
    (offset : Nat) (groups : List (Nat × Nat × Nat)) :
    (matchAt p false ⟨before, cs, offset, groups⟩).isSome ↔
      ∃ xs after, cs = xs ++ after ∧ Matches p before xs after := by
  rw [matchAt, isSome_run plain]
  simp

theorem isSome_searchFrom {p : Pattern} (plain : p.IsPlain) (before : Option Char) (offset : Nat)
    (cs : List Char) :
    (searchFrom p false before offset cs).isSome ↔
      ∃ xs ys after, cs = xs ++ (ys ++ after) ∧ Matches p (lastOf before xs) ys after := by
  induction cs generalizing before offset with
  | nil =>
    rw [searchFrom, Option.isSome_map, isSome_matchAt plain]
    constructor
    · rintro ⟨ys, after, same, matched⟩
      exact ⟨[], ys, after, same, matched⟩
    · rintro ⟨xs, ys, after, same, matched⟩
      obtain ⟨rfl, nothing⟩ := List.append_eq_nil_iff.1 same.symm
      exact ⟨ys, after, nothing.symm, matched⟩
  | cons c cs ih =>
    have here : (searchFrom p false before offset (c :: cs)).isSome ↔
        (matchAt p false ⟨before, c :: cs, offset, []⟩).isSome ∨
          (searchFrom p false (some c) (offset + 1) cs).isSome := by
      rw [searchFrom]
      cases matchAt p false ⟨before, c :: cs, offset, []⟩ <;> simp
    rw [here, isSome_matchAt plain, ih]
    constructor
    · rintro (⟨ys, after, same, matched⟩ | ⟨xs, ys, after, rfl, matched⟩)
      · exact ⟨[], ys, after, same, matched⟩
      · exact ⟨c :: xs, ys, after, rfl, matched⟩
    · rintro ⟨xs, ys, after, same, matched⟩
      cases xs with
      | nil => exact .inl ⟨ys, after, same, matched⟩
      | cons d xs =>
        obtain ⟨rfl, rfl⟩ := List.cons.inj same
        exact .inr ⟨xs, ys, after, rfl, matched⟩

/-- A pattern occurs in a text if and only if it matches a part of it. -/
theorem occursIn_iff {p : Pattern} (plain : p.IsPlain) (cs : List Char) :
    p.occursIn cs ↔
      ∃ xs ys after, cs = xs ++ (ys ++ after) ∧ Matches p (lastOf none xs) ys after := by
  rw [occursIn, search, Option.isSome_map, isSome_searchFrom plain]

theorem matches_of_matchesAll {p : Pattern} (plain : p.IsPlain) {cs : List Char}
    (h : p.matchesAll cs) : Matches p none cs [] := by
  rw [matchesAll, fullMatch, Option.isSome_map, Cursor.atStart, isSome_run plain] at h
  obtain ⟨xs, after, rfl, matched, done⟩ := h
  cases after with
  | nil =>
    rw [List.append_nil]
    exact matched
  | cons c after => cases done

section Composed

variable {before : Option Char} {cs after : List Char}

@[simp] theorem matches_empty : Matches empty before cs after ↔ cs = [] := by
  constructor
  · rintro ⟨⟩
    rfl
  · rintro rfl
    exact .empty

@[simp] theorem matches_char {class_ : CharClass} :
    Matches (char class_) before cs after ↔ ∃ c, class_.contains c ∧ cs = [c] := by
  constructor
  · rintro ⟨⟩
    exact ⟨_, by assumption, rfl⟩
  · rintro ⟨c, mem, rfl⟩
    exact .char mem

@[simp] theorem matches_boundary :
    Matches boundary before cs after ↔
      cs = [] ∧ (before.any isWordChar != after.head?.any isWordChar) := by
  constructor
  · rintro ⟨⟩
    exact ⟨rfl, by assumption⟩
  · rintro ⟨rfl, place⟩
    exact .boundary place

theorem matches_seq {p q : Pattern} :
    Matches (seq p q) before cs after ↔ ∃ xs ys, cs = xs ++ ys ∧
      Matches p before xs (ys ++ after) ∧ Matches q (lastOf before xs) ys after := by
  constructor
  · rintro ⟨⟩
    exact ⟨_, _, rfl, by assumption, by assumption⟩
  · rintro ⟨xs, ys, rfl, first, second⟩
    exact .seq first second

theorem matches_alt {p q : Pattern} :
    Matches (alt p q) before cs after ↔ Matches p before cs after ∨ Matches q before cs after := by
  constructor
  · rintro (h | h)
    · exact .inl ‹_›
    · exact .inr ‹_›
  · rintro (h | h)
    · exact .left h
    · exact .right h

theorem matches_sequence_cons {p : Pattern} {ps : List Pattern} :
    Matches (sequence (p :: ps)) before cs after ↔ ∃ xs ys, cs = xs ++ ys ∧
      Matches p before xs (ys ++ after) ∧ Matches (sequence ps) (lastOf before xs) ys after := by
  cases ps with
  | nil =>
    constructor
    · exact fun h => ⟨cs, [], by simp, h, .empty⟩
    · rintro ⟨xs, ys, rfl, first, second⟩
      obtain rfl := matches_empty.1 second
      rw [List.append_nil]
      exact first
  | cons q ps => exact matches_seq

theorem matches_choice {ps : List Pattern} (some_ : ps ≠ []) :
    Matches (choice ps) before cs after ↔ ∃ p ∈ ps, Matches p before cs after := by
  induction ps with
  | nil => exact absurd rfl some_
  | cons p ps ih =>
    cases ps with
    | nil => simp [choice]
    | cons q ps =>
      rw [choice, matches_alt, ih (by simp)]
      · simp only [List.mem_cons, exists_eq_or_imp]
      · simp

/-- What holds of the empty text, and with one repetition more, holds of all repetitions. -/
theorem Matches.star_induction {p : Pattern} {eager : Bool} {motive : List Char → Prop}
    (h : Matches (star eager p) before cs after) (nil : motive [])
    (step : ∀ before xs ys after, Matches p before xs after → motive ys → motive (xs ++ ys)) :
    motive cs := by
  generalize whole : star eager p = q at h
  induction h with
  | done => exact nil
  | again first _ _ ih =>
    obtain ⟨rfl, rfl⟩ := Pattern.star.inj whole
    exact step _ _ _ _ first (ih rfl)
  | _ => cases whole

theorem matches_many {class_ : CharClass} :
    Matches (many class_) before cs after ↔ ∀ c ∈ cs, class_.contains c := by
  constructor
  · intro h
    refine h.star_induction (motive := fun cs => ∀ c ∈ cs, class_.contains c)
      (List.forall_mem_nil _) fun _ xs ys _ first others => ?_
    obtain ⟨c, mem, rfl⟩ := matches_char.1 first
    exact List.forall_mem_cons.2 ⟨mem, others⟩
  · intro all
    induction cs generalizing before with
    | nil => exact .done
    | cons c cs ih =>
      have first : Matches (.char class_) before [c] (cs ++ after) :=
        .char (all c List.mem_cons_self)
      exact .again first (ih fun d hd => all d (List.mem_cons_of_mem _ hd))

theorem matches_several {class_ : CharClass} :
    Matches (several class_) before cs after ↔ cs ≠ [] ∧ ∀ c ∈ cs, class_.contains c := by
  rw [several, plus, matches_seq]
  constructor
  · rintro ⟨xs, ys, rfl, first, others⟩
    obtain ⟨c, mem, rfl⟩ := matches_char.1 first
    have all := matches_many.1 others
    simpa [mem] using all
  · rintro ⟨nonempty, all⟩
    obtain ⟨c, cs, rfl⟩ := List.exists_cons_of_ne_nil nonempty
    refine ⟨[c], cs, rfl, .char (all c List.mem_cons_self), ?_⟩
    exact matches_many.2 fun d hd => all d (List.mem_cons_of_mem _ hd)

theorem matches_text {s : String} : Matches (text s) before cs after ↔ cs = s.toList := by
  rw [text]
  induction s.toList generalizing before cs with
  | nil => simp [sequence]
  | cons d ds ih =>
    rw [List.map_cons, matches_sequence_cons]
    constructor
    · rintro ⟨xs, ys, rfl, first, others⟩
      obtain ⟨c, mem, rfl⟩ := matches_char.1 first
      rw [ih.1 others, eq_of_beq mem, List.singleton_append]
    · rintro rfl
      exact ⟨[d], ds, rfl, .char (by simp [CharClass.contains]), ih.2 rfl⟩

theorem matches_textIgnoringCase {s : String} :
    Matches (textIgnoringCase s) before cs after ↔ cs.map caseKey = s.toList := by
  rw [textIgnoringCase]
  induction s.toList generalizing before cs with
  | nil => simp [sequence]
  | cons d ds ih =>
    rw [List.map_cons, matches_sequence_cons]
    constructor
    · rintro ⟨xs, ys, rfl, first, others⟩
      obtain ⟨c, mem, rfl⟩ := matches_char.1 first
      rw [List.map_append, ih.1 others]
      simpa [CharClass.contains] using mem
    · intro same
      obtain ⟨c, cs, rfl, rfl, rfl⟩ := List.map_eq_cons_iff.1 same
      exact ⟨[c], cs, rfl, .char (by simp [CharClass.contains]), ih.2 rfl⟩

end Composed

end Pattern

end BracketCss
