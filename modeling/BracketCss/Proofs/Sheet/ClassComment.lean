import BracketCss.Proofs.Class.Form
import BracketCss.Proofs.Engine.Fresh
import BracketCss.Proofs.Sheet.Group
import BracketCss.Proofs.Text.Pair

/-!
# Comments that name classes

With comments, a sheet names the classes of each group in front of it, as they are. So a class name
that holds the end of a comment ends the comment early. Nothing refuses such a name: the comment of
a group ends where it should exactly if no value between the brackets of its classes holds the end
of a comment.

## Main definitions

* `afterComment cs`: what stands behind the first end of a comment
* `StyleGroup.names group`: the classes of a group as its comment lists them

## Main results

* `block_infix_renderSheet`: every group is written in the sheet
* `afterComment_names_iff`: when the comment of a group ends where it should
* `Engine.exists_comment_of_new`: the comments in the sheets of a new engine
-/

namespace BracketCss

open Text

/-- What stands behind the first end of a comment. -/
def afterComment : List Char → Option (List Char)
  | [] => none
  | c :: cs => if c = '*' ∧ cs.head? = some '/' then some cs.tail else afterComment cs

/-- The end of a comment that a text holds is found in it, whatever follows. -/
theorem afterComment_append_of_hasPair {xs : List Char} (h : HasPair '*' '/' xs) (ys : List Char) :
    ∃ rest, afterComment (xs ++ ys) = some (rest ++ ys) := by
  induction xs with
  | nil => exact absurd h not_hasPair_nil
  | cons x xs ih =>
    rw [List.cons_append, afterComment]
    by_cases here : x = '*' ∧ (xs ++ ys).head? = some '/'
    · rw [if_pos here]
      cases xs with
      | nil => simp [hasPair_cons_iff] at h
      | cons y xs => exact ⟨xs, rfl⟩
    · rw [if_neg here]
      refine ih ((hasPair_cons_iff.1 h).resolve_left ?_)
      rintro ⟨star, slash⟩
      refine here ⟨star, ?_⟩
      rw [List.head?_append, slash]
      rfl

/-- A text without an end of a comment is passed over. -/
theorem afterComment_append_of_not_hasPair {xs ys : List Char} (h : ¬ HasPair '*' '/' xs)
    (next : ys.head? ≠ some '/') : afterComment (xs ++ ys) = afterComment ys := by
  induction xs with
  | nil => rfl
  | cons x xs ih =>
    rw [hasPair_cons_iff, not_or] at h
    rw [List.cons_append, afterComment, ih h.2, if_neg]
    rintro ⟨star, slash⟩
    cases xs with
    | nil => exact next slash
    | cons y xs => exact h.1 ⟨star, slash⟩

/-- The mark that ends a comment. -/
def commentEnd : List Char := " */".toList

theorem afterComment_append_commentEnd_iff {xs after : List Char} :
    afterComment (xs ++ (commentEnd ++ after)) = some after ↔ ¬ HasPair '*' '/' xs := by
  constructor
  · intro own pair
    obtain ⟨rest, early⟩ := afterComment_append_of_hasPair pair (commentEnd ++ after)
    rw [early] at own
    have lengths := congrArg List.length (Option.some.inj own)
    simp only [List.length_append, commentEnd] at lengths
    have : " */".toList.length = 3 := rfl
    omega
  · intro none_
    rw [afterComment_append_of_not_hasPair none_ (by simp [commentEnd])]
    rfl

namespace StyleGroup

/-- The classes of a group as its comment lists them. -/
def names (group : StyleGroup) : List Char := (", ".intercalate group.classNames).toList

theorem hasPair_names_iff {group : StyleGroup} :
    HasPair '*' '/' group.names ↔ ∃ name ∈ group.classNames, HasPair '*' '/' name.toList := by
  rw [names, String.toList_intercalate, hasPair_intercalate_iff (by decide) (by decide) (by decide)]
  simp

end StyleGroup

/-! ## Where a group is written -/

theorem infix_intercalate_of_mem {α : Type} {sep x : List α} {xs : List (List α)} (h : x ∈ xs) :
    x <:+: sep.intercalate xs := by
  induction xs with
  | nil => cases h
  | cons y xs ih =>
    cases xs with
    | nil =>
      obtain rfl := List.mem_singleton.1 h
      rw [List.intercalate_singleton]
    | cons z xs =>
      rw [List.intercalate_cons_cons]
      rcases List.mem_cons.1 h with rfl | h
      · exact ⟨[], sep ++ sep.intercalate (z :: xs), by simp⟩
      · exact (ih h).trans (List.suffix_append _ _).isInfix

theorem toList_infix_intercalate {sep s : String} {texts : List String} (h : s ∈ texts) :
    s.toList <:+: (sep.intercalate texts).toList := by
  rw [String.toList_intercalate]
  exact infix_intercalate_of_mem (List.mem_map_of_mem h)

theorem infix_between {s : List Char} {text : String} (h : s <:+: text.toList)
    (before after : String) : s <:+: (before ++ text ++ after).toList := by
  rw [String.toList_append, String.toList_append]
  exact (h.trans (List.suffix_append _ _).isInfix).trans (List.prefix_append _ _).isInfix

variable {options : SheetOptions} {group : StyleGroup}

/-- A run of groups writes each of them. -/
theorem exists_text_of_mem_run (options : SheetOptions)
    {run : Option String × List StyleGroup} (mem : group ∈ run.2) :
    ∃ indent, ∃ text ∈ runTexts options run,
      (group.block options indent).toList <:+: text.toList := by
  obtain ⟨media, members⟩ := run
  cases media with
  | none => exact ⟨"", _, List.mem_map_of_mem mem, List.infix_rfl⟩
  | some media =>
    by_cases small : options.minify
    · refine ⟨"", _, List.mem_singleton.2 rfl, ?_⟩
      rw [mediaBlock, if_pos small]
      exact infix_between (toList_infix_intercalate (List.mem_map_of_mem mem)) _ _
    · refine ⟨"  ", _, List.mem_singleton.2 rfl, ?_⟩
      rw [mediaBlock, if_neg small]
      exact infix_between (toList_infix_intercalate (List.mem_map_of_mem mem)) _ _

/-- Every group is written in the sheet. -/
theorem block_infix_renderSheet (options : SheetOptions) {groups : List StyleGroup}
    (mem : group ∈ groups) :
    ∃ indent, (group.block options indent).toList <:+: (renderSheet options groups).toList := by
  have sorted : group ∈ (mediaRuns (sortGroups groups)).flatMap (·.2) := by
    rw [mediaRuns_flatten]
    exact List.mem_mergeSort.2 mem
  obtain ⟨run, hrun, inside⟩ := List.mem_flatMap.1 sorted
  obtain ⟨indent, text, htext, written⟩ := exists_text_of_mem_run options inside
  have listed : text ∈ sheetTexts options groups :=
    List.mem_append_right _ (List.mem_flatMap.2 ⟨run, hrun, htext⟩)
  refine ⟨indent, written.trans ?_⟩
  rw [renderSheet, if_neg (by simp [List.ne_nil_of_mem listed])]
  split
  · exact toList_infix_intercalate listed
  · rw [String.toList_append]
    exact (toList_infix_intercalate listed).trans (List.prefix_append _ _).isInfix

/-- With comments, a group starts with the list of its classes. -/
theorem comment_infix_block (comments : options.comments) (pretty : options.minify = false)
    (indent : String) :
    "/* ".toList ++ (group.names ++ commentEnd) <:+: (group.block options indent).toList := by
  have first : indent ++ "/* " ++ ", ".intercalate group.classNames ++ " */" ∈
      group.lines options indent := by
    simp [StyleGroup.lines, comments]
  have inside : _ <:+: ("\n".intercalate (group.lines options indent)).toList :=
    toList_infix_intercalate first
  rw [StyleGroup.block, if_neg (by simp [pretty])]
  refine List.IsInfix.trans ?_ inside
  refine ⟨indent.toList, [], ?_⟩
  simp [StyleGroup.names, commentEnd]

/-! ## Classes that were read -/

variable {table : PropertyTable} {limits : InputLimits}

/-- What stands around the brackets of a name neither opens nor ends a comment. -/
theorem UtilityClass.hasPair_name_iff {token : Json} {c : UtilityClass}
    (h : read table limits token = .ok c) :
    HasPair '*' '/' c.name.toList ↔ HasPair '*' '/' c.raw.toList := by
  obtain ⟨front, whole, fronts, -⟩ := exists_front_of_read h
  have star : '*' ∉ front := fun mem => absurd (fronts _ mem) (by simp [IsFrontChar]; decide)
  rw [whole, hasPair_append_iff, hasPair_cons_iff, hasPair_append_iff]
  simp [not_hasPair_of_not_mem star, hasPair_cons_iff]

/-- The comment of a group of classes that were read ends where it should exactly if no value
between their brackets holds the end of a comment. -/
theorem afterComment_names_iff
    (own : ∀ name ∈ group.classNames, ∃ c, IsRead table limits c ∧ c.name = name)
    (after : List Char) :
    afterComment (' ' :: (group.names ++ (commentEnd ++ after))) = some after ↔
      ∀ c, IsRead table limits c → c.name ∈ group.classNames → ¬ HasPair '*' '/' c.raw.toList := by
  have space : HasPair '*' '/' (' ' :: group.names) ↔ HasPair '*' '/' group.names := by
    rw [hasPair_cons_iff]
    simp
  rw [← List.cons_append, afterComment_append_commentEnd_iff, space,
    StyleGroup.hasPair_names_iff]
  constructor
  · rintro none_ c ⟨token, hc⟩ mem pair
    exact none_ ⟨c.name, mem, (UtilityClass.hasPair_name_iff hc).2 pair⟩
  · rintro none_ ⟨name, mem, pair⟩
    obtain ⟨c, ⟨token, hc⟩, rfl⟩ := own name mem
    exact none_ c ⟨token, hc⟩ mem ((UtilityClass.hasPair_name_iff hc).1 pair)

namespace Engine

/-- With comments, every group of a sheet has one in front of it that lists its classes. What is
read as this comment ends where it should exactly if no value between the brackets of the classes
holds the end of a comment. -/
theorem exists_comment_of_new {e : Engine} {settings : CacheSettings} {isSweeping : Bool}
    (made : ofSettings limits settings table isSweeping = .ok e) (comments : options.comments)
    (pretty : options.minify = false) {tokens : List Json} {stop : Option Nat}
    (mem : group ∈ (e.generate options tokens stop).2.groups) :
    ∃ before after, (e.generate options tokens stop).2.css.toList =
        before ++ "/*".toList ++ ' ' :: (group.names ++ (commentEnd ++ after)) ∧
      (afterComment (' ' :: (group.names ++ (commentEnd ++ after))) = some after ↔
        ∀ c, IsRead table limits c → c.name ∈ group.classNames →
          ¬ HasPair '*' '/' c.raw.toList) := by
  rw [generate_of_new made] at mem ⊢
  obtain ⟨indent, block⟩ := block_infix_renderSheet options mem
  obtain ⟨before, after, same⟩ := (comment_infix_block comments pretty indent).trans block
  refine ⟨before, after, ?_, afterComment_names_iff ?_ after⟩
  · rw [css_plainCompile, ← same]
    simp
  · intro name listed
    obtain ⟨rule, hrule, rfl⟩ :=
      (Compilation.isGrouping_ofRules options _ _ _).exists_rule_of_mem_classNames mem listed
    obtain ⟨c, hc, built⟩ := exists_class_of_mem_rules hrule
    obtain ⟨-, -, -, rfl⟩ := UtilityClass.rule_eq_ok built
    exact ⟨c, hc, rfl⟩

/-- The comment in the sheet of an engine that was asked for one class. -/
theorem exists_comment_of_new_padding :
    ∃ e, ofSettings .standard .standard .standard true = .ok e ∧
      ∃ group ∈ (e.generate ⟨false, true, true, false, none⟩ [.string "p-[1px]"] none).2.groups,
        ∃ before after,
          (e.generate ⟨false, true, true, false, none⟩ [.string "p-[1px]"] none).2.css.toList =
            before ++ "/*".toList ++ ' ' :: (group.names ++ (commentEnd ++ after)) ∧
          (afterComment (' ' :: (group.names ++ (commentEnd ++ after))) = some after ↔
            ∀ c, IsRead .standard .standard c → c.name ∈ group.classNames →
              ¬ HasPair '*' '/' c.raw.toList) := by
  obtain ⟨e, made⟩ : ∃ e, ofSettings .standard .standard .standard true = .ok e := ⟨_, rfl⟩
  have mem : .ofRule ⟨".p-\\[1px\\]", "p-[1px]", "padding", "1px", 10, none⟩ ∈
      (e.generate ⟨false, true, true, false, none⟩ [.string "p-[1px]"] none).2.groups := by
    rw [generate_of_new made]
    decide +kernel
  exact ⟨e, made, _, mem, exists_comment_of_new made (by decide) (by decide) mem⟩

/-- The comment of a group ends inside the name of its class. -/
theorem exists_comment_cut :
    ∃ e, ofSettings .standard .standard .standard true = .ok e ∧
      (e.generate ⟨false, true, true, false, none⟩ [.string "font-[a*/b]"] none).2.css =
        "/* Generated by zyracss */\n\n/* font-[a*/b] */\n" ++
          ".font-\\[a\\*\\/b\\] \x7b\n  font: a*/b;\n\x7d\n" ∧
      ∃ group ∈ (e.generate ⟨false, true, true, false, none⟩ [.string "font-[a*/b]"]
        none).2.groups, HasPair '*' '/' group.names := by
  obtain ⟨e, made⟩ : ∃ e, ofSettings .standard .standard .standard true = .ok e := ⟨_, rfl⟩
  refine ⟨e, made, ?_, .ofRule ⟨".font-\\[a\\*\\/b\\]", "font-[a*/b]", "font", "a*/b", 10, none⟩,
    ?_, ?_⟩
  · rw [generate_of_new made]
    decide +kernel
  · rw [generate_of_new made]
    decide +kernel
  · decide +kernel

end Engine

end BracketCss
