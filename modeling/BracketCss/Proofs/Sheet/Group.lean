import BracketCss.Distinct
import BracketCss.Engine.Compilation
import Mathlib.Data.List.Induction

/-!
# What grouping does

Rules are told apart by what they are grouped by, which is their media prelude and the text of
their declarations. There is one group for each such pair, in the order in which the pairs occur
first, and it has the selectors and the classes of all its rules.

## Main definitions

* `StyleRule.key`, `StyleGroup.key`: what rules are grouped by
* `IsGrouping rules groups`: the groups that a sheet is made of, merged or not

## Main results

* `pairwise_idxOf_distinct`: distinct items stand in the order of their first occurrences
* `map_key_groupRules`: the keys of the groups
* `mem_selectors_iff`, `mem_classNames_iff`: what a group has of its rules
-/

namespace BracketCss

/-! ## Distinct items -/

section Distinct

variable {β : Type} [BEq β] [LawfulBEq β]

theorem distinct_append_singleton (items : List β) (item : β) :
    distinct (items ++ [item]) =
      if item ∈ items then distinct items else distinct items ++ [item] := by
  rw [distinct, distinctBy, distinctFrom_concat, List.map_id]
  simp only [List.not_mem_nil, false_or, id]
  split
  · exact List.append_nil _
  · rfl

/-- Distinct items stand in the order of their first occurrences. -/
theorem pairwise_idxOf_distinct (items : List β) :
    (distinct items).Pairwise fun a b => items.idxOf a < items.idxOf b := by
  induction items using List.reverseRecOn with
  | nil => exact List.Pairwise.nil
  | append_singleton items item ih =>
    have kept : (distinct items).Pairwise fun a b =>
        (items ++ [item]).idxOf a < (items ++ [item]).idxOf b := by
      refine ih.imp_of_mem ?_
      intro a b ha hb before
      rwa [List.idxOf_append, if_pos (mem_distinct.1 ha), List.idxOf_append,
        if_pos (mem_distinct.1 hb)]
    rw [distinct_append_singleton]
    split
    · exact kept
    · next fresh =>
      rw [List.pairwise_append]
      refine ⟨kept, List.pairwise_singleton _ _, ?_⟩
      intro a ha b hb
      obtain rfl := List.mem_singleton.1 hb
      have old := mem_distinct.1 ha
      rw [List.idxOf_append, if_pos old, List.idxOf_append, if_neg fresh]
      exact Nat.lt_of_lt_of_le (List.idxOf_lt_length_of_mem old) (Nat.le_add_left _ _)

end Distinct

/-! ## Keys -/

/-- What a rule is grouped by. -/
def StyleRule.key (rule : StyleRule) : Option String × String := (rule.media, rule.declarationText)

namespace StyleGroup

/-- What the rules of a group agree in. -/
def key (group : StyleGroup) : Option String × String := (group.media, group.declarationText)

theorem admits_iff {group : StyleGroup} {rule : StyleRule} :
    group.admits rule ↔ group.key = rule.key := by
  simp [admits, key, StyleRule.key]

@[simp] theorem key_ofRule (rule : StyleRule) : (ofRule rule).key = rule.key := rfl

@[simp] theorem key_add (group : StyleGroup) (rule : StyleRule) :
    (group.add rule).key = group.key := rfl

theorem mem_addOnce {items : List String} {item other : String} :
    other ∈ addOnce items item ↔ other ∈ items ∨ other = item := by
  unfold addOnce
  split
  · next old =>
    have mem : item ∈ items := by simpa using old
    constructor
    · exact .inl
    · rintro (h | rfl)
      · exact h
      · exact mem
  · simp

end StyleGroup

theorem map_key_addToGroups (groups : List StyleGroup) (rule : StyleRule) :
    (addToGroups groups rule).map (·.key) =
      if rule.key ∈ groups.map (·.key) then groups.map (·.key)
      else groups.map (·.key) ++ [rule.key] := by
  induction groups with
  | nil => simp [addToGroups]
  | cons group groups ih =>
    rw [addToGroups]
    by_cases own : group.admits rule
    · rw [if_pos own, List.map_cons, List.map_cons, StyleGroup.key_add,
        if_pos (List.mem_cons.2 (.inl (StyleGroup.admits_iff.1 own).symm))]
    · have other : rule.key ≠ group.key := fun same => own (StyleGroup.admits_iff.2 same.symm)
      rw [if_neg own, List.map_cons, List.map_cons, ih]
      simp only [List.mem_cons, other, false_or]
      split <;> rfl

/-- A group after one more rule is an old one of another key, the old one that admits the rule with
the rule added, or a new one. -/
theorem mem_addToGroups {groups : List StyleGroup} {rule : StyleRule} {group : StyleGroup}
    (distinct_ : (groups.map (·.key)).Nodup) (h : group ∈ addToGroups groups rule) :
    group ∈ groups ∧ group.key ≠ rule.key ∨
      (∃ old ∈ groups, old.key = rule.key ∧ group = old.add rule) ∨
      rule.key ∉ groups.map (·.key) ∧ group = .ofRule rule := by
  induction groups with
  | nil =>
    rw [addToGroups, List.mem_singleton] at h
    exact .inr (.inr ⟨List.not_mem_nil, h⟩)
  | cons first groups ih =>
    rw [List.map_cons, List.nodup_cons] at distinct_
    rw [addToGroups] at h
    by_cases own : first.admits rule
    · have same := StyleGroup.admits_iff.1 own
      rw [if_pos own] at h
      rcases List.mem_cons.1 h with rfl | h
      · exact .inr (.inl ⟨first, List.mem_cons_self, same, rfl⟩)
      · refine .inl ⟨List.mem_cons_of_mem _ h, ?_⟩
        intro equal
        refine distinct_.1 ?_
        rw [same, ← equal]
        exact List.mem_map_of_mem h
    · have other : first.key ≠ rule.key := fun same => own (StyleGroup.admits_iff.2 same)
      rw [if_neg own] at h
      rcases List.mem_cons.1 h with rfl | h
      · exact .inl ⟨List.mem_cons_self, other⟩
      · rcases ih distinct_.2 h with ⟨mem, ne⟩ | ⟨old, mem, same, rfl⟩ | ⟨absent, rfl⟩
        · exact .inl ⟨List.mem_cons_of_mem _ mem, ne⟩
        · exact .inr (.inl ⟨old, List.mem_cons_of_mem _ mem, same, rfl⟩)
        · refine .inr (.inr ⟨?_, rfl⟩)
          rw [List.map_cons, List.mem_cons, not_or]
          exact ⟨other.symm, absent⟩

/-! ## Groups and rules -/

/-- One group for each key, in the order of the first rules. -/
theorem map_key_groupRules (rules : List StyleRule) :
    (groupRules rules).map (·.key) = distinct (rules.map (·.key)) := by
  induction rules using List.reverseRecOn with
  | nil => rfl
  | append_singleton rules rule ih =>
    rw [groupRules_append_singleton, map_key_addToGroups, List.map_append, List.map_singleton,
      distinct_append_singleton, ih]
    simp only [mem_distinct]

theorem nodup_map_key_groupRules (rules : List StyleRule) :
    ((groupRules rules).map (·.key)).Nodup := by
  rw [map_key_groupRules]
  exact distinct_nodup _

theorem mem_map_key_groupRules {rules : List StyleRule} {key : Option String × String} :
    key ∈ (groupRules rules).map (·.key) ↔ ∃ rule ∈ rules, rule.key = key := by
  rw [map_key_groupRules, mem_distinct, List.mem_map]

/-- What a group collects of its rules is what the rules with its key have. -/
theorem mem_collected_iff {part : StyleRule → String} {collected : StyleGroup → List String}
    (single : ∀ rule, collected (.ofRule rule) = [part rule])
    (added : ∀ group rule, collected (group.add rule) =
      StyleGroup.addOnce (collected group) (part rule)) {rules : List StyleRule}
    {group : StyleGroup} (h : group ∈ groupRules rules) {s : String} :
    s ∈ collected group ↔ ∃ rule ∈ rules, rule.key = group.key ∧ part rule = s := by
  induction rules using List.reverseRecOn generalizing group with
  | nil => cases h
  | append_singleton rules rule ih =>
    have last : (∃ r ∈ rules ++ [rule], r.key = group.key ∧ part r = s) ↔
        (∃ r ∈ rules, r.key = group.key ∧ part r = s) ∨ rule.key = group.key ∧ part rule = s := by
      simp [or_and_right, exists_or]
    rw [groupRules_append_singleton] at h
    rw [last]
    rcases mem_addToGroups (nodup_map_key_groupRules rules) h with
      ⟨mem, other⟩ | ⟨old, mem, same, rfl⟩ | ⟨absent, rfl⟩
    · rw [ih mem]
      simp [other.symm]
    · rw [added, StyleGroup.mem_addOnce, ih mem, StyleGroup.key_add]
      simp [same, eq_comm]
    · have none_ : ¬ ∃ r ∈ rules, r.key = rule.key ∧ part r = s := by
        rintro ⟨r, mem, same, -⟩
        exact absent (mem_map_key_groupRules.2 ⟨r, mem, same⟩)
      rw [single, StyleGroup.key_ofRule, List.mem_singleton, or_iff_right none_]
      simp [eq_comm]

theorem mem_selectors_iff {rules : List StyleRule} {group : StyleGroup}
    (h : group ∈ groupRules rules) {selector : String} :
    selector ∈ group.selectors ↔
      ∃ rule ∈ rules, rule.key = group.key ∧ rule.selector = selector :=
  mem_collected_iff (fun _ => rfl) (fun _ _ => rfl) h

theorem mem_classNames_iff {rules : List StyleRule} {group : StyleGroup}
    (h : group ∈ groupRules rules) {name : String} :
    name ∈ group.classNames ↔ ∃ rule ∈ rules, rule.key = group.key ∧ rule.className = name :=
  mem_collected_iff (fun _ => rfl) (fun _ _ => rfl) h

/-- A group has the declarations and the prelude of one of its rules. -/
theorem exists_rule_of_mem_groupRules {rules : List StyleRule} {group : StyleGroup}
    (h : group ∈ groupRules rules) :
    ∃ rule ∈ rules, group.declarations = rule.declarations ∧ group.media = rule.media := by
  induction rules using List.reverseRecOn generalizing group with
  | nil => cases h
  | append_singleton rules rule ih =>
    rw [groupRules_append_singleton] at h
    rcases mem_addToGroups (nodup_map_key_groupRules rules) h with
      ⟨mem, -⟩ | ⟨old, mem, -, rfl⟩ | ⟨-, rfl⟩
    · obtain ⟨r, hr, same⟩ := ih mem
      exact ⟨r, List.mem_append_left _ hr, same⟩
    · obtain ⟨r, hr, same⟩ := ih mem
      exact ⟨r, List.mem_append_left _ hr, same⟩
    · exact ⟨rule, by simp, rfl, rfl⟩

/-- The groups of rules, or the rules as groups of their own. -/
def IsGrouping (rules : List StyleRule) (groups : List StyleGroup) : Prop :=
  groups = groupRules rules ∨ groups = singleGroups rules

namespace IsGrouping

variable {rules : List StyleRule} {groups : List StyleGroup} {group : StyleGroup}

theorem exists_rule (h : IsGrouping rules groups) (mem : group ∈ groups) :
    ∃ rule ∈ rules, group.declarations = rule.declarations ∧ group.media = rule.media := by
  rcases h with rfl | rfl
  · exact exists_rule_of_mem_groupRules mem
  · obtain ⟨rule, hrule, rfl⟩ := List.mem_map.1 mem
    exact ⟨rule, hrule, rfl, rfl⟩

theorem exists_rule_of_mem_classNames (h : IsGrouping rules groups) (mem : group ∈ groups)
    {name : String} (own : name ∈ group.classNames) : ∃ rule ∈ rules, rule.className = name := by
  rcases h with rfl | rfl
  · obtain ⟨rule, hrule, -, same⟩ := (mem_classNames_iff mem).1 own
    exact ⟨rule, hrule, same⟩
  · obtain ⟨rule, hrule, rfl⟩ := List.mem_map.1 mem
    exact ⟨rule, hrule, (List.mem_singleton.1 own).symm⟩

end IsGrouping

theorem Compilation.isGrouping_ofRules (options : SheetOptions) (batch : Batch)
    (rules : List StyleRule) (refused : List InvalidClass) :
    IsGrouping rules (Compilation.ofRules options batch rules refused).groups := by
  simp only [Compilation.ofRules]
  split
  · exact .inl rfl
  · exact .inr rfl

end BracketCss
