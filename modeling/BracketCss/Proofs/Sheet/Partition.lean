import BracketCss.Proofs.Sheet.Merging

/-!
# Grouping as a partition

The groups of rules are a partition of them: there is one group for each pair of a media prelude and
a declaration text, and it has the selectors, the classes and the greatest weight of exactly the
rules with this pair. It has the declarations of the first of them. These are the declarations of
all of them unless a property holds a colon with a blank behind it, since the text of a declaration
can be read in two ways then.

If no two rules have the same selector, and the properties are names, two rules have a common group
if and only if they have the same prelude and the same declaration, and the selector of a rule
stands in one group only.

## Main definitions

* `StyleGroup.Collects group members`: the group is what the members come to
* `IsPartition rules groups`: the groups collect the rules by prelude and declaration text
* `AreSeparate rules`: no two rules have the same selector, and the properties are names

## Main results

* `isPartition_groupRules`: grouping is a partition
* `AreSeparate.share_iff`: which rules have a common group
* `AreSeparate.countP_selector`: the selector of a rule stands in one group
-/

namespace BracketCss

open Text

/-! ## What a group collects -/

/-- The group is what the members come to, in their order. -/
structure StyleGroup.Collects (group : StyleGroup) (members : List StyleRule) : Prop where
  /-- The selectors of the members, each once. -/
  selectors : group.selectors = distinct (members.map (·.selector))
  /-- The classes of the members, each once. -/
  classNames : group.classNames = distinct (members.map (·.className))
  /-- The declarations of the first member. -/
  declarations : members.head?.map (·.declarations) = some group.declarations
  /-- The greatest weight of a member. -/
  priority : (members.map (·.priority)).max? = some group.priority

namespace StyleGroup

theorem addOnce_distinct (items : List String) (item : String) :
    addOnce (distinct items) item = distinct (items ++ [item]) := by
  rw [distinct_append_singleton, addOnce]
  simp only [List.contains_iff_mem, mem_distinct]

theorem collects_ofRule (rule : StyleRule) : (ofRule rule).Collects [rule] :=
  ⟨rfl, rfl, rfl, rfl⟩

theorem Collects.add {group : StyleGroup} {members : List StyleRule} (h : group.Collects members)
    (rule : StyleRule) : (group.add rule).Collects (members ++ [rule]) where
  selectors := by
    rw [List.map_append, List.map_singleton, ← addOnce_distinct, ← h.selectors]
    rfl
  classNames := by
    rw [List.map_append, List.map_singleton, ← addOnce_distinct, ← h.classNames]
    rfl
  declarations := by
    cases members with
    | nil => cases h.declarations
    | cons first members => exact h.declarations
  priority := by
    cases members with
    | nil => cases h.declarations
    | cons first members =>
      have greatest := h.priority
      rw [List.map_cons, List.max?_cons', Option.some.injEq] at greatest
      rw [List.map_append, List.map_cons, List.cons_append, List.max?_cons', List.foldl_append,
        greatest]
      rfl

end StyleGroup

/-- The groups collect the rules by prelude and declaration text, in the order in which these occur
first. -/
structure IsPartition (rules : List StyleRule) (groups : List StyleGroup) : Prop where
  /-- One group for each pair of a prelude and a declaration text. -/
  keys : groups.map (·.key) = distinct (rules.map (·.key))
  /-- A group collects the rules with its pair. -/
  collects : ∀ group ∈ groups, group.Collects (rules.filter fun rule => rule.key = group.key)

theorem collects_of_mem_groupRules {rules : List StyleRule} {group : StyleGroup}
    (h : group ∈ groupRules rules) :
    group.Collects (rules.filter fun rule => rule.key = group.key) := by
  induction rules using List.reverseRecOn generalizing group with
  | nil => cases h
  | append_singleton rules rule ih =>
    rw [groupRules_append_singleton] at h
    rw [List.filter_append]
    rcases mem_addToGroups (nodup_map_key_groupRules rules) h with
      ⟨mem, other⟩ | ⟨old, mem, same, rfl⟩ | ⟨absent, rfl⟩
    · rw [List.filter_singleton, decide_eq_false other.symm, cond_false, List.append_nil]
      exact ih mem
    · rw [List.filter_singleton, StyleGroup.key_add, decide_eq_true same.symm, cond_true]
      exact (ih mem).add rule
    · have none_ : rules.filter (fun r => r.key = rule.key) = [] := by
        rw [List.filter_eq_nil_iff]
        intro r hr same
        exact absent (mem_map_key_groupRules.2 ⟨r, hr, of_decide_eq_true same⟩)
      rw [List.filter_singleton, StyleGroup.key_ofRule, none_, decide_eq_true rfl]
      exact StyleGroup.collects_ofRule rule

/-- **Grouping is a partition** of the rules by their prelude and declaration text. -/
theorem isPartition_groupRules (rules : List StyleRule) : IsPartition rules (groupRules rules) :=
  ⟨map_key_groupRules rules, fun _ => collects_of_mem_groupRules⟩

/-! ## Declarations -/

/-- The text of a declaration determines it if its property holds no colon with a blank behind
it. -/
theorem declarations_eq_of_declarationText_eq {rule other : StyleRule}
    (plain : ¬ HasPair ':' ' ' rule.property.toList)
    (plain' : ¬ HasPair ':' ' ' other.property.toList)
    (h : rule.declarationText = other.declarationText) :
    rule.property = other.property ∧ rule.value = other.value := by
  have texts := congrArg String.toList h
  rw [toList_declarationText, toList_declarationText] at texts
  obtain ⟨property, value⟩ := append_pair_inj (by decide) plain plain' texts
  exact ⟨String.toList_inj.1 property, String.toList_inj.1 value⟩

/-- A group has the declarations of all its rules, unless a property holds a colon with a blank
behind it. -/
theorem declarations_of_mem_groupRules {rules : List StyleRule}
    (plain : ∀ rule ∈ rules, ¬ HasPair ':' ' ' rule.property.toList) {group : StyleGroup}
    (h : group ∈ groupRules rules) {rule : StyleRule} (hrule : rule ∈ rules)
    (same : rule.key = group.key) : group.declarations = rule.declarations := by
  obtain ⟨first, hfirst, declarations, media⟩ := exists_rule_of_mem_groupRules h
  have texts : first.declarationText = rule.declarationText := by
    have key := (congrArg Prod.snd same).symm
    rwa [StyleGroup.key, StyleGroup.declarationText, declarations] at key
  obtain ⟨property, value⟩ :=
    declarations_eq_of_declarationText_eq (plain first hfirst) (plain rule hrule) texts
  rw [declarations, StyleRule.declarations, StyleRule.declarations, property, value]

/-! ## Common groups -/

/-- No two rules have the same selector, and the properties are names. -/
structure AreSeparate (rules : List StyleRule) : Prop where
  nodup : (rules.map (·.selector)).Nodup
  named : ∀ rule ∈ rules, ':' ∉ rule.property.toList

namespace AreSeparate

variable {rules : List StyleRule} {rule other : StyleRule} {group : StyleGroup}

theorem key_eq_iff (h : AreSeparate rules) (hrule : rule ∈ rules) (hother : other ∈ rules) :
    rule.key = other.key ↔
      rule.media = other.media ∧ rule.property = other.property ∧ rule.value = other.value := by
  constructor
  · intro same
    refine ⟨congrArg Prod.fst same, declarations_eq_of_declarationText_eq ?_ ?_
      (congrArg Prod.snd same)⟩
    · exact not_hasPair_of_not_mem (h.named rule hrule)
    · exact not_hasPair_of_not_mem (h.named other hother)
  · rintro ⟨media, property, value⟩
    simp only [StyleRule.key, StyleRule.declarationText, StyleRule.declarations, media, property,
      value]

/-- The selector of a rule stands in the group of the rule only. -/
theorem mem_selectors_iff_key_eq (h : AreSeparate rules) (mem : group ∈ groupRules rules)
    (hrule : rule ∈ rules) : rule.selector ∈ group.selectors ↔ rule.key = group.key := by
  rw [mem_selectors_iff mem]
  constructor
  · rintro ⟨owner, howner, key, selector⟩
    rwa [← List.inj_on_of_nodup_map h.nodup howner hrule selector]
  · intro key
    exact ⟨rule, hrule, key, rfl⟩

/-- **Two rules have a common group** if and only if they have the same prelude and the same
declaration. -/
theorem share_iff (h : AreSeparate rules) (hrule : rule ∈ rules) (hother : other ∈ rules) :
    (∃ group ∈ groupRules rules,
        rule.selector ∈ group.selectors ∧ other.selector ∈ group.selectors) ↔
      rule.media = other.media ∧ rule.property = other.property ∧ rule.value = other.value := by
  rw [← h.key_eq_iff hrule hother]
  constructor
  · rintro ⟨group, mem, own, shared⟩
    rw [h.mem_selectors_iff_key_eq mem hrule] at own
    rw [h.mem_selectors_iff_key_eq mem hother] at shared
    exact own.trans shared.symm
  · intro same
    obtain ⟨group, mem, key⟩ := List.mem_map.1 (mem_map_key_groupRules.2 ⟨rule, hrule, rfl⟩)
    refine ⟨group, mem, (h.mem_selectors_iff_key_eq mem hrule).2 key.symm, ?_⟩
    exact (h.mem_selectors_iff_key_eq mem hother).2 (same.symm.trans key.symm)

/-- **The selector of a rule stands in one group.** -/
theorem countP_selector (h : AreSeparate rules) (hrule : rule ∈ rules) :
    (groupRules rules).countP (fun group => rule.selector ∈ group.selectors) = 1 := by
  have keys : (groupRules rules).countP (fun group => rule.selector ∈ group.selectors) =
      ((groupRules rules).map (·.key)).count rule.key := by
    rw [List.count_eq_countP, List.countP_map]
    refine List.countP_congr fun group mem => ?_
    simp only [decide_eq_true_eq, Function.comp_apply, beq_iff_eq,
      h.mem_selectors_iff_key_eq mem hrule]
    exact eq_comm
  rw [keys]
  exact List.count_eq_one_of_mem (nodup_map_key_groupRules rules)
    (mem_map_key_groupRules.2 ⟨rule, hrule, rfl⟩)

end AreSeparate

end BracketCss
