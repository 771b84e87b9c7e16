import BracketCss.Proofs.Engine.Account
import BracketCss.Proofs.Engine.Keeps
import BracketCss.Proofs.Sheet.Partition

/-!
# The groups of a sheet

Whatever an engine did before, no two rules of a sheet have the same selector, and their properties
are names. So their groups are told apart by preludes and declarations and not only by texts of
declarations, and the selector of a rule stands in one group.

A rule that is kept has the selector of every class whose key it is found under, even if the digest
of its declaration collides with that of another class. It has a name for a property as well, unless
it was built for a class that no table gives and its digest collides.

## Main definitions

* `Compilation.IsGrouped sheet`: separate rules, and groups of them
* `Engine.IsApart texts c important`: the property is a name, or the digest of the declaration is
  that of no other text of a set
* `Engine.OwnsSelector texts key rule`: a rule was built for such a class with its key
* `Engine.KeepsGrouped table limits texts e`: the rules and the sheets that are kept are of this
  kind

## Main results

* `Engine.KeepsGrouped.run`: an engine in use keeps only rules and sheets of this kind
* `Engine.partition_of_run`: grouping is a partition, of all rules and of those of a sheet
* `Engine.exists_declarations_ne`: a table whose groups lose a declaration
-/

namespace BracketCss

/-- The rules of a sheet are separate, and its groups are groups of them. -/
structure Compilation.IsGrouped (sheet : Compilation) : Prop where
  separate : AreSeparate sheet.rules
  groups : IsGrouping sheet.rules sheet.groups

namespace Engine

/-- The property of a class is a name, or the text of its declaration collides with no text of a
set. -/
def IsApart (texts : String → Prop) (c : UtilityClass) (important : Bool) : Prop :=
  ':' ∉ c.property.toList ∨ ∀ s, texts s → ¬ Collide s (declarationKey c important)

/-- A rule has the selector and the property of a class with its key. -/
def OwnsSelector (texts : String → Prop) (key : String) (rule : StyleRule) : Prop :=
  ∃ c important, IsApart texts c important ∧
    key = CacheKey.rule (keySelector c) (Digest.short (declarationKey c important)) ∧
    rule.selector = c.fullSelector ∧ rule.property = c.property

/-- An engine that reads as without caches, whose rules have the selectors in their keys, and whose
sheets have separate rules. -/
def KeepsGrouped (table : PropertyTable) (limits : InputLimits) (texts : String → Prop)
    (e : Engine) : Prop :=
  e.Keeps table limits (OwnsSelector texts) fun _ sheet => sheet.IsGrouped

variable {table : PropertyTable} {limits : InputLimits} {texts : String → Prop} {e : Engine}

/-- A rule that is found for a class whose property is a name has its selector and such a
property. -/
theorem OwnsSelector.of_key {c : UtilityClass} {important : Bool} {rule : StyleRule}
    (h : OwnsSelector texts
      (CacheKey.rule (keySelector c) (Digest.short (declarationKey c important))) rule)
    (named : ':' ∉ c.property.toList) (text : texts (declarationKey c important)) :
    rule.selector = c.fullSelector ∧ ':' ∉ rule.property.toList := by
  obtain ⟨d, other, apart, same, selector, property⟩ := h
  obtain ⟨selectors, digests⟩ := CacheKey.rule_inj same
  rw [selector, property, (fullSelector_of_keySelector_eq selectors).1]
  refine ⟨rfl, ?_⟩
  rcases apart with plain | apart
  · exact plain
  · have declaration : declarationKey c important = declarationKey d other := by
      by_contra differ
      exact apart _ text ⟨differ, digests⟩
    rwa [← (declaration_of_key_eq declaration).1]

/-- The rule of a class whose property is a name has its selector and such a property, wherever it
comes from. -/
theorem KeepsGrouped.build (h : e.KeepsGrouped table limits texts) {c : UtilityClass}
    {important : Bool} (apart : IsApart texts c important) :
    (e.build c important).1.KeepsGrouped table limits texts ∧
      (':' ∉ c.property.toList → texts (declarationKey c important) →
        ∀ rule, (e.build c important).2 = .ok rule →
          rule.selector = c.fullSelector ∧ ':' ∉ rule.property.toList) := by
  have tier := h.rule.get e.cache.now (ruleKey c important)
  obtain ⟨keys, sound, ⟨rule, hit, made⟩ | ⟨-, ⟨rule, built, made⟩ | ⟨failure, built, made⟩⟩⟩ :=
    e.build_cases h.keys c important
  · rw [made]
    refine ⟨⟨⟨h.table_eq, h.limits_eq, sound, h.parse⟩, tier, h.generation⟩, ?_⟩
    rintro named text _ ⟨⟩
    exact OwnsSelector.of_key (h.rule.value_of_get hit) named text
  · rw [made]
    obtain ⟨-, -, -, rfl⟩ := UtilityClass.rule_eq_ok built
    refine ⟨⟨⟨h.table_eq, h.limits_eq, sound, h.parse⟩,
      tier.set _ ⟨c, important, apart, rfl, rfl, rfl⟩, h.generation⟩, ?_⟩
    rintro named - _ ⟨⟩
    exact ⟨rfl, named⟩
  · rw [made]
    refine ⟨⟨⟨h.table_eq, h.limits_eq, sound, h.parse⟩, tier, h.generation⟩, ?_⟩
    rintro - - _ ⟨⟩

theorem KeepsGrouped.buildEach (h : e.KeepsGrouped table limits texts) {important : Bool}
    {classes : List UtilityClass} (named : ∀ c ∈ classes, ':' ∉ c.property.toList)
    (digested : ∀ c ∈ classes, texts (declarationKey c important)) :
    (e.buildEach important classes).1.KeepsGrouped table limits texts ∧
      ((e.buildEach important classes).2.1.map (·.selector)).Sublist
        (classes.map (·.fullSelector)) ∧
      ∀ rule ∈ (e.buildEach important classes).2.1, ':' ∉ rule.property.toList := by
  induction classes generalizing e with
  | nil => exact ⟨h, List.Sublist.slnil, fun _ mem => absurd mem List.not_mem_nil⟩
  | cons c rest ih =>
    obtain ⟨plain, others⟩ := List.forall_mem_cons.1 named
    obtain ⟨text, texts_⟩ := List.forall_mem_cons.1 digested
    obtain ⟨next, own⟩ := h.build (.inl plain)
    obtain ⟨last, order, properties⟩ := ih next others texts_
    rw [Engine.buildEach]
    rcases built : e.build c important with ⟨other, _ | rule⟩
    · rw [built] at last order properties
      exact ⟨last, order.cons c.fullSelector, properties⟩
    · rw [built] at last order properties own
      obtain ⟨selector, property⟩ := own plain text rule rfl
      refine ⟨last, ?_, ?_⟩
      · simp only [List.map_cons, selector]
        exact order.cons_cons c.fullSelector
      · exact List.forall_mem_cons.2 ⟨property, properties⟩

/-- Classes with different names have different selectors. -/
theorem nodup_fullSelector {classes : List UtilityClass} (h : (classes.map (·.name)).Nodup) :
    (classes.map (·.fullSelector)).Nodup := by
  rw [List.Nodup, List.pairwise_map] at h ⊢
  exact h.imp fun differ same => differ (Selector.applyTo_inj same)

/-- A sheet that is compiled has separate rules. -/
theorem KeepsGrouped.compile (h : e.KeepsGrouped table limits texts) (named : table.IsNamed)
    {options : SheetOptions} {tokens : List Json} {stop : Option Nat}
    (digested : ∀ c ∈ (plainBatch table limits tokens stop).parsed,
      texts (declarationKey c options.important)) :
    (e.compile options tokens stop).1.KeepsGrouped table limits texts ∧
      (e.compile options tokens stop).2.IsGrouped ∧
      (options.group = true → (e.compile options tokens stop).2.groups =
        groupRules (e.compile options tokens stop).2.rules) := by
  have batch := (h.toIsReading.parseTokens tokens stop).2
  have properties : ∀ c ∈ (plainBatch table limits tokens stop).parsed,
      ':' ∉ c.property.toList := by
    intro c mem colon
    obtain ⟨token, read⟩ := isRead_of_mem_parsed mem
    exact absurd (UtilityClass.property_chars named read ':' colon) (by decide)
  obtain ⟨last, order, plain⟩ :=
    KeepsGrouped.buildEach (h.parseTokens_spec tokens stop) properties digested
  have selectors := nodup_fullSelector (@nodup_valid table limits tokens stop)
  simp only [Engine.compile, batch]
  refine ⟨last, ⟨⟨order.nodup selectors, plain⟩, Compilation.isGrouping_ofRules _ _ _ _⟩, ?_⟩
  intro grouped
  simp only [Compilation.ofRules, if_pos grouped]

/-- **A sheet has separate rules**, whether it was compiled now or kept. -/
theorem KeepsGrouped.generate (h : e.KeepsGrouped table limits texts) (named : table.IsNamed)
    {options : SheetOptions} {tokens : List Json} {stop : Option Nat}
    (digested : ∀ c ∈ (plainBatch table limits tokens stop).parsed,
      texts (declarationKey c options.important)) :
    (e.generate options tokens stop).1.KeepsGrouped table limits texts ∧
      (e.generate options tokens stop).2.IsGrouped ∧
      ((e.generate options tokens stop).2.isCached = false → options.group = true →
        (e.generate options tokens stop).2.groups =
          groupRules (e.generate options tokens stop).2.rules) := by
  obtain ⟨keys, sound, ⟨sheet, hit, served⟩ | ⟨-, next, sheet, made, served⟩⟩ :=
    e.generate_cases h.keys options tokens stop
  · rw [served]
    have kept := h.generation.value_of_get hit
    refine ⟨h.lookedUp sound _, ⟨kept.separate, kept.groups⟩, ?_⟩
    rintro ⟨⟩
  · obtain ⟨last, grouped, groups⟩ :=
      KeepsGrouped.compile (h.lookedUp sound (sheetKey options tokens)) named digested
    rw [made] at last grouped groups
    rw [served]
    refine ⟨?_, grouped, fun _ => groups⟩
    split
    · exact last
    · exact last.keep grouped

/-- **Every event keeps rules and sheets of this kind**, if rules are built only for classes that
are apart. -/
theorem KeepsGrouped.perform (h : e.KeepsGrouped table limits texts) (named : table.IsNamed)
    {event : EngineEvent} (apart : ∀ c important, event = .build c important →
      IsApart texts c important) (covered : ∀ s ∈ event.digested e, texts s) :
    (e.perform event).KeepsGrouped table limits texts := by
  refine Keeps.perform h ?_ ?_
  · intro c important same
    exact (h.build (apart c important same)).1
  · rintro classes options stop rfl settled tokens hoptions htokens
    simp only [EngineEvent.digested, hoptions, htokens, EngineEvent.compileTexts, h.table_eq,
      h.limits_eq] at covered
    refine (h.generate named fun c mem => covered _ ?_).1
    exact List.mem_cons_of_mem _ (List.mem_cons_of_mem _ (List.mem_map_of_mem mem))

/-- **A history keeps rules and sheets of this kind**, too. -/
theorem KeepsGrouped.run (h : e.KeepsGrouped table limits texts) (named : table.IsNamed)
    {events : List EngineEvent}
    (apart : ∀ c important, .build c important ∈ events → IsApart texts c important)
    (covered : ∀ event ∈ events, ∀ s ∈ event.digested e, texts s) :
    (e.run events).KeepsGrouped table limits texts := by
  induction events generalizing e with
  | nil => exact h
  | cons event events ih =>
    have next := h.perform named (fun c important same =>
      apart c important (same ▸ List.mem_cons_self)) (covered event List.mem_cons_self)
    refine ih next (fun c important mem => apart c important (List.mem_cons_of_mem _ mem)) ?_
    intro other mem
    rw [digested_congr (next.table_eq.trans h.table_eq.symm)
      (next.limits_eq.trans h.limits_eq.symm)]
    exact covered other (List.mem_cons_of_mem _ mem)

/-- **Grouping is a partition.** Of every list of rules there is one group for each pair of a
prelude and a declaration text, in the order in which the pairs occur first. It has the selectors,
the classes and the greatest weight of the rules with its pair, and the declarations of the first
of them; these are the declarations of all of them if no property holds a colon with a blank behind
it.

Two rules of a sheet that is made with the standard table have a common group if and only if they
have the same prelude, property and value, and the selector of a rule stands in one group. This
holds whatever the engine was used for before, unless it has built a rule for a class of no table
whose digest collides with one of the others. -/
theorem partition_of_run :
    (∀ rules : List StyleRule, IsPartition rules (groupRules rules) ∧
      ((∀ rule ∈ rules, ¬ Text.HasPair ':' ' ' rule.property.toList) →
        ∀ group ∈ groupRules rules, ∀ rule ∈ rules, rule.key = group.key →
          group.declarations = rule.declarations)) ∧
    ∀ (limits : InputLimits) (settings : CacheSettings) (isSweeping : Bool) (first : Engine),
      ofSettings limits settings .standard isSweeping = .ok first →
      ∀ (events : List EngineEvent) (classes options : Json) (stop : Option Nat),
        (∀ c important, .build c important ∈ events →
          IsApart (digestedBy first (events ++ [.generate classes options stop])) c important) →
      ∀ sheet : Compilation, ((first.run events).answer classes options stop).2 = .ok sheet →
      (∀ rule ∈ sheet.rules, ∀ other ∈ sheet.rules,
        (∃ group ∈ groupRules sheet.rules,
            rule.selector ∈ group.selectors ∧ other.selector ∈ group.selectors) ↔
          rule.media = other.media ∧ rule.property = other.property ∧
            rule.value = other.value) ∧
      (∀ rule ∈ sheet.rules,
        (groupRules sheet.rules).countP (fun group => rule.selector ∈ group.selectors) = 1) ∧
      IsGrouping sheet.rules sheet.groups ∧
      (sheet.isCached = false → ∀ settled, SheetOptions.ofJson options = .ok settled →
        settled.group = true → sheet.groups = groupRules sheet.rules) := by
  constructor
  · intro rules
    refine ⟨isPartition_groupRules rules, fun plain group mem rule hrule same => ?_⟩
    exact declarations_of_mem_groupRules plain mem hrule same
  · intro limits settings isSweeping first made events classes options stop apart sheet answered
    have new : first.KeepsGrouped .standard limits
        (digestedBy first (events ++ [.generate classes options stop])) :=
      Keeps.of_sound (sound_ofSettings made fun _ => False).1
    have used := new.run PropertyTable.isNamed_standard apart fun event mem s hs =>
      ⟨event, List.mem_append_left _ mem, hs⟩
    obtain ⟨settled, tokens, hoptions, htokens, rfl⟩ := answer_eq_ok answered
    have digested : ∀ c ∈ (plainBatch .standard limits tokens stop).parsed,
        digestedBy first (events ++ [.generate classes options stop])
          (declarationKey c settled.important) := by
      intro c mem
      refine ⟨.generate classes options stop, by simp, ?_⟩
      rw [← digested_congr (used.table_eq.trans new.table_eq.symm)
        (used.limits_eq.trans new.limits_eq.symm)]
      simp only [EngineEvent.digested, hoptions, htokens, EngineEvent.compileTexts, used.table_eq,
        used.limits_eq]
      exact List.mem_cons_of_mem _ (List.mem_cons_of_mem _ (List.mem_map_of_mem mem))
    obtain ⟨-, grouped, groups⟩ := used.generate PropertyTable.isNamed_standard digested
    refine ⟨fun rule hrule other hother => grouped.separate.share_iff hrule hother,
      fun rule hrule => grouped.separate.countP_selector hrule, grouped.groups, ?_⟩
    intro fresh asked hasked merged
    obtain rfl := Except.ok.inj (hoptions.symm.trans hasked)
    exact groups fresh merged

section Example

/-- Two utilities for one property, and one of them for wide windows as well. -/
def paddingNames : List String := ["p-[1px]", "md:p-[1px]", "padding-[1px]"]

/-- The rules of three classes on an engine that has read one of them. -/
theorem partition_of_run_padding : ∃ first sheet,
    ofSettings .standard .standard .standard true = .ok first ∧
      ((first.run [.parse (.string "p-[1px]"), .tick 5]).answer (.strings paddingNames) .null
        none).2 = .ok sheet ∧
      sheet.rules.map (·.className) = paddingNames ∧
      IsPartition sheet.rules sheet.groups ∧
      (∀ rule ∈ sheet.rules, ∀ other ∈ sheet.rules,
        (∃ group ∈ sheet.groups,
            rule.selector ∈ group.selectors ∧ other.selector ∈ group.selectors) ↔
          rule.media = other.media ∧ rule.property = other.property ∧
            rule.value = other.value) ∧
      (∀ rule ∈ sheet.rules,
        sheet.groups.countP (fun group => rule.selector ∈ group.selectors) = 1) ∧
      (∀ group ∈ sheet.groups, ∀ rule ∈ sheet.rules, rule.key = group.key →
        group.declarations = rule.declarations) := by
  obtain ⟨first, made⟩ : ∃ first, ofSettings .standard .standard .standard true = .ok first :=
    ⟨_, rfl⟩
  have sound : (first.run [.parse (.string "p-[1px]"), .tick 5]).Sound .standard .standard
      fun _ => False :=
    (sound_ofSettings made fun _ => False).1.run (fun _ _ text => text.elim)
      (by simp [EngineEvent.IsOwn]) (by simp [EngineEvent.digested])
  have htokens : (first.run [.parse (.string "p-[1px]"), .tick 5]).tokens (.strings paddingNames) =
      .ok (paddingNames.map .string) :=
    tokens_of_classTokens? rfl (by rw [sound.limits_eq]; decide)
  have answered : ((first.run [.parse (.string "p-[1px]"), .tick 5]).answer
      (.strings paddingNames) .null none).2 =
        .ok (plainCompile .standard .standard .default (paddingNames.map .string) none) := by
    rw [answer_of_ok rfl htokens, sound.generate_of_no_texts]
  have names : (plainCompile .standard .standard .default (paddingNames.map .string)
      none).rules.map (·.className) = paddingNames := by
    decide +kernel
  obtain ⟨lists, sheets⟩ := partition_of_run
  obtain ⟨share, one, -, merged⟩ := sheets .standard .standard true first made
    [.parse (.string "p-[1px]"), .tick 5] (.strings paddingNames) .null none (by simp) _ answered
  have groups := merged rfl .default rfl rfl
  obtain ⟨partition, declarations⟩ := lists
    (plainCompile .standard .standard .default (paddingNames.map .string) none).rules
  refine ⟨first, _, made, answered, names, ?_⟩
  rw [groups]
  exact ⟨partition, share, one, declarations (by decide +kernel)⟩

/-- A table with a property that holds a colon with a blank behind it. -/
def pairTable : PropertyTable := ⟨[("x", "a: b"), ("y", "a")], []⟩

/-- With such a table, a group has the declaration of one of its rules and not that of another. -/
theorem exists_declarations_ne : ∃ first sheet,
    ofSettings .standard .standard pairTable true = .ok first ∧
      (first.answer (.strings ["y-[b:,c]", "x-[c]"]) .null none).2 = .ok sheet ∧
      ∃ group ∈ sheet.groups, ∃ rule ∈ sheet.rules, rule.media = group.media ∧
        rule.declarationText = group.declarationText ∧
        group.declarations = [("a", "b: c")] ∧ rule.declarations = [("a: b", "c")] := by
  obtain ⟨first, made⟩ : ∃ first, ofSettings .standard .standard pairTable true = .ok first :=
    ⟨_, rfl⟩
  have limit := (sound_ofSettings made fun _ => False).1.limits_eq
  have htokens : first.tokens (.strings ["y-[b:,c]", "x-[c]"]) =
      .ok (["y-[b:,c]", "x-[c]"].map .string) :=
    tokens_of_classTokens? rfl (by rw [limit]; decide)
  refine ⟨first, plainCompile pairTable .standard .default (["y-[b:,c]", "x-[c]"].map .string) none,
    made, ?_, ?_⟩
  · rw [answer_of_ok rfl htokens, generate_of_new made]
  · have rules : (plainCompile pairTable .standard .default
        (["y-[b:,c]", "x-[c]"].map .string) none).rules = [
          ⟨".y-\\[b\\:\\,c\\]", "y-[b:,c]", "a", "b: c", 10, none⟩,
          ⟨".x-\\[c\\]", "x-[c]", "a: b", "c", 10, none⟩] := by
      decide +kernel
    have groups : (plainCompile pairTable .standard .default
        (["y-[b:,c]", "x-[c]"].map .string) none).groups = [
          ⟨[("a", "b: c")], none, [".y-\\[b\\:\\,c\\]", ".x-\\[c\\]"],
            ["y-[b:,c]", "x-[c]"], 10⟩] := by
      decide +kernel
    rw [rules, groups]
    refine ⟨_, List.mem_singleton_self _, ⟨".x-\\[c\\]", "x-[c]", "a: b", "c", 10, none⟩, ?_, rfl,
      ?_, rfl, rfl⟩
    · simp
    · decide +kernel

end Example

end Engine

end BracketCss
