import BracketCss.Proofs.Engine.Fresh
import BracketCss.Proofs.Engine.Names

/-!
# Batches and sheets token by token

Repeated tokens are dropped twice, first as equal texts and later as equal names. The second
dropping makes the first one superfluous: a batch consists of the classes of its tokens, and a sheet
of their rules, each name once. So a list of tokens influences a sheet through the rules of its
tokens only.

## Main definitions

* `classOf`, `ruleOf`: the class and the rule of one token, if it has one

## Main results

* `parsed_plainBatch`, `rules_plainCompile`: the classes and the rules of a list of tokens
* `mem_parsed`, `mem_invalid`: a token gives a class or a report
-/

namespace BracketCss

/-! ## Distinct items -/

section Distinct

variable {α β γ : Type} [BEq β] [LawfulBEq β]

omit [LawfulBEq β] in
theorem sublist_distinctFrom (key : α → β) (seen : List β) (items : List α) :
    (distinctFrom key seen items).Sublist items := by
  induction items generalizing seen with
  | nil => exact List.Sublist.slnil
  | cons item items ih =>
    rw [distinctFrom]
    split
    · exact (ih seen).cons item
    · exact (ih _).cons_cons item

omit [LawfulBEq β] in
/-- Items that are distinct stay as they are. -/
theorem distinctFrom_distinctFrom (key : α → β) (seen : List β) (items : List α) :
    distinctFrom key seen (distinctFrom key seen items) = distinctFrom key seen items := by
  induction items generalizing seen with
  | nil => rfl
  | cons item items ih =>
    by_cases old : seen.contains (key item)
    · rw [distinctFrom, if_pos old, ih]
    · rw [distinctFrom, if_neg old, distinctFrom, if_neg old, ih]

/-- Every key occurs among the distinct items. -/
theorem exists_mem_distinctFrom {key : α → β} {seen : List β} {items : List α} {item : α}
    (h : item ∈ items) (fresh : key item ∉ seen) :
    ∃ other ∈ distinctFrom key seen items, key other = key item := by
  have mem : key item ∈ (distinctFrom key seen items).map key := by
    rw [map_distinctFrom, mem_distinctFrom]
    exact ⟨List.mem_map_of_mem h, fresh⟩
  exact List.mem_map.1 mem

/-- What a function that depends on the key yields for distinct items is distinct already. -/
theorem filterMap_distinctFrom {key : α → β} {image : γ → β} {f : α → Option γ} {items : List α}
    (agree : ∀ a b, f a = some b → image b = key a)
    (determined : ∀ a ∈ items, ∀ a' ∈ items, key a = key a' → f a = f a') {seen marks : List β}
    (same : ∀ a ∈ items, (f a).isSome → (key a ∈ seen ↔ key a ∈ marks)) :
    (distinctFrom key seen items).filterMap f = distinctFrom image marks (items.filterMap f) := by
  induction items generalizing seen marks with
  | nil => rfl
  | cons a items ih =>
    obtain ⟨first, others⟩ := List.forall_mem_cons.1 same
    have inside : ∀ b ∈ items, ∀ b' ∈ items, key b = key b' → f b = f b' := fun b hb b' hb' =>
      determined b (List.mem_cons_of_mem _ hb) b' (List.mem_cons_of_mem _ hb')
    rw [distinctFrom]
    cases found : f a with
    | none =>
      rw [List.filterMap_cons_none found]
      split
      · exact ih inside others
      · rw [List.filterMap_cons_none found]
        refine ih inside fun b hb some_ => ?_
        have other : key b ≠ key a := by
          intro equal
          rw [determined b (List.mem_cons_of_mem _ hb) a List.mem_cons_self equal, found] at some_
          cases some_
        rw [List.mem_cons, or_iff_right other]
        exact others b hb some_
    | some b =>
      have known : key a ∈ seen ↔ key a ∈ marks := first (found ▸ rfl)
      rw [List.filterMap_cons_some found, distinctFrom, agree a b found]
      by_cases old : key a ∈ seen
      · rw [if_pos (List.contains_iff_mem.2 old), if_pos (List.contains_iff_mem.2 (known.1 old))]
        exact ih inside others
      · rw [if_neg (mt List.contains_iff_mem.1 old),
          if_neg (mt List.contains_iff_mem.1 (mt known.2 old)), List.filterMap_cons_some found]
        refine congrArg (b :: ·) (ih inside fun c hc some_ => ?_)
        rw [List.mem_cons, List.mem_cons, others c hc some_]

section Found

variable {key : γ → β} {f : α → Option γ} {seen : List β} {a : α} {items others : List α}

/-- An item for which nothing new is found may be dropped. -/
theorem distinctFrom_filterMap_of_seen (h : ∀ b, f a = some b → key b ∈ seen) :
    distinctFrom key seen ((a :: items).filterMap f) =
      distinctFrom key seen (items.filterMap f) := by
  cases found : f a with
  | none => rw [List.filterMap_cons_none found]
  | some b =>
    rw [List.filterMap_cons_some found, distinctFrom, if_pos (List.contains_iff_mem.2 (h b found))]

/-- What follows an item is compared with the item's key among those that were seen. -/
theorem distinctFrom_filterMap_congr (h : ∀ more, seen ⊆ more → (∀ b, f a = some b → key b ∈ more) →
      distinctFrom key more (items.filterMap f) = distinctFrom key more (others.filterMap f)) :
    distinctFrom key seen ((a :: items).filterMap f) =
      distinctFrom key seen ((a :: others).filterMap f) := by
  by_cases old : ∀ b, f a = some b → key b ∈ seen
  · rw [distinctFrom_filterMap_of_seen old, distinctFrom_filterMap_of_seen old]
    exact h seen (List.Subset.refl _) old
  · push Not at old
    obtain ⟨b, found, new⟩ := old
    have own : ∀ c, f a = some c → key c ∈ key b :: seen := by
      intro c hc
      rw [Option.some.inj (hc.symm.trans found)]
      exact List.mem_cons_self
    rw [List.filterMap_cons_some found, List.filterMap_cons_some found, distinctFrom, distinctFrom,
      if_neg (mt List.contains_iff_mem.1 new), if_neg (mt List.contains_iff_mem.1 new),
      h (key b :: seen) (List.subset_cons_self _ _) own]

end Found

end Distinct

/-! ## The class and the rule of a token -/

section Token

variable (table : PropertyTable) (limits : InputLimits) (important : Bool)

/-- The class that a token is read as, if it is not refused. -/
def classOf (token : Json) : Option UtilityClass :=
  (UtilityClass.read table limits token).toOption

/-- The rule of the class that a token is read as, if neither is refused. -/
def ruleOf (token : Json) : Option StyleRule :=
  (classOf table limits token).bind fun c => (c.rule important).toOption

end Token

variable {table : PropertyTable} {limits : InputLimits} {important : Bool} {token : Json}

theorem toOption_eq_some_iff {ε α : Type} {result : Except ε α} {a : α} :
    result.toOption = some a ↔ result = .ok a := by
  cases result with
  | ok b => exact ⟨fun h => congrArg _ (Option.some.inj h), fun h => congrArg _ (Except.ok.inj h)⟩
  | error failure => exact ⟨nofun, nofun⟩

theorem classOf_eq_some_iff {c : UtilityClass} :
    classOf table limits token = some c ↔ UtilityClass.read table limits token = .ok c :=
  toOption_eq_some_iff

theorem ruleOf_eq_some_iff {rule : StyleRule} :
    ruleOf table limits important token = some rule ↔
      ∃ c, UtilityClass.read table limits token = .ok c ∧ c.rule important = .ok rule := by
  simp only [ruleOf, Option.bind_eq_some_iff, classOf_eq_some_iff, toOption_eq_some_iff]

theorem ruleOf_of_read {c : UtilityClass} (h : UtilityClass.read table limits token = .ok c) :
    ruleOf table limits important token = (c.rule important).toOption := by
  rw [ruleOf, classOf_eq_some_iff.2 h, Option.bind_some]

theorem class?_readResult (token : Json) :
    Batch.class? (readResult table limits token) = classOf table limits token := by
  rw [readResult, classOf]
  cases UtilityClass.read table limits token <;> rfl

theorem filterMap_class? (tokens : List Json) :
    (tokens.map (readResult table limits)).filterMap Batch.class? =
      tokens.filterMap (classOf table limits) := by
  rw [List.filterMap_map]
  exact congrArg (tokens.filterMap ·) (funext class?_readResult)

/-! ## Batches -/

/-- Texts that were seen may be dropped before they are read, since their names have been seen. -/
theorem distinctFrom_classes {texts names : List String}
    (seen : ∀ s ∈ texts, ∀ c, classOf table limits (.string s) = some c → c.name ∈ names)
    (tokens : List Json) :
    distinctFrom (·.name) names
        ((distinctTokensFrom texts tokens).filterMap (classOf table limits)) =
      distinctFrom (·.name) names (tokens.filterMap (classOf table limits)) := by
  induction tokens generalizing texts names with
  | nil => rfl
  | cons token tokens ih =>
    cases text : token.string? with
    | none =>
      rw [distinctTokensFrom_of_not_text text]
      exact distinctFrom_filterMap_congr fun more sub _ =>
        ih fun s hs c found => sub (seen s hs c found)
    | some s =>
      obtain rfl := Json.eq_string_of_string? text
      rw [distinctTokensFrom]
      by_cases old : s ∈ texts
      · rw [if_pos (List.contains_iff_mem.2 old), ih seen]
        exact (distinctFrom_filterMap_of_seen (seen s old)).symm
      · rw [if_neg (mt List.contains_iff_mem.1 old)]
        refine distinctFrom_filterMap_congr fun more sub own => ih fun t ht c found => ?_
        rcases List.mem_cons.1 ht with rfl | ht
        · exact own c found
        · exact sub (seen t ht c found)

/-- **The classes of a batch** are those of its tokens, each name once. -/
theorem parsed_plainBatch (tokens : List Json) (stop : Option Nat) :
    (plainBatch table limits tokens stop).parsed =
      distinctBy (·.name) ((heard tokens stop).filterMap (classOf table limits)) := by
  simp only [plainBatch, Batch.ofResults, filterMap_class?, distinctTokens, distinctBy]
  exact distinctFrom_classes (List.forall_mem_nil _) _

/-- A class is in a batch if a token is read as it. -/
theorem mem_parsed {tokens : List Json} {c : UtilityClass} :
    c ∈ (plainBatch table limits tokens none).parsed ↔
      ∃ token ∈ tokens, UtilityClass.read table limits token = .ok c := by
  have source : ∀ d, d ∈ tokens.filterMap (classOf table limits) ↔
      ∃ token ∈ tokens, UtilityClass.read table limits token = .ok d := by
    intro d
    simp only [List.mem_filterMap, classOf_eq_some_iff]
  rw [parsed_plainBatch, heard]
  constructor
  · intro h
    exact (source c).1 ((sublist_distinctFrom _ _ _).subset h)
  · intro h
    obtain ⟨d, mem, same⟩ := exists_mem_distinctFrom ((source c).2 h)
      (show c.name ∉ [] from List.not_mem_nil)
    obtain ⟨_, _, hc⟩ := h
    obtain ⟨_, _, hd⟩ := (source d).1 ((sublist_distinctFrom _ _ _).subset mem)
    rwa [← UtilityClass.eq_of_read_of_name_eq hd hc same]

theorem mem_distinctTokensFrom {texts : List String} {tokens : List Json} :
    token ∈ distinctTokensFrom texts tokens ↔
      token ∈ tokens ∧ ∀ s ∈ texts, token ≠ .string s := by
  induction tokens generalizing texts with
  | nil => simp only [distinctTokensFrom, List.not_mem_nil, false_and]
  | cons first tokens ih =>
    cases text : first.string? with
    | none =>
      have other : ∀ s, first ≠ .string s := by
        rintro s rfl
        cases text
      rw [distinctTokensFrom_of_not_text text, List.mem_cons, List.mem_cons, ih]
      constructor
      · rintro (rfl | ⟨mem, apart⟩)
        · exact ⟨.inl rfl, fun s _ => other s⟩
        · exact ⟨.inr mem, apart⟩
      · rintro ⟨rfl | mem, apart⟩
        · exact .inl rfl
        · exact .inr ⟨mem, apart⟩
    | some t =>
      obtain rfl := Json.eq_string_of_string? text
      rw [distinctTokensFrom, List.mem_cons]
      by_cases old : t ∈ texts
      · rw [if_pos (List.contains_iff_mem.2 old), ih]
        constructor
        · rintro ⟨mem, apart⟩
          exact ⟨.inr mem, apart⟩
        · rintro ⟨rfl | mem, apart⟩
          · exact absurd rfl (apart t old)
          · exact ⟨mem, apart⟩
      · rw [if_neg (mt List.contains_iff_mem.1 old), List.mem_cons, ih]
        by_cases same : token = .string t
        · subst same
          simp only [true_or, true_and, true_iff]
          rintro s hs equal
          exact old (Json.string.inj equal ▸ hs)
        · simp only [List.mem_cons, forall_eq_or_imp, same, not_false_eq_true, true_and, false_or,
            ne_eq]

theorem mem_distinctTokens {tokens : List Json} :
    token ∈ distinctTokens tokens ↔ token ∈ tokens := by
  simp only [distinctTokens, mem_distinctTokensFrom, List.not_mem_nil, false_implies, implies_true,
    and_true]

/-- A report is in a batch if a token is refused with it. -/
theorem mem_invalid {tokens : List Json} {report : InvalidClass} :
    report ∈ (plainBatch table limits tokens none).invalid ↔ ∃ token ∈ tokens, ∃ failure,
      UtilityClass.read table limits token = .error failure ∧ report = .ofToken token failure := by
  simp only [plainBatch, Batch.ofResults, heard, List.filterMap_map, List.mem_filterMap,
    Function.comp_apply, mem_distinctTokens]
  refine exists_congr fun token => and_congr_right fun _ => ?_
  rw [readResult]
  cases UtilityClass.read table limits token with
  | ok c => simp only [Batch.invalid?, reduceCtorEq, false_and, exists_false]
  | error failure =>
    simp only [Batch.invalid?, Option.some.injEq, Except.error.injEq, exists_eq_left', eq_comm]

/-! ## Sheets -/

/-- **The rules of a sheet** are those of its tokens, each name once. -/
theorem rules_plainCompile (options : SheetOptions) (tokens : List Json) (stop : Option Nat) :
    (plainCompile table limits options tokens stop).rules =
      distinctBy (·.className)
        ((heard tokens stop).filterMap (ruleOf table limits options.important)) := by
  have rules : (plainCompile table limits options tokens stop).rules =
      (distinctBy (·.name) ((heard tokens stop).filterMap (classOf table limits))).filterMap
        fun c => (c.rule options.important).toOption := by
    simp only [plainCompile, Compilation.ofRules, plainBuild_rules, parsed_plainBatch]
  have all : (heard tokens stop).filterMap (ruleOf table limits options.important) =
      ((heard tokens stop).filterMap (classOf table limits)).filterMap
        fun c => (c.rule options.important).toOption := by
    rw [List.filterMap_filterMap]
    rfl
  rw [rules, all, distinctBy, distinctBy]
  refine filterMap_distinctFrom ?_ ?_ ?_
  · exact fun c rule built => UtilityClass.className_of_rule (toOption_eq_some_iff.1 built)
  · intro c hc d hd same
    obtain ⟨_, _, hc⟩ := List.mem_filterMap.1 hc
    obtain ⟨_, _, hd⟩ := List.mem_filterMap.1 hd
    rw [UtilityClass.eq_of_read_of_name_eq (classOf_eq_some_iff.1 hc) (classOf_eq_some_iff.1 hd)
      same]
  · exact fun _ _ _ => Iff.rfl

theorem length_rules_le (options : SheetOptions) (tokens : List Json) :
    (plainCompile table limits options tokens none).rules.length ≤ tokens.length := by
  rw [rules_plainCompile]
  exact ((sublist_distinctFrom _ _ _).length_le).trans (List.length_filterMap_le _ _)

end BracketCss
