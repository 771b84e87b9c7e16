import BracketCss.Proofs.Engine.Batch
import BracketCss.Proofs.Engine.Trace
import BracketCss.Proofs.Value.Contained

/-!
# Checking against compiling

Checking a batch reads its tokens and builds no rules, while compiling builds the rules of the same
classes. A class that was read has a rule unless its property has no name, or its value holds a
brace or a semicolon and would end the rule. Apart from such classes the two agree, whatever the
caches of an engine hold.

## Main definitions

* `UtilityClass.IsDeclarable`: the property has a name, and the value does not end its rule
* `Engine.IsSheetOf`: the rules and reports of a list of tokens in some order

## Main results

* `Engine.check_agrees`: what a check lists and what has a rule
* `Engine.exists_listed_without_rule`: a class that is listed and has no rule
-/

namespace BracketCss

variable {table : PropertyTable} {limits : InputLimits} {important : Bool}

namespace UtilityClass

/-- The property has a name, and the value would not end its rule. -/
def IsDeclarable (c : UtilityClass) : Prop := c.property ≠ "" ∧ breaksOut c.value = false

instance (c : UtilityClass) : Decidable c.IsDeclarable :=
  inferInstanceAs (Decidable (_ ∧ _))

/-- A class that was read has a rule exactly if it is declarable, and otherwise it is refused as
one for which none can be made. -/
theorem rule_cases {token : Json} {c : UtilityClass} (h : read table limits token = .ok c)
    (important : Bool) :
    (c.IsDeclarable ∧ ∃ rule, c.rule important = .ok rule) ∨
      (¬ c.IsDeclarable ∧
        ∃ failure, c.rule important = .error failure ∧ failure.code = .generationFailed) := by
  have some_ : c.value.isEmpty = false := by
    rw [Bool.eq_false_iff]
    intro none_
    exact (isBare_value_of_read h).nonempty (by simpa using none_)
  by_cases named : c.property = ""
  · refine .inr ⟨fun declarable => declarable.1 named, ?_⟩
    simp only [rule, StyleRule.make, named]
    exact ⟨_, rfl, rfl⟩
  · have full : ¬ (c.property.isEmpty ∨ c.value.isEmpty) := by
      simp [some_, named]
    cases broken : breaksOut c.value with
    | true =>
      refine .inr ⟨fun declarable => by simp [declarable.2] at broken, ?_⟩
      simp only [rule, StyleRule.make, if_neg full, broken]
      exact ⟨_, rfl, rfl⟩
    | false =>
      refine .inl ⟨⟨named, broken⟩, ?_⟩
      simp only [rule, StyleRule.make, if_neg full, broken]
      exact ⟨_, rfl⟩

/-- A value that would end its rule has a parenthesis, a syntax of its own, or no rule at all. -/
theorem not_isDeclarable (clean : table.HasCleanKeywords) {token : Json} {c : UtilityClass}
    (h : read table limits token = .ok c) (broken : ¬ c.IsDeclarable) :
    c.property = "" ∨ '(' ∈ c.value.toList ∨ table.rule? c.property = none ∨
      ∃ rule, table.rule? c.property = some rule ∧ rule.kind = .complex := by
  obtain ⟨_, _, -, -, h⟩ := read_eq_ok h
  obtain ⟨-, _, _, _, _, -, -, h⟩ := ofClean_eq_ok h
  obtain ⟨_, _, _, _, _, -, -, accepted, rfl⟩ := ofParts_eq_ok h
  rw [IsDeclarable, not_and_or, not_not] at broken
  refine broken.imp_right fun broken => ?_
  rcases isContained_of_validateValue clean accepted with (opened | plain) | other
  · exact .inl opened
  · exact absurd (breaksOut_eq_false_iff.2 plain) broken
  · exact .inr other

end UtilityClass

/-! ## Rules and reports -/

theorem mem_refused {classes : List UtilityClass} {report : InvalidClass} :
    report ∈ (plainBuild important classes).2 ↔
      ∃ c ∈ classes, ∃ failure, c.rule important = .error failure ∧
        report = .ofClass c.name failure := by
  induction classes with
  | nil => simp only [plainBuild, List.not_mem_nil, false_and, exists_false]
  | cons c rest ih =>
    rw [plainBuild]
    cases built : c.rule important with
    | ok rule =>
      simp only [ih, List.mem_cons, exists_eq_or_imp, built, reduceCtorEq, false_and, exists_false,
        false_or]
    | error failure =>
      simp only [List.mem_cons, ih, exists_eq_or_imp, built, Except.error.injEq, exists_eq_left']

theorem mem_rules_plainCompile {options : SheetOptions} {tokens : List Json} {rule : StyleRule} :
    rule ∈ (plainCompile table limits options tokens none).rules ↔
      ∃ c ∈ (plainBatch table limits tokens none).parsed,
        c.rule options.important = .ok rule := by
  simp only [plainCompile, Compilation.ofRules, plainBuild_rules, List.mem_filterMap,
    toOption_eq_some_iff]

/-- The reports of a sheet are those of the batch and those on its classes without a rule. -/
theorem invalid_plainCompile (options : SheetOptions) (tokens : List Json) :
    (plainCompile table limits options tokens none).invalid =
      (plainBatch table limits tokens none).invalid ++
        (plainBuild options.important (plainBatch table limits tokens none).parsed).2 := rfl

namespace Engine

/-- A sheet has the rules and the reports of a list of tokens in some order. -/
def IsSheetOf (table : PropertyTable) (limits : InputLimits) (options : SheetOptions)
    (tokens : List Json) (sheet : Compilation) : Prop :=
  ∃ order : List Json, order.Perm tokens ∧
    sheet.rules = (plainCompile table limits options order none).rules ∧
    sheet.invalid = (plainCompile table limits options order none).invalid

section Sheet

variable {options : SheetOptions} {tokens : List Json} {sheet : Compilation}

theorem mem_parsed_of_perm {order : List Json} (perm : order.Perm tokens) {c : UtilityClass} :
    c ∈ (plainBatch table limits order none).parsed ↔
      c ∈ (plainBatch table limits tokens none).parsed := by
  simp only [mem_parsed, perm.mem_iff]

/-- The names with a rule are those of the declarable classes. -/
theorem IsSheetOf.exists_rule (h : IsSheetOf table limits options tokens sheet) (name : String) :
    (∃ rule ∈ sheet.rules, rule.className = name) ↔
      ∃ c ∈ (plainBatch table limits tokens none).parsed, c.name = name ∧ c.IsDeclarable := by
  obtain ⟨order, perm, rules, -⟩ := h
  simp only [rules, mem_rules_plainCompile, mem_parsed_of_perm perm]
  constructor
  · rintro ⟨rule, ⟨c, mem, built⟩, rfl⟩
    refine ⟨c, mem, (UtilityClass.className_of_rule built).symm, ?_⟩
    exact ⟨(UtilityClass.rule_eq_ok built).1, (UtilityClass.rule_eq_ok built).2.2.1⟩
  · rintro ⟨c, mem, rfl, declarable⟩
    obtain ⟨token, read⟩ := isRead_of_mem_parsed mem
    rcases UtilityClass.rule_cases read options.important with ⟨-, rule, built⟩ | ⟨other, -⟩
    · exact ⟨rule, ⟨c, mem, built⟩, UtilityClass.className_of_rule built⟩
    · exact absurd declarable other

/-- The other classes are reported. -/
theorem IsSheetOf.exists_report (h : IsSheetOf table limits options tokens sheet) {c : UtilityClass}
    (mem : c ∈ (plainBatch table limits tokens none).parsed) (other : ¬ c.IsDeclarable) :
    ∃ report ∈ sheet.invalid,
      report.className = c.name ∧ report.code = .generationFailed := by
  obtain ⟨order, perm, -, invalid⟩ := h
  obtain ⟨token, read⟩ := isRead_of_mem_parsed mem
  rcases UtilityClass.rule_cases read options.important with ⟨same, -⟩ | ⟨-, failure, refused, code⟩
  · exact absurd same other
  · refine ⟨.ofClass c.name failure, ?_, rfl, code⟩
    rw [invalid, invalid_plainCompile]
    refine List.mem_append_right _ (mem_refused.2 ⟨c, ?_, failure, refused, rfl⟩)
    exact (mem_parsed_of_perm perm).2 mem

/-- Nothing is reported exactly if every token is read and every class is declarable. -/
theorem IsSheetOf.invalid_eq_nil (h : IsSheetOf table limits options tokens sheet) :
    sheet.invalid = [] ↔ (plainBatch table limits tokens none).invalid = [] ∧
      ∀ c ∈ (plainBatch table limits tokens none).parsed, c.IsDeclarable := by
  obtain ⟨order, perm, -, invalid⟩ := id h
  have sameReports : ∀ report, report ∈ (plainBatch table limits order none).invalid ↔
      report ∈ (plainBatch table limits tokens none).invalid := by
    simp only [mem_invalid, perm.mem_iff, implies_true]
  constructor
  · intro none_
    refine ⟨List.eq_nil_iff_forall_not_mem.2 fun report mem => ?_, fun c mem => ?_⟩
    · rw [invalid, invalid_plainCompile] at none_
      have early := (List.append_eq_nil_iff.1 none_).1
      exact List.not_mem_nil (early ▸ (sameReports report).2 mem)
    · by_contra other
      obtain ⟨report, mem, -⟩ := h.exists_report mem other
      exact List.not_mem_nil (none_ ▸ mem)
  · rintro ⟨accepted, declarable⟩
    rw [invalid, invalid_plainCompile, List.append_eq_nil_iff]
    constructor
    · refine List.eq_nil_iff_forall_not_mem.2 fun report mem => ?_
      exact List.not_mem_nil (accepted ▸ (sameReports report).1 mem)
    · refine List.eq_nil_iff_forall_not_mem.2 fun report mem => ?_
      obtain ⟨c, hc, failure, refused, -⟩ := mem_refused.1 mem
      obtain ⟨token, read⟩ := isRead_of_mem_parsed hc
      rcases UtilityClass.rule_cases read options.important with ⟨-, rule, built⟩ | ⟨other, -⟩
      · cases built.symm.trans refused
      · exact other (declarable c ((mem_parsed_of_perm perm).1 hc))

end Sheet

/-! ## Engines in use -/

variable {settings others : CacheSettings} {isSweeping sweeps : Bool} {first checker : Engine}

/-- An engine in use reads a batch as without caches. -/
theorem parseMany_of_run (h : ofSettings limits settings table isSweeping = .ok checker)
    (events : List EngineEvent) {classes : Json} {tokens : List Json}
    (htokens : checker.tokens classes = .ok tokens) :
    ((checker.run events).parseMany classes none).2 =
      .ok (plainBatch table limits tokens none) := by
  have reading := isReading_run h events
  have same := tokens_of_limits
    (reading.limits_eq.trans (sound_ofSettings h fun _ => False).1.limits_eq.symm) classes
  simp only [parseMany, same, htokens, (reading.parseTokens tokens none).2]

/-- A check of the whole batch finds no refused token. -/
theorem areValid_of_run (h : ofSettings limits settings table isSweeping = .ok checker)
    (events : List EngineEvent) {classes : Json} {tokens : List Json}
    (htokens : checker.tokens classes = .ok tokens) :
    ((checker.run events).areValid classes).2 =
      (plainBatch table limits tokens none).invalid.isEmpty := by
  have batch := parseMany_of_run h events htokens
  rw [areValid]
  generalize (checker.run events).parseMany classes none = answer at batch
  obtain ⟨next, result⟩ := answer
  obtain rfl : result = _ := batch
  rfl

/-- An engine in use answers with the sheet of the tokens in some order, unless it was used before
and two digested texts collide. -/
theorem exists_answer_of_run (h : ofSettings limits settings table isSweeping = .ok first)
    {events : List EngineEvent} (own : ∀ event ∈ events, event.IsOwn first) {classes options : Json}
    (noCollision : events = [] ∨
      NoCollision (digestedBy first (events ++ [.generate classes options none])))
    {settled : SheetOptions} (hoptions : SheetOptions.ofJson options = .ok settled)
    {tokens : List Json} (htokens : first.tokens classes = .ok tokens) :
    ∃ sheet, ((first.run events).answer classes options none).2 = .ok sheet ∧
      IsSheetOf table limits settled tokens sheet := by
  rcases noCollision with rfl | noCollision
  · refine ⟨plainCompile table limits settled tokens none, ?_, tokens, List.Perm.refl _, rfl, rfl⟩
    rw [show first.run [] = first from rfl, answer_of_ok hoptions htokens, generate_of_new h]
  · obtain ⟨start, _⟩ := sound_ofSettings h
      (digestedBy first (events ++ [.generate classes options none]))
    have used := start.run noCollision own fun event mem s hs =>
      ⟨event, List.mem_append_left _ mem, hs⟩
    have htable := used.table_eq.trans start.table_eq.symm
    have hlimits := used.limits_eq.trans start.limits_eq.symm
    have usedTokens : (first.run events).tokens classes = .ok tokens := by
      rw [tokens_of_limits hlimits, htokens]
    obtain ⟨tokensDigested, optionsDigested, digested⟩ :=
      used.digested_generate none hoptions usedTokens fun s hs =>
        ⟨.generate classes options none, by simp, by rwa [digested_congr htable hlimits] at hs⟩
    rw [answer_of_ok hoptions usedTokens]
    refine ⟨_, rfl, ?_⟩
    rcases (used.generate_spec noCollision tokensDigested optionsDigested digested).2 with
      plain | ⟨-, order, perm, -, -, kept⟩
    · rw [plain]
      exact ⟨tokens, List.Perm.refl _, rfl, rfl⟩
    · rw [kept]
      exact ⟨order, perm, rfl, rfl⟩

/-- **Checking agrees with compiling** up to the values that would end their rule. Of the classes
that a check lists exactly the declarable ones have a rule in the sheet; the others are reported as
failures of the compilation. Nothing is reported exactly if the check finds all tokens valid and
lists declarable classes only. If the keywords of the table hold no braces and semicolons, a class
that is not declarable has a call in its value, a property with a syntax of its own or without a
rule, or a property without a name. -/
theorem check_agrees (hchecker : ofSettings limits others table sweeps = .ok checker)
    (hfirst : ofSettings limits settings table isSweeping = .ok first)
    (earlier : List EngineEvent) {events : List EngineEvent}
    (own : ∀ event ∈ events, event.IsOwn first) {classes options : Json}
    (noCollision : events = [] ∨
      NoCollision (digestedBy first (events ++ [.generate classes options none])))
    {settled : SheetOptions} (hoptions : SheetOptions.ofJson options = .ok settled)
    {tokens : List Json} (htokens : first.tokens classes = .ok tokens) :
    ∃ batch sheet, ((checker.run earlier).parseMany classes none).2 = .ok batch ∧
      ((first.run events).answer classes options none).2 = .ok sheet ∧
      (∀ name, (∃ rule ∈ sheet.rules, rule.className = name) ↔
        ∃ c ∈ batch.parsed, c.name = name ∧ c.IsDeclarable) ∧
      (∀ c ∈ batch.parsed, ¬ c.IsDeclarable → ∃ report ∈ sheet.invalid,
        report.className = c.name ∧ report.code = .generationFailed) ∧
      (sheet.invalid = [] ↔ ((checker.run earlier).areValid classes).2 = true ∧
        ∀ c ∈ batch.parsed, c.IsDeclarable) ∧
      (table.HasCleanKeywords → ∀ c ∈ batch.parsed, ¬ c.IsDeclarable →
        c.property = "" ∨ '(' ∈ c.value.toList ∨ table.rule? c.property = none ∨
          ∃ rule, table.rule? c.property = some rule ∧ rule.kind = .complex) := by
  have limit := (sound_ofSettings hchecker fun _ => False).1.limits_eq.trans
    (sound_ofSettings hfirst fun _ => False).1.limits_eq.symm
  have given := (tokens_of_limits limit classes).trans htokens
  obtain ⟨sheet, answered, made⟩ := exists_answer_of_run hfirst own noCollision hoptions htokens
  refine ⟨_, sheet, parseMany_of_run hchecker earlier given, answered, made.exists_rule,
    fun c mem => made.exists_report mem, ?_, fun clean c mem other => ?_⟩
  · rw [areValid_of_run hchecker earlier given, List.isEmpty_iff, made.invalid_eq_nil]
  · obtain ⟨token, read⟩ := isRead_of_mem_parsed mem
    exact UtilityClass.not_isDeclarable clean read other

section Example

/-- A class with a semicolon in a quoted text. -/
def semicolonName : String := "content-[\"a;b\"]"

/-- A class is listed by the check, and it has no rule. -/
theorem exists_listed_without_rule : ∃ first batch sheet,
    ofSettings .standard .standard .standard true = .ok first ∧
      (first.parseMany (.array [.string semicolonName]) none).2 = .ok batch ∧
      batch.valid = [semicolonName] ∧
      (first.areValid (.array [.string semicolonName])).2 = true ∧
      (first.answer (.array [.string semicolonName]) .null none).2 = .ok sheet ∧
      sheet.rules = [] ∧ sheet.invalid ≠ [] := by
  obtain ⟨first, made⟩ : ∃ first, ofSettings .standard .standard .standard true = .ok first :=
    ⟨_, rfl⟩
  have defaults : SheetOptions.ofJson .null = .ok SheetOptions.default := rfl
  have limit := (sound_ofSettings made fun _ => False).1.limits_eq
  have given : first.tokens (.array [.string semicolonName]) = .ok [.string semicolonName] := by
    rw [tokens_items, limit]
    rfl
  have answered : (first.answer (.array [.string semicolonName]) .null none).2 =
      .ok (plainCompile .standard .standard .default [.string semicolonName] none) := by
    rw [answer_of_ok rfl given, generate_of_new made]
  refine ⟨first, _, _, made, parseMany_of_run made [] given, ?_, ?_, answered, ?_, ?_⟩
  · decide +kernel
  · rw [show first = first.run [] from rfl, areValid_of_run made [] given]
    decide +kernel
  · decide +kernel
  · decide +kernel

/-- A class with a rule beside one without. -/
theorem check_agrees_semicolonName : ∃ first batch sheet,
    ofSettings .standard .standard .standard true = .ok first ∧
      (first.parseMany (.array [.string semicolonName, .string "p-[1px]"]) none).2 = .ok batch ∧
      (first.answer (.array [.string semicolonName, .string "p-[1px]"]) .null none).2 = .ok sheet ∧
      (∃ rule ∈ sheet.rules, rule.className = "p-[1px]") ∧
      ∃ report ∈ sheet.invalid,
        report.className = semicolonName ∧ report.code = .generationFailed := by
  obtain ⟨first, made⟩ : ∃ first, ofSettings .standard .standard .standard true = .ok first :=
    ⟨_, rfl⟩
  have defaults : SheetOptions.ofJson .null = .ok SheetOptions.default := rfl
  have limit := (sound_ofSettings made fun _ => False).1.limits_eq
  have given : first.tokens (.array [.string semicolonName, .string "p-[1px]"]) =
      .ok [.string semicolonName, .string "p-[1px]"] := by
    rw [tokens_items, limit]
    rfl
  obtain ⟨batch, sheet, checked, answered, rules, reports, -, -⟩ :=
    check_agrees made made [] (List.forall_mem_nil _) (.inl rfl) defaults given
  have same : batch =
      plainBatch .standard .standard [.string semicolonName, .string "p-[1px]"] none :=
    Except.ok.inj (checked.symm.trans (parseMany_of_run made [] given))
  have classes : ∀ name ∈ [semicolonName, "p-[1px]"],
      ∃ c ∈ batch.parsed, c.name = name ∧ (c.IsDeclarable ↔ name = "p-[1px]") := by
    rw [same]
    decide +kernel
  refine ⟨first, batch, sheet, made, checked, answered, (rules _).2 ?_, ?_⟩
  · obtain ⟨c, mem, name, declarable⟩ := classes "p-[1px]" (by simp)
    exact ⟨c, mem, name, declarable.2 rfl⟩
  · obtain ⟨c, mem, name, declarable⟩ := classes semicolonName (by simp)
    rw [← name]
    exact reports c mem fun other => absurd (declarable.1 other) (by decide)

end Example

end Engine

end BracketCss
