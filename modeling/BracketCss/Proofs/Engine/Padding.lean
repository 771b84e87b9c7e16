import BracketCss.Proofs.Engine.Batch
import BracketCss.Proofs.Engine.Run

/-!
# Bad and repeated tokens

A token that is refused, at whatever stage, and a text that is another writing of a class named
before leave no trace in the sheet. A sheet depends on its rules only, and these depend on the rules
of the tokens, each name once.

## Main definitions

* `IsRejected table limits important token`: the token has no rule
* `Pads table limits important before tokens padded`: a list with tokens inserted that ought not to
  count
* `Compilation.SameOutput`: the sheet, its rules and its groups agree

## Main results

* `rules_of_pads`, `rules_of_names`: what such a list, and the names in a sheet, give
* `Engine.answer_unaffected`: new engines give the same sheet
-/

namespace BracketCss

/-- The sheet, its rules and its groups are the same. -/
structure Compilation.SameOutput (a b : Compilation) : Prop where
  css : a.css = b.css
  rules : a.rules = b.rules
  groups : a.groups = b.groups

section Pads

variable (table : PropertyTable) (limits : InputLimits) (important : Bool)

/-- A token is refused when it is read, or its class is when its rule is built. -/
def IsRejected (token : Json) : Prop :=
  ∀ c, UtilityClass.read table limits token = .ok c → ∃ failure, c.rule important = .error failure

/-- A list of tokens with others inserted that are refused, or that clean to the name of a class
named before. The tokens before the list are given too. -/
inductive Pads : (before tokens padded : List Json) → Prop
  | nil {before : List Json} : Pads before [] []
  /-- A token of both lists. -/
  | shared {before tokens padded : List Json} (token : Json) :
      Pads (token :: before) tokens padded → Pads before (token :: tokens) (token :: padded)
  /-- A token that is refused. -/
  | rejected {before tokens padded : List Json} {token : Json} :
      IsRejected table limits important token →
      Pads before tokens padded → Pads before tokens (token :: padded)
  /-- A text that cleans to a name that is present. -/
  | repeated {before tokens padded : List Json} {s : String} {earlier : Json} {c : UtilityClass} :
      earlier ∈ before → UtilityClass.read table limits earlier = .ok c →
      Clean.clean? limits.classLength s = some c.name →
      Pads before tokens padded → Pads before tokens (.string s :: padded)

end Pads

variable {table : PropertyTable} {limits : InputLimits} {important : Bool}

theorem ruleOf_of_rejected {token : Json} (h : IsRejected table limits important token) :
    ruleOf table limits important token = none := by
  cases found : ruleOf table limits important token with
  | none => rfl
  | some rule =>
    obtain ⟨c, read, built⟩ := ruleOf_eq_some_iff.1 found
    obtain ⟨failure, refused⟩ := h c read
    cases built.symm.trans refused

/-- A text that cleans to the name of a class is read as this class. -/
theorem UtilityClass.read_of_clean? {token : Json} {c : UtilityClass}
    (h : read table limits token = .ok c) {s : String}
    (cleaned : Clean.clean? limits.classLength s = some c.name) :
    read table limits (.string s) = .ok c := by
  obtain ⟨_, name, rfl, own, found⟩ := read_eq_ok h
  rw [name_of_ofClean found] at cleaned
  -- both texts clean to the name, so what the one is read as the other is
  rw [read, ofText, own] at h
  rw [read, ofText, cleaned]
  dsimp only at h ⊢
  split at h
  · cases h
  · next full => rw [if_neg full, found]

/-! ## The rules -/

/-- What is inserted adds no rule to those whose names have been seen. -/
theorem rules_of_pads {before tokens padded : List Json}
    (h : Pads table limits important before tokens padded) {seen : List String}
    (known : ∀ token ∈ before, ∀ rule, ruleOf table limits important token = some rule →
      rule.className ∈ seen) :
    distinctFrom (·.className) seen (padded.filterMap (ruleOf table limits important)) =
      distinctFrom (·.className) seen (tokens.filterMap (ruleOf table limits important)) := by
  induction h generalizing seen with
  | nil => rfl
  | shared token _ ih =>
    refine distinctFrom_filterMap_congr fun more sub own => ih fun other mem rule built => ?_
    rcases List.mem_cons.1 mem with rfl | mem
    · exact own rule built
    · exact sub (known other mem rule built)
  | rejected refused _ ih =>
    rw [List.filterMap_cons_none (ruleOf_of_rejected refused), ih known]
  | @repeated _ _ _ s earlier c mem read cleaned _ ih =>
    have same : ruleOf table limits important (.string s) =
        ruleOf table limits important earlier := by
      rw [ruleOf_of_read (UtilityClass.read_of_clean? read cleaned), ruleOf_of_read read]
    rw [distinctFrom_filterMap_of_seen fun rule built => known earlier mem rule (same ▸ built),
      ih known]

/-- The name of a rule is a token with this rule. -/
theorem ruleOf_className {token : Json} {rule : StyleRule}
    (h : ruleOf table limits important token = some rule) :
    ruleOf table limits important (.string rule.className) = some rule := by
  obtain ⟨c, read, built⟩ := ruleOf_eq_some_iff.1 h
  rw [UtilityClass.className_of_rule built]
  exact ruleOf_eq_some_iff.2 ⟨c, UtilityClass.read_name read, built⟩

/-- **The names in a sheet give its rules again.** -/
theorem rules_of_names (options : SheetOptions) (tokens : List Json) :
    (plainCompile table limits options
        (((plainCompile table limits options tokens none).rules.map (·.className)).map .string)
        none).rules =
      (plainCompile table limits options tokens none).rules := by
  have own : ∀ rule ∈ (plainCompile table limits options tokens none).rules,
      ruleOf table limits options.important (.string rule.className) = some rule := by
    intro rule mem
    rw [rules_plainCompile] at mem
    obtain ⟨token, -, found⟩ := List.mem_filterMap.1 ((sublist_distinctFrom _ _ _).subset mem)
    exact ruleOf_className found
  have again : (((plainCompile table limits options tokens none).rules.map (·.className)).map
      Json.string).filterMap (ruleOf table limits options.important) =
        (plainCompile table limits options tokens none).rules := by
    rw [List.map_map, List.filterMap_map]
    exact (List.filterMap_congr own).trans List.filterMap_some
  rw [rules_plainCompile, heard, again, rules_plainCompile]
  exact distinctFrom_distinctFrom _ _ _

/-- A sheet and its groups depend on the rules only. -/
theorem sameOutput_of_rules {options : SheetOptions} {tokens others : List Json}
    (h : (plainCompile table limits options tokens none).rules =
      (plainCompile table limits options others none).rules) :
    (plainCompile table limits options tokens none).SameOutput
      (plainCompile table limits options others none) := by
  have groups : (plainCompile table limits options tokens none).groups =
      (plainCompile table limits options others none).groups := by
    have own : ∀ given, (plainCompile table limits options given none).groups =
        if options.group then groupRules (plainCompile table limits options given none).rules
        else singleGroups (plainCompile table limits options given none).rules := fun _ => rfl
    rw [own, own, h]
  exact ⟨by rw [css_plainCompile, css_plainCompile, groups], h, groups⟩

/-! ## New engines -/

namespace Engine

variable {settings others : CacheSettings} {isSweeping sweeps : Bool} {first second : Engine}

/-- A new engine answers a list within the limit as without caches. -/
theorem answer_of_new {e : Engine} (h : ofSettings limits settings table isSweeping = .ok e)
    {options : Json} {settled : SheetOptions} (hoptions : SheetOptions.ofJson options = .ok settled)
    {tokens : List Json} (within : (tokens.length : Int) ≤ limits.requestSize) :
    (e.answer (.array tokens) options none).2 =
      .ok (plainCompile table limits settled tokens none) := by
  have limit := (sound_ofSettings h fun _ => False).1.limits_eq
  have given : e.tokens (.array tokens) = .ok tokens := by
    rw [tokens_items, limit, if_neg (Int.not_lt.2 within)]
  rw [answer_of_ok hoptions given, generate_of_new h]

/-- **Bad and repeated tokens never influence the output.** A list of tokens within the limit and
the list of the names in its sheet give the same sheet, rules and groups on new engines, and so does
every list within the limit that has refused tokens inserted anywhere, and other writings of a class
anywhere behind it. -/
theorem answer_unaffected (hfirst : ofSettings limits settings table isSweeping = .ok first)
    (hsecond : ofSettings limits others table sweeps = .ok second) {options : Json}
    {settled : SheetOptions} (hoptions : SheetOptions.ofJson options = .ok settled)
    {tokens : List Json} (within : (tokens.length : Int) ≤ limits.requestSize) :
    ∃ sheet, (first.answer (.array tokens) options none).2 = .ok sheet ∧
      (∃ again, (second.answer (.strings (sheet.rules.map (·.className))) options none).2 =
        .ok again ∧ again.SameOutput sheet) ∧
      ∀ padded : List Json, (padded.length : Int) ≤ limits.requestSize →
        Pads table limits settled.important [] tokens padded →
        ∃ wider, (second.answer (.array padded) options none).2 = .ok wider ∧
          wider.SameOutput sheet := by
  refine ⟨_, answer_of_new hfirst hoptions within,
    ⟨_, ?_, sameOutput_of_rules (rules_of_names settled tokens)⟩, fun padded fits pads =>
      ⟨_, answer_of_new hsecond hoptions fits, sameOutput_of_rules ?_⟩⟩
  · refine answer_of_new hsecond hoptions ?_
    have fewer := @length_rules_le table limits settled tokens
    rw [List.length_map, List.length_map]
    omega
  · rw [rules_plainCompile, rules_plainCompile]
    exact rules_of_pads pads (List.forall_mem_nil _)

section Example

/-- A value that is no text, another writing of the class behind it, a text that is no class, and a
class whose value would end its rule. -/
def paddedOne : List Json :=
  [.null, .string "p-[1px]", .string " p-[1px] ", .string "nope", .string "content-[\";\"]"]

theorem pads_paddedOne : Pads .standard .standard false [] [.string "p-[1px]"] paddedOne := by
  have refused : ∀ token ∈ [Json.null, .string "nope", .string "content-[\";\"]"],
      ruleOf .standard .standard false token = none := by
    decide +kernel
  have rejected : ∀ token ∈ [Json.null, .string "nope", .string "content-[\";\"]"],
      IsRejected .standard .standard false token := by
    intro token mem c read
    cases built : c.rule false with
    | error failure => exact ⟨failure, rfl⟩
    | ok rule =>
      cases (refused token mem).symm.trans (ruleOf_eq_some_iff.2 ⟨c, read, built⟩)
  obtain ⟨c, read, named⟩ := isOwnName_twoNames "p-[1px]" (by decide)
  have cleaned : Clean.clean? InputLimits.standard.classLength " p-[1px] " = some c.name := by
    rw [named]
    decide +kernel
  exact .rejected (rejected _ (by simp)) (.shared _ (.repeated List.mem_cons_self read cleaned
    (.rejected (rejected _ (by simp)) (.rejected (rejected _ (by simp)) .nil))))

/-- Four tokens are inserted around a class. -/
theorem answer_unaffected_paddedOne : ∃ first sheet wider,
    ofSettings .standard .standard .standard true = .ok first ∧
      (first.answer (.array [.string "p-[1px]"]) .null none).2 = .ok sheet ∧
      (first.answer (.array paddedOne) .null none).2 = .ok wider ∧ wider.SameOutput sheet := by
  obtain ⟨first, made⟩ : ∃ first, ofSettings .standard .standard .standard true = .ok first :=
    ⟨_, rfl⟩
  have defaults : SheetOptions.ofJson .null = .ok SheetOptions.default := rfl
  have within : ([Json.string "p-[1px]"].length : Int) ≤ InputLimits.standard.requestSize := by
    decide
  obtain ⟨sheet, answered, -, unaffected⟩ := answer_unaffected made made defaults within
  obtain ⟨wider, also, same⟩ := unaffected paddedOne (by decide) pads_paddedOne
  exact ⟨first, sheet, wider, made, answered, also, same⟩

end Example

end Engine

end BracketCss
