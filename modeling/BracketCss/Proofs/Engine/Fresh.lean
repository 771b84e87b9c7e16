import BracketCss.Proofs.Engine.Run

/-!
# New engines

A new engine compiles as the plain computation does, and this needs no assumption about digests. A
rule that it keeps while it compiles is found under a key that names the selector of its class, and
all rules of one compilation are equally important, so the class alone determines the rule.

## Main definitions

* `Engine.IsUniform`: the invariant of an engine while it builds the rules of one compilation

## Main results

* `Engine.generate_of_new`: the compilation of a new engine is the plain one
* `exists_class_of_mem_rules`: the rules of a compilation are rules of classes that were read
-/

namespace BracketCss

variable {table : PropertyTable} {limits : InputLimits}

namespace Engine

/-- Every rule that is kept belongs to a class that was read and has the given importance. -/
structure IsUniform (table : PropertyTable) (limits : InputLimits) (important : Bool)
    (e : Engine) : Prop where
  keys : e.cache.keys.Sound
  rule : e.cache.rule.All fun key rule => ∃ c, IsRead table limits c ∧
    key = CacheKey.rule (keySelector c) (Digest.short (declarationKey c important)) ∧
    c.rule important = .ok rule

variable {e : Engine} {important : Bool}

theorem IsUniform.build (h : e.IsUniform table limits important) {c : UtilityClass}
    (hc : IsRead table limits c) :
    (e.build c important).1.IsUniform table limits important ∧
      (e.build c important).2 = c.rule important := by
  have tier := h.rule.get e.cache.now (ruleKey c important)
  obtain ⟨keys, sound, ⟨rule, hit, made⟩ | ⟨-, ⟨rule, built, made⟩ | ⟨failure, built, made⟩⟩⟩ :=
    e.build_cases h.keys c important
  · rw [made]
    refine ⟨⟨sound, tier⟩, ?_⟩
    obtain ⟨d, ⟨token, hd⟩, same, built⟩ := h.rule.value_of_get hit
    obtain ⟨token', hc⟩ := hc
    obtain rfl := UtilityClass.eq_of_read_of_name_eq hc hd
      (keySelector_inj (CacheKey.rule_inj same).1)
    exact built.symm
  · rw [made, built]
    exact ⟨⟨sound, tier.set _ ⟨c, hc, rfl, built⟩⟩, rfl⟩
  · rw [made, built]
    exact ⟨⟨sound, tier⟩, rfl⟩

theorem IsUniform.buildEach (h : e.IsUniform table limits important)
    {classes : List UtilityClass} (read : ∀ c ∈ classes, IsRead table limits c) :
    (e.buildEach important classes).2 = plainBuild important classes := by
  induction classes generalizing e with
  | nil => rfl
  | cons c rest ih =>
    obtain ⟨first, others⟩ := List.forall_mem_cons.1 read
    obtain ⟨next, result⟩ := h.build first
    have results := ih next others
    rw [Engine.buildEach, plainBuild, ← results, ← result]
    rcases e.build c important with ⟨other, _ | rule⟩ <;> rfl

/-- An engine that is sound relative to no texts at all has kept no rule, and it compiles as
without caches. -/
theorem Sound.compile_of_no_texts (h : e.Sound table limits fun _ => False)
    (options : SheetOptions) (tokens : List Json) (stop : Option Nat) :
    (e.compile options tokens stop).2 = plainCompile table limits options tokens stop := by
  obtain ⟨next, batch⟩ := h.parseTokens_spec tokens stop
  have uniform : (e.parseTokens tokens stop).1.IsUniform table limits options.important :=
    ⟨next.keys, next.rule.imp fun _ _ ⟨_, _, _, text, _⟩ => text.elim⟩
  have read : ∀ c ∈ (plainBatch table limits tokens stop).parsed, IsRead table limits c :=
    fun c hc => isRead_of_mem_parsed hc
  have built := uniform.buildEach read
  simp only [Engine.compile, batch, plainCompile, ← built]

/-- Such an engine has kept no sheet either. -/
theorem Sound.generate_of_no_texts (h : e.Sound table limits fun _ => False)
    (options : SheetOptions) (tokens : List Json) (stop : Option Nat) :
    (e.generate options tokens stop).2 = plainCompile table limits options tokens stop := by
  obtain ⟨keys, right, ⟨sheet, hit, -⟩ | ⟨-, next, sheet, made, served⟩⟩ :=
    e.generate_cases h.keys options tokens stop
  · obtain ⟨_, _, text, _⟩ := h.generation.value_of_get hit
    exact text.elim
  · have compiled := (h.lookedUp right (sheetKey options tokens)).compile_of_no_texts options
      tokens stop
    rw [made] at compiled
    rw [served]
    exact compiled

/-- **A new engine compiles as without caches**, whatever the digests of its keys. -/
theorem generate_of_new {settings : CacheSettings} {isSweeping : Bool}
    (h : ofSettings limits settings table isSweeping = .ok e) (options : SheetOptions)
    (tokens : List Json) (stop : Option Nat) :
    (e.generate options tokens stop).2 = plainCompile table limits options tokens stop :=
  (sound_ofSettings h fun _ => False).1.generate_of_no_texts options tokens stop

end Engine

/-! ## The rules of a compilation -/

theorem plainBuild_rules (important : Bool) (classes : List UtilityClass) :
    (plainBuild important classes).1 =
      classes.filterMap fun c => (c.rule important).toOption := by
  induction classes with
  | nil => rfl
  | cons c rest ih =>
    rw [plainBuild]
    cases built : c.rule important with
    | ok rule => simp only [ih, built, List.filterMap_cons, Except.toOption]
    | error failure => simp only [ih, built, List.filterMap_cons, Except.toOption]

theorem css_plainCompile (options : SheetOptions) (tokens : List Json) (stop : Option Nat) :
    (plainCompile table limits options tokens stop).css =
      renderSheet options (plainCompile table limits options tokens stop).groups := rfl

/-- Every rule of a compilation is the rule of a class that a token is read as. -/
theorem exists_class_of_mem_rules {options : SheetOptions} {tokens : List Json} {stop : Option Nat}
    {rule : StyleRule} (h : rule ∈ (plainCompile table limits options tokens stop).rules) :
    ∃ c, IsRead table limits c ∧ c.rule options.important = .ok rule := by
  simp only [plainCompile, Compilation.ofRules, plainBuild_rules] at h
  obtain ⟨c, hc, built⟩ := List.mem_filterMap.1 h
  refine ⟨c, isRead_of_mem_parsed hc, ?_⟩
  cases result : c.rule options.important with
  | ok other =>
    rw [result] at built
    rw [Option.some.inj built]
  | error failure =>
    rw [result] at built
    cases built

end BracketCss
