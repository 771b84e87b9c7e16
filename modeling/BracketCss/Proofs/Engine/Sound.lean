import BracketCss.Proofs.Class.Selector
import BracketCss.Proofs.Engine.Reading
import Mathlib.Data.List.Nodup

/-!
# Sound engines

The invariant of an engine in use. Relative to a set of texts without colliding digests, every
entry of its caches is what the computation without caches gives for its key. Each operation keeps
the invariant and answers as the plain computation does; only a sheet that was kept may have been
made from the same tokens in another order.

## Main definitions

* `NoCollision texts`: no two texts of a set have the same digest
* `Engine.ruleKey c important`: the key under which the rule of a class is kept
* `Engine.Sound table limits texts e`: the invariant

## Main results

* `keySelector_inj`, `declarationKey_inj`: what is kept of a rule determines its class
* `Engine.build_cases`: a rule is kept already, or it is built
* `Sound.parse_spec`, `Sound.build_spec`, `Sound.parseTokens_spec`, `Sound.compile_spec`: the
  operations answer as without caches
* `Sound.generate_spec`: a compilation is plain, or the plain one of the same tokens in some order
-/

namespace BracketCss

/-- No two texts of a set have the same digest. -/
def NoCollision (texts : String → Prop) : Prop :=
  ∀ s t, texts s → texts t → Digest.short s = Digest.short t → s = t

theorem NoCollision.mono {texts others : String → Prop} (h : NoCollision others)
    (sub : ∀ s, texts s → others s) : NoCollision texts :=
  fun s t hs ht => h s t (sub s hs) (sub t ht)

/-- Texts do not collide if their digests are told apart. -/
theorem noCollision_of_nodup {texts : List String} (h : (texts.map Digest.short).Nodup) :
    NoCollision (· ∈ texts) :=
  fun _ _ hs ht same => List.inj_on_of_nodup_map h hs ht same

namespace Engine

section Keys

/-- The text of the declaration under which the rule of a class is kept. -/
def declarationKey (c : UtilityClass) (important : Bool) : String :=
  (Json.object [(c.property, .string (declaredValue important c.value))]).canonical

theorem isAtom_declaration (name value : String) :
    ∀ entry ∈ [(name, Json.string value)], entry.2.IsAtom := by
  intro entry mem
  rw [List.mem_singleton.1 mem]
  trivial

theorem isPrinted_declarationKey (c : UtilityClass) (important : Bool) :
    Json.IsPrinted (declarationKey c important).toList :=
  Json.isPrinted_canonical_object (isAtom_declaration _ _)

theorem declaredValue_inj {value : String} {important other : Bool}
    (h : declaredValue important value = declaredValue other value) : important = other := by
  have length := congrArg (fun s => s.toList.length) h
  cases important <;> cases other <;> simp [declaredValue] at length ⊢

/-- The text of a declaration tells the property and the value as declared. -/
theorem declaration_of_key_eq {c d : UtilityClass} {important other : Bool}
    (h : declarationKey c important = declarationKey d other) :
    c.property = d.property ∧ declaredValue important c.value = declaredValue other d.value := by
  have mem := Json.mem_fields_of_canonical_eq (isAtom_declaration _ _) (isAtom_declaration _ _) h
    (List.mem_cons_self (a := (c.property, Json.string (declaredValue important c.value))))
  simpa only [List.mem_singleton, Prod.mk.injEq, Json.string.injEq] using mem

/-- The text of a declaration tells whether it is important. -/
theorem declarationKey_inj {c : UtilityClass} {important other : Bool}
    (h : declarationKey c important = declarationKey c other) : important = other :=
  declaredValue_inj (declaration_of_key_eq h).2

theorem declarationKey_eq (c : UtilityClass) (important : Bool) :
    declarationKey c important =
      Json.objectText [(c.property, Json.stringText (declaredValue important c.value))] := by
  simp [declarationKey, Json.canonical, Json.printWith, Json.printFields, Json.sortFields]

theorem query_append_inj {a b : Breakpoint} {rest tail : List Char}
    (h : a.query.toList ++ rest = b.query.toList ++ tail) : a = b := by
  have closed : ∀ x ∈ Breakpoint.all, ∃ front, x.query.toList = front ++ [')'] ∧ ')' ∉ front := by
    intro x _
    exact ⟨x.query.toList.dropLast, by cases x <;> decide +kernel, by cases x <;> decide +kernel⟩
  have table : ∀ x ∈ Breakpoint.all, ∀ y ∈ Breakpoint.all,
      x.query.toList = y.query.toList → x = y := by
    decide +kernel
  obtain ⟨front, ha, hfront⟩ := closed a a.mem_all
  obtain ⟨other, hb, hother⟩ := closed b b.mem_all
  refine table a a.mem_all b b.mem_all ?_
  rw [ha, hb, List.append_assoc, List.append_assoc] at h
  rw [ha, hb, (Text.append_cons_inj hfront hother h).1]

theorem toList_query_head (b : Breakpoint) : b.query.toList.head? = some '@' := by
  cases b <;> decide +kernel

/-- The selector under which a rule is kept tells the selector of its class and the breakpoint. -/
theorem fullSelector_of_keySelector_eq {c d : UtilityClass} (h : keySelector c = keySelector d) :
    c.fullSelector = d.fullSelector ∧ c.variants.breakpoint = d.variants.breakpoint := by
  -- a selector starts with a dot and a query with an at-sign: they cannot be confused
  have plain : ∀ c : UtilityClass, c.fullSelector.toList.head? = some '.' := by
    intro c
    simp [UtilityClass.fullSelector, UtilityClass.selector, Selector.ofClass, Variants.applyTo]
  have front : ∀ (b : Breakpoint) (c : UtilityClass),
      (b.query ++ " " ++ c.fullSelector).toList.head? = some '@' := by
    intro b c
    simp [toList_query_head]
  simp only [keySelector, Variants.media] at h
  cases hc : c.variants.breakpoint with
  | none =>
    cases hd : d.variants.breakpoint with
    | none => exact ⟨by simpa only [hc, hd, Option.map_none] using h, rfl⟩
    | some b =>
      simp only [hc, hd, Option.map_none, Option.map_some] at h
      have heads := plain c
      rw [h, front b d] at heads
      exact absurd heads (by decide)
  | some a =>
    cases hd : d.variants.breakpoint with
    | none =>
      simp only [hc, hd, Option.map_none, Option.map_some] at h
      have heads := plain d
      rw [← h, front a c] at heads
      exact absurd heads (by decide)
    | some b =>
      simp only [hc, hd, Option.map_some] at h
      have texts := congrArg String.toList h
      simp only [String.toList_append, List.append_assoc] at texts
      obtain rfl := query_append_inj texts
      refine ⟨?_, rfl⟩
      exact String.toList_inj.1 (List.append_cancel_left (List.append_cancel_left texts))

/-- The selector under which a rule is kept tells the name of its class. -/
theorem keySelector_inj {c d : UtilityClass} (h : keySelector c = keySelector d) :
    c.name = d.name :=
  Selector.applyTo_inj (fullSelector_of_keySelector_eq h).1

theorem isAtom_options (options : SheetOptions) :
    ∀ entry ∈ options.fields, entry.2.IsAtom := by
  intro entry mem
  simp only [SheetOptions.fields, List.mem_cons, List.not_mem_nil, or_false] at mem
  rcases mem with rfl | rfl | rfl | rfl | rfl
  case inr.inr.inr.inr => cases options.scope <;> trivial
  all_goals trivial

theorem stringOrNull_inj {a b : Option String} (h : Json.stringOrNull a = Json.stringOrNull b) :
    a = b := by
  cases a <;> cases b <;> simp_all [Json.stringOrNull]

/-- The compact text of options determines them. -/
theorem options_inj {options others : SheetOptions}
    (h : options.toJson.canonical = others.toJson.canonical) : options = others := by
  -- the text is sorted by name, so a field is found by its name and not by its place
  have member : ∀ entry ∈ options.fields, entry ∈ others.fields := fun _ mem =>
    Json.mem_fields_of_canonical_eq (isAtom_options options) (isAtom_options others) h mem
  obtain ⟨minify, group, comments, important, scope⟩ := options
  have h₁ := member ("minify", .bool minify) (by simp [SheetOptions.fields, OptionName.name])
  have h₂ := member ("group_selectors", .bool group)
    (by simp [SheetOptions.fields, OptionName.name])
  have h₃ := member ("include_comments", .bool comments)
    (by simp [SheetOptions.fields, OptionName.name])
  have h₄ := member ("important", .bool important)
    (by simp [SheetOptions.fields, OptionName.name])
  have h₅ := member ("scope", .stringOrNull scope) (by simp [SheetOptions.fields, OptionName.name])
  simp only [SheetOptions.fields, OptionName.name, List.mem_cons, Prod.mk.injEq, String.reduceEq,
    false_and, Json.bool.injEq, true_and, false_or, or_false, List.not_mem_nil] at h₁ h₂ h₃ h₄ h₅
  rw [h₁, h₂, h₃, h₄, stringOrNull_inj h₅]

end Keys

/-! ## Building a rule -/

/-- The key under which the rule of a class is kept. -/
def ruleKey (c : UtilityClass) (important : Bool) : String :=
  CacheKey.rule (keySelector c) (Digest.short (declarationKey c important))

/-- The engine with other keys and rules. -/
def withRules (e : Engine) (keys : KeyMemo) (rules : CacheTier StyleRule) : Engine :=
  e.withCache { e.cache with keys := keys, rule := rules }

/-- A rule that is kept is found; any other is built, and kept unless it is refused. -/
theorem build_cases (e : Engine) (h : e.cache.keys.Sound) (c : UtilityClass) (important : Bool) :
    ∃ keys : KeyMemo, keys.Sound ∧
      ((∃ rule, (e.cache.rule.get e.cache.now (ruleKey c important)).2 = some rule ∧
          e.build c important =
            (e.withRules keys (e.cache.rule.get e.cache.now (ruleKey c important)).1, .ok rule)) ∨
        (e.cache.rule.get e.cache.now (ruleKey c important)).2 = none ∧
          ((∃ rule, c.rule important = .ok rule ∧ e.build c important =
              (e.withRules keys ((e.cache.rule.get e.cache.now (ruleKey c important)).1.set
                e.cache.now (ruleKey c important) rule), .ok rule)) ∨
            ∃ failure, c.rule important = .error failure ∧ e.build c important =
              (e.withRules keys (e.cache.rule.get e.cache.now (ruleKey c important)).1,
                .error failure))) := by
  obtain ⟨sound, key⟩ := h.ruleKey (keySelector c) (isPrinted_declarationKey c important)
  refine ⟨_, sound, ?_⟩
  unfold Engine.build
  dsimp only
  rw [key]
  cases kept : (e.cache.rule.get e.cache.now (ruleKey c important)).2 with
  | some rule =>
    rw [ruleKey, declarationKey] at kept
    exact .inl ⟨rule, rfl, by rw [kept]; rfl⟩
  | none =>
    rw [ruleKey, declarationKey] at kept
    refine .inr ⟨rfl, ?_⟩
    rw [kept]
    cases built : c.rule important with
    | ok rule => exact .inl ⟨rule, rfl, rfl⟩
    | error failure => exact .inr ⟨failure, rfl, rfl⟩

/-- Whether a class has a rule matters to the lists of results only. -/
theorem buildEach_cons_fst (e : Engine) (important : Bool) (c : UtilityClass)
    (rest : List UtilityClass) : (e.buildEach important (c :: rest)).1 =
      ((e.build c important).1.buildEach important rest).1 := by
  rw [buildEach]
  rcases e.build c important with ⟨next, _ | rule⟩ <;> rfl

/-- Every entry of an engine's caches is what the plain computation gives for its key, and all
texts that were digested for its keys belong to the set. -/
structure Sound (table : PropertyTable) (limits : InputLimits) (texts : String → Prop)
    (e : Engine) : Prop where
  table_eq : e.table = table
  limits_eq : e.limits = limits
  keys : e.cache.keys.Sound
  parse : e.cache.parse.All fun key c =>
    ∃ s, key = CacheKey.parse s ∧ UtilityClass.read table limits (.string s) = .ok c
  rule : e.cache.rule.All fun key rule =>
    ∃ c important, IsRead table limits c ∧ texts (declarationKey c important) ∧
      key = CacheKey.rule (keySelector c) (Digest.short (declarationKey c important)) ∧
      c.rule important = .ok rule
  generation : e.cache.generation.All fun key sheet =>
    ∃ tokens options, texts (CacheKey.tokensText (tokens.map keyToken)) ∧
      texts (SheetOptions.toJson options).canonical ∧
      (∀ c ∈ (plainBatch table limits tokens none).parsed,
        texts (declarationKey c options.important)) ∧
      key = CacheKey.generation (Digest.short (CacheKey.tokensText (tokens.map keyToken)))
        (Digest.short options.toJson.canonical) ∧
      sheet = plainCompile table limits options tokens none

variable {table : PropertyTable} {limits : InputLimits} {texts : String → Prop} {e : Engine}

theorem Sound.isReading (h : e.Sound table limits texts) : e.IsReading table limits :=
  ⟨h.table_eq, h.limits_eq, h.keys, h.parse⟩

/-- Reading keeps an engine sound, since it touches neither rules nor sheets. -/
theorem Sound.of_frame (h : e.Sound table limits texts) {next : Engine}
    (reading : next.IsReading table limits)
    (frame : ∃ keys parse, next = e.withCache { e.cache with keys := keys, parse := parse }) :
    next.Sound table limits texts := by
  obtain ⟨_, _, rfl⟩ := frame
  exact ⟨h.table_eq, h.limits_eq, reading.keys, reading.parse, h.rule, h.generation⟩

/-- A token is read as without caches. -/
theorem Sound.parse_spec (h : e.Sound table limits texts) (token : Json) :
    (e.parse token).1.Sound table limits texts ∧
      (e.parse token).2 = UtilityClass.read table limits token := by
  obtain ⟨reading, result⟩ := h.isReading.parse_spec token
  exact ⟨h.of_frame reading (e.parse_frame token), result⟩

/-- The rule of a class that tokens are read as is built as without caches. -/
theorem Sound.build_spec (h : e.Sound table limits texts) (noCollision : NoCollision texts)
    {c : UtilityClass} (hc : IsRead table limits c) {important : Bool}
    (text : texts (declarationKey c important)) :
    (e.build c important).1.Sound table limits texts ∧
      (e.build c important).2 = c.rule important := by
  have tier := h.rule.get e.cache.now (ruleKey c important)
  obtain ⟨keys, sound, ⟨rule, hit, made⟩ | ⟨-, ⟨rule, built, made⟩ | ⟨failure, built, made⟩⟩⟩ :=
    e.build_cases h.keys c important
  -- a hit: the selector tells the class, and the digest tells whether the rule is important
  · rw [made]
    refine ⟨⟨h.table_eq, h.limits_eq, sound, h.parse, tier, h.generation⟩, ?_⟩
    obtain ⟨d, other, ⟨token, hd⟩, kept, same, built⟩ := h.rule.value_of_get hit
    obtain ⟨selectors, digests⟩ := CacheKey.rule_inj same
    obtain ⟨token', hc⟩ := hc
    obtain rfl := UtilityClass.eq_of_read_of_name_eq hc hd (keySelector_inj selectors)
    obtain rfl := declarationKey_inj (noCollision _ _ text kept digests)
    exact built.symm
  · rw [made, built]
    exact ⟨⟨h.table_eq, h.limits_eq, sound, h.parse,
      tier.set _ ⟨c, important, hc, text, rfl, built⟩, h.generation⟩, rfl⟩
  · rw [made, built]
    exact ⟨⟨h.table_eq, h.limits_eq, sound, h.parse, tier, h.generation⟩, rfl⟩

/-- A list of tokens is read as without caches. -/
theorem Sound.parseTokens_spec (h : e.Sound table limits texts) (tokens : List Json)
    (stop : Option Nat) :
    (e.parseTokens tokens stop).1.Sound table limits texts ∧
      (e.parseTokens tokens stop).2 = plainBatch table limits tokens stop := by
  obtain ⟨reading, batch⟩ := h.isReading.parseTokens tokens stop
  exact ⟨h.of_frame reading (e.parseTokens_frame tokens stop), batch⟩

theorem Sound.buildEach_spec (h : e.Sound table limits texts) (noCollision : NoCollision texts)
    {important : Bool} {classes : List UtilityClass}
    (read : ∀ c ∈ classes, IsRead table limits c)
    (digested : ∀ c ∈ classes, texts (declarationKey c important)) :
    (e.buildEach important classes).1.Sound table limits texts ∧
      (e.buildEach important classes).2 = plainBuild important classes := by
  induction classes generalizing e with
  | nil => exact ⟨h, rfl⟩
  | cons c rest ih =>
    obtain ⟨next, result⟩ :=
      h.build_spec noCollision (read c List.mem_cons_self) (digested c List.mem_cons_self)
    obtain ⟨last, results⟩ := ih next (fun d hd => read d (List.mem_cons_of_mem _ hd))
      fun d hd => digested d (List.mem_cons_of_mem _ hd)
    refine ⟨by rwa [buildEach_cons_fst], ?_⟩
    rw [Engine.buildEach, plainBuild, ← results, ← result]
    rcases e.build c important with ⟨other, _ | rule⟩ <;> rfl

/-- A list of tokens is compiled as without caches. -/
theorem Sound.compile_spec (h : e.Sound table limits texts) (noCollision : NoCollision texts)
    (options : SheetOptions) {tokens : List Json} {stop : Option Nat}
    (digested : ∀ c ∈ (plainBatch table limits tokens stop).parsed,
      texts (declarationKey c options.important)) :
    (e.compile options tokens stop).1.Sound table limits texts ∧
      (e.compile options tokens stop).2 = plainCompile table limits options tokens stop := by
  obtain ⟨next, batch⟩ := h.parseTokens_spec tokens stop
  obtain ⟨last, built⟩ :=
    next.buildEach_spec noCollision (fun c hc => isRead_of_mem_parsed hc) digested
  simp only [Engine.compile, batch, plainCompile, ← built]
  exact ⟨last, trivial⟩

theorem Sound.lookedUp (h : e.Sound table limits texts) {keys : KeyMemo} (sound : keys.Sound)
    (key : String) : (e.lookedUp keys key).Sound table limits texts :=
  ⟨h.table_eq, h.limits_eq, sound, h.parse, h.rule, h.generation.get _ _⟩

/-- A sheet that was kept for a key is the plain one of the same tokens in some order. -/
theorem Sound.order_of_kept (h : e.Sound table limits texts) (noCollision : NoCollision texts)
    {options : SheetOptions} {tokens : List Json} {sheet : Compilation} {now : Rat}
    (tokensDigested : texts (CacheKey.tokensText (tokens.map keyToken)))
    (optionsDigested : texts options.toJson.canonical)
    (hit : (e.cache.generation.get now
      (CacheKey.generation (Digest.short (CacheKey.tokensText (tokens.map keyToken)))
        (Digest.short options.toJson.canonical))).2 = some sheet) :
    ∃ order : List Json, order.Perm tokens ∧
      texts (CacheKey.tokensText (order.map keyToken)) ∧
      (∀ c ∈ (plainBatch table limits order none).parsed,
        texts (declarationKey c options.important)) ∧
      sheet = plainCompile table limits options order none := by
  obtain ⟨others, kept, othersDigested, keptDigested, digested, same, rfl⟩ :=
    h.generation.value_of_get hit
  obtain ⟨tokenDigests, optionDigests⟩ := CacheKey.generation_inj same
  obtain rfl := options_inj (noCollision _ _ optionsDigested keptDigested optionDigests)
  have perm := CacheKey.tokensText_inj
    (noCollision _ _ othersDigested tokensDigested tokenDigests.symm)
  rw [List.map_map, List.map_map] at perm
  -- the order is sought among the given tokens, whose keys agree with those of the kept ones
  obtain ⟨order, arranged, equal⟩ := exists_perm_map_eq perm
  have keys := map_eq_of_map_eq (f := keyToken) (fun a b => keyToken_inj) equal
  refine ⟨order, arranged, keys ▸ othersDigested, ?_, plainCompile_congr options keys.symm⟩
  rw [plainBatch_congr keys]
  exact digested

/-- **A compilation is the plain one**, unless it was kept; then it is the plain one of the same
tokens in some order. -/
theorem Sound.generate_spec (h : e.Sound table limits texts) (noCollision : NoCollision texts)
    {options : SheetOptions} {tokens : List Json} {stop : Option Nat}
    (tokensDigested : texts (CacheKey.tokensText (tokens.map keyToken)))
    (optionsDigested : texts options.toJson.canonical)
    (digested : ∀ c ∈ (plainBatch table limits tokens stop).parsed,
      texts (declarationKey c options.important)) :
    (e.generate options tokens stop).1.Sound table limits texts ∧
      ((e.generate options tokens stop).2 = plainCompile table limits options tokens stop ∨
        e.cache.generation.entries ≠ [] ∧ ∃ order : List Json, order.Perm tokens ∧
          texts (CacheKey.tokensText (order.map keyToken)) ∧
          (∀ c ∈ (plainBatch table limits order none).parsed,
            texts (declarationKey c options.important)) ∧
          (e.generate options tokens stop).2 =
            (plainCompile table limits options order none).fromCache) := by
  obtain ⟨keys, sound, ⟨sheet, hit, served⟩ | ⟨-, next, sheet, made, served⟩⟩ :=
    e.generate_cases h.keys options tokens stop
  · rw [served]
    refine ⟨h.lookedUp sound _, .inr ⟨?_, ?_⟩⟩
    · intro empty
      rw [CacheTier.get_of_nil empty] at hit
      cases hit
    · obtain ⟨order, arranged, text, covered, rfl⟩ :=
        h.order_of_kept noCollision tokensDigested optionsDigested hit
      exact ⟨order, arranged, text, covered, rfl⟩
  · obtain ⟨last, plain⟩ :=
      (h.lookedUp sound (sheetKey options tokens)).compile_spec noCollision options digested
    rw [made] at last plain
    obtain rfl : sheet = plainCompile table limits options tokens stop := plain
    rw [served]
    refine ⟨?_, .inl rfl⟩
    split
    · exact last
    -- only a whole sheet is kept, so its key may leave out the cancellation
    · next running =>
      have complete := plainBatch_of_not_cancelled (Bool.not_eq_true _ ▸ running)
      refine ⟨last.table_eq, last.limits_eq, last.keys, last.parse, last.rule, ?_⟩
      refine last.generation.set _
        ⟨tokens, options, tokensDigested, optionsDigested, complete ▸ digested, rfl, ?_⟩
      rw [plainCompile, complete, plainCompile]

end Engine

end BracketCss
