import BracketCss.Proofs.Engine.Trace
import BracketCss.Proofs.Value.Trimmed

/-!
# Rules that are kept

A rule that an engine keeps is served for the classes that it was built for, and for no others whose
rules differ. The key of a rule holds its selector and the digest of its declaration. The selector
tells the class name, the state and the breakpoint, whatever is escaped in it, and the declaration
tells the property and the value as declared. So classes with one key have one rule, even a class
that was put together by hand, which may share its key with a class that was read: a value that ends
in the mark of importance is declared like an important one without it.

## Main definitions

* `Engine.soughtKey e c important`: the key that an engine looks a rule up by
* `Engine.IsBuilt texts key rule`: a rule was built for a class with a key

## Main results

* `Engine.rule_eq_ok_of_declared`: what the two parts of a key tell of a rule
* `Engine.IsTraced.all_rule_perform`: an event keeps the rules it finds and those it builds
* `Engine.build_of_run`: a rule does not depend on the history
-/

namespace BracketCss

theorem breaksOut_declaredValue (important : Bool) (value : String) :
    breaksOut (declaredValue important value) = breaksOut value := by
  cases important with
  | false => rfl
  | true =>
    have mark : (" !important".toList.any fun c =>
        c == '\x7b' || c == '\x7d' || c == ';') = false := by decide
    rw [declaredValue, if_pos rfl, breaksOut, String.toList_append, List.any_append, mark,
      Bool.or_false, breaksOut]

namespace Engine

/-! ## The two parts of a key -/

/-- The selector in a key tells everything of a rule but its declaration. -/
theorem head_of_keySelector_eq {c d : UtilityClass} (h : keySelector d = keySelector c) :
    d.fullSelector = c.fullSelector ∧ d.name = c.name ∧ d.variants = c.variants := by
  obtain ⟨full, breakpoint⟩ := fullSelector_of_keySelector_eq h
  obtain ⟨name, pseudo⟩ := Selector.applyTo_ofClass_inj full
  refine ⟨full, name, ?_⟩
  rcases d with ⟨_, _, _, _, _, _, _, _, _, ⟨_, _⟩⟩
  rcases c with ⟨_, _, _, _, _, _, _, _, _, ⟨_, _⟩⟩
  exact congrArg₂ Variants.mk breakpoint pseudo

/-- Two classes with the same selector and the same declaration have the same rule, if both declare
something. -/
theorem rule_eq_ok_of_declared {c d : UtilityClass} {important other : Bool} {rule : StyleRule}
    (selector : keySelector d = keySelector c)
    (declaration : declarationKey d other = declarationKey c important) (some_ : c.value ≠ "")
    (built : d.rule other = .ok rule) : c.rule important = .ok rule := by
  obtain ⟨full, name, variants⟩ := head_of_keySelector_eq selector
  obtain ⟨property, declared⟩ := declaration_of_key_eq declaration
  obtain ⟨named, -, closed, rfl⟩ := UtilityClass.rule_eq_ok built
  have unbroken : ¬ breaksOut c.value := by
    rw [← breaksOut_declaredValue important, ← declared, breaksOut_declaredValue, closed]
    exact Bool.false_ne_true
  have declares : ¬ (c.property.isEmpty ∨ c.value.isEmpty) := by
    rw [← property, String.isEmpty_iff, String.isEmpty_iff]
    exact not_or.2 ⟨named, some_⟩
  rw [UtilityClass.rule, StyleRule.make, if_neg declares, if_neg unbroken, full, name, property,
    declared, variants]
  rfl

/-! ## Rules along a history -/

/-- A rule was built for a class with a key, and the text of its declaration is one of a set. -/
def IsBuilt (texts : String → Prop) (key : String) (rule : StyleRule) : Prop :=
  ∃ c important, texts (declarationKey c important) ∧ key = ruleKey c important ∧
    c.rule important = .ok rule

variable {table : PropertyTable} {limits : InputLimits} {texts : String → Prop} {e first : Engine}

/-- The key that an engine looks a rule up by, as its memo gives it. -/
def soughtKey (e : Engine) (c : UtilityClass) (important : Bool) : String :=
  (e.cache.keys.ruleKey (keySelector c)
    (.object [(c.property, .string (declaredValue important c.value))])).2

/-- The memo gives the key that is built without it. -/
theorem IsReading.soughtKey_eq (h : e.IsReading table limits) (c : UtilityClass)
    (important : Bool) : e.soughtKey c important = ruleKey c important :=
  (h.keys.ruleKey (keySelector c) (isPrinted_declarationKey c important)).2

theorem IsReading.all_rule_build (h : e.IsReading table limits)
    (kept : e.cache.rule.All (IsBuilt texts)) {c : UtilityClass} {important : Bool}
    (text : texts (declarationKey c important)) :
    (e.build c important).1.cache.rule.All (IsBuilt texts) := by
  have tier := kept.get e.cache.now (ruleKey c important)
  obtain ⟨keys, -, ⟨rule, -, made⟩ | ⟨-, ⟨rule, built, made⟩ | ⟨failure, -, made⟩⟩⟩ :=
    e.build_cases h.keys c important
  · rw [made]
    exact tier
  · rw [made]
    exact tier.set _ ⟨c, important, text, rfl, built⟩
  · rw [made]
    exact tier

variable {asked : SheetRequest → Prop}

theorem IsTraced.all_rule_buildEach (h : e.IsTraced table limits asked)
    (kept : e.cache.rule.All (IsBuilt texts)) {important : Bool} {classes : List UtilityClass}
    (digested : ∀ c ∈ classes, texts (declarationKey c important)) :
    (e.buildEach important classes).1.cache.rule.All (IsBuilt texts) := by
  induction classes generalizing e with
  | nil => exact kept
  | cons c rest ih =>
    have next := h.all_rule_build kept (digested c List.mem_cons_self)
    rw [buildEach_cons_fst]
    exact ih (h.build c important).1 next fun d mem => digested d (List.mem_cons_of_mem _ mem)

/-- Reading leaves the rules as they are. -/
theorem rule_parseTokens (e : Engine) (tokens : List Json) (stop : Option Nat) :
    (e.parseTokens tokens stop).1.cache.rule = e.cache.rule := by
  obtain ⟨_, _, frame⟩ := e.parseTokens_frame tokens stop
  rw [frame]
  rfl

theorem IsTraced.all_rule_compile (h : e.IsTraced table limits asked)
    (kept : e.cache.rule.All (IsBuilt texts)) {options : SheetOptions} {tokens : List Json}
    {stop : Option Nat} (digested : ∀ c ∈ (plainBatch table limits tokens stop).parsed,
      texts (declarationKey c options.important)) :
    (e.compile options tokens stop).1.cache.rule.All (IsBuilt texts) := by
  have batch := (h.parseTokens tokens stop).2
  have next : (e.parseTokens tokens stop).1.cache.rule.All (IsBuilt texts) := by
    rw [rule_parseTokens]
    exact kept
  simp only [Engine.compile, batch]
  exact (h.parseTokens_spec tokens stop).all_rule_buildEach next digested

theorem IsTraced.all_rule_generate (h : e.IsTraced table limits asked)
    (kept : e.cache.rule.All (IsBuilt texts)) {options : SheetOptions} {tokens : List Json}
    {stop : Option Nat} (digested : ∀ c ∈ (plainBatch table limits tokens stop).parsed,
      texts (declarationKey c options.important)) :
    (e.generate options tokens stop).1.cache.rule.All (IsBuilt texts) := by
  obtain ⟨keys, sound, ⟨sheet, -, served⟩ | ⟨-, next, sheet, made, served⟩⟩ :=
    e.generate_cases h.keys options tokens stop
  · rw [served]
    exact kept
  · have compiled := (h.lookedUp sound (sheetKey options tokens)).all_rule_compile kept digested
    rw [made] at compiled
    rw [served]
    split
    · exact compiled
    · exact compiled

/-- **An event keeps the rules that it finds and those that it builds**, each under the key of its
class. -/
theorem IsTraced.all_rule_perform (h : e.IsTraced table limits asked)
    (kept : e.cache.rule.All (IsBuilt texts)) {event : EngineEvent}
    (covered : ∀ s ∈ event.digested e, texts s) :
    (e.perform event).cache.rule.All (IsBuilt texts) := by
  cases event with
  | parse token =>
    obtain ⟨_, _, frame⟩ := e.parse_frame token
    rw [Engine.perform, frame]
    exact kept
  | build c important => exact h.all_rule_build kept (covered _ List.mem_cons_self)
  | parseMany classes stop =>
    simp only [Engine.perform, Engine.parseMany]
    split
    · exact kept
    · rw [rule_parseTokens]
      exact kept
  | generate classes options stop =>
    by_cases accepted : ∃ settled tokens, SheetOptions.ofJson options = .ok settled ∧
        e.tokens classes = .ok tokens
    · obtain ⟨settled, tokens, hoptions, htokens⟩ := accepted
      simp only [EngineEvent.digested, hoptions, htokens, EngineEvent.compileTexts, h.table_eq,
        h.limits_eq] at covered
      rw [Engine.perform, answer_of_ok hoptions htokens]
      refine h.all_rule_generate kept fun c mem => covered _ ?_
      exact List.mem_cons_of_mem _ (List.mem_cons_of_mem _ (List.mem_map_of_mem mem))
    · rw [Engine.perform, answer_of_refused fun settled tokens hoptions htokens =>
        accepted ⟨settled, tokens, hoptions, htokens⟩]
      exact kept
  | startSweeper interval =>
    simp only [Engine.perform, CacheSystem.startSweeper]
    split <;> exact kept
  | optimize => exact kept.sweep _ _
  | sweep => exact kept.sweep _ _
  | clear => exact .clear
  | tick seconds => exact kept
  | shutdown => exact kept

/-- **A history keeps only rules that it built**, each under the key of its class. -/
theorem IsTraced.all_rule_run (h : e.IsTraced table limits fun _ => True)
    (kept : e.cache.rule.All (IsBuilt texts)) {events : List EngineEvent}
    (covered : ∀ event ∈ events, ∀ s ∈ event.digested e, texts s) :
    (e.run events).cache.rule.All (IsBuilt texts) := by
  induction events generalizing e with
  | nil => exact kept
  | cons event events ih =>
    have next : (e.perform event).IsTraced table limits fun _ => True :=
      h.perform fun _ _ => trivial
    refine ih next (h.all_rule_perform kept (covered event List.mem_cons_self)) ?_
    intro other mem
    rw [digested_congr (next.table_eq.trans h.table_eq.symm)
      (next.limits_eq.trans h.limits_eq.symm)]
    exact covered other (List.mem_cons_of_mem _ mem)

/-- A class that is looked for among rules that were built has the rule that it finds. -/
theorem IsReading.build_eq (h : e.IsReading table limits) (noCollision : NoCollision texts)
    (kept : e.cache.rule.All (IsBuilt texts)) {c : UtilityClass} {important : Bool}
    (some_ : c.value ≠ "") (text : texts (declarationKey c important)) :
    (e.build c important).2 = c.rule important := by
  obtain ⟨keys, -, ⟨rule, hit, made⟩ | ⟨-, ⟨rule, built, made⟩ | ⟨failure, built, made⟩⟩⟩ :=
    e.build_cases h.keys c important
  · obtain ⟨d, other, digested, same, built⟩ := kept.value_of_get hit
    obtain ⟨selectors, digests⟩ := CacheKey.rule_inj same
    have declarations := noCollision _ _ text digested digests
    rw [made, rule_eq_ok_of_declared selectors.symm declarations.symm some_ built]
  · rw [made, built]
  · rw [made, built]

/-- **A rule does not depend on the history.** Unless two of the texts that are digested collide, a
class that the engine has read at any time has the rule that is built without caches. Whatever else
has a rule under the same key, be it put together by hand, has the same rule; and a class that was
read is the same class, equally important. -/
theorem build_of_run {settings : CacheSettings} {isSweeping : Bool}
    (hfirst : ofSettings limits settings table isSweeping = .ok first)
    {earlier events : List EngineEvent} {token : Json} {c : UtilityClass}
    (returned : ((first.run earlier).parse token).2 = .ok c) {important : Bool}
    (noCollision : NoCollision (digestedBy first (events ++ [.build c important]))) :
    ((first.run events).build c important).2 = c.rule important ∧
      ∀ (others : List EngineEvent) (d : UtilityClass) (other : Bool),
        digestedBy first (events ++ [.build c important]) (declarationKey d other) →
        (first.run others).soughtKey d other = (first.run events).soughtKey c important →
          (∀ rule, d.rule other = .ok rule → c.rule important = .ok rule) ∧
            (IsRead table limits d → d = c ∧ other = important) := by
  have read : UtilityClass.read table limits token = .ok c := by
    rw [← returned, parse_of_run hfirst]
  have some_ : c.value ≠ "" := by
    intro none_
    exact (UtilityClass.isBare_value_of_read read).nonempty (by simp [none_])
  have text : digestedBy first (events ++ [.build c important]) (declarationKey c important) :=
    ⟨.build c important, by simp, List.mem_cons_self⟩
  constructor
  · have start := (sound_ofSettings hfirst fun _ => False).1
    have none_ : first.cache.rule.All
        (IsBuilt (digestedBy first (events ++ [.build c important]))) :=
      start.rule.imp fun _ _ ⟨_, _, _, absurd_, _⟩ => absurd_.elim
    have kept := (start.isTraced fun _ => True).all_rule_run none_ fun event mem s digested =>
      ⟨event, List.mem_append_left _ mem, digested⟩
    exact (isReading_run hfirst events).build_eq noCollision kept some_ text
  · intro others d other digested same
    rw [(isReading_run hfirst others).soughtKey_eq, (isReading_run hfirst events).soughtKey_eq]
      at same
    obtain ⟨selectors, digests⟩ := CacheKey.rule_inj same
    have declarations := noCollision _ _ digested text digests
    refine ⟨fun rule built => rule_eq_ok_of_declared selectors declarations some_ built, ?_⟩
    rintro ⟨_, hd⟩
    obtain rfl := UtilityClass.eq_of_read_of_name_eq hd read (keySelector_inj selectors)
    exact ⟨rfl, declarationKey_inj declarations⟩

section Example

/-- A class that was read. -/
def onePixel : UtilityClass :=
  ⟨"p-[1px]", "p", "padding", "1px", "1px", ["1px"], false, .length,
    .sides ["1px", "1px", "1px", "1px"], .plain⟩

/-- The class with a mark of importance in its value, as no text is read. -/
def markedPixel : UtilityClass := { onePixel with value := "1px !important" }

/-- The rule of the class put together by hand is built before and after that of the other. -/
def pixelHistory : List EngineEvent :=
  [.parse (.string "p-[1px]"), .build markedPixel false, .build onePixel false, .tick 1800, .sweep,
    .build markedPixel false]

/-- The texts that are digested for the history. -/
def pixelTexts : List String :=
  ["\x7b\"padding\":\"1px\"\x7d", "\x7b\"padding\":\"1px !important\"\x7d"]

theorem mem_pixelTexts {s : String}
    (h : digestedBy e (pixelHistory ++ [.build onePixel true]) s) : s ∈ pixelTexts := by
  have plain : declarationKey onePixel false ∈ pixelTexts := by
    rw [declarationKey_eq]
    decide +kernel
  have important : declarationKey onePixel true ∈ pixelTexts := by
    rw [declarationKey_eq]
    decide +kernel
  have marked : declarationKey markedPixel false ∈ pixelTexts := by
    rw [declarationKey_eq]
    decide +kernel
  obtain ⟨event, mem, digested⟩ := h
  simp only [pixelHistory, List.cons_append, List.nil_append, List.mem_cons, List.not_mem_nil,
    or_false] at mem
  rcases mem with rfl | rfl | rfl | rfl | rfl | rfl | rfl
  case inr.inl | inr.inr.inr.inr.inr.inl => exact List.mem_singleton.1 digested ▸ marked
  case inr.inr.inl => exact List.mem_singleton.1 digested ▸ plain
  case inr.inr.inr.inr.inr.inr => exact List.mem_singleton.1 digested ▸ important
  all_goals cases digested

/-- The important rule is the one that is kept under its key for the class put together by hand. -/
theorem build_of_run_marked : ∃ first,
    ofSettings .standard .standard .standard true = .ok first ∧
      ((first.run []).parse (.string "p-[1px]")).2 = .ok onePixel ∧
      NoCollision (digestedBy first (pixelHistory ++ [.build onePixel true])) ∧
      ((first.run pixelHistory).build onePixel true).2 =
        .ok ⟨".p-\\[1px\\]", "p-[1px]", "padding", "1px !important", 10, none⟩ := by
  obtain ⟨first, made⟩ : ∃ first, ofSettings .standard .standard .standard true = .ok first :=
    ⟨_, rfl⟩
  have returned : ((first.run []).parse (.string "p-[1px]")).2 = .ok onePixel := by
    rw [parse_of_run made]
    decide +kernel
  have noCollision : NoCollision (digestedBy first (pixelHistory ++ [.build onePixel true])) :=
    (noCollision_of_nodup (by decide +kernel)).mono fun _ => mem_pixelTexts
  refine ⟨first, made, returned, noCollision, ?_⟩
  rw [(build_of_run made returned noCollision).1]
  decide +kernel

end Example

end Engine

end BracketCss
