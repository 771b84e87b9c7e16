import BracketCss.Proofs.Engine.Keeps
import BracketCss.Proofs.Engine.Names

/-!
# Where a sheet comes from

Every sheet that an engine keeps was compiled for a request that it was asked earlier, and its rules
follow the order of that request. The key of a sheet tells its request only up to the order of the
tokens, so a request can be served in the order of an earlier one. Whatever an engine did before, it
reads a token as it would without caches: a class that it keeps is the one that the token is read
as, and a token that is refused is refused for the same reason. No assumption is made about
digests: two requests have the same key if they ask for the same tokens under the same options, or
if two of their texts collide.

## Main definitions

* `SheetRequest`, `SheetRequest.key`: tokens with options, and the key of their sheet
* `EngineEvent.requests e event`: the requests of an event
* `Engine.IsAsked table limits asked key sheet`: a sheet was asked for under a key
* `Engine.IsTraced table limits asked e`: every sheet that is kept was asked for

## Main results

* `Engine.IsTraced.generate`: a sheet follows the order of a request with the same key
* `Engine.IsTraced.perform`: every event keeps an engine traced
* `SheetRequest.of_key_eq`: requests with the same key are alike, or two texts collide
* `Engine.parse_of_run`: what an engine reads does not depend on its history
-/

namespace BracketCss

/-- Two different texts with the same digest. -/
def Collide (s t : String) : Prop := s ≠ t ∧ Digest.short s = Digest.short t

/-- Tokens that are to be compiled under options. -/
structure SheetRequest where
  options : SheetOptions
  tokens : List Json

namespace SheetRequest

/-- The text of the tokens in the key, the same for every order. -/
def tokensText (request : SheetRequest) : String :=
  CacheKey.tokensText (request.tokens.map Engine.keyToken)

/-- The text of the options in the key. -/
def optionsText (request : SheetRequest) : String := request.options.toJson.canonical

/-- The key under which the sheet of the request is kept. -/
def key (request : SheetRequest) : String := Engine.sheetKey request.options request.tokens

/-- Texts of the tokens that collide, or texts of the options that do. -/
def Collides (request other : SheetRequest) : Prop :=
  Collide request.tokensText other.tokensText ∨ Collide request.optionsText other.optionsText

theorem keys_of_tokensText_eq {request other : SheetRequest}
    (h : request.tokensText = other.tokensText) :
    ∃ order : List Json, order.Perm other.tokens ∧
      order.map Engine.keyToken = request.tokens.map Engine.keyToken := by
  have perm := CacheKey.tokensText_inj h
  rw [List.map_map, List.map_map] at perm
  obtain ⟨order, arranged, equal⟩ := exists_perm_map_eq perm
  exact ⟨order, arranged, map_eq_of_map_eq (fun a b => keyToken_inj) equal⟩

theorem eq_strings_of_keys {tokens : List Json} {names : List String}
    (h : (names.map Json.string).map Engine.keyToken = tokens.map Engine.keyToken) :
    tokens = names.map Json.string := by
  induction names generalizing tokens with
  | nil => exact (List.map_eq_nil_iff.1 h.symm)
  | cons name names ih =>
    cases tokens with
    | nil => cases h
    | cons token tokens =>
      obtain ⟨first, rest⟩ := List.cons.inj h
      rw [keyToken_eq_string first.symm, ih rest, List.map_cons]

/-- Requests for names that have the same key ask for the same names in some order and under the
same options, unless two texts collide. -/
theorem of_key_eq {request : SheetRequest} {options : SheetOptions} {names : List String}
    (h : request.key = key ⟨options, names.map .string⟩) :
    request.Collides ⟨options, names.map .string⟩ ∨
      ∃ order : List String, order.Perm names ∧ request = ⟨options, order.map .string⟩ := by
  obtain ⟨tokenDigests, optionDigests⟩ := CacheKey.generation_inj h
  by_cases sameOptions : request.optionsText = optionsText ⟨options, names.map .string⟩
  · by_cases sameTokens : request.tokensText = tokensText ⟨options, names.map .string⟩
    · obtain ⟨_, arranged, keys⟩ := keys_of_tokensText_eq sameTokens
      obtain ⟨order, perm, rfl⟩ := exists_perm_map_eq arranged
      refine .inr ⟨order, perm, ?_⟩
      obtain ⟨asked, tokens⟩ := request
      rw [SheetRequest.mk.injEq]
      exact ⟨Engine.options_inj sameOptions, eq_strings_of_keys keys⟩
    · exact .inl (.inl ⟨sameTokens, tokenDigests⟩)
  · exact .inl (.inr ⟨sameOptions, optionDigests⟩)

end SheetRequest

/-- The requests for sheets among an engine's events. -/
def EngineEvent.requests (e : Engine) : EngineEvent → List SheetRequest
  | generate classes options _ =>
    match SheetOptions.ofJson options, e.tokens classes with
    | .ok options, .ok tokens => [⟨options, tokens⟩]
    | _, _ => []
  | _ => []

namespace Engine

/-- The rules of a sheet follow the order of a request that was asked and has the key. -/
def IsAsked (table : PropertyTable) (limits : InputLimits) (asked : SheetRequest → Prop)
    (key : String) (sheet : Compilation) : Prop :=
  ∃ request, asked request ∧ key = request.key ∧
    (sheet.rules.map (·.className)).Sublist (plainBatch table limits request.tokens none).valid

/-- An engine that reads as without caches, whose rules are those of the classes in their keys as
far as the class names go, and whose sheets were compiled for requests with their keys. -/
structure IsTraced (table : PropertyTable) (limits : InputLimits) (asked : SheetRequest → Prop)
    (e : Engine) : Prop extends IsReading table limits e where
  rule : e.cache.rule.All fun key rule => ∃ c important,
    key = CacheKey.rule (keySelector c) (Digest.short (declarationKey c important)) ∧
      rule.className = c.name
  generation : e.cache.generation.All (IsAsked table limits asked)

variable {table : PropertyTable} {limits : InputLimits} {asked : SheetRequest → Prop} {e : Engine}

/-- Tracing says what is known of the rules and of the sheets. -/
theorem isTraced_iff_keeps : e.IsTraced table limits asked ↔
    e.Keeps table limits (fun key rule => ∃ c important,
      key = CacheKey.rule (keySelector c) (Digest.short (declarationKey c important)) ∧
        rule.className = c.name) (IsAsked table limits asked) :=
  ⟨fun h => ⟨h.toIsReading, h.rule, h.generation⟩, fun h => ⟨h.toIsReading, h.rule, h.generation⟩⟩

theorem IsTraced.parseTokens_spec (h : e.IsTraced table limits asked) (tokens : List Json)
    (stop : Option Nat) : (e.parseTokens tokens stop).1.IsTraced table limits asked :=
  isTraced_iff_keeps.2 ((isTraced_iff_keeps.1 h).parseTokens_spec tokens stop)

/-- The rule of a class has its name, wherever it comes from. -/
theorem IsTraced.build (h : e.IsTraced table limits asked) (c : UtilityClass) (important : Bool) :
    (e.build c important).1.IsTraced table limits asked ∧
      ∀ rule, (e.build c important).2 = .ok rule → rule.className = c.name := by
  have tier := h.rule.get e.cache.now (ruleKey c important)
  obtain ⟨keys, sound, ⟨rule, hit, made⟩ | ⟨-, ⟨rule, built, made⟩ | ⟨failure, built, made⟩⟩⟩ :=
    e.build_cases h.keys c important
  · rw [made]
    refine ⟨⟨⟨h.table_eq, h.limits_eq, sound, h.parse⟩, tier, h.generation⟩, ?_⟩
    rintro _ ⟨⟩
    obtain ⟨d, _, same, named⟩ := h.rule.value_of_get hit
    rw [named, keySelector_inj (CacheKey.rule_inj same).1]
  · rw [made]
    have named := UtilityClass.className_of_rule built
    refine ⟨⟨⟨h.table_eq, h.limits_eq, sound, h.parse⟩,
      tier.set _ ⟨c, important, rfl, named⟩, h.generation⟩, ?_⟩
    rintro _ ⟨⟩
    exact named
  · rw [made]
    refine ⟨⟨⟨h.table_eq, h.limits_eq, sound, h.parse⟩, tier, h.generation⟩, ?_⟩
    rintro _ ⟨⟩

theorem IsTraced.buildEach (h : e.IsTraced table limits asked) (important : Bool)
    (classes : List UtilityClass) :
    (e.buildEach important classes).1.IsTraced table limits asked ∧
      ((e.buildEach important classes).2.1.map (·.className)).Sublist (classes.map (·.name)) := by
  induction classes generalizing e with
  | nil => exact ⟨h, List.Sublist.slnil⟩
  | cons c rest ih =>
    obtain ⟨next, named⟩ := h.build c important
    obtain ⟨last, order⟩ := ih next
    rw [Engine.buildEach]
    rcases built : e.build c important with ⟨other, _ | rule⟩
    · rw [built] at last order
      exact ⟨last, order.cons c.name⟩
    · rw [built] at last order named
      refine ⟨last, ?_⟩
      simp only [List.map_cons, named rule rfl]
      exact order.cons_cons c.name

/-- A sheet that is compiled follows the order of its tokens. -/
theorem IsTraced.compile (h : e.IsTraced table limits asked) (options : SheetOptions)
    (tokens : List Json) (stop : Option Nat) :
    (e.compile options tokens stop).1.IsTraced table limits asked ∧
      ((e.compile options tokens stop).2.rules.map (·.className)).Sublist
        (plainBatch table limits tokens stop).valid ∧
      (e.compile options tokens stop).2.isCancelled =
        (plainCompile table limits options tokens stop).isCancelled ∧
      (e.compile options tokens stop).2.isCached = false := by
  have batch := (h.parseTokens tokens stop).2
  obtain ⟨last, order⟩ := (h.parseTokens_spec tokens stop).buildEach options.important
    (plainBatch table limits tokens stop).parsed
  simp only [Engine.compile, batch]
  exact ⟨last, order, rfl, rfl⟩

theorem IsTraced.lookedUp (h : e.IsTraced table limits asked) {keys : KeyMemo} (sound : keys.Sound)
    (key : String) : (e.lookedUp keys key).IsTraced table limits asked :=
  isTraced_iff_keeps.2 ((isTraced_iff_keeps.1 h).lookedUp sound key)

theorem IsTraced.keep (h : e.IsTraced table limits asked) (request : SheetRequest)
    (present : asked request) {sheet : Compilation}
    (order : (sheet.rules.map (·.className)).Sublist
      (plainBatch table limits request.tokens none).valid) :
    (e.keep request.key sheet).IsTraced table limits asked :=
  isTraced_iff_keeps.2 ((isTraced_iff_keeps.1 h).keep ⟨request, present, rfl, order⟩)

/-- **A sheet follows the order of a request with the same key**: of the present one if it was
compiled now, and of one that was asked earlier if it was kept. -/
theorem IsTraced.generate (h : e.IsTraced table limits asked) {options : SheetOptions}
    {tokens : List Json} (stop : Option Nat) (present : asked ⟨options, tokens⟩) :
    (e.generate options tokens stop).1.IsTraced table limits asked ∧
      ((e.generate options tokens stop).2.isCached = false →
        ((e.generate options tokens stop).2.rules.map (·.className)).Sublist
          (plainBatch table limits tokens stop).valid) ∧
      ((e.generate options tokens stop).2.isCached = true →
        IsAsked table limits asked (sheetKey options tokens)
          (e.generate options tokens stop).2) := by
  obtain ⟨keys, sound, ⟨sheet, hit, served⟩ | ⟨-, next, sheet, made, served⟩⟩ :=
    e.generate_cases h.keys options tokens stop
  · rw [served]
    have kept := h.generation.value_of_get hit
    refine ⟨h.lookedUp sound _, ?_, fun _ => kept⟩
    rintro ⟨⟩
  · obtain ⟨traced, order, cancelled, new⟩ :=
      (h.lookedUp sound (sheetKey options tokens)).compile options tokens stop
    rw [made] at traced order cancelled new
    rw [served]
    refine ⟨?_, fun _ => order, fun cached => absurd (new.symm.trans cached) Bool.false_ne_true⟩
    split
    · exact traced
    · next running =>
      rw [plainBatch_of_not_cancelled (cancelled.symm.trans (Bool.not_eq_true _ ▸ running))]
        at order
      exact traced.keep ⟨options, tokens⟩ present order

/-- A sheet of all tokens was asked for, now or earlier. -/
theorem IsTraced.isAsked_generate (h : e.IsTraced table limits asked) {options : SheetOptions}
    {tokens : List Json} (present : asked ⟨options, tokens⟩) :
    IsAsked table limits asked (sheetKey options tokens) (e.generate options tokens none).2 := by
  obtain ⟨-, made, kept⟩ := h.generate none present
  cases cached : (e.generate options tokens none).2.isCached with
  | false => exact ⟨⟨options, tokens⟩, present, rfl, made cached⟩
  | true => exact kept cached

/-- An engine that is sound relative to no texts has kept neither a rule nor a sheet. -/
theorem Sound.isTraced (h : e.Sound table limits fun _ => False) (asked : SheetRequest → Prop) :
    e.IsTraced table limits asked :=
  isTraced_iff_keeps.2 (.of_sound h)

theorem isTraced_ofSettings {settings : CacheSettings} {isSweeping : Bool}
    (h : ofSettings limits settings table isSweeping = .ok e) (asked : SheetRequest → Prop) :
    e.IsTraced table limits asked :=
  (sound_ofSettings h fun _ => False).1.isTraced asked

/-- **Every event keeps an engine traced.** -/
theorem IsTraced.perform (h : e.IsTraced table limits asked) {event : EngineEvent}
    (present : ∀ request ∈ event.requests e, asked request) :
    (e.perform event).IsTraced table limits asked := by
  refine isTraced_iff_keeps.2 ((isTraced_iff_keeps.1 h).perform ?_ ?_)
  · rintro c important -
    exact isTraced_iff_keeps.1 (h.build c important).1
  · rintro classes options stop rfl settled tokens hoptions htokens
    simp only [EngineEvent.requests, hoptions, htokens, List.mem_singleton] at present
    exact isTraced_iff_keeps.1 (h.generate stop (present _ rfl)).1

/-! ## Reading after a history -/

variable {first : Engine}

/-- A history keeps an engine traced, if nothing is asked of its requests. -/
theorem IsTraced.run (h : e.IsTraced table limits fun _ => True) (events : List EngineEvent) :
    (e.run events).IsTraced table limits fun _ => True := by
  induction events generalizing e with
  | nil => exact h
  | cons event events ih => exact ih (h.perform fun _ _ => trivial)

/-- An engine in use reads as without caches. -/
theorem isReading_run {settings : CacheSettings} {isSweeping : Bool}
    (h : ofSettings limits settings table isSweeping = .ok first) (events : List EngineEvent) :
    (first.run events).IsReading table limits :=
  ((isTraced_ofSettings h _).run events).toIsReading

/-- **What an engine reads does not depend on its history**: every token, a text or not, gives the
class or the failure that it gives without caches. -/
theorem parse_of_run {settings : CacheSettings} {isSweeping : Bool}
    (h : ofSettings limits settings table isSweeping = .ok first) (events : List EngineEvent)
    (token : Json) :
    ((first.run events).parse token).2 = UtilityClass.read table limits token :=
  ((isReading_run h events).parse_spec token).2

/-- A class is read twice, once before and once after what is old has been removed. -/
theorem parse_of_run_reread : ∃ first,
    ofSettings .standard .standard .standard true = .ok first ∧
      ((first.run [.parse (.string "p-[1px]"), .tick 1800, .sweep, .parse (.string "p-[1px]"),
        .generate (.string "p-[1px] p-[") .null none]).parse (.string "p-[1px]")).2 =
          .ok ⟨"p-[1px]", "p", "padding", "1px", "1px", ["1px"], false, .length,
            .sides ["1px", "1px", "1px", "1px"], .plain⟩ := by
  obtain ⟨first, made⟩ : ∃ first, ofSettings .standard .standard .standard true = .ok first :=
    ⟨_, rfl⟩
  refine ⟨first, made, ?_⟩
  rw [parse_of_run made]
  decide +kernel

end Engine

end BracketCss
