import BracketCss.Proofs.Engine.Sound

/-!
# Caches never change an answer

Whatever an engine is asked, its caches hold what the plain computation gives, so that it answers
as if it had none. The only assumption is that no two texts that were digested have the same digest.

## Main definitions

* `EngineEvent`, `Engine.perform`, `Engine.run`: what an engine is asked, and what becomes of it
* `EngineEvent.digested e event`, `Engine.digestedBy e events`: the texts that are digested

## Main results

* `Sound.perform`, `Sound.run`: an engine in use stays sound
* `Sound.answer_of_empty`: an engine that has kept no sheet compiles without caches
-/

namespace BracketCss

/-- What an engine is asked to do. -/
inductive EngineEvent where
  /-- To read a token. -/
  | parse (token : Json)
  /-- To build the rule of a class. -/
  | build (c : UtilityClass) (important : Bool)
  /-- To read the classes of a value, perhaps up to a cancellation. -/
  | parseMany (classes : Json) (stop : Option Nat)
  /-- To compile the classes of a value, perhaps up to a cancellation. -/
  | generate (classes options : Json) (stop : Option Nat)
  /-- To let some time pass. -/
  | tick (seconds : Rat)
  /-- To remove what is old. -/
  | optimize
  /-- To start the timer. -/
  | startSweeper (interval : Option Duration)
  /-- To do what the timer does. -/
  | sweep
  /-- To remove everything. -/
  | clear
  /-- To end the timer. -/
  | shutdown

namespace Engine

/-- The engine after an event. -/
def perform (e : Engine) : EngineEvent → Engine
  | .parse token => (e.parse token).1
  | .build c important => (e.build c important).1
  | .parseMany classes stop => (e.parseMany classes stop).1
  | .generate classes options stop => (e.answer classes options stop).1
  | .tick seconds => e.withCache (e.cache.tick seconds)
  | .optimize => e.withCache e.cache.optimize.1
  | .startSweeper interval => e.withCache (e.cache.startSweeper interval).1
  | .sweep => e.withCache e.cache.sweep
  | .clear => e.withCache e.cache.clear
  | .shutdown => e.shutdown

/-- The engine after some events. -/
def run (e : Engine) (events : List EngineEvent) : Engine := events.foldl perform e

theorem run_concat (e : Engine) (events : List EngineEvent) (event : EngineEvent) :
    e.run (events ++ [event]) = (e.run events).perform event := List.foldl_concat ..

end Engine

namespace EngineEvent

/-- A rule is built only for a class that the engine reads. -/
def IsOwn (e : Engine) : EngineEvent → Prop
  | build c _ => ∃ token, e.readToken token = .ok c
  | _ => True

/-- The texts that are digested for a compilation. -/
def compileTexts (table : PropertyTable) (limits : InputLimits) (options : SheetOptions)
    (tokens : List Json) (stop : Option Nat) : List String :=
  CacheKey.tokensText (tokens.map Engine.keyToken) :: options.toJson.canonical ::
    (plainBatch table limits tokens stop).parsed.map (Engine.declarationKey · options.important)

/-- The texts that are digested for an event. -/
def digested (e : Engine) : EngineEvent → List String
  | build c important => [Engine.declarationKey c important]
  | generate classes options stop =>
    match SheetOptions.ofJson options, e.tokens classes with
    | .ok options, .ok tokens => compileTexts e.table e.limits options tokens stop
    | _, _ => []
  | _ => []

end EngineEvent

namespace Engine

variable {table : PropertyTable} {limits : InputLimits} {texts : String → Prop} {e first : Engine}

theorem tokens_of_limits (h : e.limits = first.limits) (classes : Json) :
    e.tokens classes = first.tokens classes := by
  simp only [Engine.tokens, h]

theorem tokens_items (e : Engine) (items : List Json) :
    e.tokens (.array items) =
      if e.limits.requestSize < items.length then
        .error (.tooMany items.length e.limits.requestSize)
      else .ok items := by
  simp only [Engine.tokens, pure_bind]
  split <;> rfl

theorem tokens_strings (e : Engine) (names : List String) :
    e.tokens (.strings names) =
      if e.limits.requestSize < names.length then
        .error (.tooMany names.length e.limits.requestSize)
      else .ok (names.map .string) := by
  rw [Json.strings, tokens_items, List.length_map]

theorem Sound.tick (h : e.Sound table limits texts) (seconds : Rat) :
    (e.withCache (e.cache.tick seconds)).Sound table limits texts :=
  ⟨h.table_eq, h.limits_eq, h.keys, h.parse, h.rule, h.generation⟩

theorem Sound.optimize (h : e.Sound table limits texts) :
    (e.withCache e.cache.optimize.1).Sound table limits texts :=
  ⟨h.table_eq, h.limits_eq, h.keys.optimize, h.parse.sweep _ _, h.rule.sweep _ _,
    h.generation.sweep _ _⟩

theorem Sound.startSweeper (h : e.Sound table limits texts) (interval : Option Duration) :
    (e.withCache (e.cache.startSweeper interval).1).Sound table limits texts := by
  unfold CacheSystem.startSweeper
  split
  · exact h
  · exact ⟨h.table_eq, h.limits_eq, h.keys, h.parse, h.rule, h.generation⟩

theorem Sound.clear (h : e.Sound table limits texts) :
    (e.withCache e.cache.clear).Sound table limits texts :=
  ⟨h.table_eq, h.limits_eq, KeyMemo.sound_clear _, .clear, .clear, .clear⟩

/-- A new engine is sound, and it has kept no sheet. -/
theorem sound_ofSettings {settings : CacheSettings} {isSweeping : Bool}
    (h : ofSettings limits settings table isSweeping = .ok e) (texts : String → Prop) :
    e.Sound table limits texts ∧ e.cache.generation.entries = [] := by
  simp only [Engine.ofSettings, CacheSystem.ofSettings, bind, Except.bind, pure, Except.pure] at h
  split at h
  · cases h
  · next cache made =>
    split at made
    · cases made
    next parse hparse =>
    split at made
    · cases made
    next generation hgeneration =>
    split at made
    · cases made
    next rule hrule =>
    split at made
    · cases made
    next keys hkeys =>
    obtain rfl := Except.ok.inj made
    have plain : Engine.Sound table limits texts ⟨limits, table, ⟨parse, generation, rule, keys,
        .ofNumber settings.sweepAge, .ofNumber settings.sweepInterval, 0, false, false, 0⟩⟩ :=
      ⟨rfl, rfl, KeyMemo.sound_ofLimits hkeys, CacheTier.all_ofLimits hparse,
        CacheTier.all_ofLimits hrule, CacheTier.all_ofLimits hgeneration⟩
    have empty := CacheTier.entries_ofLimits hgeneration
    obtain rfl := Except.ok.inj h
    split
    · refine ⟨plain.startSweeper none, ?_⟩
      simp only [CacheSystem.startSweeper]
      split <;> exact empty
    · exact ⟨plain, empty⟩

section Answer

variable {classes options : Json} {stop : Option Nat} {settled : SheetOptions}
  {tokens : List Json}

theorem answer_of_ok (hoptions : SheetOptions.ofJson options = .ok settled)
    (htokens : e.tokens classes = .ok tokens) :
    e.answer classes options stop =
      ((e.generate settled tokens stop).1, .ok (e.generate settled tokens stop).2) := by
  simp only [Engine.answer, hoptions, Engine.generateFrom, htokens]

/-- A request that is not refused gives options and tokens. -/
theorem answer_eq_ok {sheet : Compilation} (h : (e.answer classes options stop).2 = .ok sheet) :
    ∃ settled tokens, SheetOptions.ofJson options = .ok settled ∧ e.tokens classes = .ok tokens ∧
      sheet = (e.generate settled tokens stop).2 := by
  cases hoptions : SheetOptions.ofJson options with
  | error fault =>
    simp only [Engine.answer, hoptions] at h
    cases h
  | ok settled =>
    cases htokens : e.tokens classes with
    | error fault =>
      simp only [Engine.answer, hoptions, Engine.generateFrom, htokens] at h
      cases h
    | ok tokens =>
      rw [answer_of_ok hoptions htokens] at h
      exact ⟨settled, tokens, rfl, rfl, (Except.ok.inj h).symm⟩

/-- A request that is refused leaves the engine as it was. -/
theorem answer_of_refused (h : ∀ settled tokens, SheetOptions.ofJson options = .ok settled →
    e.tokens classes ≠ .ok tokens) : (e.answer classes options stop).1 = e := by
  cases hoptions : SheetOptions.ofJson options with
  | error fault => simp only [Engine.answer, hoptions]
  | ok settled =>
    cases htokens : e.tokens classes with
    | error fault => simp only [Engine.answer, hoptions, Engine.generateFrom, htokens]
    | ok tokens => exact absurd htokens (h settled tokens hoptions)

theorem tokens_within_limit (h : e.tokens classes = .ok tokens) :
    ¬ e.limits.requestSize < (tokens.length : Int) := by
  have within : ∀ given : List Json, (do
      if e.limits.requestSize < given.length then
        throw (RequestFault.tooMany given.length e.limits.requestSize)
      return given) = (Except.ok tokens : Except RequestFault (List Json)) →
        ¬ e.limits.requestSize < (tokens.length : Int) := by
    intro given result long
    split at result
    · cases result
    · next short =>
      obtain rfl := Except.ok.inj result
      exact short long
  cases classes with
  | string s => exact within _ h
  | array items => exact within _ h
  | _ => cases h

/-- A rearrangement of the tokens that a value gives is a value that gives them. -/
theorem tokens_array {order : List Json} (h : e.tokens classes = .ok tokens)
    (perm : order.Perm tokens) : e.tokens (.array order) = .ok order := by
  simp only [Engine.tokens, pure_bind, perm.length_eq, if_neg (tokens_within_limit h)]
  rfl

theorem Sound.digested_generate (h : e.Sound table limits texts) (stop : Option Nat)
    (hoptions : SheetOptions.ofJson options = .ok settled) (htokens : e.tokens classes = .ok tokens)
    (covered : ∀ s ∈ (EngineEvent.generate classes options stop).digested e, texts s) :
    texts (CacheKey.tokensText (tokens.map keyToken)) ∧ texts settled.toJson.canonical ∧
      ∀ c ∈ (plainBatch table limits tokens stop).parsed,
        texts (declarationKey c settled.important) := by
  simp only [EngineEvent.digested, hoptions, htokens, EngineEvent.compileTexts, h.table_eq,
    h.limits_eq] at covered
  refine ⟨covered _ (by simp), covered _ (by simp), fun c hc => covered _ ?_⟩
  exact List.mem_cons_of_mem _ (List.mem_cons_of_mem _ (List.mem_map_of_mem hc))

theorem Sound.answer (h : e.Sound table limits texts) (noCollision : NoCollision texts)
    (covered : ∀ s ∈ (EngineEvent.generate classes options stop).digested e, texts s) :
    (e.answer classes options stop).1.Sound table limits texts := by
  by_cases accepted : ∃ settled tokens, SheetOptions.ofJson options = .ok settled ∧
      e.tokens classes = .ok tokens
  · obtain ⟨settled, tokens, hoptions, htokens⟩ := accepted
    obtain ⟨first, second, third⟩ := h.digested_generate stop hoptions htokens covered
    rw [answer_of_ok hoptions htokens]
    exact (h.generate_spec noCollision first second third).1
  · rw [answer_of_refused fun settled tokens hoptions htokens =>
      accepted ⟨settled, tokens, hoptions, htokens⟩]
    exact h

end Answer

/-- **Every event keeps an engine sound.** -/
theorem Sound.perform (h : e.Sound table limits texts) (noCollision : NoCollision texts)
    {event : EngineEvent} (own : event.IsOwn e) (covered : ∀ s ∈ event.digested e, texts s) :
    (e.perform event).Sound table limits texts := by
  cases event with
  | parse token => exact (h.parse_spec token).1
  | build c important =>
    obtain ⟨token, read⟩ := own
    rw [h.isReading.readToken] at read
    exact (h.build_spec noCollision ⟨token, read⟩ (covered _ List.mem_cons_self)).1
  | parseMany classes stop =>
    simp only [Engine.perform, Engine.parseMany]
    split
    · exact h
    · exact (h.parseTokens_spec _ stop).1
  | generate classes options stop => exact h.answer noCollision covered
  | tick seconds => exact h.tick seconds
  | optimize => exact h.optimize
  | startSweeper interval => exact h.startSweeper interval
  | sweep =>
    have tidy := h.optimize
    exact ⟨tidy.table_eq, tidy.limits_eq, tidy.keys, tidy.parse, tidy.rule, tidy.generation⟩
  | clear => exact h.clear
  | shutdown => exact ⟨h.table_eq, h.limits_eq, h.keys, h.parse, h.rule, h.generation⟩

theorem isOwn_congr (htable : e.table = first.table) (hlimits : e.limits = first.limits)
    {event : EngineEvent} (own : event.IsOwn first) : event.IsOwn e := by
  cases event with
  | build c important =>
    obtain ⟨token, read⟩ := own
    exact ⟨token, by rw [← read, Engine.readToken, Engine.readToken, htable, hlimits]⟩
  | _ => trivial

theorem digested_congr (htable : e.table = first.table) (hlimits : e.limits = first.limits)
    (event : EngineEvent) : event.digested e = event.digested first := by
  cases event with
  | generate classes options stop =>
    simp only [EngineEvent.digested, tokens_of_limits hlimits, htable, hlimits]
  | _ => rfl

/-- **An engine in use stays sound**, whatever it is asked. -/
theorem Sound.run (h : e.Sound table limits texts) (noCollision : NoCollision texts)
    {events : List EngineEvent} (own : ∀ event ∈ events, event.IsOwn e)
    (covered : ∀ event ∈ events, ∀ s ∈ event.digested e, texts s) :
    (e.run events).Sound table limits texts := by
  induction events generalizing e with
  | nil => exact h
  | cons event events ih =>
    have next := h.perform noCollision (own event List.mem_cons_self)
      (covered event List.mem_cons_self)
    have htable := next.table_eq.trans h.table_eq.symm
    have hlimits := next.limits_eq.trans h.limits_eq.symm
    refine ih next (fun other mem => ?_) fun other mem => ?_
    · exact isOwn_congr htable hlimits (own other (List.mem_cons_of_mem _ mem))
    · rw [digested_congr htable hlimits]
      exact covered other (List.mem_cons_of_mem _ mem)

/-- An engine that has kept no sheet compiles without caches. -/
theorem Sound.answer_of_empty (h : e.Sound table limits texts) (noCollision : NoCollision texts)
    (empty : e.cache.generation.entries = []) {classes options : Json} {settled : SheetOptions}
    {tokens : List Json} (hoptions : SheetOptions.ofJson options = .ok settled)
    (htokens : e.tokens classes = .ok tokens)
    (tokensDigested : texts (CacheKey.tokensText (tokens.map keyToken)))
    (optionsDigested : texts settled.toJson.canonical)
    (digested : ∀ c ∈ (plainBatch table limits tokens none).parsed,
      texts (declarationKey c settled.important)) :
    (e.answer classes options none).2 = .ok (plainCompile table limits settled tokens none) := by
  rw [answer_of_ok hoptions htokens]
  rcases (h.generate_spec noCollision tokensDigested optionsDigested digested).2 with plain | kept
  · rw [plain]
  · exact absurd empty kept.1

/-- The texts that are digested for some events. -/
def digestedBy (e : Engine) (events : List EngineEvent) (s : String) : Prop :=
  ∃ event ∈ events, s ∈ event.digested e

end Engine

end BracketCss
