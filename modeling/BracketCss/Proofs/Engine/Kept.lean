import BracketCss.Proofs.Engine.Fresh
import BracketCss.Proofs.Engine.Trace

/-!
# Sheets that are served again

The key of a sheet is the same for every order of its tokens. So a sheet that was compiled is served
for every rearrangement of its tokens, in the order in which it was compiled, as long as the engine
has done no more than reading since. Whatever it did, a compilation that is not cancelled is the one
that a new engine makes: of the same list of tokens if it was made now, and of the same tokens in
some order if it was kept.

## Main definitions

* `Engine.Serves e key sheet`: a sheet is kept under a key and has not expired

## Main results

* `Engine.sheetKey_perm`: the key does not tell the order of the tokens
* `Engine.serves_generate`: a sheet that was compiled is kept
* `Engine.Serves.generate_of_perm`: it is served for every rearrangement
* `Engine.answer_of_run`: answers do not depend on the history
-/

namespace BracketCss.Engine

variable {table : PropertyTable} {limits : InputLimits} {e first : Engine}
  {options : SheetOptions} {tokens : List Json}

/-- The key of a sheet is the same for every order of the tokens. -/
theorem sheetKey_perm {order : List Json} (h : order.Perm tokens) :
    sheetKey options order = sheetKey options tokens := by
  rw [sheetKey, sheetKey, CacheKey.tokensText_perm (h.map keyToken)]

theorem build_frame (e : Engine) (c : UtilityClass) (important : Bool) : ∃ keys rule,
    (e.build c important).1 = e.withCache { e.cache with keys := keys, rule := rule } := by
  unfold build
  dsimp only
  split
  · exact ⟨_, _, rfl⟩
  · split <;> exact ⟨_, _, rfl⟩

theorem buildEach_frame (e : Engine) (important : Bool) (classes : List UtilityClass) :
    ∃ keys rule, (e.buildEach important classes).1 =
      e.withCache { e.cache with keys := keys, rule := rule } := by
  induction classes generalizing e with
  | nil => exact ⟨e.cache.keys, e.cache.rule, rfl⟩
  | cons c rest ih =>
    obtain ⟨_, _, first⟩ := e.build_frame c important
    obtain ⟨keys, rule, last⟩ := ih (e.build c important).1
    refine ⟨keys, rule, ?_⟩
    rw [buildEach_cons_fst, last, first]
    rfl

/-- Compiling touches the keys, the classes and the rules that are kept, and nothing else. -/
theorem compile_frame (e : Engine) (options : SheetOptions) (tokens : List Json)
    (stop : Option Nat) : ∃ keys parse rule, (e.compile options tokens stop).1 =
      e.withCache { e.cache with keys := keys, parse := parse, rule := rule } := by
  obtain ⟨_, parse, read⟩ := e.parseTokens_frame tokens stop
  obtain ⟨keys, rule, built⟩ := (e.parseTokens tokens stop).1.buildEach_frame options.important
    (e.parseTokens tokens stop).2.parsed
  refine ⟨keys, parse, rule, built.trans ?_⟩
  rw [read]
  rfl

theorem isCancelled_compile (e : Engine) (options : SheetOptions) (tokens : List Json) :
    (e.compile options tokens none).2.isCancelled = false := by
  simp [compile, Compilation.ofRules, Engine.parseTokens, Batch.ofResults]

/-- A sheet is kept under a key and has not expired. -/
def Serves (e : Engine) (key : String) (sheet : Compilation) : Prop :=
  (e.cache.generation.get e.cache.now key).2 = some sheet

/-- A sheet that was compiled is kept. -/
theorem serves_generate (h : e.cache.keys.Sound)
    (alive : e.cache.generation.lifetime.isOver 0 = false)
    (new : (e.generate options tokens none).2.isCached = false) :
    (e.generate options tokens none).1.Serves (sheetKey options tokens)
      (e.generate options tokens none).2 := by
  obtain ⟨keys, -, ⟨sheet, -, served⟩ | ⟨-, next, sheet, made, served⟩⟩ :=
    e.generate_cases h options tokens none
  · rw [served] at new
    cases new
  · obtain ⟨_, _, _, frame⟩ :=
      (e.lookedUp keys (sheetKey options tokens)).compile_frame options tokens none
    rw [made] at frame
    obtain rfl := frame
    have running := isCancelled_compile (e.lookedUp keys (sheetKey options tokens)) options tokens
    rw [made] at running
    have living : (e.cache.generation.get e.cache.now
        (sheetKey options tokens)).1.lifetime.isOver 0 = false := by
      rwa [CacheTier.lifetime_get]
    rw [served, if_neg (by rw [running]; exact Bool.false_ne_true)]
    exact CacheTier.get_set living _ _ _

theorem Serves.parseTokens {key : String} {sheet : Compilation} (h : e.Serves key sheet)
    (tokens : List Json) (stop : Option Nat) : (e.parseTokens tokens stop).1.Serves key sheet := by
  obtain ⟨_, _, read⟩ := e.parseTokens_frame tokens stop
  rw [read]
  exact h

/-- **A sheet that is kept is served for every rearrangement of its tokens.** -/
theorem Serves.generate_of_perm {sheet : Compilation} (h : e.Serves (sheetKey options tokens) sheet)
    (sound : e.cache.keys.Sound) {order : List Json} (perm : order.Perm tokens)
    (stop : Option Nat) : (e.generate options order stop).2 = sheet.fromCache := by
  obtain ⟨keys, -, ⟨other, hit, served⟩ | ⟨missed, -⟩⟩ := e.generate_cases sound options order stop
  · rw [sheetKey_perm perm] at hit
    rw [served, Option.some.inj (hit.symm.trans h)]
  · rw [sheetKey_perm perm, h] at missed
    cases missed

/-- **A sheet is compiled once for all orders of its tokens**: the second one is the first one
again, whatever was read in between. -/
theorem Sound.generate_again (h : e.Sound table limits fun _ => False)
    (alive : e.cache.generation.lifetime.isOver 0 = false) {order : List Json}
    (perm : order.Perm tokens) (read : List Json) :
    (((e.generate options tokens none).1.parseTokens read none).1.generate options order none).2 =
      (plainCompile table limits options tokens none).fromCache := by
  have plain := h.generate_of_no_texts options tokens none
  have served : (e.generate options tokens none).1.Serves (sheetKey options tokens)
      (e.generate options tokens none).2 :=
    serves_generate h.keys alive (by rw [plain]; rfl)
  have traced : (e.generate options tokens none).1.IsTraced table limits fun _ => True :=
    ((h.isTraced _).generate none trivial).1
  rw [(served.parseTokens read none).generate_of_perm (traced.parseTokens_spec read none).keys perm,
    plain]

/-! ## Answers -/

/-- **Answers do not depend on the history.** Provided that no two digested texts collide, an
answer that was not cancelled is that of a new engine: to the same request if it was made now, and
to a request with the same tokens in some order if it was kept. -/
theorem answer_of_run {settings others : CacheSettings} {isSweeping sweeps : Bool}
    {fresh : Engine} (hfirst : ofSettings limits settings table isSweeping = .ok first)
    (hfresh : ofSettings limits others table sweeps = .ok fresh) {events : List EngineEvent}
    (own : ∀ event ∈ events, event.IsOwn first) {classes options : Json} {stop : Option Nat}
    (noCollision :
      NoCollision (digestedBy first (events ++ [.generate classes options stop])))
    {sheet : Compilation}
    (answered : ((first.run events).answer classes options stop).2 = .ok sheet)
    (running : sheet.isCancelled = false) :
    (sheet.isCached = false → (fresh.answer classes options none).2 = .ok sheet) ∧
      (sheet.isCached = true → ∃ tokens order plain, first.tokens classes = .ok tokens ∧
        order.Perm tokens ∧ (fresh.answer (.array order) options none).2 = .ok plain ∧
        plain.isCached = false ∧ sheet = plain.fromCache) := by
  obtain ⟨soundFirst, _⟩ := sound_ofSettings hfirst
    (digestedBy first (events ++ [.generate classes options stop]))
  obtain ⟨soundFresh, empty⟩ := sound_ofSettings hfresh
    (digestedBy first (events ++ [.generate classes options stop]))
  have used := soundFirst.run noCollision own fun event mem s hs =>
    ⟨event, List.mem_append_left _ mem, hs⟩
  have htable := used.table_eq.trans soundFirst.table_eq.symm
  have hlimits := used.limits_eq.trans soundFirst.limits_eq.symm
  have sameTokens := tokens_of_limits hlimits classes
  have freshLimits := soundFresh.limits_eq.trans soundFirst.limits_eq.symm
  obtain ⟨settled, tokens, hoptions, htokens, rfl⟩ := answer_eq_ok answered
  obtain ⟨tokensDigested, optionsDigested, digested⟩ :=
    used.digested_generate stop hoptions htokens fun s hs =>
      ⟨.generate classes options stop, by simp, by rwa [digested_congr htable hlimits] at hs⟩
  rw [sameTokens] at htokens
  have freshTokens : fresh.tokens classes = .ok tokens := by
    rw [tokens_of_limits freshLimits, htokens]
  rcases (used.generate_spec noCollision tokensDigested optionsDigested digested).2 with
    plain | ⟨_, order, perm, orderDigested, digested, kept⟩
  · rw [plain] at running ⊢
    have complete := plainBatch_of_not_cancelled running
    rw [complete] at digested
    refine ⟨fun _ => ?_, fun cached => by cases cached⟩
    rw [soundFresh.answer_of_empty noCollision empty hoptions freshTokens tokensDigested
      optionsDigested digested, plainCompile, plainCompile, complete]
  · rw [kept]
    refine ⟨fun fresh => absurd (show true = false from fresh) (by decide), fun _ => ?_⟩
    exact ⟨tokens, order, _, htokens, perm, soundFresh.answer_of_empty noCollision empty hoptions
      (tokens_array freshTokens perm) orderDigested optionsDigested digested, rfl, rfl⟩

section Example

theorem canonical_default :
    SheetOptions.default.toJson.canonical =
      "\x7b\"group_selectors\":true,\"important\":false,\"include_comments\":false," ++
        "\"minify\":false,\"scope\":null\x7d" := by
  simp [SheetOptions.toJson, SheetOptions.default, SheetOptions.fields, Json.canonical,
    Json.printWith, Json.printFields, Json.sortFields, OptionName.name, List.mergeSort,
    Json.objectText, Json.stringOrNull]
  decide +kernel

/-- The texts that are digested for two classes. -/
def twoTexts : List String :=
  ["[\"\\\"p-[1px]\\\"\",\"\\\"p-[2px]\\\"\"]",
    "\x7b\"group_selectors\":true,\"important\":false,\"include_comments\":false," ++
      "\"minify\":false,\"scope\":null\x7d",
    "\x7b\"padding\":\"1px\"\x7d", "\x7b\"padding\":\"2px\"\x7d"]

theorem noCollision_twoTexts : NoCollision (· ∈ twoTexts) :=
  noCollision_of_nodup (by decide +kernel)

theorem tokensText_twoNames : CacheKey.tokensText ((twoNames.map .string).map keyToken) =
    "[\"\\\"p-[1px]\\\"\",\"\\\"p-[2px]\\\"\"]" := by
  rw [CacheKey.tokensText, List.mergeSort_of_pairwise (by decide +kernel)]
  decide +kernel

/-- A sheet of both classes, in any order, digests these texts only. -/
theorem mem_twoTexts {names : List String} (h : names = twoNames ∨ names = twoNames.reverse)
    {text : String}
    (mem : text ∈ EngineEvent.compileTexts .standard .standard .default (names.map .string) none) :
    text ∈ twoTexts := by
  have perm : names.Perm twoNames := by
    rcases h with rfl | rfl
    · exact List.Perm.refl _
    · exact List.reverse_perm _
  have declared : ∀ c ∈ (plainBatch .standard .standard (names.map .string) none).parsed,
      (c.property, declaredValue SheetOptions.default.important c.value) ∈
        [("padding", "1px"), ("padding", "2px")] := by
    rcases h with rfl | rfl <;> decide +kernel
  simp only [EngineEvent.compileTexts, List.mem_cons, List.mem_map] at mem
  rcases mem with rfl | rfl | ⟨c, read, rfl⟩
  · rw [CacheKey.tokensText_perm ((perm.map .string).map keyToken), tokensText_twoNames]
    decide +kernel
  · rw [canonical_default]
    decide +kernel
  · rw [declarationKey_eq]
    have pair := declared c read
    simp only [List.mem_cons, Prod.mk.injEq, List.not_mem_nil, or_false] at pair
    rcases pair with ⟨property, value⟩ | ⟨property, value⟩
    · rw [property, value]
      decide +kernel
    · rw [property, value]
      decide +kernel

/-- A token is read, and the timer removes what is old. -/
def readingHistory : List EngineEvent := [.parse (.string "p-[1px]"), .tick 1800, .sweep]

/-- Two classes are compiled and read again. -/
def keptHistory : List EngineEvent :=
  readingHistory ++ [.generate (.strings twoNames) .null none, .parseMany (.strings twoNames) none]

theorem tokens_two (h : e.limits = .standard) {names : List String}
    (two : names = twoNames ∨ names = twoNames.reverse) :
    e.tokens (.strings names) = .ok (names.map .string) := by
  rw [tokens_strings, h, if_neg]
  rcases two with rfl | rfl <;> decide

theorem mem_twoTexts_of_digested (table : e.table = .standard) (limits : e.limits = .standard)
    {names : List String} (two : names = twoNames ∨ names = twoNames.reverse) {text : String}
    (mem : text ∈ (EngineEvent.generate (.strings names) .null none).digested e) :
    text ∈ twoTexts := by
  have settled : SheetOptions.ofJson .null = .ok .default := rfl
  rw [EngineEvent.digested, settled, tokens_two limits two, table, limits] at mem
  exact mem_twoTexts two mem

theorem mem_twoTexts_of_digestedBy (table : e.table = .standard) (limits : e.limits = .standard)
    {text : String} (mem : digestedBy e
      (keptHistory ++ [.generate (.strings twoNames.reverse) .null none]) text) :
    text ∈ twoTexts := by
  obtain ⟨event, place, digested⟩ := mem
  simp only [keptHistory, readingHistory, List.cons_append, List.nil_append, List.mem_cons,
    List.not_mem_nil, or_false] at place
  rcases place with rfl | rfl | rfl | rfl | rfl | rfl
  case inr.inr.inr.inl => exact mem_twoTexts_of_digested table limits (.inl rfl) digested
  case inr.inr.inr.inr.inr => exact mem_twoTexts_of_digested table limits (.inr rfl) digested
  all_goals cases digested

theorem run_keptHistory (made : ofSettings .standard .standard .standard true = .ok first) :
    first.run keptHistory = (((first.run readingHistory).generate .default (twoNames.map .string)
      none).1.parseTokens (twoNames.map .string) none).1 := by
  have settled : SheetOptions.ofJson .null = .ok .default := rfl
  have compiled : first.run (readingHistory ++ [.generate (.strings twoNames) .null none]) =
      ((first.run readingHistory).generate .default (twoNames.map .string) none).1 := by
    rw [run_concat, perform, answer_of_ok settled
      (tokens_two (isReading_run made readingHistory).limits_eq (.inl rfl))]
  have given := tokens_two (isReading_run made
    (readingHistory ++ [.generate (.strings twoNames) .null none])).limits_eq (.inl rfl)
  rw [show keptHistory = (readingHistory ++ [.generate (.strings twoNames) .null none]) ++
    [.parseMany (.strings twoNames) none] from rfl, run_concat, perform, parseMany, given, compiled]

/-- The first request is compiled, and the second one, for the same classes in the other order, is
answered with the sheet of the first. -/
theorem answer_of_run_keptHistory : ∃ first new kept order plain,
    ofSettings .standard .standard .standard true = .ok first ∧
      NoCollision (digestedBy first
        (keptHistory ++ [.generate (.strings twoNames.reverse) .null none])) ∧
      ((first.run readingHistory).answer (.strings twoNames) .null none).2 = .ok new ∧
      new.isCached = false ∧ (first.answer (.strings twoNames) .null none).2 = .ok new ∧
      ((first.run keptHistory).answer (.strings twoNames.reverse) .null none).2 = .ok kept ∧
      kept.isCached = true ∧ order.Perm (twoNames.reverse.map Json.string) ∧
      (first.answer (.array order) .null none).2 = .ok plain ∧ kept = plain.fromCache := by
  obtain ⟨first, made, alive⟩ : ∃ first, ofSettings .standard .standard .standard true =
      .ok first ∧ (first.run readingHistory).cache.generation.lifetime.isOver 0 = false :=
    ⟨_, rfl, by decide +kernel⟩
  have start := (sound_ofSettings made fun _ => False).1
  have noCollision : NoCollision (digestedBy first
      (keptHistory ++ [.generate (.strings twoNames.reverse) .null none])) :=
    noCollision_twoTexts.mono fun _ => mem_twoTexts_of_digestedBy start.table_eq start.limits_eq
  have early : NoCollision (digestedBy first
      (readingHistory ++ [.generate (.strings twoNames) .null none])) := by
    refine noCollision.mono fun _ ⟨event, mem, digested⟩ => ⟨event, ?_, digested⟩
    simp only [keptHistory, List.mem_append, List.mem_cons] at mem ⊢
    tauto
  have own : ∀ event ∈ readingHistory, event.IsOwn first := by
    simp [readingHistory, EngineEvent.IsOwn]
  have all : ∀ event ∈ keptHistory, event.IsOwn first := by
    simp [keptHistory, readingHistory, EngineEvent.IsOwn]
  have read : (first.run readingHistory).Sound .standard .standard fun _ => False := by
    refine start.run (fun _ _ none_ => none_.elim) own ?_
    simp [readingHistory, EngineEvent.digested]
  have new : ((first.run readingHistory).answer (.strings twoNames) .null none).2 =
      .ok (plainCompile .standard .standard .default (twoNames.map .string) none) := by
    rw [answer_of_ok rfl (tokens_two read.limits_eq (.inl rfl)), read.generate_of_no_texts]
  have kept : ((first.run keptHistory).answer (.strings twoNames.reverse) .null none).2 =
      .ok (plainCompile .standard .standard .default (twoNames.map .string) none).fromCache := by
    rw [answer_of_ok rfl (tokens_two (isReading_run made keptHistory).limits_eq (.inr rfl)),
      run_keptHistory made, read.generate_again alive ((List.reverse_perm _).map _)]
  obtain ⟨tokens, order, plain, given, perm, fresh, -, same⟩ :=
    (answer_of_run made made all noCollision kept rfl).2 rfl
  obtain rfl := Except.ok.inj ((tokens_two start.limits_eq (.inr rfl)).symm.trans given)
  exact ⟨first, _, _, order, plain, made, noCollision, new, rfl,
    (answer_of_run made made own early new rfl).1 rfl, kept, rfl, perm, fresh, same⟩

end Example

end BracketCss.Engine
