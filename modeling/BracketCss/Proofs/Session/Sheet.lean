import BracketCss.Proofs.Session.Order

/-!
# What a sheet holds

Whenever a session gives a sheet, it is the sheet of the classes that are held, compiled under the
options of the call: every class that is held is that of a rule or of a report, and of one only.
Neither a sheet that the session keeps nor one that its engine keeps is ever served for other
classes or other options, provided that no two texts that were digested have the same digest.

## Main definitions

* `SessionEvent.digested s event`: the texts that are digested for an event
* `Session.IsSheetOf table limits options names sheet`: the sheet of some names in some order
* `Session.IsSound table limits texts s`: the invariant

## Main results

* `Session.IsSound.perform`, `Session.IsSound.run`: a session in use keeps the invariant
* `Session.names_of_css`: the names in a sheet are those that are held
-/

namespace BracketCss

namespace SessionEvent

/-- Others build a rule only for a class that the engine reads. -/
def IsOwn (table : PropertyTable) (limits : InputLimits) : SessionEvent → Prop
  | engine (.build c _) => IsRead table limits c
  | _ => True

/-- The texts that are digested for an event. -/
def digested (s : Session) : SessionEvent → List String
  | engine event => event.digested s.engine
  | event => (event.requests s).flatMap fun request =>
      EngineEvent.compileTexts s.engine.table s.engine.limits request.options request.tokens none

end SessionEvent

namespace Session

/-- The texts that are digested along a history. -/
def digested (s : Session) (events : List SessionEvent) : List String :=
  s.along (fun s event => event.digested s) events

/-- The sheet of some names in some order, whether it was kept or not. -/
def IsSheetOf (table : PropertyTable) (limits : InputLimits) (options : SheetOptions)
    (names : List String) (sheet : Compilation) : Prop :=
  ∃ order : List String, order.Perm names ∧
    sheet.fromCache = (plainCompile table limits options (order.map .string) none).fromCache

/-- The engine is sound, the classes are as they should be, and the sheet that is kept is theirs. -/
structure IsSound (table : PropertyTable) (limits : InputLimits) (texts : String → Prop)
    (s : Session) : Prop extends HoldsOwn table limits s where
  engine : s.engine.Sound table limits texts
  sheet : ∀ options sheet, s.sheet = some (options, sheet) →
    IsSheetOf table limits options s.classes sheet

variable {table : PropertyTable} {limits : InputLimits} {texts : String → Prop} {s : Session}

/-- A request for the classes that are held is answered with their sheet. -/
theorem IsSound.generate (h : s.IsSound table limits texts) (noCollision : NoCollision texts)
    {options : SheetOptions}
    (covered : ∀ text ∈ EngineEvent.compileTexts s.engine.table s.engine.limits options s.held none,
      texts text) :
    (s.engine.generate options s.held none).1.Sound table limits texts ∧
      IsSheetOf table limits options s.classes (s.engine.generate options s.held none).2 := by
  rw [h.engine.table_eq, h.engine.limits_eq] at covered
  have digested : ∀ c ∈ (plainBatch table limits s.held none).parsed,
      texts (Engine.declarationKey c options.important) := fun c mem =>
    covered _ (List.mem_cons_of_mem _ (List.mem_cons_of_mem _ (List.mem_map_of_mem mem)))
  obtain ⟨sound, plain | ⟨-, order, perm, -, -, kept⟩⟩ := h.engine.generate_spec noCollision
    (covered _ List.mem_cons_self) (covered _ (List.mem_cons_of_mem _ List.mem_cons_self)) digested
  · refine ⟨sound, s.classes, List.Perm.refl _, ?_⟩
    rw [plain, held]
  · obtain ⟨names, arranged, rfl⟩ := exists_perm_map_eq perm
    refine ⟨sound, names, arranged, ?_⟩
    rw [kept]
    rfl

/-- **Every event keeps a session sound.** -/
theorem IsSound.perform (h : s.IsSound table limits texts) (noCollision : NoCollision texts)
    {event : SessionEvent} (own : event.IsOwn table limits)
    (covered : ∀ text ∈ event.digested s, texts text) :
    (s.perform event).IsSound table limits texts := by
  obtain ⟨-, turn, uses⟩ := s.perform_cases event
  have asked : ∀ options, s.Asks event options → ∀ text ∈
      EngineEvent.compileTexts s.engine.table s.engine.limits options s.held none, texts text := by
    rintro options ⟨⟨given, rfl⟩, request⟩ text mem
    refine covered text ?_
    rw [SessionEvent.digested, request]
    · simpa using mem
    · rintro _ ⟨⟩
  refine ⟨h.toHoldsOwn.perform h.engine.isReading event, ?_, ?_⟩
  · cases uses with
    | same engine => exact engine ▸ h.engine
    | read tokens engine => exact engine ▸ (h.engine.parseTokens_spec tokens none).1
    | generated options request engine =>
      rw [engine]
      exact (h.generate noCollision (asked options request)).1
    | performed inner origin engine =>
      rw [engine]
      rcases origin with rfl | ⟨seconds, rfl⟩
      · refine h.engine.perform noCollision ?_ covered
        cases inner with
        | build c important =>
          obtain ⟨token, read⟩ := own
          exact ⟨token, by rw [h.engine.isReading.readToken, read]⟩
        | _ => trivial
      · exact h.engine.tick seconds
  · exact turn.sheet h.sheet fun settled request =>
      (h.generate noCollision (asked settled request)).2

/-- **A session in use stays sound**, given the texts along its history. -/
theorem IsSound.run (h : s.IsSound table limits texts) (noCollision : NoCollision texts)
    {events : List SessionEvent} (own : ∀ event ∈ events, event.IsOwn table limits)
    (covered : ∀ text ∈ s.digested events, texts text) :
    (s.run events).IsSound table limits texts :=
  run_induction (fun _ event mem sound now => sound.perform noCollision (own event mem) now) h
    covered

theorem isSound_ofEngine {engine : Engine} {ownsEngine keepsSheet : Bool} {capacity : Int}
    {options : Except OptionFault SheetOptions}
    (h : ofEngine engine ownsEngine options capacity keepsSheet = .ok s)
    (sound : engine.Sound table limits texts) : s.IsSound table limits texts := by
  obtain ⟨own, rfl, gone⟩ := holdsOwn_ofEngine h
  refine ⟨own, sound, fun _ _ kept => ?_⟩
  rw [gone] at kept
  cases kept

/-- A sheet that is given is that of the classes that are held. -/
theorem IsSound.css (h : s.IsSound table limits texts) (noCollision : NoCollision texts)
    {options : Json} (covered : ∀ text ∈ (SessionEvent.css options).digested s, texts text)
    {sheet : Compilation} (answered : (s.css options).2 = .ok sheet) :
    ∃ settled, s.effectiveOptions options = .ok settled ∧
      IsSheetOf table limits settled s.classes sheet := by
  obtain ⟨settled, given, ⟨kept, found, rfl⟩ | ⟨request, rfl⟩⟩ := css_eq_ok answered
  · exact ⟨settled, given, h.sheet settled kept found⟩
  · refine ⟨settled, given, (h.generate noCollision fun text mem => covered text ?_).2⟩
    rw [SessionEvent.digested, request]
    · simpa using mem
    · rintro _ ⟨⟩

/-- The sheet of some names has every one of them in a rule or in a report, and it is rendered from
its groups. -/
theorem IsSheetOf.spec {options : SheetOptions} {names : List String} {sheet : Compilation}
    (h : IsSheetOf table limits options names sheet) (nodup : names.Nodup)
    (own : ∀ name ∈ names, IsOwnName table limits name) :
    (sheet.rules.map (·.className) ++ sheet.invalid.map (·.className)).Perm names ∧
      sheet.css = renderSheet options sheet.groups := by
  obtain ⟨order, perm, same⟩ := h
  have css := congrArg Compilation.css same
  have rules := congrArg Compilation.rules same
  have groups := congrArg Compilation.groups same
  have invalid := congrArg Compilation.invalid same
  simp only [Compilation.fromCache] at css rules groups invalid
  have all := perm_names_plainCompile options (perm.nodup_iff.2 nodup)
    fun name mem => own name (perm.subset mem)
  rw [css, rules, groups, invalid]
  exact ⟨all.trans perm, css_plainCompile options _ none⟩

/-- **What a sheet holds.** Unless two of the texts that are digested collide, the rules and reports
of a sheet have the names that are held and no others, each once, and the sheet is that of these
names under the options of the call. -/
theorem names_of_css {settings : CacheSettings} {isSweeping ownsEngine keepsSheet : Bool}
    {engine : Engine} (hengine : Engine.ofSettings limits settings table isSweeping = .ok engine)
    {initial : Except OptionFault SheetOptions} {capacity : Int} {first : Session}
    (hfirst : ofEngine engine ownsEngine initial capacity keepsSheet = .ok first)
    {events : List SessionEvent} (own : ∀ event ∈ events, event.IsOwn table limits)
    {options : Json} (noCollision : NoCollision (· ∈ first.digested (events ++ [.css options])))
    {sheet : Compilation} (answered : ((first.run events).css options).2 = .ok sheet) :
    (first.run events).classes.Nodup ∧
      (sheet.rules.map (·.className) ++ sheet.invalid.map (·.className)).Perm
        (first.run events).classes ∧
      ∃ settled, (first.run events).effectiveOptions options = .ok settled ∧
        sheet.css = renderSheet settled sheet.groups ∧
        IsSheetOf table limits settled (first.run events).classes sheet := by
  have start : first.IsSound table limits (· ∈ first.digested (events ++ [.css options])) :=
    isSound_ofEngine hfirst (Engine.sound_ofSettings hengine _).1
  have whole : first.digested (events ++ [.css options]) =
      first.digested events ++ (SessionEvent.css options).digested (first.run events) :=
    first.along_concat events _
  have used := start.run noCollision own fun text mem => whole ▸ List.mem_append_left _ mem
  obtain ⟨settled, given, present⟩ := used.css noCollision
    (fun text mem => whole ▸ List.mem_append_right _ mem) answered
  obtain ⟨names, css⟩ := present.spec used.nodup used.own
  exact ⟨used.nodup, names, settled, given, css, present⟩

section Example

theorem IsAt.mem_twoTexts {names : List String} {capacity : Int} {e : Engine}
    (h : s.IsAt names .default capacity e) (reading : e.IsReading .standard .standard)
    (two : names = twoNames ∨ names = twoNames.reverse) {text : String}
    (mem : text ∈ (SessionEvent.css .null).digested s) : text ∈ Engine.twoTexts := by
  obtain ⟨rfl, options, rfl, rfl⟩ := h
  have given : s.effectiveOptions .null = .ok .default := congrArg Except.ok options
  obtain ⟨request, asked, mem⟩ := List.mem_flatMap.1 mem
  rw [requests_css given] at asked
  rw [eq_of_mem_sheetRequests asked, reading.table_eq, reading.limits_eq] at mem
  exact Engine.mem_twoTexts two mem

/-- The last sheet, which the engine had kept in another order, has both classes. -/
theorem names_of_css_readdingTwo : ∃ engine first sheet,
    Engine.ofSettings .standard .standard .standard true = .ok engine ∧
      ofEngine engine false (.ok .default) 10 true = .ok first ∧
      NoCollision (· ∈ first.digested (readdingTwo ++ [.css .null])) ∧
      ((first.run readdingTwo).css .null).2 = .ok sheet ∧
      (sheet.rules.map (·.className) ++ sheet.invalid.map (·.className)).Perm
        (first.run readdingTwo).classes := by
  obtain ⟨engine, first, sheet, made, start, answered, -, -⟩ := exists_readdingTwo
  have own : ∀ event ∈ readdingTwo, event.IsOwn .standard .standard := by
    simp [readdingTwo, readding, SessionEvent.IsOwn]
  have noCollision : NoCollision (· ∈ first.digested (readdingTwo ++ [.css .null])) := by
    refine Engine.noCollision_twoTexts.mono fun text mem => ?_
    obtain ⟨at₁, at₄, -, traced⟩ := isAt_readding made start (by decide) isOwnName_twoNames
      (by decide) (by decide)
    have options : first.options = .default := by
      obtain ⟨-, settled, same, rfl⟩ := ofEngine_eq_ok start
      exact (Except.ok.inj same).symm
    rw [options] at at₁ at₄ traced
    have reading := ((Engine.sound_ofSettings made fun _ => False).1.parseTokens_spec
      (twoNames.map .string) none).1.isReading
    -- the classes are compiled twice, and nothing else is digested
    rw [digested, along_concat] at mem
    rcases List.mem_append.1 mem with early | last
    · have once : text ∈ (SessionEvent.css .null).digested
          (first.perform (.add (.strings twoNames))) := by
        simpa [readdingTwo, readding, twoNames, along, SessionEvent.digested,
          SessionEvent.requests] using early
      exact at₁.mem_twoTexts reading (.inl rfl) once
    · exact at₄.mem_twoTexts (traced.parseTokens_spec _ none).toIsReading (.inr rfl) last
  exact ⟨engine, first, sheet, made, start, noCollision, answered,
    (names_of_css made start own noCollision answered).2.1⟩

end Example

end Session

end BracketCss
