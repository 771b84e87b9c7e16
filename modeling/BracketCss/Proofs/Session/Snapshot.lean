import BracketCss.Proofs.Session.Addition
import BracketCss.Proofs.Session.Load
import BracketCss.Proofs.Sheet.Options

/-!
# Saving a session and starting from it

A saved state names the classes that a session holds and lists its options. Both are accepted when
they are given back: every name is read as itself, and the listing of options gives the same
options. So another session over the same engine with the same room can start from the state, as
long as the classes fit into one request.

## Main results

* `isAccepted_run`: the options of a session in use were accepted
* `newNames_of_ownNames`: names that are read as themselves are new to an empty session
* `load_stateJson_of_run`: a saved state is loaded as it was
-/

namespace BracketCss.Session

variable {table : PropertyTable} {limits : InputLimits} {s : Session}

/-! ## Options -/

theorem options_add (s : Session) (classes : Json) : (s.add classes).1.options = s.options := by
  obtain ⟨fault, -, refused⟩ | ⟨tokens, -, added⟩ := s.add_cases classes
  · rw [refused]
  · rw [added]
    obtain ⟨-, full⟩ | ⟨-, -, -, options, -⟩ :=
      { s with engine := (s.engine.parseTokens tokens none).1 }.addBatch_cases
        (s.engine.parseTokens tokens none).2
    · rw [full]
    · exact options

theorem isAccepted_savedOptions (h : s.options.IsAccepted) {fields : List (String × Json)}
    {options : SheetOptions} (given : s.savedOptions fields = .ok options) :
    options.IsAccepted := by
  unfold savedOptions at given
  split at given
  · exact Except.ok.inj given ▸ h
  · exact Except.ok.inj given ▸ h
  · next options _ _ =>
    cases accepted : SheetOptions.ofJson options with
    | error fault =>
      rw [accepted] at given
      cases given
    | ok settled =>
      rw [accepted] at given
      exact Except.ok.inj given ▸ SheetOptions.isAccepted_ofJson accepted

/-- Options stay, or they are replaced by options that are checked. -/
theorem isAccepted_perform (h : s.options.IsAccepted) (event : SessionEvent) :
    (s.perform event).options.IsAccepted := by
  cases event with
  | add classes => exact (s.options_add classes).symm ▸ h
  | addMarkup document =>
    cases document with
    | string text => exact (s.options_add _).symm ▸ h
    | _ => exact h
  | remove classes =>
    simp only [perform, remove]
    split
    · exact h
    · split <;> exact h
  | clear => exact h
  | updateOptions changes =>
    simp only [perform, updateOptions]
    split
    · exact h
    · next merged => exact SheetOptions.isAccepted_merge merged
  | css options =>
    cases given : s.effectiveOptions options with
    | error fault =>
      rw [perform, css_of_error given]
      exact h
    | ok settled =>
      rw [perform, css_of_ok given]
      obtain ⟨sheet, -, kept⟩ | ⟨-, -, refused⟩ | ⟨-, -, made⟩ := s.cssWith_cases settled
      · rw [kept]
        exact h
      · rw [refused]
        exact h
      · rw [made]
        dsimp only [afterSheet]
        split <;> exact h
  | load state =>
    obtain ⟨fault, -, failed⟩ | ⟨fields, items, settled, -, -, given, loaded⟩ := s.load_cases state
    · rw [perform, failed]
      exact h
    · rw [perform, loaded, options_add]
      exact isAccepted_savedOptions h given
  | tick seconds => exact h
  | engine inner => exact h

/-- **The options of a session in use were accepted.** -/
theorem isAccepted_run (h : s.options.IsAccepted) (events : List SessionEvent) :
    (s.run events).options.IsAccepted := by
  induction events generalizing s with
  | nil => exact h
  | cons event events ih => exact ih (isAccepted_perform h event)

theorem isAccepted_ofEngine {engine : Engine} {ownsEngine keepsSheet : Bool} {capacity : Int}
    {given : Json}
    (h : ofEngine engine ownsEngine (SheetOptions.ofJson given) capacity keepsSheet = .ok s) :
    s.options.IsAccepted := by
  obtain ⟨-, settled, accepted, rfl⟩ := ofEngine_eq_ok h
  exact SheetOptions.isAccepted_ofJson accepted

/-! ## Classes -/

/-- Names that are read as themselves are all new to an empty session. -/
theorem newNames_of_ownNames (reading : s.engine.IsReading table limits) (empty : s.classes = [])
    {names : List String} (nodup : names.Nodup)
    (own : ∀ name ∈ names, IsOwnName table limits name) :
    s.newNames (names.map .string) = names := by
  rw [← fresh_parseTokens reading, empty, fresh_nil, (reading.parseTokens _ none).2,
    (valid_of_ownNames nodup own).1]

theorem load_of_fields {fields : List (String × Json)} {items : List Json}
    {settled : SheetOptions} (classes : fields.lookup "classes" = some (.array items))
    (options : s.savedOptions fields = .ok settled) :
    s.load (.object fields) = { s.clear.1 with options := settled }.add (.array items) := by
  simp only [load, classes, options]

/-- A saved state passes the check, and its classes are added to the emptied session. -/
theorem load_stateJson {t : Session} (h : s.options.IsAccepted) :
    t.load s.stateJson = { t.clear.1 with options := s.options }.add (.strings s.classes) := by
  refine load_of_fields rfl ?_
  show (SheetOptions.ofJson s.options.toJson).mapError SessionFault.options = .ok s.options
  rw [SheetOptions.ofJson_toJson h]
  rfl

variable {settings : CacheSettings} {isSweeping ownsEngine keepsSheet : Bool} {engine : Engine}
  {given : Json} {capacity : Int} {first : Session}

/-- **A saved session is restored.** Whatever a session has been through, if its classes fit into
one request then its saved state is loaded by a new session over the same engine and with the same
room, whatever the engine was used for since: no class is refused, the same classes are held in the
same order, and the options are the same. The state that is saved then gives the same classes and
options. -/
theorem load_stateJson_of_run
    (hengine : Engine.ofSettings limits settings table isSweeping = .ok engine)
    (before : List EngineEvent)
    (hfirst : ofEngine (engine.run before) ownsEngine (SheetOptions.ofJson given) capacity
      keepsSheet = .ok first)
    (events : List SessionEvent)
    (fits : ((first.run events).classes.length : Int) ≤ limits.requestSize)
    (between : List EngineEvent) {ownsNext keepsNext : Bool} {other : Json} {next : Session}
    (hnext : ofEngine ((first.run events).engine.run between) ownsNext (SheetOptions.ofJson other)
      capacity keepsNext = .ok next) :
    let s := first.run events
    let loaded := (next.load s.stateJson).1
    (∃ update, (next.load s.stateJson).2 = .ok update ∧ update.invalid = [] ∧
      update.added = s.classes.length ∧ update.total = s.classes.length) ∧
      loaded.classes = s.classes ∧ loaded.options = s.options ∧
      loaded.stateJson.field? "classes" = s.stateJson.field? "classes" ∧
      loaded.stateJson.field? "options" = s.stateJson.field? "options" := by
  intro s
  have used : s.Holds table limits fun _ => True :=
    (holds_ofEngine hfirst ((Engine.isTraced_ofSettings hengine _).run before)).run
      fun _ _ => trivial
  have room : (s.classes.length : Int) ≤ capacity := by
    rw [← (isAt_ofEngine hfirst).capacity, ← first.capacity_run events]
    exact used.room
  obtain ⟨-, -, bound, later⟩ := isAt_ofEngine hnext
  obtain ⟨t, loaded, empty, settled, same, reading⟩ : ∃ t : Session,
      next.load s.stateJson = t.add (.strings s.classes) ∧ t.classes = [] ∧
        t.options = s.options ∧ t.capacity = capacity ∧ t.engine.IsReading table limits :=
    ⟨_, load_stateJson (isAccepted_run (isAccepted_ofEngine hfirst) events), rfl, rfl, bound,
      later ▸ (used.engine.run between).toIsReading⟩
  have new := newNames_of_ownNames reading empty used.nodup used.own
  have taken : t.engine.tokens (.strings s.classes) = .ok (s.classes.map .string) := by
    rw [Engine.tokens_strings, reading.limits_eq, if_neg (Int.not_lt.2 fits)]
  obtain ⟨grown, options, reported⟩ := add_of_room reading taken (by
    rw [new, empty, same, List.length_nil, Nat.zero_add]
    exact room)
  rw [new, empty, List.nil_append] at grown reported
  rw [loaded]
  refine ⟨⟨_, reported, ?_, rfl, rfl⟩, grown, options.trans settled, ?_, ?_⟩
  · rw [(reading.parseTokens _ none).2]
    exact (valid_of_ownNames used.nodup used.own).2
  · show some (Json.strings _) = some (Json.strings s.classes)
    rw [grown]
  · show some (SheetOptions.toJson _) = some s.options.toJson
    rw [options, settled]

section Example

/-- Changes of options in both spellings. -/
def rescoping : List (String × Json) :=
  [("scope", .string "#root main"), ("groupSelectors", .bool false)]

/-- The options after the changes. -/
def underMain : SheetOptions :=
  { SheetOptions.default with group := false, scope := some "#root main" }

theorem merge_rescoping : SheetOptions.default.merge rescoping = .ok underMain := by
  decide +kernel

theorem updateOptions_of_merge {changes : List (String × Json)} {options : SheetOptions}
    (h : s.options.merge changes = .ok options) :
    s.perform (.updateOptions changes) = { s with options := options }.changed := by
  simp only [perform, updateOptions, h]

/-- Two classes and options that were changed are saved and restored. -/
theorem load_stateJson_of_run_twoNames : ∃ engine first s next,
    Engine.ofSettings .standard .standard .standard true = .ok engine ∧
      ofEngine engine false (SheetOptions.ofJson .null) 10 true = .ok first ∧
      first.run [.add (.strings twoNames), .updateOptions rescoping] = s ∧
      ofEngine s.engine false (SheetOptions.ofJson .null) 10 true = .ok next ∧
      (∃ update, (next.load s.stateJson).2 = .ok update ∧ update.invalid = []) ∧
      (next.load s.stateJson).1.classes = twoNames ∧
      (next.load s.stateJson).1.options = underMain := by
  obtain ⟨engine, made⟩ : ∃ engine, Engine.ofSettings .standard .standard .standard true =
      .ok engine := ⟨_, rfl⟩
  obtain ⟨first, start, options⟩ : ∃ first, ofEngine engine false (SheetOptions.ofJson .null) 10
      true = .ok first ∧ first.options = .default := ⟨_, rfl, rfl⟩
  obtain ⟨held, -⟩ := (isAt_ofEngine start).add
    (Engine.isTraced_ofSettings made fun _ => True).toIsReading (by decide) isOwnName_twoNames
    (by simp) (List.cons_ne_nil _ _) (by decide) (by decide)
  have changed : (first.perform (.add (.strings twoNames))).perform (.updateOptions rescoping) =
      { (first.add (.strings twoNames)).1 with options := underMain }.changed :=
    updateOptions_of_merge (by rw [perform, held.options, options, merge_rescoping])
  obtain ⟨s, ran⟩ : ∃ s, first.run [.add (.strings twoNames), .updateOptions rescoping] = s :=
    ⟨_, rfl⟩
  have classes : s.classes = twoNames := by
    rw [← ran, run_cons, run_cons, run_nil, changed]
    exact held.classes
  have settled : s.options = underMain := by
    rw [← ran, run_cons, run_cons, run_nil, changed]
    rfl
  obtain ⟨next, again⟩ : ∃ next, ofEngine s.engine false (SheetOptions.ofJson .null) 10 true =
      .ok next := ⟨_, rfl⟩
  obtain ⟨⟨update, reported, accepted, -⟩, same, kept, -⟩ := load_stateJson_of_run made [] start
    [.add (.strings twoNames), .updateOptions rescoping] (by rw [ran, classes]; decide) []
    (by rw [ran]; exact again)
  rw [ran] at reported same kept
  exact ⟨engine, first, s, next, made, start, ran, again, ⟨update, reported, accepted⟩,
    same.trans classes, kept.trans settled⟩

end Example

end BracketCss.Session
