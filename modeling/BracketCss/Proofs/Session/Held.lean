import BracketCss.Proofs.Session.Run

/-!
# What a session holds

Whatever happens to a session, the classes that it holds are names that are read as themselves, none
twice and no more than there is room for. A sheet is kept only of classes that fit into one request,
and it was compiled for a request with the key of these classes.

## Main definitions

* `Session.HoldsOwn table limits s`: what is known of the classes
* `Session.Holds table limits asked s`: what is known of the engine and the kept sheet besides

## Main results

* `Session.HoldsOwn.perform`, `Session.Holds.perform`: every event keeps the invariants
* `Session.Holds.run`: a session in use keeps them
-/

namespace BracketCss.Session

variable {table : PropertyTable} {limits : InputLimits} {asked : SheetRequest → Prop} {s : Session}

/-- The classes are read as themselves, none is held twice, there is room for all of them, and if
a sheet is kept they fit into one request. -/
structure HoldsOwn (table : PropertyTable) (limits : InputLimits) (s : Session) : Prop where
  nodup : s.classes.Nodup
  own : ∀ name ∈ s.classes, IsOwnName table limits name
  room : (s.classes.length : Int) ≤ s.capacity
  fits : s.sheet.isSome → (s.classes.length : Int) ≤ limits.requestSize

theorem HoldsOwn.of_edits (h : s.HoldsOwn table limits) (reading : s.engine.IsReading table limits)
    {classes : List String} (edits : s.Edits classes) :
    classes.Nodup ∧ (∀ name ∈ classes, IsOwnName table limits name) ∧
      (classes.length : Int) ≤ s.capacity := by
  cases edits with
  | kept sub =>
    refine ⟨h.nodup.sublist sub, fun name mem => h.own name (sub.subset mem), ?_⟩
    have shorter := sub.length_le
    have room := h.room
    omega
  | @grown start tokens sub room =>
    have batch := (reading.parseTokens tokens none).2
    rw [batch] at room ⊢
    refine ⟨?_, ?_, room⟩
    · rw [List.nodup_append]
      refine ⟨h.nodup.sublist sub, (nodup_valid tokens none).sublist List.filter_sublist, ?_⟩
      rintro name old _ new rfl
      have absent := (List.mem_filter.1 new).2
      simp [old] at absent
    · intro name mem
      rcases List.mem_append.1 mem with old | new
      · exact h.own name (sub.subset old)
      · exact isOwnName_of_mem_valid (List.mem_filter.1 new).1

/-- Nothing else of a session matters. -/
theorem HoldsOwn.of_classes {t : Session} (h : s.HoldsOwn table limits)
    (classes : t.classes = s.classes) (capacity : t.capacity = s.capacity)
    (fits : t.sheet.isSome → (t.classes.length : Int) ≤ limits.requestSize) :
    t.HoldsOwn table limits := by
  refine ⟨?_, ?_, ?_, fits⟩
  · rw [classes]
    exact h.nodup
  · rw [classes]
    exact h.own
  · rw [classes, capacity]
    exact h.room

/-- **Every event keeps what is known of the classes.** -/
theorem HoldsOwn.perform (h : s.HoldsOwn table limits) (reading : s.engine.IsReading table limits)
    (event : SessionEvent) : (s.perform event).HoldsOwn table limits := by
  obtain ⟨capacity, turn, -⟩ := s.perform_cases event
  cases turn with
  | same classes sheet =>
    refine h.of_classes classes capacity ?_
    rw [classes, sheet]
    exact h.fits
  | edited edits sheet =>
    obtain ⟨nodup, own, room⟩ := h.of_edits reading edits
    refine ⟨nodup, own, capacity ▸ room, ?_⟩
    rw [sheet]
    rintro ⟨⟩
  | compiled options _ fits classes _ =>
    refine h.of_classes classes capacity fun _ => ?_
    rw [classes, ← reading.limits_eq]
    exact Int.not_lt.1 fits

theorem ofEngine_eq_ok {engine : Engine} {ownsEngine keepsSheet : Bool} {capacity : Int}
    {options : Except OptionFault SheetOptions}
    (h : ofEngine engine ownsEngine options capacity keepsSheet = .ok s) :
    0 < capacity ∧ ∃ settled, options = .ok settled ∧
      s = ⟨engine, ownsEngine, settled, capacity, keepsSheet, [], none, 0, 0, 0, 0, .whole 0⟩ := by
  simp only [ofEngine, bind, Except.bind, pure, Except.pure] at h
  split at h
  · cases h
  · next enough =>
    cases options with
    | error fault => cases h
    | ok settled => exact ⟨by omega, settled, rfl, (Except.ok.inj h).symm⟩

/-- A new session holds nothing. -/
theorem holdsOwn_ofEngine {engine : Engine} {ownsEngine keepsSheet : Bool} {capacity : Int}
    {options : Except OptionFault SheetOptions}
    (h : ofEngine engine ownsEngine options capacity keepsSheet = .ok s) :
    s.HoldsOwn table limits ∧ s.engine = engine ∧ s.sheet = none := by
  obtain ⟨positive, settled, -, rfl⟩ := ofEngine_eq_ok h
  refine ⟨⟨List.nodup_nil, ?_, Int.le_of_lt positive, ?_⟩, rfl, rfl⟩
  · intro name mem
    cases mem
  · rintro ⟨⟩

/-- The engine is traced, the classes are as they should be, and the sheet that is kept was compiled
for a request with their key. -/
structure Holds (table : PropertyTable) (limits : InputLimits) (asked : SheetRequest → Prop)
    (s : Session) : Prop extends HoldsOwn table limits s where
  engine : s.engine.IsTraced table limits asked
  sheet : ∀ options sheet, s.sheet = some (options, sheet) →
    Engine.IsAsked table limits asked (Engine.sheetKey options s.held) sheet

/-- What is known of a sheet that is kept, of its options and of the classes stays known, if it is
known of every sheet that is asked for. -/
theorem Turns.sheet {P : SheetOptions → List String → Compilation → Prop} {event : SessionEvent}
    {t : Session} (turn : s.Turns event t)
    (kept : ∀ options sheet, s.sheet = some (options, sheet) → P options s.classes sheet)
    (new : ∀ options, s.Asks event options →
      P options s.classes (s.engine.generate options s.held none).2) :
    ∀ options sheet, t.sheet = some (options, sheet) → P options t.classes sheet := by
  cases turn with
  | same classes sheet =>
    rw [sheet, classes]
    exact kept
  | edited _ sheet =>
    rw [sheet]
    intro _ _ found
    cases found
  | compiled settled request _ classes sheet =>
    rw [sheet, classes]
    intro options other found
    obtain ⟨rfl, rfl⟩ := Prod.mk.inj (Option.some.inj found)
    exact new settled request

/-- **Every event keeps the invariant**, given the requests for sheets among them. -/
theorem Holds.perform (h : s.Holds table limits asked) {event : SessionEvent}
    (present : ∀ request ∈ event.requests s, asked request) :
    (s.perform event).Holds table limits asked := by
  obtain ⟨-, turn, uses⟩ := s.perform_cases event
  have own := h.toHoldsOwn.perform h.engine.toIsReading event
  refine ⟨own, ?_, ?_⟩
  · cases uses with
    | same engine => exact engine ▸ h.engine
    | read tokens engine => exact engine ▸ h.engine.parseTokens_spec tokens none
    | generated options request engine =>
      rw [engine]
      exact (h.engine.generate none (present _ (request.2 ▸ List.mem_cons_self))).1
    | performed inner origin engine =>
      rw [engine]
      refine h.engine.perform ?_
      rcases origin with rfl | ⟨seconds, rfl⟩
      · exact present
      · intro request mem
        cases mem
  · exact turn.sheet (P := fun options names sheet =>
      Engine.IsAsked table limits asked (Engine.sheetKey options (names.map .string)) sheet)
      h.sheet fun settled request =>
        h.engine.isAsked_generate (present _ (request.2 ▸ List.mem_cons_self))

/-- **A session in use keeps the invariant**, given the requests along its history. -/
theorem Holds.run (h : s.Holds table limits asked) {events : List SessionEvent}
    (present : ∀ request ∈ s.requests events, asked request) :
    (s.run events).Holds table limits asked :=
  run_induction (fun _ _ _ holds now => holds.perform now) h present

/-- A new session over a traced engine. -/
theorem holds_ofEngine {engine : Engine} {ownsEngine keepsSheet : Bool} {capacity : Int}
    {options : Except OptionFault SheetOptions}
    (h : ofEngine engine ownsEngine options capacity keepsSheet = .ok s)
    (traced : engine.IsTraced table limits asked) : s.Holds table limits asked := by
  obtain ⟨own, rfl, gone⟩ := holdsOwn_ofEngine h
  refine ⟨own, traced, fun _ _ kept => ?_⟩
  rw [gone] at kept
  cases kept

/-! ## Definite operations -/

/-- The classes, the options, the room and the engine of a session. -/
structure IsAt (names : List String) (options : SheetOptions) (capacity : Int) (e : Engine)
    (s : Session) : Prop where
  classes : s.classes = names
  options : s.options = options
  capacity : s.capacity = capacity
  engine : s.engine = e

theorem isAt_ofEngine {engine : Engine} {ownsEngine keepsSheet : Bool} {capacity : Int}
    {options : Except OptionFault SheetOptions}
    (h : ofEngine engine ownsEngine options capacity keepsSheet = .ok s) :
    s.IsAt [] s.options capacity engine := by
  obtain ⟨-, settled, -, rfl⟩ := ofEngine_eq_ok h
  exact ⟨rfl, rfl, rfl, rfl⟩

variable {names : List String} {options : SheetOptions} {capacity : Int} {e : Engine}

/-- Names that are read as themselves and are not held yet make up what is added. -/
theorem add_strings (reading : s.engine.IsReading table limits) {others : List String}
    (nodup : others.Nodup) (own : ∀ name ∈ others, IsOwnName table limits name)
    (new : ∀ name ∈ others, name ∉ s.classes) (fits : (others.length : Int) ≤ limits.requestSize) :
    s.add (.strings others) =
        { s with engine := (s.engine.parseTokens (others.map .string) none).1 }.addBatch
          (s.engine.parseTokens (others.map .string) none).2 ∧
      (s.engine.parseTokens (others.map .string) none).2.fresh s.classes = others := by
  constructor
  · have taken : s.engine.tokens (.strings others) = .ok (others.map .string) := by
      rw [Engine.tokens_strings, reading.limits_eq, if_neg (Int.not_lt.2 fits)]
    obtain ⟨fault, refused, -⟩ | ⟨tokens, given, added⟩ := s.add_cases (.strings others)
    · rw [taken] at refused
      cases refused
    · obtain rfl := Except.ok.inj (taken.symm.trans given)
      exact added
  · rw [(reading.parseTokens (others.map .string) none).2, Batch.fresh,
      (valid_of_ownNames nodup own).1, List.filter_eq_self]
    intro name mem
    simpa using new name mem

/-- New names are added behind the held ones, if they fit into a request and there is room. -/
theorem IsAt.add (h : s.IsAt names options capacity e) (reading : e.IsReading table limits)
    {others : List String} (nodup : others.Nodup)
    (own : ∀ name ∈ others, IsOwnName table limits name) (new : ∀ name ∈ others, name ∉ names)
    (some_ : others ≠ []) (fits : (others.length : Int) ≤ limits.requestSize)
    (room : ((names ++ others).length : Int) ≤ capacity) :
    (s.add (.strings others)).1.IsAt (names ++ others) options capacity
        (e.parseTokens (others.map .string) none).1 ∧
      (s.add (.strings others)).1.sheet = none := by
  obtain ⟨rfl, rfl, rfl, rfl⟩ := h
  obtain ⟨added, fresh⟩ := add_strings reading nodup own new fits
  rw [added]
  obtain ⟨full, -⟩ | ⟨-, engine, capacity, options, grown, sheet, -⟩ :=
    { s with engine := (s.engine.parseTokens (others.map .string) none).1 }.addBatch_cases
      (s.engine.parseTokens (others.map .string) none).2
  · rw [fresh, ← List.length_append] at full
    exact absurd room (Int.not_le.2 full)
  · rw [fresh] at grown sheet
    exact ⟨⟨grown, options, capacity, engine⟩, sheet.resolve_right fun known => some_ known.1⟩

/-- New names are refused if there is no room for all of them. -/
theorem IsAt.add_full (h : s.IsAt names options capacity e) (reading : e.IsReading table limits)
    {others : List String} (nodup : others.Nodup)
    (own : ∀ name ∈ others, IsOwnName table limits name) (new : ∀ name ∈ others, name ∉ names)
    (fits : (others.length : Int) ≤ limits.requestSize)
    (full : capacity < ((names ++ others).length : Int)) :
    (s.add (.strings others)).2 = .error (.full capacity others.length names.length) := by
  obtain ⟨rfl, rfl, rfl, rfl⟩ := h
  obtain ⟨added, fresh⟩ := add_strings reading nodup own new fits
  rw [added]
  obtain ⟨-, refused⟩ | ⟨room, -⟩ :=
    { s with engine := (s.engine.parseTokens (others.map .string) none).1 }.addBatch_cases
      (s.engine.parseTokens (others.map .string) none).2
  · rw [refused, fresh]
  · rw [fresh] at room
    exact absurd room (Int.not_le.2 full)

/-- The engine is asked for a sheet if none is kept and the classes fit into a request. -/
theorem IsAt.css (h : s.IsAt names options capacity e) (gone : s.sheet = none)
    (fits : (names.length : Int) ≤ e.limits.requestSize) :
    (s.css .null).1.IsAt names options capacity
        (e.generate options (names.map .string) none).1 ∧
      (s.css .null).2 = .ok (e.generate options (names.map .string) none).2 := by
  obtain ⟨rfl, rfl, rfl, rfl⟩ := h
  have given : s.effectiveOptions .null = .ok s.options := rfl
  rw [css_of_ok given]
  obtain ⟨_, kept, -⟩ | ⟨-, many, -⟩ | ⟨-, -, made⟩ := s.cssWith_cases s.options
  · rw [gone] at kept
    cases kept
  · exact absurd fits (Int.not_le.2 many)
  · rw [made]
    refine ⟨?_, rfl⟩
    simp only [afterSheet]
    split <;> exact ⟨rfl, rfl, rfl, rfl⟩

end BracketCss.Session
