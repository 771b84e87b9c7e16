import BracketCss.Proofs.Session.Addition

/-!
# Taking back what was added

Tokens are cleaned when they are added, and a class is held by its cleaned name. Asking and removing
take names and clean nothing. So a token finds the class that was added for it only if the token is
clean, and removing the tokens that were added takes back those classes whose names are among them.

## Main results

* `Session.has_of_add`: an accepted token is held by its cleaned name, and found if it is clean
* `Session.remove_of_add`: what is left of new classes when the tokens are removed
* `Session.removal_of_run`: both, after any history
-/

namespace BracketCss

variable {table : PropertyTable} {limits : InputLimits}

/-- The name of a class is the cleaned text. -/
theorem UtilityClass.clean?_of_read {s : String} {c : UtilityClass}
    (h : read table limits (.string s) = .ok c) :
    Clean.clean? limits.classLength s = some c.name := by
  obtain ⟨text, name, same, cleaned, found⟩ := read_eq_ok h
  rw [Json.string.inj same, cleaned, name_of_ofClean found]

theorem Clean.isUnclean_eq_false_iff {limit : Int} {s name : String}
    (h : clean? limit s = some name) : isUnclean s = false ↔ name = s := by
  rw [isUnclean, ← (clean?_eq_some h).1, bne_eq_false_iff_eq, String.toList_inj, eq_comm]

/-- A token that is the name of a class is the name of the class that it is read as. -/
theorem IsOwnName.name_eq {s : String} {c : UtilityClass} (own : IsOwnName table limits s)
    (h : UtilityClass.read table limits (.string s) = .ok c) : c.name = s := by
  obtain ⟨d, read, same⟩ := own
  rw [← Except.ok.inj (read.symm.trans h), same]

namespace Session

variable {s : Session} {tokens : List String} {update : Update}

theorem has_string_iff {name : String} : s.has (.string name) = .ok true ↔ name ∈ s.classes := by
  rw [has, Except.ok.injEq, List.contains_iff_mem]

theorem removalNames_strings (names : List String) :
    removalNames (.strings names) = some names := by
  simp [removalNames, Json.strings, Json.items?, List.filterMap_map, Json.string?]

/-- Removing names keeps the others, and counts those that were held. -/
theorem remove_strings (s : Session) (names : List String) :
    (s.remove (.strings names)).1.classes = s.classes.filter (fun name => !names.contains name) ∧
      (s.remove (.strings names)).2 = .ok (s.classes.filter names.contains).length := by
  have parts := List.length_eq_length_filter_add (l := s.classes) names.contains
  simp only [remove, removalNames_strings, Except.ok.injEq]
  refine ⟨?_, by omega⟩
  split
  · next none =>
    refine (List.Sublist.eq_of_length List.filter_sublist ?_).symm
    have := List.length_filter_le (fun name => !names.contains name) s.classes
    omega
  · rfl

theorem mem_acceptedNames {e : Engine} (reading : e.IsReading table limits) {name : String} :
    name ∈ e.acceptedNames (tokens.map .string) ↔ ∃ t ∈ tokens, ∃ c,
      UtilityClass.read table limits (.string t) = .ok c ∧ c.name = name := by
  simp only [acceptedNames_eq reading, List.mem_map, List.mem_filterMap, classOf_eq_some_iff]
  constructor
  · rintro ⟨c, ⟨_, ⟨t, mem, rfl⟩, read⟩, same⟩
    exact ⟨t, mem, c, read, same⟩
  · rintro ⟨t, mem, c, read, same⟩
    exact ⟨c, ⟨_, ⟨t, mem, rfl⟩, read⟩, same⟩

theorem mem_newNames {given : List Json} {name : String} :
    name ∈ s.newNames given ↔ name ∈ s.engine.acceptedNames given ∧ name ∉ s.classes := by
  simp [newNames, mem_distinct]

/-- What an addition of tokens comes to, if it is not refused. -/
theorem add_eq_ok (reading : s.engine.IsReading table limits)
    (h : (s.add (.strings tokens)).2 = .ok update) :
    (s.add (.strings tokens)).1.classes = s.classes ++ s.newNames (tokens.map .string) ∧
      update.added = (s.newNames (tokens.map .string)).length ∧
      update.invalid = (plainBatch table limits (tokens.map .string) none).invalid := by
  by_cases fits : s.engine.limits.requestSize < tokens.length
  · obtain ⟨fault, refused⟩ : ∃ fault, s.engine.tokens (.strings tokens) = .error fault :=
      ⟨_, by rw [Engine.tokens_strings, if_pos fits]⟩
    rw [add_of_refused refused] at h
    cases h
  · have given : s.engine.tokens (.strings tokens) = .ok (tokens.map .string) := by
      rw [Engine.tokens_strings, if_neg fits]
    by_cases full : s.capacity <
        ((s.classes.length + (s.newNames (tokens.map .string)).length : Nat) : Int)
    · rw [add_of_full reading given full] at h
      cases h
    · obtain ⟨grown, -, reported⟩ := add_of_room reading given (Int.not_lt.1 full)
      obtain rfl := Except.ok.inj (reported.symm.trans h)
      exact ⟨grown, rfl, by rw [(reading.parseTokens _ none).2]⟩

/-- An accepted token is held by its cleaned name, and it is found itself only if it is clean. -/
theorem has_of_add (reading : s.engine.IsReading table limits)
    (held : ∀ name ∈ s.classes, IsOwnName table limits name)
    (h : (s.add (.strings tokens)).2 = .ok update) {t : String} (mem : t ∈ tokens)
    (accepted : ∀ report ∈ update.invalid, report.className ≠ t) :
    ∃ name, Clean.clean? limits.classLength t = some name ∧
      (s.add (.strings tokens)).1.has (.string name) = .ok true ∧
      ((s.add (.strings tokens)).1.has (.string t) = .ok true ↔ Clean.isUnclean t = false) := by
  obtain ⟨grown, -, invalid⟩ := add_eq_ok reading h
  obtain ⟨c, read⟩ : ∃ c, UtilityClass.read table limits (.string t) = .ok c := by
    cases read : UtilityClass.read table limits (.string t) with
    | ok c => exact ⟨c, rfl⟩
    | error failure =>
      refine absurd rfl (accepted (.ofToken (.string t) failure) ?_)
      rw [invalid, mem_invalid]
      exact ⟨_, List.mem_map_of_mem mem, failure, read, rfl⟩
  have cleaned := UtilityClass.clean?_of_read read
  have named : c.name ∈ s.classes ++ s.newNames (tokens.map .string) := by
    rw [List.mem_append, mem_newNames, mem_acceptedNames reading]
    by_cases old : c.name ∈ s.classes
    · exact .inl old
    · exact .inr ⟨⟨t, mem, c, read, rfl⟩, old⟩
  refine ⟨c.name, cleaned, ?_, ?_⟩
  · rwa [has_string_iff, grown]
  · rw [has_string_iff, grown, Clean.isUnclean_eq_false_iff cleaned]
    constructor
    · intro found
      rw [List.mem_append, mem_newNames, mem_acceptedNames reading] at found
      have own : IsOwnName table limits t := by
        rcases found with old | ⟨⟨_, _, d, again, rfl⟩, -⟩
        · exact held t old
        · exact ⟨d, UtilityClass.read_name again, rfl⟩
      exact own.name_eq read
    · intro same
      rwa [← same]

/-- If all the classes are new, removing the tokens leaves those whose names are not among them. -/
theorem remove_of_add (reading : s.engine.IsReading table limits)
    (held : ∀ name ∈ s.classes, IsOwnName table limits name)
    (h : (s.add (.strings tokens)).2 = .ok update)
    (new : ∀ name ∈ s.engine.acceptedNames (tokens.map .string), name ∉ s.classes) :
    ((s.add (.strings tokens)).1.remove (.strings tokens)).1.classes =
        s.classes ++ (s.newNames (tokens.map .string)).filter (fun name => !tokens.contains name) ∧
      ((s.add (.strings tokens)).1.remove (.strings tokens)).2 =
        .ok ((s.newNames (tokens.map .string)).filter tokens.contains).length := by
  obtain ⟨grown, -, -⟩ := add_eq_ok reading h
  obtain ⟨kept, counted⟩ := (s.add (.strings tokens)).1.remove_strings tokens
  have apart : ∀ name ∈ s.classes, name ∉ tokens := by
    intro name old mem
    obtain ⟨c, read, same⟩ := held name old
    exact new name ((mem_acceptedNames reading).2 ⟨name, mem, c, read, same⟩) old
  have stay : s.classes.filter (fun name => !tokens.contains name) = s.classes :=
    List.filter_eq_self.2 fun name old => by simpa using apart name old
  have none : s.classes.filter tokens.contains = [] :=
    List.filter_eq_nil_iff.2 fun name old => by simpa using apart name old
  rw [kept, counted, grown, List.filter_append, List.filter_append, stay, none, List.nil_append]
  exact ⟨rfl, rfl⟩

variable {settings : CacheSettings} {isSweeping ownsEngine keepsSheet : Bool} {engine : Engine}
  {initial : Except OptionFault SheetOptions} {capacity : Int} {first : Session}

/-- **Adding, asking and removing agree on clean tokens.** After an addition, a token that was not
refused is held by its cleaned name, and asking for the token itself finds it if and only if it is
clean. If none of the classes was held before, removing the tokens takes back what was added if and
only if the name of every accepted class is one of the tokens; otherwise the others stay. -/
theorem removal_of_run (hengine : Engine.ofSettings limits settings table isSweeping = .ok engine)
    (before : List EngineEvent)
    (hfirst : ofEngine (engine.run before) ownsEngine initial capacity keepsSheet = .ok first)
    (events : List SessionEvent) (tokens : List String) {update : Update}
    (added : ((first.run events).add (.strings tokens)).2 = .ok update) :
    let s := first.run events
    let next := (s.add (.strings tokens)).1
    let names := s.engine.acceptedNames (tokens.map .string)
    let removal := next.remove (.strings tokens)
    (∀ t ∈ tokens, (∀ report ∈ update.invalid, report.className ≠ t) →
      ∃ name, Clean.clean? limits.classLength t = some name ∧ next.has (.string name) = .ok true ∧
        (next.has (.string t) = .ok true ↔ Clean.isUnclean t = false)) ∧
      ((∀ name ∈ names, name ∉ s.classes) →
        removal.1.classes =
            s.classes ++ (distinct names).filter (fun name => !tokens.contains name) ∧
        (removal.2 = .ok update.added ∧ removal.1.classes = s.classes ↔
          ∀ name ∈ names, name ∈ tokens)) := by
  intro s next names removal
  have used : s.Holds table limits fun _ => True :=
    (holds_ofEngine hfirst ((Engine.isTraced_ofSettings hengine _).run before)).run
      fun _ _ => trivial
  have reading := used.engine.toIsReading
  refine ⟨fun t mem accepted => has_of_add reading used.own added mem accepted, fun new => ?_⟩
  have fresh : s.newNames (tokens.map .string) = distinct names :=
    List.filter_eq_self.2 fun name mem => by simpa using new name (mem_distinct.1 mem)
  obtain ⟨kept, counted⟩ := remove_of_add reading used.own added new
  obtain ⟨-, count, -⟩ := add_eq_ok reading added
  rw [fresh] at kept counted count
  refine ⟨kept, ?_⟩
  rw [show removal.2 = _ from counted, show removal.1.classes = _ from kept, count]
  constructor
  · rintro ⟨-, gone⟩ name mem
    have none := List.append_right_eq_self.1 gone
    simpa using List.filter_eq_nil_iff.1 none name (mem_distinct.2 mem)
  · intro among
    have all : ∀ name ∈ distinct names, tokens.contains name := fun name mem =>
      List.contains_iff_mem.2 (among name (mem_distinct.1 mem))
    refine ⟨by rw [List.filter_eq_self.2 all], List.append_right_eq_self.2 ?_⟩
    exact List.filter_eq_nil_iff.2 fun name mem => by simp [among name (mem_distinct.1 mem)]

section Example

/-- One token, with a blank in front. -/
def padded : List String := [" p-[1px]"]

/-- A new session is given the token. -/
theorem exists_added_padded : ∃ engine first update,
    Engine.ofSettings .standard .standard .standard true = .ok engine ∧
      ofEngine engine false (.ok .default) 2 true = .ok first ∧ first.classes = [] ∧
      first.engine.acceptedNames (padded.map .string) = ["p-[1px]"] ∧
      (first.add (.strings padded)).1.classes = ["p-[1px]"] ∧
      (first.add (.strings padded)).2 = .ok update ∧ update.added = 1 ∧ update.invalid = [] := by
  obtain ⟨engine, made⟩ : ∃ engine, Engine.ofSettings .standard .standard .standard true =
      .ok engine := ⟨_, rfl⟩
  obtain ⟨first, start⟩ : ∃ first, ofEngine engine false (.ok .default) 2 true = .ok first :=
    ⟨_, rfl⟩
  obtain ⟨classes, -, capacity, same⟩ := isAt_ofEngine start
  have reading : first.engine.IsReading .standard .standard :=
    same ▸ (Engine.isTraced_ofSettings made fun _ => True).toIsReading
  have names : first.engine.acceptedNames (padded.map .string) = ["p-[1px]"] := by
    rw [acceptedNames_eq reading]
    decide +kernel
  have new : first.newNames (padded.map .string) = ["p-[1px]"] := by
    rw [newNames, names, classes]
    decide
  have given : first.engine.tokens (.strings padded) = .ok (padded.map .string) := by
    rw [Engine.tokens_strings, reading.limits_eq]
    exact if_neg (by decide)
  obtain ⟨grown, -, reported⟩ := add_of_room reading given (by rw [new, classes, capacity]; decide)
  rw [classes, new] at grown
  have reports : (plainBatch .standard .standard (padded.map .string) none).invalid = [] := by
    decide +kernel
  rw [(reading.parseTokens _ none).2, reports, new] at reported
  exact ⟨engine, first, _, made, start, classes, names, grown, reported, rfl, rfl⟩

/-- The class is held, but the token does not find it and does not remove it. -/
theorem removal_of_run_padded : ∃ (first : Session) (update : Update),
    (first.add (.strings padded)).2 = .ok update ∧
      (first.add (.strings padded)).1.has (.string "p-[1px]") = .ok true ∧
      (first.add (.strings padded)).1.has (.string " p-[1px]") ≠ .ok true ∧
      ((first.add (.strings padded)).1.remove (.strings padded)).1.classes = ["p-[1px]"] := by
  obtain ⟨engine, first, update, made, start, classes, names, -, added, -, invalid⟩ :=
    exists_added_padded
  obtain ⟨held, left⟩ := removal_of_run made [] start [] padded added
  obtain ⟨name, cleaned, found, itself⟩ := held _ List.mem_cons_self (by simp [invalid])
  obtain ⟨kept, -⟩ := left (by rw [show (first.run []).classes = [] from classes]; simp)
  have unclean : Clean.isUnclean " p-[1px]" ≠ false := by decide
  rw [show Clean.clean? _ " p-[1px]" = some "p-[1px]" by decide, Option.some.injEq] at cleaned
  subst cleaned
  refine ⟨first, update, added, found, mt itself.1 unclean, kept.trans ?_⟩
  rw [show (first.run []).classes = [] from classes, show (first.run []).engine.acceptedNames _ = _
    from names]
  decide

/-- A token may be accepted and yet neither be found nor be removed again. -/
theorem exists_not_taken_back : ∃ (first : Session) (tokens : List String) (update : Update),
    first.classes = [] ∧ (first.add (.strings tokens)).2 = .ok update ∧ update.invalid = [] ∧
      update.added = 1 ∧
      (∃ t ∈ tokens, (first.add (.strings tokens)).1.has (.string t) ≠ .ok true) ∧
      ((first.add (.strings tokens)).1.remove (.strings tokens)).2 ≠ .ok update.added ∧
      ((first.add (.strings tokens)).1.remove (.strings tokens)).1.classes ≠ first.classes := by
  obtain ⟨engine, first, update, made, start, classes, names, grown, added, one, invalid⟩ :=
    exists_added_padded
  obtain ⟨kept, counted⟩ := (first.add (.strings padded)).1.remove_strings padded
  refine ⟨first, padded, update, classes, added, invalid, one, ⟨_, List.mem_cons_self, ?_⟩, ?_, ?_⟩
  · rw [Ne, has_string_iff, grown]
    decide
  · rw [counted, grown, one]
    decide
  · rw [kept, grown, classes]
    decide

end Example

end Session

end BracketCss
