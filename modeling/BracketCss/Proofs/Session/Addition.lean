import BracketCss.Proofs.Engine.Batch
import BracketCss.Proofs.Engine.Trace
import BracketCss.Proofs.Session.Held

/-!
# Adding classes

Classes are held by name, and they are added as tokens: the same name may come in several spellings
and several times, and some tokens are refused. An addition takes the accepted names that are new,
each once, in the order in which they are first seen. Either there is room for all of them, or none
is added and nothing of the session changes but what its engine remembers.

## Main definitions

* `Engine.acceptedNames e tokens`: the names of the classes that tokens are read as
* `Session.newNames s tokens`: those that are not held yet, each once

## Main results

* `fresh_parseTokens`: the new names of a batch are those of its tokens, read one by one
* `add_of_room`, `add_of_full`: an addition for which there is room, and one that is too large
* `add_of_run`: what is held and what is added, after any history
-/

namespace BracketCss

/-- The names of the classes that tokens are read as, in the order of the tokens. -/
def Engine.acceptedNames (e : Engine) (tokens : List Json) : List String :=
  tokens.filterMap fun token => (e.parse token).2.toOption.map (·.name)

namespace Session

/-- The names of accepted tokens that are not held yet, each once, as they are first seen. -/
def newNames (s : Session) (tokens : List Json) : List String :=
  (distinct (s.engine.acceptedNames tokens)).filter fun name => !s.classes.contains name

variable {table : PropertyTable} {limits : InputLimits} {s : Session} {classes : Json}
  {tokens : List Json} {batch : Batch}

theorem acceptedNames_eq {e : Engine} (reading : e.IsReading table limits) (tokens : List Json) :
    e.acceptedNames tokens = (tokens.filterMap (classOf table limits)).map (·.name) := by
  rw [Engine.acceptedNames, List.map_filterMap]
  refine List.filterMap_congr fun token _ => ?_
  rw [(reading.parse_spec token).2]
  rfl

/-- **The new names of a batch** are those of its tokens, read one by one. -/
theorem fresh_parseTokens (reading : s.engine.IsReading table limits) (tokens : List Json) :
    (s.engine.parseTokens tokens none).2.fresh s.classes = s.newNames tokens := by
  rw [(reading.parseTokens tokens none).2, Batch.fresh, Batch.valid, parsed_plainBatch, distinctBy,
    map_distinctFrom, heard, newNames, acceptedNames_eq reading]
  rfl

/-- A batch for which there is room is added and reported. -/
theorem addBatch_of_room
    (room : ((s.classes.length + (batch.fresh s.classes).length : Nat) : Int) ≤ s.capacity) :
    (s.addBatch batch).1.classes = s.classes ++ batch.fresh s.classes ∧
      (s.addBatch batch).1.options = s.options ∧
      (s.addBatch batch).2 = .ok ⟨(batch.fresh s.classes).length, batch.invalid,
        (s.classes ++ batch.fresh s.classes).length, none⟩ := by
  have within : s.addBatch batch = _ := if_neg (Int.not_lt.2 room)
  rw [within]
  by_cases known : batch.fresh s.classes = []
  · have empty : (batch.fresh s.classes).isEmpty := List.isEmpty_iff.2 known
    rw [if_pos (by exact empty), known, List.append_nil]
    exact ⟨rfl, rfl, by rw [← known]; rfl⟩
  · have some : ¬ (batch.fresh s.classes).isEmpty := mt List.isEmpty_iff.1 known
    rw [if_neg (by exact some)]
    exact ⟨rfl, rfl, rfl⟩

/-- An addition for which there is room. -/
theorem add_of_room (reading : s.engine.IsReading table limits)
    (given : s.engine.tokens classes = .ok tokens)
    (room : ((s.classes.length + (s.newNames tokens).length : Nat) : Int) ≤ s.capacity) :
    (s.add classes).1.classes = s.classes ++ s.newNames tokens ∧
      (s.add classes).1.options = s.options ∧
      (s.add classes).2 = .ok ⟨(s.newNames tokens).length,
        (s.engine.parseTokens tokens none).2.invalid, (s.classes ++ s.newNames tokens).length,
        none⟩ := by
  obtain ⟨fault, refused, -⟩ | ⟨others, taken, added⟩ := s.add_cases classes
  · rw [given] at refused
    cases refused
  · obtain rfl := Except.ok.inj (given.symm.trans taken)
    rw [← fresh_parseTokens reading] at room ⊢
    rw [added]
    exact addBatch_of_room room

/-- An addition for which there is no room. -/
theorem add_of_full (reading : s.engine.IsReading table limits)
    (given : s.engine.tokens classes = .ok tokens)
    (full : s.capacity < ((s.classes.length + (s.newNames tokens).length : Nat) : Int)) :
    s.add classes = ({ s with engine := (s.engine.parseTokens tokens none).1 },
      .error (.full s.capacity (s.newNames tokens).length s.classes.length)) := by
  obtain ⟨fault, refused, -⟩ | ⟨others, taken, added⟩ := s.add_cases classes
  · rw [given] at refused
    cases refused
  · obtain rfl := Except.ok.inj (given.symm.trans taken)
    rw [← fresh_parseTokens reading] at full ⊢
    rw [added]
    exact if_pos full

/-- An addition that the engine does not take. -/
theorem add_of_refused {fault : RequestFault} (refused : s.engine.tokens classes = .error fault) :
    s.add classes = (s, .error (.request fault)) := by
  obtain ⟨other, same, added⟩ | ⟨tokens, given, -⟩ := s.add_cases classes
  · obtain rfl := Except.error.inj (refused.symm.trans same)
    exact added
  · rw [refused] at given
    cases given

variable {settings : CacheSettings} {isSweeping ownsEngine keepsSheet : Bool} {engine : Engine}
  {initial : Except OptionFault SheetOptions} {capacity : Int} {first : Session}

/-- **What is held and what is added.** The classes that a session holds are distinct, there is room
for all of them, and each is read as a class with its very name. An addition that the engine takes
adds exactly the accepted names that are new, behind the others, and reports how many they are and
how many are held then; if there is no room for all of them it is refused. A refused addition
changes nothing but what the engine remembers. -/
theorem add_of_run (hengine : Engine.ofSettings limits settings table isSweeping = .ok engine)
    (before : List EngineEvent)
    (hfirst : ofEngine (engine.run before) ownsEngine initial capacity keepsSheet = .ok first)
    (events : List SessionEvent) :
    let s := first.run events
    s.classes.Nodup ∧ (s.classes.length : Int) ≤ capacity ∧
      (∀ name ∈ s.classes, ∃ c, (s.engine.parse (.string name)).2 = .ok c ∧ c.name = name) ∧
      ∀ classes,
        let next := (s.add classes).1
        let answer := (s.add classes).2
        (∀ fault, s.engine.tokens classes = .error fault →
          next = s ∧ answer = .error (.request fault)) ∧
        ∀ tokens, s.engine.tokens classes = .ok tokens →
          let new := s.newNames tokens
          (((s.classes ++ new).length : Int) ≤ capacity → next.classes = s.classes ++ new ∧
            next.options = s.options ∧ ∃ update, answer = .ok update ∧
              update.added = new.length ∧ update.total = next.classes.length) ∧
          (capacity < ((s.classes ++ new).length : Int) →
            next = { s with engine := next.engine } ∧
              answer = .error (.full capacity new.length s.classes.length)) := by
  intro s
  have used : s.Holds table limits fun _ => True :=
    (holds_ofEngine hfirst ((Engine.isTraced_ofSettings hengine _).run before)).run
      fun _ _ => trivial
  have reading := used.engine.toIsReading
  have bound : s.capacity = capacity := by
    rw [first.capacity_run events, (isAt_ofEngine hfirst).capacity]
  refine ⟨used.nodup, bound ▸ used.room, fun name mem => ?_, fun classes => ⟨?_, ?_⟩⟩
  · obtain ⟨c, read, same⟩ := used.own name mem
    exact ⟨c, (reading.parse_spec _).2.trans read, same⟩
  · intro fault refused
    rw [add_of_refused refused]
    exact ⟨rfl, rfl⟩
  · intro tokens given new
    rw [List.length_append, ← bound]
    refine ⟨fun room => ?_, fun full => ?_⟩
    · obtain ⟨grown, options, reported⟩ := add_of_room reading given room
      exact ⟨grown, options, _, reported, rfl, congrArg List.length grown.symm⟩
    · rw [add_of_full reading given full]
      exact ⟨rfl, rfl⟩

section Example

/-- A held class comes again, and a new one in two spellings. -/
def respelled : List String := ["p-[1px]", " p-[2px]", "p-[2px]"]

theorem names_respelled : ((respelled.map .string).filterMap
    (classOf .standard .standard)).map (·.name) = ["p-[1px]", "p-[2px]", "p-[2px]"] := by
  decide +kernel

/-- One class is added, and two are held then. -/
theorem add_of_run_respelled : ∃ engine first s,
    Engine.ofSettings .standard .standard .standard true = .ok engine ∧
      ofEngine engine false (.ok .default) 2 true = .ok first ∧
      first.run [.add (.strings ["p-[1px]"])] = s ∧
      (s.add (.strings respelled)).1.classes = twoNames ∧
      ∃ update, (s.add (.strings respelled)).2 = .ok update ∧ update.added = 1 ∧
        update.total = 2 := by
  obtain ⟨engine, made⟩ : ∃ engine, Engine.ofSettings .standard .standard .standard true =
      .ok engine := ⟨_, rfl⟩
  obtain ⟨first, start⟩ : ∃ first, ofEngine engine false (.ok .default) 2 true = .ok first :=
    ⟨_, rfl⟩
  have traced := Engine.isTraced_ofSettings made fun _ => True
  obtain ⟨held, -⟩ := (isAt_ofEngine start).add traced.toIsReading (by decide)
    (List.forall_mem_singleton.2 (isOwnName_twoNames "p-[1px]" (by decide))) (by simp)
    (List.cons_ne_nil _ _) (by decide) (by decide)
  obtain ⟨-, -, -, adds⟩ := add_of_run made [] start [.add (.strings ["p-[1px]"])]
  obtain ⟨s, ran⟩ : ∃ s, first.run [.add (.strings ["p-[1px]"])] = s := ⟨_, rfl⟩
  change (first.run [.add (.strings ["p-[1px]"])]).IsAt _ _ _ _ at held
  rw [ran] at adds held
  have reading : s.engine.IsReading .standard .standard :=
    held.engine ▸ (traced.parseTokens_spec _ none).toIsReading
  have classes : s.classes = ["p-[1px]"] := held.classes
  have new : s.newNames (respelled.map .string) = ["p-[2px]"] := by
    rw [newNames, acceptedNames_eq reading, names_respelled, classes]
    decide
  have given : s.engine.tokens (.strings respelled) = .ok (respelled.map .string) := by
    rw [Engine.tokens_strings, reading.limits_eq]
    exact if_neg (by decide)
  obtain ⟨grown, -, update, reported, added, total⟩ :=
    ((adds (.strings respelled)).2 _ given).1 (by rw [new, classes]; decide)
  rw [new, classes] at grown
  rw [new] at added
  rw [grown] at total
  exact ⟨engine, first, s, made, start, ran, grown, update, reported, added, total⟩

end Example

end Session

end BracketCss
