import BracketCss.Proofs.Engine.Trace
import BracketCss.Session

/-!
# Sessions in use

A history of a session: its classes are edited, its options change, sheets are asked for, states are
loaded, and its engine may be used by others, grow older and be swept in between. For most of what a
session is asked there are few things that can become of it: classes go and new ones come, and then
the sheet that was kept goes too; or a sheet is asked for, and kept.

## Main definitions

* `SessionEvent`, `Session.perform`, `Session.run`: what a session is asked, and what becomes of it
* `Session.along f s events`: what is collected along a history
* `Session.requests s events`: the requests for sheets along a history
* `Session.Turns`, `Session.Uses`: what can become of a session and of its engine

## Main results

* `Session.run_induction`: what every event keeps holds after a history
* `Session.css_eq_ok`: where a sheet comes from
* `Session.perform_cases`: all that an event can do
-/

namespace BracketCss

/-- The names of a batch that are not among the held ones. -/
def Batch.fresh (batch : Batch) (held : List String) : List String :=
  batch.valid.filter fun name => !held.contains name

/-- What a session is asked to do, and what happens to its engine. -/
inductive SessionEvent where
  | add (classes : Json)
  | addMarkup (document : Json)
  | remove (classes : Json)
  | clear
  | updateOptions (changes : List (String × Json))
  | css (options : Json)
  | load (state : Json)
  | tick (seconds : Json.Number)
  | engine (event : EngineEvent)

namespace Session

/-- The session after an event. -/
def perform (s : Session) : SessionEvent → Session
  | .add classes => (s.add classes).1
  | .addMarkup document => (s.addMarkup document).1
  | .remove classes => (s.remove classes).1
  | .clear => s.clear.1
  | .updateOptions changes => (s.updateOptions changes).1
  | .css options => (s.css options).1
  | .load state => (s.load state).1
  | .tick seconds => s.tick seconds
  | .engine event => { s with engine := s.engine.perform event }

/-- The session after some events. -/
def run (s : Session) (events : List SessionEvent) : Session := events.foldl perform s

/-- What a function of a session and an event yields along a history. -/
def along {α : Type} (f : Session → SessionEvent → List α) (s : Session) :
    List SessionEvent → List α
  | [] => []
  | event :: events => f s event ++ (s.perform event).along f events

/-- The tokens of the classes that are held. -/
def held (s : Session) : List Json := s.classes.map .string

/-- What the engine is asked for a sheet, which is nothing if the sheet is kept. -/
def sheetRequests (s : Session) (options : SheetOptions) : List SheetRequest :=
  match s.keptSheet? options, s.engine.tokens (.strings s.classes) with
  | none, .ok tokens => [⟨options, tokens⟩]
  | _, _ => []

end Session

/-- The requests for sheets among a session's events. -/
def SessionEvent.requests (s : Session) : SessionEvent → List SheetRequest
  | css options =>
    match s.effectiveOptions options with
    | .ok options => s.sheetRequests options
    | .error _ => []
  | engine event => event.requests s.engine
  | _ => []

namespace Session

/-- The requests for sheets along a history. -/
def requests (s : Session) (events : List SessionEvent) : List SheetRequest :=
  s.along (fun s event => event.requests s) events

section Along

variable {α : Type} {f : Session → SessionEvent → List α}

@[simp] theorem run_nil (s : Session) : s.run [] = s := rfl

@[simp] theorem run_cons (s : Session) (event : SessionEvent) (events : List SessionEvent) :
    s.run (event :: events) = (s.perform event).run events := rfl

theorem along_append (s : Session) (events others : List SessionEvent) :
    s.along f (events ++ others) = s.along f events ++ (s.run events).along f others := by
  induction events generalizing s with
  | nil => rfl
  | cons event events ih =>
    rw [List.cons_append, along, ih, along, List.append_assoc, run_cons]

theorem along_concat (s : Session) (events : List SessionEvent) (event : SessionEvent) :
    s.along f (events ++ [event]) = s.along f events ++ f (s.run events) event := by
  rw [along_append, along, along, List.append_nil]

/-- A property that every event keeps, given what is collected at the event, holds after a history,
given what is collected along it. -/
theorem run_induction {P : Session → Prop} {Q : α → Prop} {events : List SessionEvent}
    (step : ∀ s, ∀ event ∈ events, P s → (∀ x ∈ f s event, Q x) → P (s.perform event)) {s : Session}
    (start : P s) (covered : ∀ x ∈ s.along f events, Q x) : P (s.run events) := by
  induction events generalizing s with
  | nil => exact start
  | cons event events ih =>
    obtain ⟨now, later⟩ := List.forall_mem_append.1 covered
    have next := step s event List.mem_cons_self start now
    exact ih (fun s other mem => step s other (List.mem_cons_of_mem _ mem)) next later

end Along

/-! ## What one event can do -/

theorem eq_of_mem_sheetRequests {s : Session} {options : SheetOptions} {request : SheetRequest}
    (h : request ∈ s.sheetRequests options) : request = ⟨options, s.held⟩ := by
  simp only [sheetRequests, Engine.tokens_strings] at h
  split at h
  · next asked =>
    split at asked
    · cases asked
    · rw [List.mem_singleton.1 h, ← Except.ok.inj asked, held]
  · cases h

/-- The session after its engine was asked for a sheet. -/
def afterSheet (s : Session) (options : SheetOptions) (answer : Engine × Compilation) : Session :=
  let s := { s with engine := answer.1, misses := s.misses + 1 }
  if s.keepsSheet then { s with sheet := some (options, answer.2), pending := 0 } else s

theorem css_of_ok {s : Session} {options : Json} {settled : SheetOptions}
    (h : s.effectiveOptions options = .ok settled) : s.css options = s.cssWith settled := by
  simp only [css, h]

theorem css_of_error {s : Session} {options : Json} {fault : SessionFault}
    (h : s.effectiveOptions options = .error fault) : s.css options = (s, .error fault) := by
  simp only [css, h]

theorem requests_css {s : Session} {options : Json} {settled : SheetOptions}
    (h : s.effectiveOptions options = .ok settled) :
    (SessionEvent.css options).requests s = s.sheetRequests settled := by
  simp only [SessionEvent.requests, h]

/-- A sheet is kept, or it is asked for; this is refused if too many classes are held. -/
theorem cssWith_cases (s : Session) (options : SheetOptions) :
    (∃ sheet, s.sheet = some (options, sheet) ∧
      s.cssWith options = ({ s with hits := s.hits + 1 }, .ok sheet.fromCache)) ∨
    s.sheetRequests options = [] ∧ s.engine.limits.requestSize < s.classes.length ∧
      s.cssWith options = ({ s with misses := s.misses + 1 },
        .error (.request (.tooMany s.classes.length s.engine.limits.requestSize))) ∨
    s.sheetRequests options = [⟨options, s.held⟩] ∧
      ¬ s.engine.limits.requestSize < s.classes.length ∧
      s.cssWith options = (s.afterSheet options (s.engine.generate options s.held none),
        .ok (s.engine.generate options s.held none).2) := by
  cases kept : s.keptSheet? options with
  | some sheet =>
    refine .inl ⟨sheet, ?_, by simp only [cssWith, kept]⟩
    simp only [keptSheet?] at kept
    split at kept
    · split at kept
      · next present c found =>
        split at kept
        · next same => rw [found, same, Option.some.inj kept]
        · cases kept
      · cases kept
    · cases kept
  | none =>
    refine .inr ?_
    by_cases many : s.engine.limits.requestSize < s.classes.length
    · refine .inl ⟨?_, many, ?_⟩
      · simp only [sheetRequests, kept, Engine.tokens_strings, if_pos many]
      · simp only [cssWith, kept, Engine.generateFrom, Engine.tokens_strings, if_pos many]
    · refine .inr ⟨?_, many, ?_⟩
      · simp only [sheetRequests, kept, Engine.tokens_strings, if_neg many, held]
      · simp only [cssWith, kept, Engine.generateFrom, Engine.tokens_strings, if_neg many]
        rfl

/-- A sheet that is given was kept for the options of the call, or it was asked for. -/
theorem css_eq_ok {s : Session} {options : Json} {sheet : Compilation}
    (h : (s.css options).2 = .ok sheet) :
    ∃ settled, s.effectiveOptions options = .ok settled ∧
      ((∃ kept, s.sheet = some (settled, kept) ∧ sheet = kept.fromCache) ∨
        (SessionEvent.css options).requests s = [⟨settled, s.held⟩] ∧
          sheet = (s.engine.generate settled s.held none).2) := by
  cases given : s.effectiveOptions options with
  | error fault =>
    rw [css_of_error given] at h
    cases h
  | ok settled =>
    rw [css_of_ok given] at h
    rw [requests_css given]
    refine ⟨settled, rfl, ?_⟩
    obtain ⟨kept, found, served⟩ | ⟨-, -, refused⟩ | ⟨asked, -, made⟩ := s.cssWith_cases settled
    · rw [served] at h
      exact .inl ⟨kept, found, (Except.ok.inj h).symm⟩
    · rw [refused] at h
      cases h
    · rw [made] at h
      exact .inr ⟨asked, (Except.ok.inj h).symm⟩

/-- What is added of a batch, or why it is not. -/
theorem addBatch_cases (s : Session) (batch : Batch) :
    s.capacity < ((s.classes.length + (batch.fresh s.classes).length : Nat) : Int) ∧
      s.addBatch batch =
        (s, .error (.full s.capacity (batch.fresh s.classes).length s.classes.length)) ∨
    ((s.classes ++ batch.fresh s.classes).length : Int) ≤ s.capacity ∧
      (s.addBatch batch).1.engine = s.engine ∧ (s.addBatch batch).1.capacity = s.capacity ∧
      (s.addBatch batch).1.options = s.options ∧
      (s.addBatch batch).1.classes = s.classes ++ batch.fresh s.classes ∧
      ((s.addBatch batch).1.sheet = none ∨
        batch.fresh s.classes = [] ∧ (s.addBatch batch).1.sheet = s.sheet) ∧
      ∃ update, (s.addBatch batch).2 = .ok update := by
  rw [List.length_append]
  by_cases room : s.capacity < ((s.classes.length + (batch.fresh s.classes).length : Nat) : Int)
  · exact .inl ⟨room, if_pos room⟩
  · refine .inr ⟨Int.not_lt.1 room, ?_⟩
    have within : s.addBatch batch = _ := if_neg room
    rw [within]
    by_cases known : batch.fresh s.classes = []
    · have empty : (batch.fresh s.classes).isEmpty := List.isEmpty_iff.2 known
      rw [if_pos (by exact empty)]
      exact ⟨rfl, rfl, rfl, by rw [known, List.append_nil], .inr ⟨known, rfl⟩, _, rfl⟩
    · have some : ¬ (batch.fresh s.classes).isEmpty := fun empty => known (List.isEmpty_iff.1 empty)
      rw [if_neg (by exact some)]
      exact ⟨rfl, rfl, rfl, rfl, .inl rfl, _, rfl⟩

/-- An addition is refused as a request, or it adds what reading the tokens yields. -/
theorem add_cases (s : Session) (classes : Json) :
    (∃ fault, s.engine.tokens classes = .error fault ∧
      s.add classes = (s, .error (.request fault))) ∨
    ∃ tokens, s.engine.tokens classes = .ok tokens ∧
      s.add classes = { s with engine := (s.engine.parseTokens tokens none).1 }.addBatch
        (s.engine.parseTokens tokens none).2 := by
  cases given : s.engine.tokens classes with
  | error fault => exact .inl ⟨fault, rfl, by simp only [add, Engine.parseMany, given]⟩
  | ok tokens => exact .inr ⟨tokens, rfl, by simp only [add, Engine.parseMany, given]⟩

/-- What becomes of the classes that are held: some stay, and new ones of a batch may be added
within the room there is. -/
inductive Edits (s : Session) : List String → Prop
  | kept {start : List String} : start.Sublist s.classes → s.Edits start
  | grown {start : List String} (tokens : List Json) : start.Sublist s.classes →
      ((start ++ (s.engine.parseTokens tokens none).2.fresh start).length : Int) ≤ s.capacity →
      s.Edits (start ++ (s.engine.parseTokens tokens none).2.fresh start)

/-- The event asks the engine for the sheet of the classes that are held. -/
def Asks (s : Session) (event : SessionEvent) (options : SheetOptions) : Prop :=
  (∃ given, event = .css given) ∧ event.requests s = [⟨options, s.held⟩]

/-- What becomes of a session: its classes and the sheet that is kept stay, or the sheet goes while
the classes change, or a sheet that was asked for is kept. -/
inductive Turns (s : Session) (event : SessionEvent) (t : Session) : Prop
  | same : t.classes = s.classes → t.sheet = s.sheet → s.Turns event t
  | edited : s.Edits t.classes → t.sheet = none → s.Turns event t
  | compiled (options : SheetOptions) : s.Asks event options →
      ¬ s.engine.limits.requestSize < s.classes.length → t.classes = s.classes →
      t.sheet = some (options, (s.engine.generate options s.held none).2) → s.Turns event t

/-- What becomes of the engine of a session: it stays, it reads, it is asked for a sheet, or it is
used by others. -/
inductive Uses (s : Session) (event : SessionEvent) (next : Engine) : Prop
  | same : next = s.engine → s.Uses event next
  | read (tokens : List Json) : next = (s.engine.parseTokens tokens none).1 → s.Uses event next
  | generated (options : SheetOptions) : s.Asks event options →
      next = (s.engine.generate options s.held none).1 → s.Uses event next
  | performed (inner : EngineEvent) :
      (event = .engine inner ∨ ∃ seconds, inner = .tick seconds) →
      next = s.engine.perform inner → s.Uses event next

/-- Adding reads tokens, and names that are new may be added within the room there is. -/
theorem add_session (s : Session) (classes : Json) :
    (s.add classes).1.capacity = s.capacity ∧
      ((s.add classes).1.engine = s.engine ∨
        ∃ tokens, (s.add classes).1.engine = (s.engine.parseTokens tokens none).1) ∧
      ((s.add classes).1.classes = s.classes ∧ (s.add classes).1.sheet = s.sheet ∨
        ∃ tokens, ((s.classes ++ (s.engine.parseTokens tokens none).2.fresh s.classes).length : Int)
            ≤ s.capacity ∧
          (s.add classes).1.classes =
            s.classes ++ (s.engine.parseTokens tokens none).2.fresh s.classes ∧
          (s.add classes).1.sheet = none) := by
  obtain ⟨fault, -, refused⟩ | ⟨tokens, -, added⟩ := s.add_cases classes
  · rw [refused]
    exact ⟨rfl, .inl rfl, .inl ⟨rfl, rfl⟩⟩
  · rw [added]
    obtain ⟨-, full⟩ | ⟨room, engine, capacity, -, grown, sheet, -⟩ :=
      { s with engine := (s.engine.parseTokens tokens none).1 }.addBatch_cases
        (s.engine.parseTokens tokens none).2
    · rw [full]
      exact ⟨rfl, .inr ⟨tokens, rfl⟩, .inl ⟨rfl, rfl⟩⟩
    · refine ⟨capacity, .inr ⟨tokens, engine⟩, ?_⟩
      rcases sheet with gone | ⟨known, kept⟩
      · exact .inr ⟨tokens, room, grown, gone⟩
      · refine .inl ⟨?_, kept⟩
        rw [grown, known, List.append_nil]

/-- Classes are added to a session as it is, or after some of its classes and its sheet are
gone. -/
theorem add_turns {s t : Session} (engine : t.engine = s.engine)
    (capacity : t.capacity = s.capacity) (start : t.classes = s.classes ∧ t.sheet = s.sheet ∨
      t.classes.Sublist s.classes ∧ t.sheet = none) (event : SessionEvent) (classes : Json) :
    (t.add classes).1.capacity = s.capacity ∧ s.Turns event (t.add classes).1 ∧
      s.Uses event (t.add classes).1.engine := by
  obtain ⟨bound, reads, turn⟩ := t.add_session classes
  rw [engine] at reads turn
  rw [capacity] at bound turn
  refine ⟨bound, ?_, ?_⟩
  · obtain ⟨same, kept⟩ | ⟨tokens, room, grown, gone⟩ := turn
    · rcases start with ⟨classes, sheet⟩ | ⟨sub, sheet⟩
      · exact .same (same.trans classes) (kept.trans sheet)
      · exact .edited (same ▸ .kept sub) (kept.trans sheet)
    · have sub : t.classes.Sublist s.classes := by
        rcases start with ⟨classes, -⟩ | ⟨sub, -⟩
        · rw [classes]
        · exact sub
      exact .edited (grown ▸ .grown tokens sub room) gone
  · obtain stays | ⟨tokens, read⟩ := reads
    · exact .same stays
    · exact .read tokens read

/-- **All that an event can do.** -/
theorem perform_cases (s : Session) (event : SessionEvent) :
    (s.perform event).capacity = s.capacity ∧
      s.Turns event (s.perform event) ∧ s.Uses event (s.perform event).engine := by
  cases event with
  | add classes => exact add_turns rfl rfl (.inl ⟨rfl, rfl⟩) _ classes
  | addMarkup document =>
    cases document with
    | string text => exact add_turns rfl rfl (.inl ⟨rfl, rfl⟩) _ _
    | _ => exact ⟨rfl, .same rfl rfl, .same rfl⟩
  | remove classes =>
    simp only [perform, remove]
    split
    · exact ⟨rfl, .same rfl rfl, .same rfl⟩
    · next names given =>
      split
      · exact ⟨rfl, .same rfl rfl, .same rfl⟩
      · exact ⟨rfl, .edited (.kept List.filter_sublist) rfl, .same rfl⟩
  | clear => exact ⟨rfl, .edited (.kept (List.nil_sublist _)) rfl, .same rfl⟩
  | updateOptions changes =>
    simp only [perform, updateOptions]
    split
    · exact ⟨rfl, .same rfl rfl, .same rfl⟩
    · exact ⟨rfl, .edited (.kept (List.Sublist.refl _)) rfl, .same rfl⟩
  | css options =>
    cases given : s.effectiveOptions options with
    | error fault =>
      rw [perform, css_of_error given]
      exact ⟨rfl, .same rfl rfl, .same rfl⟩
    | ok settled =>
      rw [perform, css_of_ok given]
      obtain ⟨sheet, -, kept⟩ | ⟨-, -, refused⟩ | ⟨asked, room, made⟩ := s.cssWith_cases settled
      · rw [kept]
        exact ⟨rfl, .same rfl rfl, .same rfl⟩
      · rw [refused]
        exact ⟨rfl, .same rfl rfl, .same rfl⟩
      · have asks : s.Asks (.css options) settled := ⟨⟨_, rfl⟩, (requests_css given).trans asked⟩
        rw [made]
        dsimp only [afterSheet]
        split
        · exact ⟨rfl, .compiled settled asks room rfl rfl, .generated settled asks rfl⟩
        · exact ⟨rfl, .same rfl rfl, .generated settled asks rfl⟩
  | load state =>
    simp only [perform, load]
    split
    · split
      · split
        · exact ⟨rfl, .same rfl rfl, .same rfl⟩
        · next options given =>
          exact add_turns (s := s) (t := { s.clear.1 with options := options }) rfl rfl
            (.inr ⟨List.nil_sublist _, rfl⟩) _ _
      · exact ⟨rfl, .same rfl rfl, .same rfl⟩
    · exact ⟨rfl, .same rfl rfl, .same rfl⟩
  | tick seconds =>
    refine ⟨rfl, .same rfl rfl, ?_⟩
    simp only [perform, tick]
    split
    · exact .same rfl
    · exact .performed (.tick seconds.toRat) (.inr ⟨_, rfl⟩) rfl
  | engine inner => exact ⟨rfl, .same rfl rfl, .performed inner (.inl rfl) rfl⟩

/-- The room of a session never changes. -/
theorem capacity_run (s : Session) (events : List SessionEvent) :
    (s.run events).capacity = s.capacity := by
  induction events generalizing s with
  | nil => rfl
  | cons event events ih => rw [run_cons, ih, (s.perform_cases event).1]

end Session

end BracketCss
