import BracketCss.Engine.Basic

/-!
# Sessions

A session holds the classes of a document that is being edited. It reads new classes with its
engine, keeps the valid ones, and compiles the sheet of all of them on demand; the last sheet is
kept until the classes or the options change.

## Main definitions

* `Session`, `Session.ofEngine`: a session
* `add`, `addMarkup`, `remove`, `has`, `clear`: the classes held
* `css`, `updateOptions`: the sheet and its options
* `stateJson`, `load`: saving a session and starting from a saved one

## Main results

* `classes_clear`: a cleared session holds no class
-/

namespace BracketCss

open Text

/-- Why a session refuses an operation. -/
inductive SessionFault where
  /-- A bound on the classes below one. -/
  | noRoom (given : Int)
  /-- More classes than the session may hold. -/
  | full (capacity : Int) (added held : Nat)
  /-- Markup that is no text. -/
  | notMarkup (kind : String)
  /-- A saved state without a list of classes. -/
  | notState
  /-- The options are refused. -/
  | options (fault : OptionFault)
  /-- The engine refuses the request. -/
  | request (fault : RequestFault)
  /-- A value of a kind that the operation cannot take. -/
  | unusable
  deriving DecidableEq, Repr

/-- The text of a fault. -/
def SessionFault.message : SessionFault → String
  | noRoom given => s!"max_classes must be at least 1, got {given}"
  | full capacity added held =>
    s!"engine holds at most {capacity} classes, adding {added} to {held} would exceed it"
  | notMarkup kind => "html must be a string, got " ++ kind
  | notState => "state must be a mapping with a 'classes' list"
  | options fault => fault.message
  | request fault => fault.message
  | unusable => ""

/-- The version that saved states carry. -/
def libraryVersion : String := "0.4.0"

/-- A set of classes that is being edited. -/
structure Session where
  /-- The engine that reads and compiles. -/
  engine : Engine
  /-- The engine was made for this session and keeps its own time. -/
  ownsEngine : Bool
  /-- The options that hold unless others are given. -/
  options : SheetOptions
  /-- The greatest number of classes. -/
  capacity : Int
  /-- The last sheet is kept. -/
  keepsSheet : Bool
  /-- The classes held, in the order in which they were added. -/
  classes : List String
  /-- The sheet that is kept, with its options. -/
  sheet : Option (SheetOptions × Compilation)
  /-- The changes since the last sheet. -/
  pending : Nat
  /-- The number of additions. -/
  updates : Nat
  /-- Sheets served without compiling. -/
  hits : Nat
  /-- Sheets that had to be compiled. -/
  misses : Nat
  /-- The age of the session, in seconds. -/
  age : Json.Number

/-- What an addition comes to. -/
structure Update where
  /-- The number of new classes. -/
  added : Nat
  /-- The refused tokens. -/
  invalid : List InvalidClass
  /-- The number of classes held. -/
  total : Nat
  /-- The number of classes found in markup, if there was any. -/
  extracted : Option Nat

/-- The update as a JSON value. -/
def Update.toJson (update : Update) : Json :=
  .object
    ([("added", .nat update.added), ("invalid", .array (update.invalid.map (·.toJson))),
        ("total_classes", .nat update.total)] ++
      match update.extracted with
      | none => []
      | some n => [("extracted", .nat n)])

namespace Session

/-- A session without classes. -/
def ofEngine (engine : Engine) (ownsEngine : Bool) (options : Except OptionFault SheetOptions)
    (capacity : Int) (keepsSheet : Bool) : Except SessionFault Session := do
  if capacity < 1 then throw (.noRoom capacity)
  let options ← options.mapError .options
  return ⟨engine, ownsEngine, options, capacity, keepsSheet, [], none, 0, 0, 0, 0, .whole 0⟩

/-- The session after a change: the sheet that was kept goes. -/
def changed (s : Session) : Session := { s with sheet := none, pending := s.pending + 1 }

/-- The session after some time. -/
def tick (s : Session) (seconds : Json.Number) : Session :=
  { s with
    age := s.age.add seconds
    engine :=
      if s.ownsEngine then s.engine
      else s.engine.withCache (s.engine.cache.tick seconds.toRat) }

/-- Adds the classes of a batch, unless they are too many. -/
def addBatch (s : Session) (batch : Batch) : Session × Except SessionFault Update :=
  let fresh := batch.valid.filter fun name => !s.classes.contains name
  let held := s.classes.length
  if s.capacity < ((held + fresh.length : Nat) : Int) then
    (s, .error (.full s.capacity fresh.length held))
  else
    let grown := if fresh.isEmpty then s else { s with classes := s.classes ++ fresh }.changed
    ({ grown with updates := grown.updates + 1 },
      .ok ⟨fresh.length, batch.invalid, grown.classes.length, none⟩)

/-- Adds the valid ones of the classes that a value gives. -/
def add (s : Session) (classes : Json) : Session × Except SessionFault Update :=
  match s.engine.parseMany classes none with
  | (engine, .error fault) => ({ s with engine := engine }, .error (.request fault))
  | (engine, .ok batch) => { s with engine := engine }.addBatch batch

/-- Adds the valid ones of the classes that markup names. -/
def addMarkup (s : Session) : Json → Session × Except SessionFault Update
  | .string document =>
    let found := Markup.classes document
    let (s, result) := s.add (.strings found)
    (s, result.map fun update => { update with extracted := some found.length })
  | other => (s, .error (.notMarkup other.kindName))

/-- The names that a value gives for removal: the words of a text, or the texts among the items of
another value. -/
def removalNames : Json → Option (List String)
  | .string s => some (textWords s)
  | other => other.items?.map fun items => items.filterMap (·.string?)

/-- Removes classes, and counts those that were held. -/
def remove (s : Session) (classes : Json) : Session × Except SessionFault Nat :=
  match removalNames classes with
  | none => (s, .error .unusable)
  | some names =>
    let kept := s.classes.filter fun name => !names.contains name
    let count := s.classes.length - kept.length
    (if count = 0 then s else { s with classes := kept }.changed, .ok count)

/-- A name is held. Lists and named values cannot be asked about. -/
def has (s : Session) : Json → Except SessionFault Bool
  | .string name => .ok (s.classes.contains name)
  | .array _ | .object _ => .error .unusable
  | _ => .ok false

/-- Removes all classes, and counts them. -/
def clear (s : Session) : Session × Nat := ({ s with classes := [] }.changed, s.classes.length)

/-- The options of one call: those of the session with some of them changed. -/
def effectiveOptions (s : Session) : Json → Except SessionFault SheetOptions
  | .null => .ok s.options
  | .object changes => (s.options.merge changes).mapError .options
  | _ => .error .unusable

/-- The sheet that is kept for these options. -/
def keptSheet? (s : Session) (options : SheetOptions) : Option Compilation :=
  if s.keepsSheet then
    match s.sheet with
    | some (present, c) => if present = options then some c else none
    | none => none
  else none

/-- The sheet of all classes under given options. -/
def cssWith (s : Session) (options : SheetOptions) : Session × Except SessionFault Compilation :=
  match s.keptSheet? options with
  | some c => ({ s with hits := s.hits + 1 }, .ok c.fromCache)
  | none =>
    let (engine, result) := s.engine.generateFrom options (.strings s.classes) none
    let s := { s with engine := engine, misses := s.misses + 1 }
    match result with
    | .error fault => (s, .error (.request fault))
    | .ok c =>
      (if s.keepsSheet then { s with sheet := some (options, c), pending := 0 } else s, .ok c)

/-- The sheet of all classes, with some options changed for this call. -/
def css (s : Session) (options : Json) : Session × Except SessionFault Compilation :=
  match s.effectiveOptions options with
  | .error fault => (s, .error fault)
  | .ok options => s.cssWith options

/-- Changes some of the options of the session. -/
def updateOptions (s : Session) (changes : List (String × Json)) :
    Session × Except SessionFault SheetOptions :=
  match s.options.merge changes with
  | .error fault => (s, .error (.options fault))
  | .ok options => ({ s with options := options }.changed, .ok options)

/-- The books of a session as a JSON value. -/
def statsJson (s : Session) : Json :=
  .object
    [("total_updates", .nat s.updates), ("total_classes", .nat s.classes.length),
      ("cache_hits", .nat s.hits), ("cache_misses", .nat s.misses),
      ("cache_hit_rate", .ratio ⟨s.hits, s.hits + s.misses⟩), ("pending_changes", .nat s.pending),
      ("last_generation_time", .real (.ofNat 0)), ("average_generation_time", .real (.ofNat 0)),
      ("uptime", .number s.age)]

/-- The session as a state that can be saved. -/
def stateJson (s : Session) : Json :=
  .object
    [("version", .string libraryVersion), ("classes", .strings s.classes),
      ("options", s.options.toJson), ("stats", s.statsJson)]

/-- The options that a saved state gives. -/
def savedOptions (s : Session) (fields : List (String × Json)) :
    Except SessionFault SheetOptions :=
  match fields.lookup "options" with
  | none | some .null => .ok s.options
  | some options => (SheetOptions.ofJson options).mapError .options

/-- Starts again from a saved state. The state is checked before anything is replaced; then its
classes are added to the empty session. -/
def load (s : Session) (state : Json) : Session × Except SessionFault Update :=
  match state with
  | .object fields =>
    match fields.lookup "classes" with
    | some (.array items) =>
      match s.savedOptions fields with
      | .error fault => (s, .error fault)
      | .ok options => { s.clear.1 with options := options }.add (.array items)
    | _ => (s, .error .notState)
  | _ => (s, .error .notState)

/-- Ends the session: an engine of its own is shut down. -/
def close (s : Session) : Session :=
  if s.ownsEngine then { s with engine := s.engine.shutdown } else s

@[simp] theorem classes_clear (s : Session) : s.clear.1.classes = [] := rfl

end Session

end BracketCss
