import BracketCss.Cache.Keys

/-!
# Cache systems

The three tiers of a session, the memo of their keys, a clock, and the timer that sweeps them.
The clock moves only when it is told to, and the timer never runs by itself.

## Main definitions

* `CacheSettings`, `CacheSettings.standard`: the sizes and times
* `CacheSystem`, `CacheSystem.ofSettings`: a system
* `optimize`, `clear`, `startSweeper`, `sweep`, `shutdown`: its upkeep
-/

namespace BracketCss

/-- The sizes and times of a cache system. -/
structure CacheSettings where
  /-- The greatest number of classes. -/
  parseSize : Int
  /-- The greatest number of sheets. -/
  generationSize : Int
  /-- The greatest number of rules. -/
  ruleSize : Int
  /-- How long an entry lives, in seconds. -/
  lifetime : Json.Number
  /-- The age from which an entry is swept, in seconds. -/
  sweepAge : Json.Number
  /-- The time between two sweeps, in seconds; none take place if it is not positive. -/
  sweepInterval : Json.Number
  /-- The greatest number of keys of one kind in the memo. -/
  memoSize : Int
  /-- The share of a full table of keys that goes at once. -/
  memoFraction : Json.Number

/-- The standard sizes and times. -/
def CacheSettings.standard : CacheSettings :=
  ⟨5000, 1000, 10000, .whole 3600, .whole 1800, .whole 300, 10000, .real ⟨false, 2, -1⟩⟩

/-- Three tiers with their keys, a clock and a timer. -/
structure CacheSystem (Parsed Generated Built : Type) where
  /-- Classes. -/
  parse : CacheTier Parsed
  /-- Sheets. -/
  generation : CacheTier Generated
  /-- Rules. -/
  rule : CacheTier Built
  /-- The memo of keys. -/
  keys : KeyMemo
  /-- The age from which an entry is swept. -/
  sweepAge : Duration
  /-- The time between two sweeps. -/
  sweepInterval : Duration
  /-- The time in seconds. -/
  now : Rat
  /-- The timer runs. -/
  isArmed : Bool
  /-- The timer was ended for good. -/
  isClosed : Bool
  /-- The number of sweeps. -/
  sweeps : Nat

/-- The number of entries that an upkeep removed from each tier and from the memo. -/
structure Removed where
  /-- Classes. -/
  parse : Nat
  /-- Sheets. -/
  generation : Nat
  /-- Rules. -/
  rule : Nat
  /-- Keys. -/
  keys : Nat
  deriving DecidableEq, Repr

/-- The numbers as a JSON value. -/
def Removed.toJson (removed : Removed) : Json :=
  .object
    [("parse", .nat removed.parse), ("generation", .nat removed.generation),
      ("rule", .nat removed.rule), ("keys", .nat removed.keys)]

namespace CacheSystem

variable {Parsed Generated Built : Type}

/-- An empty system at time zero. -/
def ofSettings (settings : CacheSettings) :
    Except CacheFault (CacheSystem Parsed Generated Built) := do
  let parse ← CacheTier.ofLimits settings.parseSize settings.lifetime
  let generation ← CacheTier.ofLimits settings.generationSize settings.lifetime
  let rule ← CacheTier.ofLimits settings.ruleSize settings.lifetime
  let keys ← KeyMemo.ofLimits settings.memoSize settings.memoFraction
  return ⟨parse, generation, rule, keys, .ofNumber settings.sweepAge,
    .ofNumber settings.sweepInterval, 0, false, false, 0⟩

/-- The system after some time. -/
def tick (system : CacheSystem Parsed Generated Built) (seconds : Rat) :
    CacheSystem Parsed Generated Built := { system with now := system.now + seconds }

/-- Removes old entries from every tier and little used keys from the memo. -/
def optimize (system : CacheSystem Parsed Generated Built) :
    CacheSystem Parsed Generated Built × Removed :=
  let (parse, parses) := system.parse.sweep system.now system.sweepAge
  let (generation, generations) := system.generation.sweep system.now system.sweepAge
  let (rule, rules) := system.rule.sweep system.now system.sweepAge
  let (keys, forgotten) := system.keys.optimize
  ({ system with parse := parse, generation := generation, rule := rule, keys := keys },
    ⟨parses, generations, rules, forgotten⟩)

/-- Removes everything from the tiers and the memo. -/
def clear (system : CacheSystem Parsed Generated Built) : CacheSystem Parsed Generated Built :=
  { system with
    parse := system.parse.clear
    generation := system.generation.clear
    rule := system.rule.clear
    keys := system.keys.clear }

/-- The timer runs. -/
def isSweeping (system : CacheSystem Parsed Generated Built) : Bool :=
  system.isArmed && !system.isClosed

/-- Starts the timer, with an interval of its own if one is given, and tells whether it did: not
if the interval is not positive, the timer runs already, or it was ended. -/
def startSweeper (system : CacheSystem Parsed Generated Built) (interval : Option Duration) :
    CacheSystem Parsed Generated Built × Bool :=
  if (interval.getD system.sweepInterval).isNonpositive ∨ system.isClosed ∨ system.isArmed then
    (system, false)
  else ({ system with isArmed := true }, true)

/-- What the timer does when its time has come: it tidies up and starts again, unless it was
ended. -/
def sweep (system : CacheSystem Parsed Generated Built) : CacheSystem Parsed Generated Built :=
  let tidy := system.optimize.1
  { tidy with sweeps := tidy.sweeps + 1, isArmed := tidy.isArmed || !tidy.isClosed }

/-- Ends the timer for good. -/
def shutdown (system : CacheSystem Parsed Generated Built) : CacheSystem Parsed Generated Built :=
  { system with isArmed := false, isClosed := true }

/-- The books of a system as a JSON value. -/
def statsJson (system : CacheSystem Parsed Generated Built) : Json :=
  .object
    [("tiers", .object
        [("parse", system.parse.statsJson "parse"),
          ("generation", system.generation.statsJson "generation"),
          ("rule", system.rule.statsJson "rule")]),
      ("keys", system.keys.statsJson), ("sweeps", .nat system.sweeps),
      ("sweeping", .bool system.isSweeping)]

end CacheSystem

end BracketCss
