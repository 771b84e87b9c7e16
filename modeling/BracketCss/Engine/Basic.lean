import BracketCss.Cache.System
import BracketCss.Engine.Compilation
import BracketCss.Markup

/-!
# Engines

An engine compiles classes to sheets and keeps what it read, built and compiled in caches of its
own. Every operation takes the engine to a new one beside its answer.

## Main definitions

* `Engine`, `Engine.ofSettings`: an engine
* `parse`, `build`: one class and one rule
* `parseTokens`, `compile`, `generate`: lists of tokens
* `tokens`: the tokens that a value gives

## Main results

* `parse_of_not_text`: a token that is no text is never kept
-/

namespace BracketCss

open Text

/-- Why a request is refused as a whole. -/
inductive RequestFault where
  /-- The classes are neither a text nor a list. -/
  | notClasses (kind : String)
  /-- More classes than one request may have. -/
  | tooMany (given : Nat) (limit : Int)
  /-- The options are refused. -/
  | options (fault : OptionFault)
  /-- A value that cannot be run through. -/
  | notIterable
  deriving DecidableEq, Repr

/-- The text of a fault. -/
def RequestFault.message : RequestFault → String
  | notClasses kind => "classes must be a string or a list, got " ++ kind
  | tooMany given limit => s!"too many classes in one request: {given} (limit {limit})"
  | options fault => fault.message
  | notIterable => ""

/-- The caches of an engine. -/
abbrev EngineCache := CacheSystem UtilityClass Compilation StyleRule

/-- An engine. -/
structure Engine where
  /-- The limits on input. -/
  limits : InputLimits
  /-- The utilities and properties. -/
  table : PropertyTable
  /-- What is kept. -/
  cache : EngineCache

namespace Engine

/-- An engine that has kept nothing; with `isSweeping` its timer runs. -/
def ofSettings (limits : InputLimits) (settings : CacheSettings) (table : PropertyTable)
    (isSweeping : Bool) : Except CacheFault Engine := do
  let cache ← CacheSystem.ofSettings settings
  return ⟨limits, table, if isSweeping then (cache.startSweeper none).1 else cache⟩

/-- The engine with its caches changed. -/
def withCache (e : Engine) (cache : EngineCache) : Engine := { e with cache := cache }

/-- What reading a token yields without any cache. -/
def readToken (e : Engine) (token : Json) : Except Failure UtilityClass :=
  UtilityClass.read e.table e.limits token

/-- The class of a text; one that was read before is served from the cache, a refusal is not
kept. -/
def parseText (e : Engine) (s : String) : Engine × Except Failure UtilityClass :=
  let (keys, key) := e.cache.keys.parseKey s
  let (tier, kept) := e.cache.parse.get e.cache.now key
  match kept with
  | some c => (e.withCache { e.cache with keys := keys, parse := tier }, .ok c)
  | none =>
    match e.readToken (.string s) with
    | .ok c =>
      (e.withCache { e.cache with keys := keys, parse := tier.set e.cache.now key c }, .ok c)
    | .error failure =>
      (e.withCache { e.cache with keys := keys, parse := tier }, .error failure)

/-- The class of a token. -/
def parse (e : Engine) : Json → Engine × Except Failure UtilityClass
  | .string s => e.parseText s
  | token => (e, e.readToken token)

/-- The selector under which the rule of a class is kept, with its media prelude in front. -/
def keySelector (c : UtilityClass) : String :=
  match c.variants.media with
  | none => c.fullSelector
  | some media => media ++ " " ++ c.fullSelector

/-- The rule of a class; one that was built before is served from the cache, a refusal is not
kept. -/
def build (e : Engine) (c : UtilityClass) (important : Bool) :
    Engine × Except Failure StyleRule :=
  let declaration := Json.object [(c.property, .string (declaredValue important c.value))]
  let (keys, key) := e.cache.keys.ruleKey (keySelector c) declaration
  let (tier, kept) := e.cache.rule.get e.cache.now key
  match kept with
  | some rule => (e.withCache { e.cache with keys := keys, rule := tier }, .ok rule)
  | none =>
    match c.rule important with
    | .ok rule =>
      (e.withCache { e.cache with keys := keys, rule := tier.set e.cache.now key rule }, .ok rule)
    | .error failure =>
      (e.withCache { e.cache with keys := keys, rule := tier }, .error failure)

/-- The results for tokens, read one after the other. -/
def parseEach (e : Engine) : List Json → Engine × List TokenResult
  | [] => (e, [])
  | token :: tokens =>
    let (next, result) := e.parse token
    let (last, results) := next.parseEach tokens
    (last, (token, result) :: results)

/-- The batch of a list of tokens. With `stop` set to `n`, reading is cancelled after `n` tokens if
there are more. -/
def parseTokens (e : Engine) (tokens : List Json) (stop : Option Nat) : Engine × Batch :=
  let heard := match stop with
    | none => tokens
    | some n => tokens.take n
  let (e, results) := e.parseEach (distinctTokens heard)
  (e, .ofResults tokens.length (decide (heard.length < tokens.length)) results)

/-- The rules of classes, and the reports on those without one. -/
def buildEach (e : Engine) (important : Bool) :
    List UtilityClass → Engine × List StyleRule × List InvalidClass
  | [] => (e, [], [])
  | c :: rest =>
    let (next, result) := e.build c important
    let (last, rules, refused) := next.buildEach important rest
    match result with
    | .ok rule => (last, rule :: rules, refused)
    | .error failure => (last, rules, .ofClass c.name failure :: refused)

/-- The compilation of a list of tokens, without the cache of sheets. -/
def compile (e : Engine) (options : SheetOptions) (tokens : List Json) (stop : Option Nat) :
    Engine × Compilation :=
  let (e, batch) := e.parseTokens tokens stop
  let (e, rules, refused) := e.buildEach options.important batch.parsed
  (e, .ofRules options batch rules refused)

/-- A token as it enters the key of a sheet: one that is no text is told by its kind and its
notation. -/
def keyToken : Json → Json
  | .string s => .string s
  | token => .object [("type", .string token.kindName), ("repr", .string token.literal)]

/-- The compilation of a list of tokens; one that was made before, with the same tokens in any
order, is served from the cache, and one that was cancelled is not kept. -/
def generate (e : Engine) (options : SheetOptions) (tokens : List Json) (stop : Option Nat) :
    Engine × Compilation :=
  let (keys, key) := e.cache.keys.generationKey (tokens.map keyToken) options.toJson
  let (tier, kept) := e.cache.generation.get e.cache.now key
  let e := e.withCache { e.cache with keys := keys, generation := tier }
  match kept with
  | some c => (e, c.fromCache)
  | none =>
    let (e, c) := e.compile options tokens stop
    if c.isCancelled then (e, c)
    else
      (e.withCache
        { e.cache with generation := e.cache.generation.set e.cache.now key c }, c)

/-- The tokens that a value gives, if it is a text or a list and within the limit. -/
def tokens (e : Engine) (classes : Json) : Except RequestFault (List Json) := do
  let tokens ← match classes with
    | .string s => pure ((textWords s).map Json.string)
    | .array items => pure items
    | other => throw (.notClasses other.kindName)
  if e.limits.requestSize < tokens.length then
    throw (.tooMany tokens.length e.limits.requestSize)
  return tokens

/-- The batch of the classes that a value gives. -/
def parseMany (e : Engine) (classes : Json) (stop : Option Nat) :
    Engine × Except RequestFault Batch :=
  match e.tokens classes with
  | .error fault => (e, .error fault)
  | .ok tokens =>
    let (e, batch) := e.parseTokens tokens stop
    (e, .ok batch)

/-- The compilation of the classes that a value gives. -/
def generateFrom (e : Engine) (options : SheetOptions) (classes : Json) (stop : Option Nat) :
    Engine × Except RequestFault Compilation :=
  match e.tokens classes with
  | .error fault => (e, .error fault)
  | .ok tokens =>
    let (e, c) := e.generate options tokens stop
    (e, .ok c)

/-- The compilation of the classes that a request gives under the options that it gives. -/
def answer (e : Engine) (classes options : Json) (stop : Option Nat) :
    Engine × Except RequestFault Compilation :=
  match SheetOptions.ofJson options with
  | .error fault => (e, .error (.options fault))
  | .ok options => e.generateFrom options classes stop

/-- The classes that markup names: a text is one document, and other values give one document
after the other, of which those that are no texts name none. -/
def markupClasses (documents : Json) : Except RequestFault (List String) :=
  match documents with
  | .string s => .ok (Markup.classes s)
  | other =>
    match other.items? with
    | none => .error .notIterable
    | some items => .ok (Markup.classesOfAll (items.filterMap (·.string?)))

/-- The compilation of the classes that markup names. -/
def answerMarkup (e : Engine) (documents options : Json) :
    Engine × Except RequestFault Compilation :=
  match markupClasses documents with
  | .error fault => (e, .error fault)
  | .ok names => e.answer (.strings names) options none

/-- All classes that a value gives are valid; a value that gives none is not. -/
def areValid (e : Engine) (classes : Json) : Engine × Bool :=
  match e.parseMany classes none with
  | (e, .ok batch) => (e, batch.invalid.isEmpty)
  | (e, .error _) => (e, false)

/-- The bytes of a rule on average. -/
def averageRuleSize : Nat := 45

/-- An estimate of the size of a sheet. -/
structure SizeEstimate where
  /-- The number of rules. -/
  rules : Nat
  /-- How sure it is. -/
  confidence : Decimal
  deriving DecidableEq, Repr

/-- The size of a sheet with as many rules as a value gives valid classes. -/
def estimate (e : Engine) (classes : Json) : Engine × SizeEstimate :=
  match e.parseMany classes none with
  | (e, .ok batch) =>
    let count := batch.parsed.length
    (e, ⟨count, if count = 0 then .ofNat 0 else ⟨false, 7, -1⟩⟩)
  | (e, .error _) => (e, ⟨0, .ofNat 0⟩)

/-- The estimate as a JSON value. -/
def SizeEstimate.toJson (estimate : SizeEstimate) : Json :=
  .object
    [("estimated_size", .nat (averageRuleSize * estimate.rules)),
      ("estimated_rules", .nat estimate.rules), ("confidence", .real estimate.confidence),
      ("unit", .string "bytes")]

/-- Ends the timer of the caches for good. -/
def shutdown (e : Engine) : Engine := e.withCache e.cache.shutdown

theorem parse_of_not_text {e : Engine} {token : Json} (h : token.string? = none) :
    e.parse token = (e, e.readToken token) := by
  cases token <;> first | rfl | cases h

end Engine

end BracketCss
