import BracketCss.Command.Arguments
import BracketCss.Command.Tree
import BracketCss.Json.Reader
import BracketCss.Session

/-!
# Commands

The two commands: `check` reads classes and prints the verdict on each, `build` compiles the
classes that files name to a sheet. A run of a command is a function of the files and the
arguments.

## Main definitions

* `RunResult`: what a run prints and writes
* `checkTokens tokens`: the command `check`
* `build tree request`: the command `build`
* `run tree args`: the command that the arguments give
-/

namespace BracketCss.Command

open Text

/-- What a file does not let a run finish. -/
inductive FileFault where
  /-- A file that is no text. -/
  | notText
  /-- A directory that does not exist. -/
  | missingDirectory
  /-- A file where a directory should be. -/
  | notDirectory
  /-- A directory where a file should be. -/
  | isDirectory
  deriving DecidableEq, Repr

/-- What a run prints and writes. -/
structure RunResult where
  /-- Zero for success. -/
  exitCode : Nat
  /-- What is printed. -/
  output : String
  /-- What is printed about the run. -/
  messages : String
  /-- The file that did not let the run finish. -/
  fault : Option FileFault
  /-- The file written, with its text. -/
  written : Option (List String × String)
  deriving DecidableEq, Repr

namespace RunResult

/-- A run that prints. -/
def printed (exitCode : Nat) (output messages : String) : RunResult :=
  ⟨exitCode, output, messages, none, none⟩

/-- A run that a file did not let finish. -/
def failed (fault : FileFault) : RunResult := ⟨1, "", "", some fault, none⟩

end RunResult

/-- How a command is used. -/
structure Usage where
  /-- The command. -/
  command : String
  /-- What follows it. -/
  arguments : String

/-- The result for arguments that are refused. -/
def Usage.refuse (usage : Usage) (fault : UsageFault) : RunResult :=
  .printed 2 "" ("Usage: " ++ usage.command ++ " " ++ usage.arguments ++ "\nTry '" ++
    usage.command ++ " --help' for help.\n\nError: " ++ fault.message ++ "\n")

/-- The standard engine. -/
def standardEngine : Except CacheFault Engine :=
  Engine.ofSettings .standard .standard .standard false

/-- The line of a verdict. -/
def verdictLine (token : String) : Except Failure UtilityClass → String
  | .ok c => "OK   " ++ token ++ " -> " ++ c.property ++ ": " ++ c.value ++ "\n"
  | .error failure => "FAIL " ++ failure.text ++ "\n"

/-- The result was refused. -/
def isRefused : Except Failure UtilityClass → Bool
  | .ok _ => false
  | .error _ => true

/-- The results for texts, read by an engine one after the other. -/
def readTexts (e : Engine) : List String → List (String × Except Failure UtilityClass)
  | [] => []
  | token :: tokens =>
    let (next, result) := e.parseText token
    (token, result) :: readTexts next tokens

/-- The verdict on every token, and how many are good. -/
def checkTokens (e : Engine) (tokens : List String) : RunResult :=
  let results := readTexts e tokens
  let failures := results.countP fun entry => isRefused entry.2
  let lines := results.map fun entry => verdictLine entry.1 entry.2
  .printed (if failures = 0 then 0 else 1)
    ("".intercalate lines ++ s!"\nSummary: {results.length - failures} ok, {failures} failed\n") ""

/-- What `build` is to do. -/
structure BuildRequest where
  /-- The path or pattern of the files. -/
  pattern : String
  /-- The file to write; none if the text is empty. -/
  output : String
  /-- The result is printed as JSON. -/
  asJson : Bool
  /-- The sheet is minified. -/
  minify : Bool
  /-- Refused classes are listed. -/
  isVerbose : Bool

/-- The ending of a file's name, from its last dot on. -/
def suffix (name : String) : String :=
  match (pieces '.' name.toList).reverse with
  | ending :: _ :: rest =>
    let isStart := rest.isEmpty && name.toList.head? == some '.'
    if ending.isEmpty || isStart then "" else String.ofList ('.' :: ending)
  | _ => ""

/-- What does not let a run go on: a file, or a message. -/
inductive Stop where
  /-- A file that is no text. -/
  | file (fault : FileFault)
  /-- A message. -/
  | message (text : String)

/-- The classes of a JSON file: a list of texts, or such a list under the name `classes`. -/
def jsonClasses (path : String) (text : String) : Except Stop (List String) :=
  match Json.read text with
  | .error fault => .error (.message (path ++ ": invalid JSON (" ++ fault.message ++ ")"))
  | .ok v =>
    let listed := match v with
      | .object fields => (fields.lookup "classes").getD (.array [])
      | v => v
    match listed with
    | .array items => .ok ((items.filterMap (·.string?)).flatMap textWords)
    | _ => .error (.message (path ++ ": expected a JSON array of class names"))

/-- The classes that a file names. -/
def fileClasses (tree : FileTree) (file : NamedFile) : Except Stop (List String) :=
  match tree.text? file.path with
  | none => .error (.file .notText)
  | some text =>
    if lowerText (suffix (file.shown.getLastD "")) == ".json" then
      jsonClasses (pathText file.shown) text
    else .ok (Markup.classes text)

/-- The classes that files name, in order and without repetitions. -/
def collectClasses (tree : FileTree) (files : List NamedFile) : Except Stop (List String) := do
  return distinct (← files.mapM (fileClasses tree)).flatten

/-- The line about a refused class. -/
def invalidLine (c : InvalidClass) : String :=
  "  " ++ c.className ++ ": " ++ c.reason ++
    (if c.suggestions.isEmpty then "" else " (try: " ++ ", ".intercalate c.suggestions ++ ")") ++
    "\n"

/-- The line with the counts of a compilation. -/
def summaryLine (c : Compilation) : String :=
  s!"Summary: {c.rules.length} valid, {c.invalid.length} invalid, {c.groups.length} rule(s) " ++
    "in 0.00 ms\n"

/-- Where a name leads from a directory in which a file is to be written. -/
def FileTree.enter (tree : FileTree) (directory : List String) (name : String) :
    Except FileFault (List String) :=
  if tree.isFile directory then .error .notDirectory
  else
    match tree.step? directory name with
    | none => .error .missingDirectory
    | some path => .ok path

/-- Where a file may be written. -/
def placeFor (tree : FileTree) (output : String) : Except FileFault (List String) := do
  let path ← (pathNames output).foldlM tree.enter []
  if tree.isDirectory path then throw .isDirectory
  return path

/-- What a compilation prints and writes. -/
def report (tree : FileTree) (request : BuildRequest) (c : Compilation) : RunResult :=
  let listed :=
    if request.isVerbose then "".intercalate (c.invalid.map invalidLine) else ""
  if request.asJson then .printed 0 (c.toJson.indented ++ "\n") listed
  else
    let messages := listed ++ summaryLine c
    if request.output.isEmpty then .printed 0 c.css messages
    else
      match placeFor tree request.output with
      | .error fault => .failed fault
      | .ok path => ⟨0, "Wrote " ++ request.output ++ "\n", messages, none, some (path, c.css)⟩

/-- The command `build`. -/
def build (e : Engine) (tree : FileTree) (request : BuildRequest) : RunResult :=
  let files := tree.inputs request.pattern
  if files.isEmpty then .printed 1 "" ("No files matched: " ++ request.pattern ++ "\n")
  else
    match collectClasses tree files with
    | .error (.file fault) => .failed fault
    | .error (.message text) => .printed 1 "" ("Error: " ++ text ++ "\n")
    | .ok classes =>
      let options := { SheetOptions.default with minify := request.minify }
      match (e.generateFrom options (.strings classes) none).2 with
      | .error fault => .printed 1 "" ("Build failed: " ++ fault.message ++ "\n")
      | .ok c => report tree request c

/-- The option that every command has. -/
def helpForm : OptionForm := ⟨"--help", none, false⟩

/-- The options of `build`. -/
def buildForms : List OptionForm :=
  [⟨"--input", some 'i', true⟩, ⟨"--output", some 'o', true⟩, ⟨"--json", none, false⟩,
    ⟨"--minify", none, false⟩, ⟨"--verbose", none, false⟩, helpForm]

/-- The options before a command. -/
def rootForms : List OptionForm := [⟨"--version", none, false⟩, helpForm]

/-- The use of `check`. -/
def checkUsage : Usage := ⟨"cli check", "[OPTIONS] TOKENS..."⟩

/-- The use of `build`. -/
def buildUsage : Usage := ⟨"cli build", "[OPTIONS]"⟩

/-- The use of the whole program. -/
def rootUsage : Usage := ⟨"cli", "[OPTIONS] COMMAND [ARGS]..."⟩

/-- The value that the last setting gives an option. -/
def lastValue? (settings : List Setting) (long : String) : Option String :=
  (settings.reverse.find? (·.long == long)).map (·.value)

/-- An option was set. -/
def isSet (settings : List Setting) (long : String) : Bool := settings.any (·.long == long)

/-- The arguments of `check`: the tokens. -/
def readCheck (args : List String) : Except UsageFault (List String) := do
  let (_, tokens) ← readArguments [helpForm] true args
  if tokens.isEmpty then throw (.missingArgument "TOKENS...")
  return tokens

/-- A path that may be written leads to no directory. -/
def checkOutput (tree : FileTree) (output : String) : Except UsageFault Unit :=
  if output.isEmpty then .ok ()
  else if isAbsolute output then .ok ()
  else if (tree.locate? (pathNames output)).any tree.isDirectory then
    .error (.directory ["-o", "--output"] output)
  else .ok ()

/-- The arguments of `build`. A directory for the output is refused before a missing input, since
options that were set are checked first. -/
def readBuild (tree : FileTree) (args : List String) : Except UsageFault BuildRequest := do
  let (settings, rest) ← readArguments buildForms true args
  let output := (lastValue? settings "--output").getD ""
  checkOutput tree output
  let some pattern := lastValue? settings "--input" | throw (.missingOption ["-i", "--input"])
  if !rest.isEmpty then throw (.extraArguments rest)
  return ⟨pattern, output, isSet settings "--json", isSet settings "--minify",
    isSet settings "--verbose"⟩

/-- The line that tells the version. -/
def versionLine : String := "zyracss, version " ++ libraryVersion ++ "\n"

/-- A command by its name and its arguments. -/
def runCommand? (e : Engine) (tree : FileTree) (name : String) (args : List String) :
    Option RunResult :=
  if name == "check" then
    some (match readCheck args with
      | .error fault => checkUsage.refuse fault
      | .ok tokens => checkTokens e tokens)
  else if name == "build" then
    some (match readBuild tree args with
      | .error fault => buildUsage.refuse fault
      | .ok request => build e tree request)
  else none

/-- A name of a command that looks like an option is read as one. -/
def readName (name : String) (args : List String) : Except UsageFault (List Setting) := do
  let (settings, _) ← readArguments rootForms false (name :: args)
  return settings

/-- The command that the arguments give, with a given engine. -/
def runWith (e : Engine) (tree : FileTree) (args : List String) : RunResult :=
  match readArguments rootForms false args with
  | .error fault => rootUsage.refuse fault
  | .ok (settings, rest) =>
    if isSet settings "--version" then .printed 0 versionLine ""
    else
      match rest with
      | [] => rootUsage.refuse .missingCommand
      | name :: args =>
        match runCommand? e tree name args, readName name args with
        | some result, _ => result
        | none, .error fault => rootUsage.refuse fault
        | none, .ok settings =>
          if isSet settings "--version" then .printed 0 versionLine ""
          else rootUsage.refuse (.unknownCommand name)

/-- The command that the arguments give. -/
def run (tree : FileTree) (args : List String) : RunResult :=
  match standardEngine with
  | .error fault => .printed 1 "" (fault.message ++ "\n")
  | .ok e => runWith e tree args

end BracketCss.Command
