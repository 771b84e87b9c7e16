import BracketCss.Text.Quoted
import BracketCss.Text.Similarity

/-!
# Command arguments

Reading the arguments of a command: options with a long and perhaps a short name, with or without
a value, and the other arguments. A short option may be joined with others or with its value, a
long one with its value by an equals sign, and after a double hyphen there are no more options.

## Main definitions

* `OptionForm`: an option that a command knows
* `UsageFault`, `UsageFault.message`: why arguments are refused
* `readArguments forms isMixed args`: the options set and the other arguments
-/

namespace BracketCss.Command

open Text

/-- An option that a command knows. -/
structure OptionForm where
  /-- The long name with its hyphens. -/
  long : String
  /-- The letter of the short name. -/
  short : Option Char
  /-- The option has a value. -/
  takesValue : Bool
  deriving DecidableEq, Repr

/-- An option that was set, by its long name, with its value if it has one. -/
structure Setting where
  /-- The long name of the option. -/
  long : String
  /-- The value. -/
  value : String
  deriving DecidableEq, Repr

/-- Why arguments are refused. -/
inductive UsageFault where
  /-- An option that does not exist, and those with a name like it. -/
  | unknownOption (name : String) (alike : List String)
  /-- An option without its value. -/
  | missingValue (name : String)
  /-- An option with a value that it does not take. -/
  | unwantedValue (name : String)
  /-- A required argument is missing. -/
  | missingArgument (label : String)
  /-- A required option is missing. -/
  | missingOption (names : List String)
  /-- A file to be written is a directory. -/
  | directory (names : List String) (path : String)
  /-- Arguments that the command does not take. -/
  | extraArguments (args : List String)
  /-- A command that does not exist. -/
  | unknownCommand (name : String)
  /-- No command. -/
  | missingCommand
  deriving DecidableEq, Repr

/-- The names of an option side by side. -/
def joinNames (names : List String) : String :=
  " / ".intercalate (names.map fun name => "'" ++ name ++ "'")

/-- The text of a fault. -/
def UsageFault.message : UsageFault → String
  | unknownOption name alike =>
    "No such option: " ++ name ++
      match alike with
      | [] => ""
      | [one] => " Did you mean " ++ one ++ "?"
      | several =>
        let sorted := several.mergeSort fun a b => decide (a ≤ b)
        " (Possible options: " ++ ", ".intercalate sorted ++ ")"
  | missingValue name => "Option " ++ quoted name ++ " requires an argument."
  | unwantedValue name => "Option " ++ quoted name ++ " does not take a value."
  | missingArgument label => "Missing argument '" ++ label ++ "'."
  | missingOption names => "Missing option " ++ joinNames names ++ "."
  | directory names path =>
    "Invalid value for " ++ joinNames names ++ ": File " ++ quoted path ++ " is a directory."
  | extraArguments [arg] => "Got unexpected extra argument (" ++ arg ++ ")"
  | extraArguments args => "Got unexpected extra arguments (" ++ " ".intercalate args ++ ")"
  | unknownCommand name => "No such command " ++ quoted name ++ "."
  | missingCommand => "Missing command."

/-- What one argument with options sets: the settings, and the option that takes the next argument
as its value, with the name by which it was given. -/
structure Taken where
  /-- The settings. -/
  settings : List Setting
  /-- The option without its value, and the name by which it was given. -/
  open? : Option (OptionForm × String)

/-- The options of a long argument: one name, perhaps with a value after an equals sign. -/
def readLong (forms : List OptionForm) (arg : String) : Except UsageFault Taken :=
  let cs := arg.toList
  let name := String.ofList (cs.takeWhile (· != '='))
  let value := (cs.dropWhile (· != '=')).drop 1
  let isJoined := cs.contains '='
  match forms.find? (·.long == name) with
  | none => .error (.unknownOption name (similar name (forms.map (·.long))))
  | some form =>
    if form.takesValue then
      if isJoined then .ok ⟨[⟨form.long, .ofList value⟩], none⟩ else .ok ⟨[], some (form, name)⟩
    else if isJoined then .error (.unwantedValue name)
    else .ok ⟨[⟨form.long, ""⟩], none⟩

/-- The options of a run of letters; what follows the letter of an option with a value is the
value. -/
def readShort (forms : List OptionForm) : List Char → Except UsageFault Taken
  | [] => .ok ⟨[], none⟩
  | c :: cs =>
    let name := String.ofList ['-', c]
    match forms.find? (·.short == some c) with
    | none => .error (.unknownOption name [])
    | some form =>
      if form.takesValue then
        if cs.isEmpty then .ok ⟨[], some (form, name)⟩
        else .ok ⟨[⟨form.long, .ofList cs⟩], none⟩
      else
        (readShort forms cs).map fun taken =>
          { taken with settings := ⟨form.long, ""⟩ :: taken.settings }

/-- The options of an argument. -/
def readOption (forms : List OptionForm) (arg : String) : Except UsageFault Taken :=
  match arg.toList with
  | '-' :: '-' :: _ => readLong forms arg
  | cs => readShort forms (cs.drop 1)

/-- An argument with options: a hyphen and more. -/
def isOptionArgument (arg : String) : Bool :=
  match arg.toList with
  | '-' :: _ :: _ => true
  | _ => false

/-- The settings in order, and the other arguments. If options may not be mixed with other
arguments, they end at the first one. -/
def readArguments (forms : List OptionForm) (isMixed : Bool) :
    List String → Except UsageFault (List Setting × List String)
  | [] => .ok ([], [])
  | arg :: args =>
    if arg == "--" then .ok ([], args)
    else if isOptionArgument arg then
      match readOption forms arg with
      | .error fault => .error fault
      | .ok ⟨settings, none⟩ =>
        (readArguments forms isMixed args).map fun rest => (settings ++ rest.1, rest.2)
      | .ok ⟨settings, some (form, name)⟩ =>
        match args with
        | [] => .error (.missingValue name)
        | value :: args =>
          (readArguments forms isMixed args).map fun rest =>
            (settings ++ ⟨form.long, value⟩ :: rest.1, rest.2)
    else if isMixed then
      (readArguments forms isMixed args).map fun rest => (rest.1, arg :: rest.2)
    else .ok ([], arg :: args)

end BracketCss.Command
