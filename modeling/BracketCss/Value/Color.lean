import BracketCss.Text.Case
import BracketCss.Value.Dimension
import BracketCss.Value.Outcome
import BracketCss.Value.Scan
import BracketCss.Text.Similarity

/-!
# Colours

Colours by keyword, by name, in hexadecimal digits, and as calls of `rgb`, `rgba`, `hsl` and
`hsla`, whose arguments stand between commas or, in the newer form, between blanks with the alpha
value after a slash. A channel out of range is refused, never clamped.

## Main definitions

* `namedColors`, `colorKeywords`: the named colours of CSS Color Module Level 4, in alphabetical
  order, and the two colour keywords
* `isNamedColor s`: a named colour in any letter case
* `ColorFault`, `ColorFault.message`: why a colour is refused
* `normalizeHex? cs`: the long lower-case form of a hexadecimal colour
* `ColorArguments.split name arguments`: channels and alpha of a call
* `checkColorCall name arguments`: the fault of a call, if there is one
* `validateColor keywords s`, `isColor s`: the verdict on a colour
-/

namespace BracketCss

open Text

/-- The named colours. -/
def namedColors : List String :=
  ["aliceblue", "antiquewhite", "aqua", "aquamarine", "azure", "beige", "bisque", "black",
    "blanchedalmond", "blue", "blueviolet", "brown", "burlywood", "cadetblue", "chartreuse",
    "chocolate", "coral", "cornflowerblue", "cornsilk", "crimson", "cyan", "darkblue", "darkcyan",
    "darkgoldenrod", "darkgray", "darkgreen", "darkgrey", "darkkhaki", "darkmagenta",
    "darkolivegreen", "darkorange", "darkorchid", "darkred", "darksalmon", "darkseagreen",
    "darkslateblue", "darkslategray", "darkslategrey", "darkturquoise", "darkviolet", "deeppink",
    "deepskyblue", "dimgray", "dimgrey", "dodgerblue", "firebrick", "floralwhite", "forestgreen",
    "fuchsia", "gainsboro", "ghostwhite", "gold", "goldenrod", "gray", "green", "greenyellow",
    "grey", "honeydew", "hotpink", "indianred", "indigo", "ivory", "khaki", "lavender",
    "lavenderblush", "lawngreen", "lemonchiffon", "lightblue", "lightcoral", "lightcyan",
    "lightgoldenrodyellow", "lightgray", "lightgreen", "lightgrey", "lightpink", "lightsalmon",
    "lightseagreen", "lightskyblue", "lightslategray", "lightslategrey", "lightsteelblue",
    "lightyellow", "lime", "limegreen", "linen", "magenta", "maroon", "mediumaquamarine",
    "mediumblue", "mediumorchid", "mediumpurple", "mediumseagreen", "mediumslateblue",
    "mediumspringgreen", "mediumturquoise", "mediumvioletred", "midnightblue", "mintcream",
    "mistyrose", "moccasin", "navajowhite", "navy", "oldlace", "olive", "olivedrab", "orange",
    "orangered", "orchid", "palegoldenrod", "palegreen", "paleturquoise", "palevioletred",
    "papayawhip", "peachpuff", "peru", "pink", "plum", "powderblue", "purple", "rebeccapurple",
    "red", "rosybrown", "royalblue", "saddlebrown", "salmon", "sandybrown", "seagreen", "seashell",
    "sienna", "silver", "skyblue", "slateblue", "slategray", "slategrey", "snow", "springgreen",
    "steelblue", "tan", "teal", "thistle", "tomato", "turquoise", "violet", "wheat", "white",
    "whitesmoke", "yellow", "yellowgreen"]

/-- The keywords that stand for a colour. -/
def colorKeywords : List String := ["currentcolor", "transparent"]

/-- The text names a colour, in any letter case. -/
def isNamedColor (s : String) : Bool := namedColors.contains (fullLowerText s)

/-- Why a colour is refused. The texts are the arguments at fault. -/
inductive ColorFault where
  /-- A channel that is no number. -/
  | channelNotNumber (text : String)
  /-- A channel with a unit. -/
  | channelHasUnit (text : String)
  /-- A channel above its greatest value or below zero. -/
  | channelOutside (text : String)
  /-- A percentage above a hundred or below zero; `what` names the argument. -/
  | percentageOutside (what text : String)
  /-- A hue that is neither a number nor an angle. -/
  | hueNotAngle (text : String)
  /-- A hue outside the range of its unit. -/
  | hueOutside (text range : String)
  /-- An argument that is no number; `what` names it. -/
  | notPercentage (what text : String)
  /-- A plain number where a percentage must stand; `what` names the argument. -/
  | mustBePercentage (what text : String)
  /-- A plain number above a hundred or below zero; `what` names the argument. -/
  | numberOutside (what text : String)
  /-- An alpha value that is no number. -/
  | alphaNotNumber (text : String)
  /-- An alpha value with a unit. -/
  | alphaHasUnit (text : String)
  /-- An alpha value above one or below zero. -/
  | alphaOutside (text : String)
  /-- The wrong number of arguments between commas. -/
  | wrongCount (name : String) (expected given : Nat)
  /-- Nothing between two commas. -/
  | emptyArgument (name : String)
  /-- More than one slash. -/
  | severalSlashes (name : String)
  /-- The wrong number of channels. -/
  | wrongChannels (name : String) (given : Nat)
  /-- Nothing after the slash. -/
  | missingAlpha (name : String)
  /-- The wrong number of hexadecimal digits, or other characters. -/
  | hexDigits
  /-- A text that is no colour. -/
  | notColor (text : String)
  deriving DecidableEq, Repr

/-- The text of a fault. -/
def ColorFault.message : ColorFault → String
  | channelNotNumber text => "channel " ++ quoted text ++ " is not a number"
  | channelHasUnit text => "channel " ++ quoted text ++ " has a unit"
  | channelOutside text => "channel " ++ text ++ " is outside 0-255"
  | percentageOutside what text => what ++ " " ++ text ++ " is outside 0%-100%"
  | hueNotAngle text => "hue " ++ quoted text ++ " is not a number or angle"
  | hueOutside text range => "hue " ++ text ++ " is outside " ++ range
  | notPercentage what text => what ++ " " ++ quoted text ++ " is not a percentage"
  | mustBePercentage what text => what ++ " " ++ quoted text ++ " must be a percentage"
  | numberOutside what text => what ++ " " ++ text ++ " is outside 0-100"
  | alphaNotNumber text => "alpha " ++ quoted text ++ " is not a number"
  | alphaHasUnit text => "alpha " ++ quoted text ++ " has a unit"
  | alphaOutside text => "alpha " ++ text ++ " is outside 0-1"
  | wrongCount name expected given =>
    s!"{name}() takes {expected} comma-separated arguments, got {given}"
  | emptyArgument name => name ++ "() has an empty argument"
  | severalSlashes name => name ++ "() has more than one '/'"
  | wrongChannels name given => s!"{name}() takes 3 channels, got {given}"
  | missingAlpha name => name ++ "() is missing the alpha value after '/'"
  | hexDigits => "hex colors must have 3, 6 or 8 digits"
  | notColor text => quoted text ++ " is not a color"

/-- The digits of a hexadecimal colour in lower case, three of them doubled to six. -/
def normalizeHex? (cs : List Char) : Option String :=
  match trim cs with
  | '#' :: digits =>
    if !digits.all isHexDigit then none
    else
      let digits := lower digits
      match digits.length with
      | 3 => some (.ofList ('#' :: digits.flatMap fun c => [c, c]))
      | 6 | 8 => some (.ofList ('#' :: digits))
      | _ => none
  | _ => none

/-- What may stand between the parentheses of a reference to a custom property: the name, and
perhaps a comma with a fallback without parentheses. -/
def isReferenceBody (cs : List Char) : Bool :=
  let start := trimStart cs
  let name := start.takeWhile isNameChar
  isCustomProperty name &&
    match trimStart (start.drop name.length) with
    | [] => true
    | ',' :: fallback => fallback.all fun c => c != '(' && c != ')'
    | _ => false

/-- A reference to a custom property that may stand for an argument of a colour. -/
def isReference (cs : List Char) : Bool :=
  match trim cs with
  | v :: a :: r :: '(' :: rest =>
    [v, a, r].map caseKey == ['v', 'a', 'r'] && rest.getLast? == some ')' &&
      isReferenceBody rest.dropLast
  | _ => false

/-- An integer as a bound. -/
def bound (n : Nat) : Option Decimal := some (Decimal.ofNat n)

/-- The fault of a percentage outside 0% to 100%. -/
def checkPercentage (d : Dimension) (what : String) : Except ColorFault Unit :=
  if d.number.isWithin (bound 0) (bound 100) then .ok ()
  else .error (.percentageOutside what d.written)

/-- The fault of a channel of red, green or blue. -/
def checkChannel (cs : List Char) : Except ColorFault Unit :=
  let text := String.ofList cs
  if isReference cs then .ok ()
  else
    match Dimension.ofChars? cs with
    | none => .error (.channelNotNumber text)
    | some d =>
      if d.isPercentage then checkPercentage d "channel"
      else if !d.isUnitless then .error (.channelHasUnit text)
      else if d.number.isWithin (bound 0) (bound 255) then .ok ()
      else .error (.channelOutside text)

/-- The greatest hue of each unit, the empty unit standing for degrees. -/
def greatestHues : List (String × Decimal) :=
  [("", .ofNat 360), ("deg", .ofNat 360), ("grad", .ofNat 400), ("rad", ⟨false, 62832, -4⟩),
    ("turn", .ofNat 1)]

/-- The fault of a hue. -/
def checkHue (cs : List Char) : Except ColorFault Unit :=
  let text := String.ofList cs
  if isReference cs then .ok ()
  else
    match Dimension.ofChars? cs with
    | none => .error (.hueNotAngle text)
    | some d =>
      match greatestHues.lookup d.unit with
      | none => .error (.hueNotAngle text)
      | some high =>
        if d.number.isWithin (bound 0) (some high) then .ok ()
        else
          .error (.hueOutside text
            ("0-" ++ high.toText ++ if d.unit == "" then "deg" else d.unit))

/-- The fault of a saturation or a lightness; `strict` allows percentages only. -/
def checkShare (what : String) (strict : Bool) (cs : List Char) : Except ColorFault Unit :=
  let text := String.ofList cs
  if isReference cs then .ok ()
  else
    match Dimension.ofChars? cs with
    | none => .error (.notPercentage what text)
    | some d =>
      if d.isPercentage then checkPercentage d what
      else if strict || !d.isUnitless then .error (.mustBePercentage what text)
      else if d.number.isWithin (bound 0) (bound 100) then .ok ()
      else .error (.numberOutside what text)

/-- The fault of an alpha value. -/
def checkAlpha (cs : List Char) : Except ColorFault Unit :=
  let text := String.ofList cs
  if isReference cs then .ok ()
  else
    match Dimension.ofChars? cs with
    | none => .error (.alphaNotNumber text)
    | some d =>
      if d.isPercentage then checkPercentage d "alpha"
      else if !d.isUnitless then .error (.alphaHasUnit text)
      else if d.number.isWithin (bound 0) (bound 1) then .ok ()
      else .error (.alphaOutside text)

/-- The arguments of a colour call. -/
structure ColorArguments where
  /-- The first channel. -/
  first : List Char
  /-- The second channel. -/
  second : List Char
  /-- The third channel. -/
  third : List Char
  /-- The alpha value. -/
  alpha : Option (List Char)
  deriving DecidableEq, Repr

/-- The colour functions, with their number of arguments between commas. -/
def colorFunctions : List (String × Nat) := [("rgb", 3), ("rgba", 4), ("hsl", 3), ("hsla", 4)]

/-- The names of the colour functions. -/
def colorFunctionNames : List String := colorFunctions.map (·.1)

/-- Splits the arguments of a colour function: at commas, or without a top-level comma into three
words with the alpha value after a slash. -/
def ColorArguments.split (name : String) (arguments : List Char) :
    Except ColorFault ColorArguments :=
  let byComma := Scan.commaParts arguments
  let expected := (colorFunctions.lookup name).getD 3
  if 1 < byComma.length then
    if byComma.length ≠ expected then .error (.wrongCount name expected byComma.length)
    else if byComma.contains [] then .error (.emptyArgument name)
    else
      match byComma with
      | [a, b, c] => .ok ⟨a, b, c, none⟩
      | [a, b, c, alpha] => .ok ⟨a, b, c, some alpha⟩
      | _ => .error (.wrongCount name expected byComma.length)
  else
    let bySlash := Scan.parts (· == '/') arguments
    if 2 < bySlash.length then .error (.severalSlashes name)
    else
      let alpha := bySlash[1]?
      match Scan.topWords (bySlash.headD []) with
      | [a, b, c] => if alpha = some [] then .error (.missingAlpha name) else .ok ⟨a, b, c, alpha⟩
      | channels => .error (.wrongChannels name channels.length)

/-- The fault of the arguments of a colour function. -/
def checkColorCall (name : String) (arguments : List Char) : Except ColorFault Unit := do
  let split ← ColorArguments.split name arguments
  if name == "rgb" || name == "rgba" then
    checkChannel split.first
    checkChannel split.second
    checkChannel split.third
  else
    let strict := arguments.contains ','
    checkHue split.first
    checkShare "saturation" strict split.second
    checkShare "lightness" strict split.third
  match split.alpha with
  | some alpha => checkAlpha alpha
  | none => .ok ()

/-- The verdict on a colour, with further keywords that stand for one. -/
def validateColor (keywords : List String) (s : String) : Outcome ColorFault :=
  let value := trimText s
  let lowered := fullLowerText value
  if keywords.contains lowered || colorKeywords.contains lowered then
    .accepted lowered .color (.color "keyword")
  else if namedColors.contains lowered then .accepted lowered .color (.color "named")
  else if value.toList.head? = some '#' then
    match normalizeHex? value.toList with
    | some hex => .accepted hex .color (.color "hex")
    | none => .rejected .hexDigits [] (.color "hex")
  else
    match Scan.callOf? colorFunctionNames value.toList with
    | some call =>
      match checkColorCall call.name call.arguments with
      | .ok () =>
        .accepted (call.name ++ "(" ++ .ofList (trim call.arguments) ++ ")") .color
          (.color call.name)
      | .error fault => .rejected fault [] (.color call.name)
    | none =>
      .rejected (.notColor value)
        ((closest lowered (namedColors ++ colorKeywords) suggestionDistance).take 3) .none

/-- The text is a colour. -/
def isColor (cs : List Char) : Bool := (validateColor [] (.ofList cs)).isAccepted

end BracketCss
