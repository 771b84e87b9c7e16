import BracketCss.Pattern.Match
import BracketCss.Threat.Risk

/-!
# Threats

The named patterns of text that can turn a style sheet into a carrier of code, or hide such text.
They are sought in any letter case.

## Main definitions

* `Threat`, `Threat.all`: the threats in the order in which they are reported
* `Threat.name`, `Threat.risk`, `Threat.description`, `Threat.pattern`: what each one is
* `Threat.ofName? s`: the threat of a name

## Main results

* `ofName?_name`: every threat is found by its name
-/

namespace BracketCss

open Pattern

/-- A kind of dangerous text. -/
inductive Threat where
  /-- A link that runs a script. -/
  | scriptUrl
  /-- A link that runs a script of an old browser. -/
  | basicScriptUrl
  /-- A link that carries its own content. -/
  | dataUrl
  /-- A style value that is evaluated as code. -/
  | expressionCall
  /-- A behaviour attached to an element. -/
  | behavior
  /-- A binding attached to an element. -/
  | binding
  /-- The import of another sheet. -/
  | sheetImport
  /-- A comment. -/
  | comment
  /-- A script element. -/
  | scriptTag
  /-- A frame element. -/
  | frameTag
  /-- An attribute that handles an event. -/
  | eventHandler
  /-- A link that is not for a browser. -/
  | foreignScheme
  /-- Code inside an arithmetic expression. -/
  | calcInjection
  /-- An escaped code point of a sheet. -/
  | sheetEscape
  /-- An escaped code point of markup. -/
  | markupEscape
  deriving DecidableEq, Repr

namespace Threat

/-- The threats in the order in which they are reported. -/
def all : List Threat :=
  [scriptUrl, basicScriptUrl, dataUrl, expressionCall, behavior, binding, sheetImport, comment,
    scriptTag, frameTag, eventHandler, foreignScheme, calcInjection, sheetEscape, markupEscape]

/-- The name under which a threat is reported. -/
def name : Threat → String
  | scriptUrl => "javascript_url"
  | basicScriptUrl => "vbscript_url"
  | dataUrl => "data_url"
  | expressionCall => "css_expression"
  | behavior => "css_behavior"
  | binding => "css_binding"
  | sheetImport => "css_import"
  | comment => "css_comment"
  | scriptTag => "html_script"
  | frameTag => "html_iframe"
  | eventHandler => "event_handler"
  | foreignScheme => "url_scheme"
  | calcInjection => "css_calc_injection"
  | sheetEscape => "css_escape"
  | markupEscape => "html_entity"

/-- How severe a threat is. -/
def risk : Threat → Risk
  | scriptUrl | basicScriptUrl | expressionCall | scriptTag | eventHandler => .critical
  | dataUrl | behavior | binding | frameTag | calcInjection => .high
  | sheetImport | foreignScheme | sheetEscape | markupEscape => .medium
  | comment => .low

/-- What a threat is, in a few words. -/
def description : Threat → String
  | scriptUrl => "JavaScript URL scheme"
  | basicScriptUrl => "VBScript URL scheme"
  | dataUrl => "Data URL, can embed arbitrary content"
  | expressionCall => "Legacy IE CSS expression()"
  | behavior => "Legacy IE behavior binding"
  | binding => "Legacy Mozilla XBL binding"
  | sheetImport => "Stylesheet import"
  | comment => "CSS comment, can hide content"
  | scriptTag => "Script tag"
  | frameTag => "Iframe tag"
  | eventHandler => "Inline event handler attribute"
  | foreignScheme => "Non-HTTP URL scheme"
  | calcInjection => "calc() wrapping an injection keyword"
  | sheetEscape => "CSS hex escape sequence, can disguise keywords"
  | markupEscape => "Numeric HTML entity, can disguise keywords"

/-- A word, blanks, and a mark. -/
def wordThen (word : String) (mark : Char) : Pattern :=
  sequence [textIgnoringCase word, many .blank, char (.one mark)]

/-- An opening angle bracket, blanks, and the name of an element. -/
def tag (element : String) : Pattern :=
  sequence [char (.one '<'), many .blank, textIgnoringCase element]

/-- The text in which a threat shows. -/
def pattern : Threat → Pattern
  | scriptUrl => wordThen "javascript" ':'
  | basicScriptUrl => wordThen "vbscript" ':'
  | dataUrl => wordThen "data" ':'
  | expressionCall => wordThen "expression" '('
  | behavior => wordThen "behavior" ':'
  | binding => wordThen "binding" ':'
  | sheetImport => seq (char (.one '@')) (textIgnoringCase "import")
  | comment => sequence [text "/*", star false (char .all), text "*/"]
  | scriptTag => tag "script"
  | frameTag => tag "iframe"
  | eventHandler =>
    sequence
      [boundary, textIgnoringCase "on", several .word, many .blank, char (.one '=')]
  | foreignScheme =>
    sequence
      [boundary, choice (["file", "ftp", "mailto", "tel"].map textIgnoringCase), char (.one ':')]
  | calcInjection =>
    sequence
      [wordThen "calc" '(', many (.outside (.one ')')),
        choice (["expression", "javascript", "eval"].map textIgnoringCase)]
  | sheetEscape => sequence [char (.one '\\'), char .hexDigit, upTo true (char .hexDigit) 5]
  | markupEscape =>
    sequence
      [text "&#", optional true (textIgnoringCase "x"), several .hexDigit,
        optional true (char (.one ';'))]

/-- Input with a threat like this goes no further. -/
def isBlocking (threat : Threat) : Bool := threat.risk.isBlocking

/-- A threat shows in a text. -/
def occursIn (threat : Threat) (s : String) : Bool := threat.pattern.occursIn s.toList

/-- The threat of a name. -/
def ofName? (s : String) : Option Threat := all.find? fun threat => threat.name == s

theorem mem_all (threat : Threat) : threat ∈ all := by cases threat <;> simp [all]

theorem ofName?_name (threat : Threat) : ofName? threat.name = some threat := by
  cases threat <;> simp [ofName?, all, name]

end Threat

end BracketCss
