import BracketCss.Json.Reader
import BracketCss.Session

/-!
# Service

An engine behind a few routes of a web service: compiling and reading classes, the books of the
caches, and a sign of life. Every answer of a route lets pages of other origins read it.

## Main definitions

* `Service.Request`, `Service.Response`: what is asked and answered
* `Service.readBody contentType raw`: the value in the body of a request
* `Service.respond e request`: the answer of an engine
-/

namespace BracketCss.Service

open Text

/-- A request. -/
structure Request where
  /-- The method in capitals. -/
  method : String
  /-- The path, perhaps with a query. -/
  path : String
  /-- The value in the body, if there is one. -/
  body : Option Json

/-- An answer. -/
structure Response where
  /-- The status code. -/
  status : Nat
  /-- The value in the body, if there is one. -/
  body : Option Json
  /-- The answer comes from a route and is open to other origins. -/
  isOpen : Bool

/-- The header fields of an open answer. -/
def openHeaders : List (String × String) :=
  [("Access-Control-Allow-Origin", "*"), ("Access-Control-Allow-Headers", "Content-Type"),
    ("Access-Control-Allow-Methods", "GET, POST, OPTIONS")]

/-- The header fields that open an answer to other origins. -/
def Response.headers (response : Response) : List (String × String) :=
  if response.isOpen then openHeaders else []

/-- The type in a content type, without its parameters and in lower case. -/
def mediaType (contentType : String) : String :=
  .ofList (lower (trim (contentType.toList.takeWhile (· != ';'))))

/-- The content type is that of JSON. -/
def isJsonType (contentType : String) : Bool :=
  let type := (mediaType contentType).toList
  type == "application/json".toList ||
    ("application/".toList.isPrefixOf type && "+json".toList.isSuffixOf type)

/-- A text without the mark of its byte order. -/
def withoutMark (raw : String) : String :=
  match raw.toList with
  | '\ufeff' :: rest => .ofList rest
  | _ => raw

/-- The value in the body of a request: none if it is not JSON or cannot be read. -/
def readBody (contentType raw : String) : Option Json :=
  if isJsonType contentType then (Json.read (withoutMark raw)).toOption else none

/-- An answer of a route. -/
def answered (status : Nat) (body : Option Json) : Response := ⟨status, body, true⟩

/-- The answer to a request that is refused. -/
def refused (message : String) : Response :=
  answered 400 (some (.object [("error", .string message)]))

/-- The documents of a request. -/
def documents? : Json → Option (List String)
  | .string s => some [s]
  | .array items => items.mapM (·.string?)
  | _ => none

/-- The classes that the field of a request gives. -/
def listedClasses (fields : List (String × Json)) : Except String (List Json) :=
  match (fields.lookup "classes").getD (.array []) with
  | .string s => .ok ((textWords s).map Json.string)
  | .array items => .ok items
  | _ => .error "classes must be a string or a list"

/-- The classes that the markup of a request names. -/
def markupClasses (fields : List (String × Json)) : Except String (List Json) :=
  match (fields.lookup "html").getD .null with
  | .null => .ok []
  | html =>
    match documents? html with
    | some documents => .ok ((Markup.classesOfAll documents).map Json.string)
    | none => .error "html must be a string or a list of strings"

/-- The classes of a request: those listed, then those that its markup names. -/
def requestClasses (fields : List (String × Json)) : Except String (List Json) := do
  if (fields.lookup "classes").isNone && (fields.lookup "html").isNone then
    throw "classes or html required"
  return (← listedClasses fields) ++ (← markupClasses fields)

/-- The answer to a request for a sheet. -/
def generate (e : Engine) (body : Option Json) : Engine × Response :=
  match body.bind Json.object? with
  | none => (e, refused "JSON object body required")
  | some fields =>
    match requestClasses fields with
    | .error message => (e, refused message)
    | .ok classes =>
      match e.answer (.array classes) ((fields.lookup "options").getD .null) none with
      | (e, .error fault) => (e, refused fault.message)
      | (e, .ok c) => (e, answered 200 (some c.toJson))

/-- The answer to a request for the verdict on a class. -/
def parse (e : Engine) (body : Option Json) : Engine × Response :=
  match (body.bind Json.object?).bind (·.lookup "class") with
  | none => (e, refused "class required")
  | some token =>
    match e.parse token with
    | (e, .ok c) =>
      (e, answered 200 (some (.object [("valid", .bool true), ("parsed", c.toJson)])))
    | (e, .error failure) =>
      (e, answered 200 (some (.object [("valid", .bool false), ("error", failure.toJson)])))

/-- The answer to a question: its value, no value if only the header is asked for. -/
def answerQuestion (method : String) (v : Json) : Response :=
  answered 200 (if method == "GET" then some v else none)

/-- The answer to a path that is not known, or to a method that the path does not take. -/
def closed (status : Nat) : Response := ⟨status, none, false⟩

/-- The answer to a request that a body comes with. -/
def respondToPost (e : Engine) (request : Request)
    (answer : Engine → Option Json → Engine × Response) : Engine × Response :=
  if request.method == "POST" then answer e request.body
  else if request.method == "OPTIONS" then (e, answered 204 none)
  else (e, closed 405)

/-- The answer to a question. -/
def respondToGet (e : Engine) (request : Request) (v : Json) : Engine × Response :=
  if ["GET", "HEAD", "OPTIONS"].contains request.method then
    (e, answerQuestion request.method v)
  else (e, closed 405)

/-- A path without its query. -/
def pathOf (path : String) : String := .ofList (path.toList.takeWhile (· != '?'))

/-- The sign of life. -/
def health : Json := .object [("status", .string "ok"), ("version", .string libraryVersion)]

/-- The answer of an engine to a request. -/
def respond (e : Engine) (request : Request) : Engine × Response :=
  let path := pathOf request.path
  if path == "/api/generate" then respondToPost e request generate
  else if path == "/api/parse" then respondToPost e request parse
  else if path == "/api/cache/stats" then respondToGet e request e.cache.statsJson
  else if path == "/api/health" then respondToGet e request health
  else (e, closed 404)

end BracketCss.Service
