import ClusterUpgrade.Document.Basic

/-!
# Validation issues

A check of a document collects every issue and goes on, so that one run reports all problems. An
issue says where it is (`Location`) and what is wrong; its code, wording and suggestions follow from
that.
-/

namespace ClusterUpgrade

/-! ## Locations -/

/-- One step into a document. -/
inductive Segment where
  | field (name : String)
  | index (n : Nat)
  deriving DecidableEq

/-- A way into a document, outermost step first. -/
abbrev Location := List Segment

namespace Location

def field (l : Location) (name : String) : Location := l ++ [.field name]

/-- The location of an item. -/
def index (l : Location) (n : Nat) : Location := l ++ [.index n]

/-- A field of the whole document. -/
def top (name : String) : Location := [.field name]

/-- The text of a step that is not the first. -/
def segmentText : Segment → String
  | .field name => "." ++ name
  | .index n => "[" ++ toString n ++ "]"

/-- A location as text, such as `groups.upgrade[0].name`. -/
def text : Location → String
  | [] => ""
  | .field name :: rest => name ++ String.join (rest.map segmentText)
  | rest => String.join (rest.map segmentText)

/-- The document at a location. -/
def find? (d : Document) : Location → Option Document
  | [] => some d
  | .field name :: rest => (d.field? name).bind (find? · rest)
  | .index n :: rest =>
    match d with
    | .list items => (items[n]?).bind (find? · rest)
    | _ => none

end Location

/-! ## Issues -/

/-- A problem of a document. -/
inductive Issue where
  /-- A required field is missing; `place` is its own location or that of the record around it. -/
  | missingField (place : Location) (field : String)
  /-- A value has another kind than expected. -/
  | wrongKind (place : Location) (expected : String) (actual : String)
  /-- A value is outside a vocabulary. -/
  | unknownValue (place : Location) (value : Document) (allowed : List String)
  /-- A group has the name of an earlier one. -/
  | duplicateGroup (place : Location) (name : String) (earlier : Location)
  /-- A file defines a pack that an earlier file has defined. -/
  | duplicatePack (file : String) (name : String) (earlier : String)
  /-- A text is no stack id. -/
  | invalidStack (place : Location) (value : String)
  /-- A group orders a service without processing; only rolling packs need it. -/
  | unprocessedService (place : Location) (service : String)

namespace Issue

/-- Whether the issue makes the document unusable. -/
def isError : Issue → Bool
  | unprocessedService .. => false
  | _ => true

/-- The code of an issue. -/
def code : Issue → String
  | missingField .. => "MISSING_REQUIRED_FIELD"
  | wrongKind .. => "INVALID_FIELD_TYPE"
  | unknownValue .. => "UNKNOWN_VALUE"
  | duplicateGroup .. => "DUPLICATE_GROUP_NAME"
  | duplicatePack .. => "DUPLICATE_PACK_NAME"
  | invalidStack .. => "INVALID_STACK_ID"
  | unprocessedService .. => "UNDEFINED_SERVICE"

/-- Where the issue is. -/
def place : Issue → Location
  | missingField place _ => place
  | wrongKind place _ _ => place
  | unknownValue place _ _ => place
  | duplicateGroup place _ _ => place
  | duplicatePack file _ _ => Location.top file
  | invalidStack place _ => place
  | unprocessedService place _ => place

/-- What is wrong. -/
def message : Issue → String
  | missingField _ field => "Missing required field: \"" ++ field ++ "\""
  | wrongKind _ expected actual => "Expected " ++ expected ++ " but found " ++ actual
  | unknownValue _ value _ => "Unknown value \"" ++ value.shown ++ "\""
  | duplicateGroup _ name earlier =>
    "Group name \"" ++ name ++ "\" is already defined at \"" ++ earlier.text ++ "\""
  | duplicatePack _ name earlier =>
    "Upgrade pack \"" ++ name ++ "\" is already defined in \"" ++ earlier ++ "\""
  | invalidStack _ value => "\"" ++ value ++ "\" is not a stack id of the form NAME-VERSION"
  | unprocessedService _ service =>
    "Service \"" ++ service ++ "\" has no processing entry and will be skipped by rolling upgrades"

/-- What the issue is about, by name. -/
def context : Issue → List (String × Document)
  | missingField _ field => [("field", .text field)]
  | wrongKind _ expected actual => [("expected", .text expected), ("actual", .text actual)]
  | unknownValue _ value allowed => [("value", value), ("allowed", .texts allowed)]
  | duplicateGroup _ name earlier => [("name", .text name), ("existingPath", .text earlier.text)]
  | duplicatePack _ name earlier => [("name", .text name), ("existingPath", .text earlier)]
  | invalidStack _ value => [("value", .text value)]
  | unprocessedService _ service => [("serviceName", .text service)]

/-- How to mend the issue. -/
def suggestions : Issue → List String
  | missingField _ field => ["Add the required \"" ++ field ++ "\" field"]
  | unknownValue _ _ allowed => ["Use one of: " ++ Text.joined ", " allowed]
  | duplicateGroup .. => ["Rename one of the groups so names are unique per direction"]
  | invalidStack .. => ["Write the stack as e.g. \"HDP-2.3\""]
  | _ => []

def lines (i : Issue) : List String :=
  let mark := if i.isError then "❌" else "⚠️"
  [mark ++ " [" ++ i.code ++ "] " ++ i.place.text, "   " ++ i.message] ++
    (if i.suggestions.isEmpty then []
      else "   Suggestions:" :: i.suggestions.map ("     • " ++ ·))

def document (i : Issue) : Document :=
  .ofOptional [("code", some (.text i.code)),
    ("severity", some (.text (if i.isError then "error" else "warning"))),
    ("message", some (.text i.message)), ("path", some (.text i.place.text)),
    ("context", some (.record i.context)),
    ("suggestions", if i.suggestions.isEmpty then none else some (.texts i.suggestions))]

/-- A value has another kind than expected. -/
def ofKind (place : Location) (expected : String) (actual : Document) : Issue :=
  wrongKind place expected actual.kind

end Issue

/-! ## Lists of issues -/

namespace Issues

/-- The issues that make the document unusable. -/
def errors (issues : List Issue) : List Issue := issues.filter Issue.isError

/-- The other issues. -/
def warnings (issues : List Issue) : List Issue := issues.filter (!·.isError)

/-- Whether the document can be used. -/
def valid (issues : List Issue) : Bool := (errors issues).isEmpty

def text (issues : List Issue) : String := Text.joined "\n" (issues.flatMap Issue.lines)

def document (issues : List Issue) : Document :=
  .record [("valid", .boolean (valid issues)), ("issues", .list (issues.map Issue.document)),
    ("errors", .list ((errors issues).map Issue.document)),
    ("warnings", .list ((warnings issues).map Issue.document))]

end Issues

end ClusterUpgrade
