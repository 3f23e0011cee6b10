import ClusterUpgrade.Document.JsonPrinter
import ClusterUpgrade.Log.Basic
import ClusterUpgrade.Log.Redaction

/-!
# Log layouts

A layout decides which events are shown and writes each of them as one text: for reading, with the
level in brackets and the context as JSON behind the message, or as JSON throughout. Everything that
is written has been redacted.
-/

namespace ClusterUpgrade.Log

/-- How a log is written. -/
structure Layout where
  /-- The least level shown. -/
  least : Level
  json : Bool
  timestamps : Bool
  /-- Whether JSON is spread over several lines. -/
  spread : Bool

namespace Layout

/-- Events from `info` on, for reading, with time stamps. -/
def standard : Layout := ⟨.info, false, true, false⟩

/-- Whether events of a level are shown. -/
def shows (layout : Layout) (level : Level) : Bool := level.shownFrom layout.least

/-- The fields of an error in JSON. -/
def faultDocument (f : Fault) : Document :=
  .ofOptional [("name", some (.text f.name)), ("message", some (.text (maskedPatterns f.message))),
    ("stack", (f.trace.filter (· ≠ "")).map fun t => .text (maskedPatterns t))]

/-- The redacted context of an event. -/
def contextFields (e : Event) : List (String × Document) := redactedFields 0 e.context.entries

/-- The redacted context of an event, if it has one. -/
def contextDocument? (e : Event) : Option Document :=
  if e.context.entries.isEmpty then none else some (.record (contextFields e))

/-- An event as JSON. -/
def eventDocument (stamp : String) (e : Event) : Document :=
  .ofOptional [("timestamp", some (.text stamp)), ("level", some (.text (Named.name e.level))),
    ("message", some (.text (maskedPatterns e.message))), ("context", contextDocument? e),
    ("error", e.fault.map faultDocument)]

/-- The text of an event at a time. -/
def write (layout : Layout) (stamp : String) (e : Event) : String :=
  if layout.json then
    let d := eventDocument stamp e
    if layout.spread then d.pretty 0 else d.compact
  else
    Text.joined " " <|
      (if layout.timestamps then ["[" ++ stamp ++ "]"] else []) ++
      ["[" ++ Text.upper (Named.name e.level) ++ "]", maskedPatterns e.message] ++
      (if (contextFields e).isEmpty then [] else [(Document.record (contextFields e)).compact]) ++
      e.fault.toList.map fun f => "\n  Error: " ++ f.name ++ ": " ++ maskedPatterns f.message

/-- The texts of the events that are shown. -/
def lines (layout : Layout) (stamp : String) (events : List Event) : List (Level × String) :=
  (events.filter fun e => layout.shows e.level).map fun e => (e.level, layout.write stamp e)

end Layout

end ClusterUpgrade.Log
