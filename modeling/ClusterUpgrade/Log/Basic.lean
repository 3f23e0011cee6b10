import ClusterUpgrade.Document.Basic
import ClusterUpgrade.Named
import ClusterUpgrade.Text.Letters

/-!
# Log events

Planning and reconciliation return what they have to say as a list of events, in order. Which of
them are shown, and how, is decided later by a layout.
-/

namespace ClusterUpgrade.Log

/-- The severity of an event. -/
inductive Level where
  | debug
  | info
  | warn
  | error
  deriving DecidableEq, Inhabited

namespace Level

instance : Named Level where
  all := [debug, info, warn, error]
  name
    | debug => "debug"
    | info => "info"
    | warn => "warn"
    | error => "error"

/-- The place of a level among the levels. -/
def rank : Level → Nat
  | debug => 0
  | info => 1
  | warn => 2
  | error => 3

/-- The level of a word in any letter case. -/
def parse? (word : String) : Option Level := Named.ofName? (Text.lower word)

/-- Whether an event of a level is shown when `least` is the least level shown. -/
def shownFrom (level least : Level) : Bool := least.rank ≤ level.rank

end Level

/-- An error that an event reports. -/
structure Fault where
  name : String
  message : String
  trace : Option String

/-- What a part of the program has to say. -/
structure Event where
  level : Level
  message : String
  context : Record Document
  fault : Option Fault

namespace Event

/-- An event without an error. -/
def plain (level : Level) (message : String) (context : Record Document) : Event :=
  ⟨level, message, context, none⟩

/-- An event in a wider context; its own entries win. -/
def within (base : Record Document) (e : Event) : Event :=
  { e with context := base.overlay e.context }

end Event

def contextOf (entries : List (String × String)) : Record Document :=
  Record.ofList (entries.map fun e => (e.1, .text e.2))

end ClusterUpgrade.Log
