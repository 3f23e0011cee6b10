import ClusterUpgrade.Console
import ClusterUpgrade.Load
import ClusterUpgrade.Plan.Basic
import ClusterUpgrade.Settings
import ClusterUpgrade.Store.Operation

/-!
# Commands

A command reads files and comes to a result or to an error. On the way it emits console lines and
log events, in order, whatever it comes to in the end.
-/

namespace ClusterUpgrade

/-- What a command emits. -/
inductive Emission where
  | line (line : ConsoleLine)
  | event (event : Log.Event)

namespace Emission

/-- The console line of an emission that is one. -/
def line? : Emission → Option ConsoleLine
  | line l => some l
  | event _ => none

/-- The log event of an emission that is one. -/
def event? : Emission → Option Log.Event
  | line _ => none
  | event e => some e

end Emission

/-- Why a command comes to no result. -/
inductive CommandError where
  | load (error : LoadError)
  | planning (error : PlanningError)
  | transition (error : TransitionError)
  /-- Planning has broken off. -/
  | brokenOff (fault : Plan.Fault)

namespace CommandError

def message : CommandError → String
  | load e => e.message
  | planning e => e.message
  | transition e => e.message
  | brokenOff fault => fault.message

/-- The issues behind an error. -/
def issues : CommandError → List Issue
  | load e => e.issues
  | _ => []

end CommandError

/-- What a command emits and comes to. -/
structure Command (α : Type) where
  emissions : List Emission
  result : Except CommandError α

namespace Command

variable {α β : Type}

instance : Monad Command where
  pure a := ⟨[], .ok a⟩
  bind c f :=
    match c.result with
    | .error e => ⟨c.emissions, .error e⟩
    | .ok a => ⟨c.emissions ++ (f a).emissions, (f a).result⟩

/-- Writes lines to the console. -/
def print (lines : List ConsoleLine) : Command Unit := ⟨lines.map .line, .ok ()⟩

/-- Writes lines to the console under a condition. -/
def printIf (condition : Bool) (lines : List ConsoleLine) : Command Unit :=
  print (if condition then lines else [])

/-- Takes a loaded value. -/
def load (value : Except LoadError α) : Command α := ⟨[], value.mapError .load⟩

/-- Takes a value of planning. -/
def planning (value : Except PlanningError α) : Command α := ⟨[], value.mapError .planning⟩

/-- Takes a plan, with everything that planning has said until it was there or has broken off. -/
def planned : Except Plan.Breakdown Plan → Command Plan
  | .ok p => ⟨p.events.map .event, .ok p⟩
  | .error b => ⟨b.events.map .event, .error (.brokenOff b.fault)⟩

/-- Runs a transition on a store; gives its result and the store afterwards. -/
def transition (op : Transition α) (s : Store) : Command (α × Store) :=
  let o := op.run s
  ⟨o.events.map .event, (o.result.map fun a => (a, o.store)).mapError .transition⟩

end Command

/-- How the result of a command is written. -/
inductive OutputFormat where
  | json
  | human
  deriving DecidableEq, Inhabited

instance : Named OutputFormat where
  all := [.json, .human]
  name
    | .json => "json"
    | .human => "human"

/-- What every command is told. -/
structure CommandContext where
  files : Files
  /-- What reads YAML files. -/
  yaml : Document.YamlReader
  settings : Settings
  format : OutputFormat
  /-- Whether the command says what it does. -/
  verbose : Bool
  /-- Whether lines are styled. -/
  colour : Bool

namespace CommandContext

/-- Whether the command writes for reading. -/
def isHuman (c : CommandContext) : Bool := c.format = .human

/-- Says what the command does. -/
def explain (c : CommandContext) (messages : List String) : Command Unit :=
  .printIf c.verbose (messages.map (Console.verbose c.colour))

end CommandContext

end ClusterUpgrade
