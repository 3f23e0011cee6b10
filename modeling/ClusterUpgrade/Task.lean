import ClusterUpgrade.Document.Basic
import ClusterUpgrade.Named
import ClusterUpgrade.Reserved

/-!
# Tasks

A task is one step on the hosts of a component: an instruction for the operator, a command, a
configuration change, or a lifecycle command without a payload.
-/

namespace ClusterUpgrade

/-- The kind of a task. -/
inductive TaskKind where
  | manual
  | restart
  | start
  | stop
  | execute
  | configure
  | serviceCheck
  deriving DecidableEq, Inhabited

instance : Named TaskKind where
  all := [.manual, .restart, .start, .stop, .execute, .configure, .serviceCheck]
  name
    | .manual => "MANUAL"
    | .restart => "RESTART"
    | .start => "START"
    | .stop => "STOP"
    | .execute => "EXECUTE"
    | .configure => "CONFIGURE"
    | .serviceCheck => "SERVICE_CHECK"

/-- The present participle of a kind of task, for stage texts. -/
def TaskKind.verb : TaskKind → String
  | manual => "Confirming"
  | restart => "Restarting"
  | start => "Starting"
  | stop => "Stopping"
  | execute => "Executing"
  | configure => "Configuring"
  | serviceCheck => "Checking"

/-- Whether a task only makes sense for a running process. -/
def TaskKind.needsDaemon (k : TaskKind) : Bool := k = .start ∨ k = .stop ∨ k = .restart

/-- What a task does. -/
inductive Action where
  /-- Messages that the operator confirms by hand. -/
  | manual (messages : List String)
  | execute (command : String)
  | configure (changeId : String)
  | restart
  | start
  | stop
  | serviceCheck
  deriving DecidableEq, Inhabited

def Action.kind : Action → TaskKind
  | manual _ => .manual
  | execute _ => .execute
  | configure _ => .configure
  | restart => .restart
  | start => .start
  | stop => .stop
  | serviceCheck => .serviceCheck

/-- One step, with the summary that its stage shows. Texts may hold placeholder tokens. -/
structure Task where
  action : Action
  summary : Option String
  deriving DecidableEq, Inhabited

namespace Task

def kind (t : Task) : TaskKind := t.action.kind

/-- A task as logs show it. -/
def described (t : Task) : String :=
  match t.action with
  | .manual messages => "MANUAL(" ++ toString messages.length ++ " message(s))"
  | .execute command => "EXECUTE(" ++ command ++ ")"
  | .configure change => "CONFIGURE(" ++ change ++ ")"
  | a => Named.name a.kind

def document (t : Task) : Document :=
  let payload : List (String × Option Document) := match t.action with
    | .manual messages => [("messages", some (.texts messages))]
    | .execute command => [("command", some (.text command))]
    | .configure change => [("changeId", some (.text change))]
    | _ => []
  .ofOptional ([("type", some (.text (Named.name t.kind)))] ++ payload ++
    [("summary", t.summary.map .text)])

end Task

/-- The action that a function grouping implies. -/
inductive FunctionName where
  | stop
  | start
  | restart
  deriving DecidableEq, Inhabited

instance : Named FunctionName where
  all := [.stop, .start, .restart]
  name
    | .stop => "STOP"
    | .start => "START"
    | .restart => "RESTART"

/-- The single task of a function grouping. -/
def FunctionName.task : FunctionName → Task
  | stop => ⟨.stop, none⟩
  | start => ⟨.start, none⟩
  | restart => ⟨.restart, none⟩

/-- The ordered tasks of one component. -/
structure Processing where
  name : String
  tasks : List Task
  deriving DecidableEq, Inhabited

def Processing.document (p : Processing) : Document :=
  .record [("name", .text p.name), ("tasks", .list (p.tasks.map Task.document))]

/-- Explicit processing: service, then component. -/
abbrev ProcessingMap := Record (Record Processing)

namespace ProcessingMap

/-- The explicit processing of a component, if there is some. -/
def find? (m : ProcessingMap) (service component : String) : Option Processing :=
  (m.get? service).bind (·.get? component)

/-- Whether something is found for a service: its processing, or what every record has. -/
def knows (m : ProcessingMap) (service : String) : Bool :=
  m.has service || Reserved.isInherited service

/-- What is found for a component whose processing is not listed. -/
def inherited (m : ProcessingMap) (service component : String) : Reserved.Held :=
  match m.get? service with
  | some components =>
    if !components.has component && Reserved.isInherited component then .present else .absent
  | none => Reserved.held service component

/-- Whether anything is found for a component. -/
def finds (m : ProcessingMap) (service component : String) : Bool :=
  (m.find? service component).isSome || m.inherited service component ≠ .absent

/-- What is taken for the processing of a component. A member that every record has goes by the name
that it gives itself, but has no tasks. -/
def found? (m : ProcessingMap) (service component : String) : Option Processing :=
  m.find? service component <|>
    if m.inherited service component = .present then
      some ⟨Reserved.functionName component, []⟩
    else none

/-- The processing of a component in a grouping with a function or without one. Stopping is always
implied; starting and restarting are implied where nothing is found. -/
def resolve? (m : ProcessingMap) (service component : String) :
    Option FunctionName → Option Processing
  | none => m.found? service component
  | some .stop => some ⟨component, [FunctionName.stop.task]⟩
  | some f =>
    -- Zero is found, but taken for nothing.
    if m.inherited service component = .zero then none
    else some ((m.found? service component).getD ⟨component, [f.task]⟩)

/-- Nothing but processing is found for a service and the components that are ordered with it. -/
structure FindsOwn (m : ProcessingMap) (service : String) (components : List String) : Prop where
  ofService : m.knows service = m.has service
  ofComponents : ∀ c ∈ components, m.inherited service c = .absent

/-- Names that no record inherits are found only where the processing lists them. -/
theorem findsOwn_of_not_isInherited {m : ProcessingMap} {service : String}
    {components : List String} (hs : Reserved.isInherited service = false)
    (hc : ∀ c ∈ components, Reserved.isInherited c = false) : m.FindsOwn service components where
  ofService := by simp [knows, hs]
  ofComponents := by
    intro c mem
    unfold inherited
    cases m.get? service with
    | none => simp [Reserved.held, hs]
    | some _ => simp [hc c mem]

end ProcessingMap

end ClusterUpgrade
