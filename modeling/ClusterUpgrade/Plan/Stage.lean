import ClusterUpgrade.Distinct
import ClusterUpgrade.Pack.Basic

/-!
# Stages

A stage is one step of a plan; whatever it holds may run at the same time. The stages of a group are
made from the work that planning has collected for it, in the order in which it was collected:

1. a standard group gives each task of each component a stage of its own, and a rolling restart one
   for each host;
2. a function group goes through the components side by side: their tasks at one position share a
   stage for each kind of task;
3. a service check group has nothing but the checks.

Service checks, one for each service, come last.
-/

namespace ClusterUpgrade

/-! ## Work and stages -/

/-- The tasks of a component on its hosts, as planning has found them. -/
structure Work where
  service : String
  component : String
  hosts : List String
  /-- Whether the service has clients only and nothing to start or stop. -/
  clientOnly : Bool
  tasks : List Task
  /-- Parameters of the commands. -/
  params : Record String
  deriving DecidableEq

/-- Tasks of a component that a stage runs on hosts. -/
structure Assignment where
  service : String
  component : String
  hosts : List String
  tasks : List Task
  params : Record String
  deriving DecidableEq

/-- One step of a plan. -/
structure Stage where
  kind : TaskKind
  text : Option String
  assignments : List Assignment
  deriving DecidableEq

def Assignment.document (a : Assignment) : Document :=
  .record [("service", .text a.service), ("component", .text a.component),
    ("hosts", .texts a.hosts), ("tasks", .list (a.tasks.map Task.document)),
    ("params", .ofRecord .text a.params)]

def Stage.document (s : Stage) : Document :=
  .ofOptional [("type", some (.text (Named.name s.kind))), ("text", s.text.map .text),
    ("tasks", some (.list (s.assignments.map Assignment.document)))]

namespace Work

/-- One task of some work, on hosts. -/
def assign (w : Work) (hosts : List String) (task : Task) : Assignment :=
  { service := w.service, component := w.component, hosts, tasks := [task], params := w.params }

/-- Whether a task is left out: it needs a running process, and clients have none. -/
def leavesOut (w : Work) (task : Task) : Bool := w.clientOnly && task.kind.needsDaemon

/-- The tasks that are not left out. -/
def kept (w : Work) : List Task := w.tasks.filter fun t => !w.leavesOut t

end Work

namespace Stage

/-- The text of a stage: the summary of its task, or what the task does to its subject. A subject on
a single host names it. -/
def textOf (task : Task) (subject : String) (hosts : List String) : String :=
  match task.summary with
  | some summary => summary
  | none =>
    match task.action with
    | .manual _ => "Manual Confirmation"
    | .configure change => "Updating configuration " ++ change
    | action =>
      let place := match hosts with
        | [host] => " on " ++ host
        | _ => ""
      action.kind.verb ++ " " ++ subject ++ place

/-! ## Standard groups -/

def ofTask (w : Work) (task : Task) (hosts : List String) : Stage :=
  { kind := task.kind, text := some (textOf task w.component hosts)
    assignments := [w.assign hosts task] }

/-- The stages of one task: a rolling restart goes host by host. -/
def ofTaskRolling (orchestration : Orchestration) (w : Work) (task : Task) : List Stage :=
  if task.kind = .restart ∧ orchestration = .rolling then
    w.hosts.map fun host => ofTask w task [host]
  else [ofTask w task w.hosts]

/-- The stages of a standard group, without its checks. -/
def standard (orchestration : Orchestration) (works : List Work) : List Stage :=
  works.flatMap fun w => w.kept.flatMap (ofTaskRolling orchestration w)

/-! ## Function groups -/

/-- The tasks at a position, with the work that they belong to. -/
def column (works : List Work) (position : Nat) : List (Work × Task) :=
  works.filterMap fun w =>
    (w.tasks[position]?).bind fun t => if w.leavesOut t then none else some (w, t)

/-- The stage of the tasks of one kind at a position. -/
def ofKind? (column : List (Work × Task)) (kind : TaskKind) : Option Stage :=
  match column.filter (·.2.kind = kind) with
  | [] => none
  | (w, task) :: rest =>
    let bucket := (w, task) :: rest
    let subject := Text.joined ", " (distinct (bucket.map (·.1.component)))
    some { kind, text := some (textOf task subject [])
           assignments := bucket.map fun e => e.1.assign e.1.hosts e.2 }

/-- The stages of a position: one for each kind of task, by its first occurrence. -/
def ofColumn (column : List (Work × Task)) : List Stage :=
  (distinct (column.map (·.2.kind))).filterMap (ofKind? column)

/-- The number of positions. -/
def depth (works : List Work) : Nat := works.foldl (fun n w => max n w.tasks.length) 0

/-- The stages of a function group, without its checks. -/
def sideBySide (works : List Work) : List Stage :=
  (List.range (depth works)).flatMap fun position => ofColumn (column works position)

/-! ## Service checks -/

def checkTask : Task := ⟨.serviceCheck, none⟩

/-- The check of a service, on the first host of some work of it. -/
def ofCheck (w : Work) : Stage :=
  { kind := .serviceCheck, text := some ("Service Check " ++ w.service)
    assignments := [w.assign (w.hosts.take 1) checkTask] }

/-- The first work on a host for each service. -/
def firstOfServices (works : List Work) : List Work :=
  let hosted := works.filter fun w => !w.hosts.isEmpty
  (distinct (hosted.map (·.service))).filterMap fun s => hosted.find? (·.service = s)

/-- The checks of all services that are worked on. -/
def checks (works : List Work) : List Stage := (firstOfServices works).map ofCheck

/-- The checks that follow the other stages of a group, if they are asked for. -/
def addedChecks (performChecks : Bool) (works : List Work) : List Stage :=
  if performChecks then checks works else []

/-! ## Groups -/

/-- The stages that a group of a kind makes of its work, without its checks. -/
def ownStages (kind : GroupingKind) (orchestration : Orchestration) (works : List Work) :
    List Stage :=
  match kind with
  | .standard => standard orchestration works
  | .function _ => sideBySide works
  | .serviceCheck => []

/-- The stages of a group, its checks last. -/
def built (kind : GroupingKind) (orchestration : Orchestration) (performChecks : Bool)
    (works : List Work) : List Stage :=
  ownStages kind orchestration works ++ addedChecks performChecks works

/-- Whether a group of a kind makes checks: a service check group always does. -/
def makesChecks (kind : GroupingKind) (performChecks : Bool) : Bool :=
  match kind with
  | .serviceCheck => true
  | .standard | .function _ => performChecks

/-- The stages of a group; its checks are those that are asked for, and a service check group always
has them. -/
def ofWork (kind : GroupingKind) (orchestration : Orchestration) (performChecks : Bool)
    (works : List Work) : List Stage :=
  built kind orchestration (makesChecks kind performChecks) works

end Stage

end ClusterUpgrade
