import ClusterUpgrade.Pack.Select
import ClusterUpgrade.Plan.Condition
import ClusterUpgrade.Plan.Visit

/-!
# Plans

A plan goes through the groupings of a pack in the direction of a run. A grouping that is out of
scope, or whose condition does not hold, is skipped; any other is visited, and what its visits come
to is made into stages. A group without stages is dropped.

`Plan.of` is the plan of a run. Planning may break off before it is there: a condition looks for a
text in what is no text, or the tasks of a component are looked for in a member that every record
has (`faultOf?`). `Plan.attempt` gives the plan or how planning has broken off.
-/

namespace ClusterUpgrade

namespace Plan

/-- What planning has found out on the way. -/
structure Findings where
  /-- Unhealthy hosts, each once. -/
  unhealthyHosts : List String
  /-- Display names of services. -/
  serviceTitles : Record String
  /-- Display names of components, by their written key. -/
  componentTitles : Record String
  skips : List Skip

def Findings.document (f : Findings) : Document :=
  .record [("unhealthyHosts", .texts f.unhealthyHosts),
    ("serviceDisplayNames", .ofRecord .text f.serviceTitles),
    ("componentDisplayNames", .ofRecord .text f.componentTitles),
    ("skips", .list (f.skips.map (·.document)))]

def Findings.ofVisit (v : Visit) : Findings where
  unhealthyHosts := distinct v.unhealthy
  serviceTitles := Reserved.record v.serviceTitles
  componentTitles := Record.ofList v.componentTitles
  skips := v.skips

/-- What comes of a grouping. -/
structure GroupPlan where
  group : Option PlanGroup
  visit : Visit

section Planning

variable (run : UpgradeRun) (site : Site) (pack : Pack)

/-- A grouping that applies to the run. -/
def planVisited (g : Grouping) : GroupPlan :=
  let v := visitGrouping run site pack g
  let stages := Stage.ofWork g.kind run.orchestration (PlanGroup.checksServices run g) v.work
  if stages.isEmpty then
    ⟨none, v ++ .say .debug ("Group " ++ g.name ++ " produced no stages and is dropped")
      Record.empty ++ .skip .emptyGroup g.name none none⟩
  else ⟨some ((PlanGroup.ofGrouping run g stages).rendered run site), v⟩

def planGrouping (g : Grouping) : GroupPlan :=
  if !run.scope.admits g.scope then
    ⟨none, .say .info ("Skipping group " ++ g.name ++ ": scope " ++ Named.name g.scope ++
      " does not apply to " ++ Named.name run.scope) Record.empty ++
      .skip .outOfScope g.name none none⟩
  else
    match g.condition.filter fun c => !c.holds site.store with
    | some c =>
      ⟨none, .say .info ("Skipping group " ++ g.name ++
        " while building upgrade orchestration due to " ++ c.described) Record.empty ++
        .skip .conditionNotMet g.name none none⟩
    | none => planVisited run site pack g

/-- All groupings of a pack in the direction of a run. -/
def planGroupings : List GroupPlan :=
  (pack.groupings run.direction).map (planGrouping run site pack)

end Planning

/-! ## What a plan says -/

/-- What is said of a pack for another orchestration, given by its word, than that of the run. -/
def mismatchEvent (run : UpgradeRun) (orchestration : String) : Log.Event :=
  .plain .warn ("Upgrade pack type " ++ orchestration ++ " differs from requested type " ++
    Named.name run.orchestration) Record.empty

def mismatchEvents (run : UpgradeRun) (pack : Pack) : List Log.Event :=
  if pack.orchestration = run.orchestration then []
  else [mismatchEvent run (Named.name pack.orchestration)]

def stageLines (s : Stage × Nat) : List String :=
  ("  Stage " ++ toString s.2) :: s.1.assignments.zipIdx.map fun (a, n) =>
    "    Task " ++ toString n ++ " " ++ componentKey a.service a.component ++ " on " ++
      Text.joined "," a.hosts ++ ": " ++ Text.joined ", " (a.tasks.map Task.described)

def groupLines (g : PlanGroup) : List String := g.name :: g.stages.zipIdx.flatMap stageLines

/-- The listing of the whole plan. -/
def listing (groups : List PlanGroup) : List Log.Event :=
  (groups.flatMap groupLines).map fun line => .plain .debug line Record.empty

/-- The context of everything that planning says with a pack of a name, if it has one. -/
def contextNamed (run : UpgradeRun) (name : Option String) : Record Document :=
  Log.contextOf (name.toList.map (("pack", ·)) ++ [("direction", Named.name run.direction)])

/-- The context of everything that a plan says. -/
def context (run : UpgradeRun) (pack : Pack) : Record Document := contextNamed run (some pack.name)

end Plan

/-- The groups of a run, what planning has found out, and what it has said. -/
structure Plan where
  groups : List PlanGroup
  findings : Plan.Findings
  events : List Log.Event

namespace Plan

/-- The plan of a run, where planning does not break off. -/
def of (run : UpgradeRun) (site : Site) (pack : Pack) : Plan :=
  let plans := planGroupings run site pack
  let groups := plans.filterMap (·.group)
  let v := Visit.all (·.visit) plans
  { groups
    findings := .ofVisit v
    events := (mismatchEvents run pack ++ v.events ++ listing groups).map
      (·.within (context run pack)) }

/-! ## Breaking off -/

/-- Why planning breaks off. -/
inductive Fault where
  /-- A text was looked for in what is no text. -/
  | noText
  /-- The tasks of a component were looked for in what must not be looked at. -/
  | guarded
  /-- The tasks of a component were to be listed, and there are none. -/
  | noTasks
  /-- The tasks of a component were to be counted, and there are none. -/
  | uncounted
  /-- The groupings of a pack were to be taken from what is no pack. -/
  | noPack (direction : Direction)
  deriving DecidableEq

def Fault.message : Fault → String
  | noPack .upgrade => "Cannot read properties of undefined (reading 'upgrade')"
  | noPack .downgrade => "Cannot read properties of undefined (reading 'downgrade')"
  | noText => "actual.includes is not a function"
  | guarded => "'caller', 'callee', and 'arguments' properties may not be accessed on strict " ++
      "mode functions or the arguments objects for calls to them"
  | noTasks => "entry.tasks is not iterable"
  | uncounted => "Cannot read properties of undefined (reading 'length')"

/-- Planning that has broken off: why, and what it has said before. -/
structure Breakdown where
  fault : Fault
  events : List Log.Event

section Faults

variable (run : UpgradeRun) (site : Site) (pack : Pack)

/-- Whether a component has hosts to work on. -/
def isHosted (service component : String) : Bool :=
  (site.hosts.resolve? service component).any fun hosts => !hosts.hosts.isEmpty

/-- Whether the tasks of a component are looked for in what must not be looked at. A rolling run
looks for them before it asks for hosts. -/
def meetsGuarded (g : Grouping) (service component : String) : Bool :=
  pack.processing.inherited service component = .guarded &&
    (run.isRolling || g.kind.function? ≠ some .stop && isHosted site service component)

/-- Whether a component is handed over with what is no processing. -/
def handsInherited (g : Grouping) (service component : String) : Bool :=
  pack.processing.inherited service component = .present && g.kind.function? ≠ some .stop &&
    isHosted site service component

/-- Whether something holds of a component that is ordered with a service that takes part. -/
def anyOrdered (g : Grouping) (p : String → String → Bool) : Bool :=
  g.services.any fun s => run.supports s.serviceName && s.components.any (p s.serviceName)

/-- Why planning breaks off at a grouping. A service check looks at no tasks. -/
def faultOf? (g : Grouping) : Option Fault :=
  if !run.scope.admits g.scope then none
  else if g.condition.any (·.breaks site.store) then some .noText
  else if !g.condition.all (·.holds site.store) then none
  else if anyOrdered run g (meetsGuarded run site pack g) then some .guarded
  else if anyOrdered run g (handsInherited site pack g) then
    match g.kind with
    | .standard => some .noTasks
    | .function _ => some .uncounted
    | .serviceCheck => none
  else none

/-- The part of some services that is visited before the first that meets what must not be looked
at. -/
def beforeGuarded (g : Grouping) : List OrderedService → List OrderedService
  | [] => []
  | s :: rest =>
    let meets := meetsGuarded run site pack g s.serviceName
    if run.supports s.serviceName && s.components.any meets then
      [{ s with components := s.components.takeWhile (!meets ·) }]
    else s :: beforeGuarded g rest

/-- What planning says of a grouping at which it breaks off. -/
def eventsBefore (g : Grouping) : Fault → List Log.Event
  | .noText => []
  | .guarded =>
    let visited := beforeGuarded run site pack g (servicesOf run g)
    (Visit.all (visitService run site pack g) visited).events
  | _ => (visitGrouping run site pack g).events

/-- How planning breaks off, if it does. -/
def breakdown? : List Grouping → Option Breakdown
  | [] => none
  | g :: rest =>
    match faultOf? run site pack g with
    | some fault => some ⟨fault, eventsBefore run site pack g fault⟩
    | none => (breakdown? rest).map fun b =>
      { b with events := (planGrouping run site pack g).visit.events ++ b.events }

/-- Plans a run. -/
def attempt : Except Breakdown Plan :=
  match breakdown? run site pack (pack.groupings run.direction) with
  | some b => .error { b with
      events := (mismatchEvents run pack ++ b.events).map (·.within (context run pack)) }
  | none => .ok (.of run site pack)

/-- Plans a run with what was chosen for its pack. -/
def attemptChosen : ChosenPack → Except Breakdown Plan
  | .listed pack => attempt run site pack
  | .inherited name => .error
    { fault := .noPack run.direction
      events := [(mismatchEvent run "undefined").within
        (contextNamed run (ChosenPack.inherited name).name?)] }

end Faults

end Plan

end ClusterUpgrade
