import ClusterUpgrade.Log.Basic
import ClusterUpgrade.Plan.Group

/-!
# Visiting components

A grouping names services and components in order. A visit of one of them comes either to work for
the group or to a skip with its reason; the first reason that applies is the one that is given
(`visitComponent`). Besides, a visit finds unhealthy hosts and the names to display, and it has
something to say.

The NameNode is special. A rolling run takes its standby first and then its active instance; any
other run with high availability tells each of the two which role to take.
-/

namespace ClusterUpgrade.Plan

/-! ## Skips -/

/-- Why something of a pack is missing from a plan. -/
inductive SkipReason where
  | outOfScope
  | conditionNotMet
  | serviceNotSupported
  | noServiceTasks
  | noComponentTasks
  | noHosts
  | noProcessing
  | nameNodeUnresolved
  | emptyGroup
  deriving DecidableEq, Inhabited

instance : Named SkipReason where
  all := [.outOfScope, .conditionNotMet, .serviceNotSupported, .noServiceTasks, .noComponentTasks,
    .noHosts, .noProcessing, .nameNodeUnresolved, .emptyGroup]
  name
    | .outOfScope => "OUT_OF_SCOPE"
    | .conditionNotMet => "CONDITION_NOT_MET"
    | .serviceNotSupported => "SERVICE_NOT_SUPPORTED"
    | .noServiceTasks => "NO_SERVICE_TASKS"
    | .noComponentTasks => "NO_COMPONENT_TASKS"
    | .noHosts => "NO_HOSTS"
    | .noProcessing => "NO_PROCESSING_COMPONENT"
    | .nameNodeUnresolved => "NAMENODE_HOSTS_UNRESOLVED"
    | .emptyGroup => "EMPTY_GROUP"

/-- A group, a service of it or a component of that which is missing from a plan. -/
structure Skip where
  reason : SkipReason
  group : String
  service : Option String
  component : Option String
  deriving DecidableEq

def Skip.document (s : Skip) : Document :=
  .ofOptional [("reason", some (.text (Named.name s.reason))), ("group", some (.text s.group)),
    ("service", s.service.map .text), ("component", s.component.map .text)]

/-! ## Visits -/

/-- What comes of a visit. -/
structure Visit where
  work : List Work
  skips : List Skip
  unhealthy : List String
  /-- Display names of services. -/
  serviceTitles : List (String × String)
  /-- Display names of components, by their written key. -/
  componentTitles : List (String × String)
  events : List Log.Event

namespace Visit

/-- A visit that comes to nothing. -/
def none : Visit := ⟨[], [], [], [], [], []⟩

/-- Two visits, one after the other. -/
def append (v w : Visit) : Visit where
  work := v.work ++ w.work
  skips := v.skips ++ w.skips
  unhealthy := v.unhealthy ++ w.unhealthy
  serviceTitles := v.serviceTitles ++ w.serviceTitles
  componentTitles := v.componentTitles ++ w.componentTitles
  events := v.events ++ w.events

instance : Append Visit := ⟨append⟩

/-- Visits, one after the other. -/
def all {α : Type} (f : α → Visit) (as : List α) : Visit := as.foldr (fun a v => f a ++ v) none

def skip (reason : SkipReason) (group : String) (service component : Option String) : Visit :=
  { none with skips := [⟨reason, group, service, component⟩] }

/-- A visit that only says something. -/
def say (level : Log.Level) (message : String) (context : Record Document) : Visit :=
  { none with events := [.plain level message context] }

theorem append_def (v w : Visit) : v ++ w = v.append w := rfl

@[simp] theorem work_append (v w : Visit) : (v ++ w).work = v.work ++ w.work := rfl

@[simp] theorem skips_append (v w : Visit) : (v ++ w).skips = v.skips ++ w.skips := rfl

@[simp] theorem unhealthy_append (v w : Visit) :
    (v ++ w).unhealthy = v.unhealthy ++ w.unhealthy := rfl

@[simp] theorem work_all {α : Type} (f : α → Visit) (as : List α) :
    (all f as).work = as.flatMap fun a => (f a).work := by
  induction as with
  | nil => rfl
  | cons a rest ih => simpa [all] using ih

@[simp] theorem skips_all {α : Type} (f : α → Visit) (as : List α) :
    (all f as).skips = as.flatMap fun a => (f a).skips := by
  induction as with
  | nil => rfl
  | cons a rest ih => simpa [all] using ih

@[simp] theorem unhealthy_all {α : Type} (f : α → Visit) (as : List α) :
    (all f as).unhealthy = as.flatMap fun a => (f a).unhealthy := by
  induction as with
  | nil => rfl
  | cons a rest ih => simpa [all] using ih

end Visit

/-! ## The NameNode -/

/-- Whether a component is the NameNode, in any letter case. -/
def isNameNode (service component : String) : Bool :=
  Text.upper service = "HDFS" ∧ Text.upper component = "NAMENODE"

/-- The parameter that tells a NameNode which role to take. -/
def roleParameter : String := "desired_namenode_role"

/-- Work on a single NameNode in a role. -/
def inRole (w : Work) (host role : String) : Work :=
  { w with hosts := [host], params := Record.empty.insert roleParameter role }

/-- The work on a NameNode; none when a rolling run does not know both of its instances. -/
def nameNodeWork (orchestration : Orchestration) (highlyAvailable : Bool) (hosts : HostGroup)
    (w : Work) : Option (List Work) :=
  match orchestration, hosts.master, hosts.secondary with
  | .rolling, some active, some standby => some [{ w with hosts := distinct [standby, active] }]
  | .rolling, _, _ => none
  | .nonRolling, some active, some standby =>
    if highlyAvailable then some [inRole w active "active", inRole w standby "standby"]
    else some [w]
  | _, _, _ => some [w]

/-- What is said of a NameNode without known instances. -/
def nameNodeWarning (hosts : HostGroup) : Visit :=
  .say .warn "Could not orchestrate NameNode. Hosts could not be resolved" <| Record.ofList
    [("hosts", .text (Text.joined "," hosts.hosts)), ("active", hosts.master.elim .null .text),
      ("standby", hosts.secondary.elim .null .text)]

/-! ## Components and services -/

/-- The names to display for a component and its service, as far as the catalog knows them. -/
def visitTitles (site : Site) (service component : String) : Visit :=
  let stack := site.store.desiredStack
  let unknown (e : CatalogError) : Visit :=
    .say .debug "Could not get service detail" (Log.contextOf
      [("service", service), ("component", component), ("error", e.message)])
  match site.catalog.serviceTitle stack service with
  | .error e => unknown e
  | .ok title =>
    { Visit.none with serviceTitles := [(service, title)] } ++
      match site.catalog.componentTitle stack service component with
      | .error e => unknown e
      | .ok title =>
        { Visit.none with componentTitles := [(componentKey service component, title)] }

section Visiting

variable (run : UpgradeRun) (site : Site) (pack : Pack)

/-- A component with hosts and tasks. -/
def visitPlanned (group service component : String) (hosts : HostGroup) (clientOnly : Bool)
    (processing : Processing) : Visit :=
  let w : Work :=
    { service, component := processing.name, hosts := hosts.hosts, clientOnly
      tasks := processing.tasks, params := Record.empty }
  visitTitles site service component ++
    if isNameNode service component then
      match nameNodeWork run.orchestration site.hosts.namenodeHA hosts w with
      | some ws => { Visit.none with work := ws }
      | none => nameNodeWarning hosts ++ .skip .nameNodeUnresolved group service component
    else { Visit.none with work := [w] }

/-- A component with hosts to work on. -/
def visitHosted (group : Grouping) (service component : String) (hosts : HostGroup)
    (clientOnly : Bool) : Visit :=
  { Visit.none with unhealthy := hosts.unhealthy } ++
    match pack.processing.resolve? service component group.kind.function? with
    | none =>
      .say .error ("Couldn't create a processing component for service " ++ service ++
        " and component " ++ component ++ ".") Record.empty ++
        .skip .noProcessing group.name service component
    | some processing =>
      visitPlanned run site group.name service component hosts clientOnly processing

def visitComponent (group : Grouping) (service : String) (clientOnly : Bool)
    (component : String) : Visit :=
  if run.isRolling && !pack.processing.finds service component then
    .skip .noComponentTasks group.name service component
  else
    match site.hosts.resolve? service component with
    | none => .skip .noHosts group.name service component
    | some hosts =>
      if hosts.hosts.isEmpty then .skip .noHosts group.name service component
      else visitHosted run site pack group service component hosts clientOnly

def visitService (group : Grouping) (s : OrderedService) : Visit :=
  if !run.supports s.serviceName then
    .skip .serviceNotSupported group.name s.serviceName none
  else if run.isRolling && !pack.processing.knows s.serviceName then
    .skip .noServiceTasks group.name s.serviceName none
  else
    let clientOnly := (site.store.service? s.serviceName).any (·.clientOnly)
    .all (visitComponent run site pack group s.serviceName clientOnly) s.components

/-- The services of a grouping in the order in which a run visits them: a rolling downgrade goes
backwards. -/
def servicesOf (group : Grouping) : List OrderedService :=
  if run.isRolling && run.direction.isDowngrade then group.services.reverse else group.services

/-- All services of a grouping. -/
def visitGrouping (group : Grouping) : Visit :=
  .all (visitService run site pack group) (servicesOf run group)

end Visiting

end ClusterUpgrade.Plan
