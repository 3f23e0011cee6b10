import ClusterUpgrade.Config.Reserved
import ClusterUpgrade.Issue.Checked
import ClusterUpgrade.Pack.Basic
import ClusterUpgrade.Stack

/-!
# Checking pack documents

`Pack.check` turns a document into a pack and reports every problem of the document: missing and
spoilt fields, words outside a vocabulary, group names that occur twice in one direction, texts that
are no stack ids. A rolling pack is also warned of services that it orders without processing.

A pack is given exactly when no issue is an error. So an entry that a check leaves out of a list is
always accompanied by an error. Only in the processing a service or a component is left out without
one, if nothing can be written under its name. Its components then show through as if they were
services with processing, and there is no warning of those.
-/

namespace ClusterUpgrade.Pack

open Checked

/-! ## Groupings -/

def checkCondition (d : Document) (place : Location) : Checked (Option Condition) :=
  match d with
  | .record _ =>
    match d.field? "type" with
    | none => reported (.missingField place "type") none
    | some v =>
      match v.choice? ["security", "config"] with
      | some "security" => do
        let mode ← requireWord SecurityType d "securityType" place
        return mode.map .security
      | some _ => do
        let configType ← requireText d "configType" place
        let property ← requireText d "property" place
        let comparison ← requireWord Comparison d "comparison" place
        let value ← optionalText d "value" place
        return match configType, property, comparison with
          | some t, some p, some c => some (.config t p c value)
          | _, _, _ => none
      | none => reported (.unknownValue (place.field "type") v ["security", "config"]) none
  | d => reported (.ofKind place "object" d) none

/-- The condition of a grouping, which may be missing. -/
def checkGroupCondition (value : Option Document) (place : Location) :
    Checked (Option Condition) :=
  match value with
  | none => pure none
  | some d => checkCondition d place

/-- The texts of a list field; a field that is missing or null has none. -/
def checkTexts (d : Document) (field : String) (place : Location) :
    Checked (Option (List String)) :=
  match d.field? field with
  | none => pure (some [])
  | some .null => pure (some [])
  | some v =>
    match v.texts? with
    | some texts => pure (some texts)
    | none => reported (.ofKind (place.field field) "string array" v) none

def checkService (place : Location) (entry : Document × Nat) : Checked (Option OrderedService) :=
  let place := place.index entry.2
  match entry.1 with
  | .record _ => do
    let name ← requireText entry.1 "serviceName" place
    let components ← checkTexts entry.1 "components" place
    return match name, components with
      | some n, some cs => some ⟨n, cs⟩
      | _, _ => none
  | d => reported (.ofKind place "object" d) none

def checkServices (value : Option Document) (place : Location) : Checked (List OrderedService) := do
  let items ← itemsOf value place
  let services ← all (checkService place) items
  return services.filterMap id

def kindWords : List String := ["default", "function", "service-check"]

def checkKindWord (d : Document) (place : Location) : Checked (Option String) :=
  match d.field? "kind" with
  | none => pure (some "default")
  | some v =>
    match v.choice? kindWords with
    | some w => pure (some w)
    | none => reported (.unknownValue (place.field "kind") v kindWords) none

/-- The kind of a grouping; one with a function names it. -/
def checkKind (d : Document) (place : Location) (word : String) : Checked (Option GroupingKind) :=
  if word = "function" then do
    let f ← requireWord FunctionName d "function" place
    return f.map .function
  else pure (some (if word = "service-check" then .serviceCheck else .standard))

/-- One grouping. Its flags are looked at only when its name, kind and scope are sound. -/
def checkGrouping (d : Document) (place : Location) : Checked (Option Grouping) :=
  match d with
  | .record _ => do
    let name ← requireText d "name" place
    let word ← checkKindWord d place
    let scope ← wordOr Scope d "scope" place .complete
    let title ← optionalText d "title" place
    let condition ← checkGroupCondition (d.field? "condition") (place.field "condition")
    let services ← checkServices (d.field? "services") (place.field "services")
    match name, word, scope with
    | some name, some word, some scope => do
      let skippable ← optionalBoolean d "skippable" place false
      let allowRetry ← optionalBoolean d "allowRetry" place true
      let supportsAutoSkip ← optionalBoolean d "supportsAutoSkipOnFailure" place true
      let performServiceCheck ← optionalBoolean d "performServiceCheck" place true
      let kind ← checkKind d place word
      return kind.map fun kind =>
        { name, title := title.getD name, scope, condition, skippable, allowRetry,
          supportsAutoSkip, performServiceCheck, services, kind }
    | _, _, _ => return none
  | d => reported (.ofKind place "object" d) none

/-- Groupings in order. A name that an accepted grouping has already taken is reported with the
place of that grouping; `taken` holds the names and their places. -/
def checkEntries (place : Location) : (taken : List (String × Location)) →
    List (Document × Nat) → Checked (List Grouping)
  | _, [] => pure []
  | taken, (d, n) :: rest => do
    let here := place.index n
    match ← checkGrouping d here with
    | none => checkEntries place taken rest
    | some g =>
      match taken.lookup g.name with
      | some earlier => do
        report (.duplicateGroup here g.name earlier)
        checkEntries place taken rest
      | none => do
        let gs ← checkEntries place ((g.name, here) :: taken) rest
        return g :: gs

/-- The groupings of a direction that is there. -/
def checkGroupings (d : Document) (place : Location) : Checked (List Grouping) :=
  match d with
  | .list items => checkEntries place [] items.zipIdx
  | d => reported (.ofKind place "array" d) []

/-- What is reported when the groupings of the upgrade are missing. -/
def upgradeMissing : Issue := .missingField (Location.top "groups") "upgrade"

def checkUpgrade (value : Option Document) (place : Location) : Checked (List Grouping) :=
  match value with
  | none => reported upgradeMissing []
  | some d => checkGroupings d place

/-- The groupings of the downgrade, which may be missing. -/
def checkDowngrade (value : Option Document) (place : Location) :
    Checked (Option (List Grouping)) :=
  match value with
  | none => pure none
  | some d => some <$> checkGroupings d place

/-- The groupings of both directions. -/
def checkGroups (groups : Option Document) : Checked (List Grouping × Option (List Grouping)) :=
  match groups with
  | some (.record fields) => do
    let d := Document.record fields
    let place := Location.top "groups"
    let up ← checkUpgrade (d.field? "upgrade") (place.field "upgrade")
    let down ← checkDowngrade (d.field? "downgrade") (place.field "downgrade")
    return (up, down)
  | _ => reported upgradeMissing ([], none)

/-! ## Processing -/

/-- What a task does, once its kind is known. -/
def checkAction (d : Document) (place : Location) : TaskKind → Checked (Option Action)
  | .manual => do
    let messages ← checkTexts d "messages" place
    return messages.map .manual
  | .execute => do
    let command ← requireText d "command" place
    return command.map .execute
  | .configure => do
    let change ← requireText d "changeId" place
    return change.map .configure
  | .restart => pure (some .restart)
  | .start => pure (some .start)
  | .stop => pure (some .stop)
  | .serviceCheck => pure (some .serviceCheck)

def checkTask (place : Location) (entry : Document × Nat) : Checked (Option Task) :=
  let place := place.index entry.2
  match entry.1 with
  | .record _ => do
    let kind ← requireWord TaskKind entry.1 "type" place
    let summary ← optionalText entry.1 "summary" place
    match kind with
    | none => return none
    | some kind => do
      let action ← checkAction entry.1 place kind
      return action.map (⟨·, summary⟩)
  | d => reported (.ofKind place "object" d) none

def checkTasks (value : Option Document) (place : Location) : Checked (List Task) := do
  let items ← itemsOf value place
  let tasks ← all (checkTask place) items
  return tasks.filterMap id

def checkComponent (place : Location) (entry : String × Document) :
    Checked (Option (String × Processing)) :=
  let place := place.field entry.1
  match entry.2 with
  | .record _ => do
    let tasks ← checkTasks (entry.2.field? "tasks") (place.field "tasks")
    return some (entry.1, ⟨entry.1, tasks⟩)
  | d => reported (.ofKind place "object" d) none

def checkServiceProcessing (place : Location) (entry : String × Document) :
    Checked (Option (String × Record Processing)) :=
  let place := place.field entry.1
  match entry.2 with
  | .record fields => do
    let components ← all (checkComponent place) fields
    return some (entry.1, Reserved.record (components.filterMap id))
  | d => reported (.ofKind place "object" d) none

def checkProcessing (value : Option Document) : Checked ProcessingMap := do
  let place := Location.top "processing"
  let fields ← fieldsOf value place
  let services ← all (checkServiceProcessing place) fields
  return Reserved.record (services.filterMap id)

/-! ## Services without processing -/

/-- The names under which a record has records. -/
def recordNames (d : Document) : List String :=
  (d.fields?.getD []).filterMap fun e => e.2.fields?.map fun _ => e.1

/-- The names that show through in processing. Nothing can be written under the name that stands for
the record itself, but the components that a document has there show through as if they were
services, and from one that has that name again whatever the processing of a component has. -/
def shownThrough (processing : Option Document) : List String :=
  let components := processing.bind (·.field? Reserved.recordName)
  let component := components.bind (·.field? Reserved.recordName)
  components.elim [] recordNames ++
    if (component.bind (·.fields?)).isSome then ["name", "tasks"] else []

/-- Whether processing answers to the name of a service; `through` are the names that show through
in it. -/
def isProcessed (processing : ProcessingMap) (through : List String) (service : String) : Bool :=
  processing.has service || Reserved.isKnown service || through.contains service

/-- The services that a grouping orders without processing. -/
def unprocessed (processing : ProcessingMap) (through : List String) (place : Location)
    (entry : Grouping × Nat) : List Issue :=
  if entry.1.kind = .serviceCheck then []
  else entry.1.services.zipIdx.filterMap fun s =>
    if isProcessed processing through s.1.serviceName then none
    else some (.unprocessedService (((place.index entry.2).field "services").index s.2)
      s.1.serviceName)

/-- The warnings of a direction of a rolling pack. -/
def unprocessedIn (processing : ProcessingMap) (through : List String) (direction : String)
    (groupings : List Grouping) : List Issue :=
  groupings.zipIdx.flatMap
    (unprocessed processing through ((Location.top "groups").field direction))

/-! ## Packs -/

/-- The written stack id of a pack. -/
def checkTargetStack (d : Document) : Checked (Option String) := do
  let target ← requireText d "targetStack" []
  match target with
  | some t =>
    if (StackId.parse? t).isNone then report (.invalidStack (Location.top "targetStack") t)
    return some t
  | none => return none

/-- Everything that a document declares, before it is known whether the document is valid. -/
def checkFields (d : Document) : Checked (Option Pack) := do
  let name ← requireText d "name" []
  let orchestration ← requireWord Orchestration d "type" []
  let targetStack ← checkTargetStack d
  let processing ← checkProcessing (d.field? "processing")
  let (upgrade, downgrade) ← checkGroups (d.field? "groups")
  if orchestration = some .rolling then
    let through := shownThrough (d.field? "processing")
    Checked.mk () (unprocessedIn processing through "upgrade" upgrade ++
      unprocessedIn processing through "downgrade" (downgrade.getD []))
  return match name, orchestration, targetStack with
    | some name, some orchestration, some targetStack =>
      some { name, orchestration, targetStack, upgrade, downgrade, processing }
    | _, _, _ => none

/-- The pack of a document, if no issue is an error, and every issue of the document. -/
def check (d : Document) : Checked (Option Pack) :=
  match d with
  | .record _ =>
    let c := checkFields d
    ⟨if Issues.valid c.issues then c.value else none, c.issues⟩
  | d => reported (.ofKind [] "object" d) none

end ClusterUpgrade.Pack
