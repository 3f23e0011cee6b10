import ClusterUpgrade.Config.Reserved
import ClusterUpgrade.Issue.Checked
import ClusterUpgrade.Topology.Basic

/-!
# Checking topology documents

`Topology.check` turns a document into a topology and reports every problem of the document. A
topology is given exactly when there is no problem. Scalars count by their written form, so a
version or a property may be written as a number. A property, and in the defaults also a service or
a type, is left out if nothing can be written under its name.
-/

namespace ClusterUpgrade.Topology

open Checked

/-! ## Fields -/

/-- The text of a field that is a scalar. -/
def scalar? (d : Document) (field : String) : Option String := (d.field? field).bind (·.scalarText?)

/-- The truth value of a field that holds one, and a fallback for any other. -/
def flag (d : Document) (field : String) (fallback : Bool) : Bool :=
  match d.field? field with
  | some (.boolean b) => b
  | _ => fallback

/-- A scalar that must be there and not empty. -/
def requireScalar (d : Document) (field : String) : Checked (Option String) :=
  match scalar? d field with
  | none => reported (.missingField (Location.top field) field) none
  | some "" => reported (.missingField (Location.top field) field) (some "")
  | some s => pure (some s)

/-- A written stack id that must be there. -/
def requireStack (value : Option Document) (place : Location) : Checked (Option StackId) :=
  match value with
  | some (.text s) =>
    match StackId.parse? s with
    | some id => pure (some id)
    | none => reported (.invalidStack place s) none
  | _ => reported (.missingField place "stack") none

/-- The security mode, `NONE` when it is missing. -/
def checkSecurity (d : Document) : Checked (Option SecurityType) :=
  match d.field? "securityType" with
  | none => pure (some .none)
  | some v =>
    match v.text?.bind Named.ofName? with
    | some mode => pure (some mode)
    | none =>
      reported (.unknownValue (Location.top "securityType") v (Named.names SecurityType)) none

/-- Whether the NameNode is highly available; it is not when that is missing or null. -/
def checkHighAvailability (d : Document) : Checked Bool :=
  match d.field? "namenodeHA" with
  | none => pure false
  | some .null => pure false
  | some (.boolean b) => pure b
  | some v => reported (.ofKind (Location.top "namenodeHA") "boolean" v) false

/-- Checks each field of a record that must hold a record itself and collects what comes of them. -/
def eachField {α : Type} (value : Option Document) (place : Location)
    (f : String → Document → Location → Checked (Option α)) : Checked (List α) := do
  let fields ← fieldsOf value place
  let found ← all (fun e : String × Document =>
    match e.2 with
    | .record _ => f e.1 e.2 (place.field e.1)
    | d => reported (.ofKind (place.field e.1) "object" d) none) fields
  return found.filterMap id

/-! ## Repository versions -/

def checkVersion (entry : Document × Nat) : Checked (Option RepositoryVersion) :=
  let place := (Location.top "repositoryVersions").index entry.2
  match entry.1 with
  | .record _ => do
    let stack ← requireStack (entry.1.field? "stack") (place.field "stack")
    match scalar? entry.1 "version" with
    | none => reported (.missingField place "version") none
    | some version => return stack.map (⟨version, ·⟩)
  | d => reported (.ofKind place "object" d) none

/-- The repository versions; the list must be there. -/
def checkVersions (value : Option Document) : Checked (List RepositoryVersion) :=
  match value with
  | some (.list items) => do
    let versions ← all checkVersion items.zipIdx
    return versions.filterMap id
  | _ =>
    reported (.missingField (Location.top "repositoryVersions") "repositoryVersions") []

/-! ## Services -/

/-- The hosts of a list field; one that is missing or null has none. -/
def hostNames? (d : Document) (field : String) : Option (List String) :=
  match d.field? field with
  | none => some []
  | some .null => some []
  | some v => v.texts?

def checkComponent (name : String) (d : Document) (place : Location) :
    Checked (Option ComponentTopology) :=
  match hostNames? d "hosts", hostNames? d "unhealthy" with
  | some hosts, some unhealthy => pure <| some
      { name, displayName := scalar? d "displayName"
        advertisesVersion := flag d "advertiseVersion" true
        placement :=
          { hosts, unhealthy, master := (d.field? "master").bind (·.text?)
            secondary := (d.field? "secondary").bind (·.text?) } }
  | _, _ => reported (.wrongKind place "string arrays for hosts/unhealthy"
      ((d.field? "hosts").elim "undefined" (·.kind))) none

def checkService (name : String) (d : Document) (place : Location) :
    Checked (Option ServiceTopology) := do
  let components ← eachField (d.field? "components") (place.field "components") checkComponent
  return some
    { name, displayName := scalar? d "displayName"
      clientOnly := flag d "clientOnly" false, version := scalar? d "version", components }

/-! ## Configurations -/

def checkProperty (place : Location) (e : String × Document) : Checked (Option (String × String)) :=
  match e.2.scalarText? with
  | some s => pure (some (e.1, s))
  | none => reported (.ofKind (place.field e.1) "scalar" e.2) none

def checkProperties (value : Option Document) (place : Location) : Checked Properties := do
  let fields ← fieldsOf value place
  let properties ← all (checkProperty place) fields
  return Reserved.record (properties.filterMap id)

def checkConfig (type : String) (d : Document) (place : Location) :
    Checked (Option ConfigTopology) :=
  match scalar? d "service" with
  | none => reported (.missingField place "service") none
  | some service => do
    let properties ← checkProperties (d.field? "properties") (place.field "properties")
    return some { type, service, tag := (scalar? d "tag").getD "version1", properties }

/-! ## Stack defaults -/

/-- One default, which may be null. -/
def checkDefault (place : Location) (e : String × Document) :
    Checked (Option (String × Option String)) :=
  match e.2 with
  | .null => pure (some (e.1, none))
  | v =>
    match v.scalarText? with
    | some s => pure (some (e.1, some s))
    | none => reported (.ofKind (place.field e.1) "scalar or null" v) none

/-- The defaults of a configuration type. -/
def checkDefaults (place : Location) (e : String × Document) : Checked (String × Defaults) :=
  let place := place.field e.1
  match e.2 with
  | .record fields => do
    let defaults ← all (checkDefault place) fields
    return (e.1, Reserved.record (defaults.filterMap id))
  | d => reported (.ofKind place "object" d) (e.1, Record.empty)

def checkServiceDefaults (service : String) (d : Document) (place : Location) :
    Checked (Option (String × DefaultsByType)) := do
  let types ← fieldsOf (some d) place
  let defaults ← all (checkDefaults place) types
  return some (service, Reserved.record defaults)

/-- The defaults of a stack, under a written stack id. -/
def checkStack (e : String × Document) : Checked (Option (String × Record DefaultsByType)) :=
  let place := (Location.top "stackDefaults").field e.1
  if (StackId.parse? e.1).isNone then reported (.invalidStack place e.1) none
  else match e.2 with
    | .record _ => do
      let services ← eachField (some e.2) place checkServiceDefaults
      return some (e.1, Reserved.record services)
    | d => reported (.ofKind place "object" d) none

def checkStackDefaults (value : Option Document) : Checked (Record (Record DefaultsByType)) := do
  let fields ← fieldsOf value (Location.top "stackDefaults")
  let entries ← all checkStack fields
  return Record.ofList (entries.filterMap id)

/-! ## Topologies -/

/-- Everything that a document describes, before it is known whether the document is sound. -/
def checkFields (d : Document) : Checked (Option Topology) := do
  let clusterName ← requireScalar d "clusterName"
  let currentVersion ← requireScalar d "currentVersion"
  let stack ← requireStack (d.field? "stack") (Location.top "stack")
  let securityType ← checkSecurity d
  let namenodeHA ← checkHighAvailability d
  let repositoryVersions ← checkVersions (d.field? "repositoryVersions")
  let services ← eachField (d.field? "services") (Location.top "services") checkService
  let configurations ←
    eachField (d.field? "configurations") (Location.top "configurations") checkConfig
  let stackDefaults ← checkStackDefaults (d.field? "stackDefaults")
  return match clusterName, currentVersion, stack, securityType with
    | some clusterName, some currentVersion, some stack, some securityType => some
        { clusterName, securityType, stack, namenodeHA, currentVersion, repositoryVersions
          services, configurations, stackDefaults }
    | _, _, _, _ => none

/-- The topology of a document, if there is no issue, and every issue of the document. -/
def check (d : Document) : Checked (Option Topology) :=
  match d with
  | .record _ =>
    let c := checkFields d
    ⟨if Issues.valid c.issues then c.value else none, c.issues⟩
  | d => reported (.ofKind [] "object" d) none

end ClusterUpgrade.Topology
