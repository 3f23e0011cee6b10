import ClusterUpgrade.Config.Merge
import ClusterUpgrade.Store.Operation
import ClusterUpgrade.UpgradeRun

/-!
# Reconciling configurations

A run may take services from one stack to another. Reconciliation visits the services of the run in
order and gives each its configuration on the target stack:

* a service that stays on its stack is left as it is;
* on an upgrade, a new revision holds the merge of the live configuration with the new defaults;
* on a downgrade, the latest configuration that the service had on the target stack becomes current
  again. A downgrade may be limited to the first service that crosses stacks.

All writes happen at once or not at all. A dry run reports the same changes and writes nothing.
-/

namespace ClusterUpgrade

/-! ## Failures -/

/-- The side of a run on which a version is looked up. -/
inductive Side where
  | source
  | target
  deriving DecidableEq

def Side.word : Side → String
  | source => "source"
  | target => "target"

/-- Why a transition of a cluster fails. -/
inductive TransitionError where
  /-- The run names no version for a service. -/
  | missingVersion (service : String) (side : Side)
  /-- The store has refused an operation. -/
  | refused (cause : StoreError)
  deriving DecidableEq

namespace TransitionError

def code : TransitionError → String
  | missingVersion .. => "MISSING_REPOSITORY_VERSION"
  | refused _ => "STORE_FAILURE"

def message : TransitionError → String
  | missingVersion service side => "No " ++ side.word ++ " repository version for " ++ service
  | refused cause => "Configuration reconciliation failed: " ++ cause.message

/-- What a failure is about, by name. -/
def details : TransitionError → List (String × Document)
  | missingVersion service side => [("service", .text service), ("side", .text side.word)]
  | refused _ => []

/-- The failure of the store behind a failure. -/
def cause? : TransitionError → Option StoreError
  | missingVersion .. => none
  | refused cause => some cause

end TransitionError

/-- An operation that changes the versions or configurations of a cluster. -/
abbrev Transition (α : Type) := Operation TransitionError α

namespace Transition

variable {α : Type}

/-- Reads the store, which may refuse. -/
def reading (f : Store → Except StoreError α) : Transition α :=
  Operation.reading fun s => (f s).mapError .refused

/-- Writes the store, which may refuse. -/
def writing (f : Store → Except StoreError Store) : Transition Unit :=
  Operation.writing fun s => (f s).mapError .refused

/-- The version of a service on a side of a run. -/
def version (run : UpgradeRun) (side : Side) (service : String) : Transition RepositoryVersion :=
  let versions := match side with
    | .source => run.sources
    | .target => run.targets
  match versions.get? service with
  | some v => pure v
  | none => Operation.fail (.missingVersion service side)

/-- Logs an event in the context of the cluster. -/
def say (level : Log.Level) (message : String) (context : Record Document) : Transition Unit :=
  fun s => Operation.tell
    ((Log.Event.plain level message context).within (Log.contextOf [("cluster", s.clusterName)])) s

/-- Logs what is going on in the context of the cluster. -/
def info (message : String) : Transition Unit := say .info message Record.empty

end Transition

/-! ## Changes -/

/-- Which services a downgrade across stacks reverts. -/
inductive DowngradeScope where
  | allServices
  | firstService
  deriving DecidableEq, Inhabited

instance : Named DowngradeScope where
  all := [.allServices, .firstService]
  name
    | .allServices => "all-services"
    | .firstService => "first-service"

/-- How reconciliation is done. -/
structure ReconcileOptions where
  /-- The user who is recorded on new revisions. -/
  actor : String
  /-- The comment that is recorded on new revisions. -/
  comment : String
  downgradeScope : DowngradeScope
  /-- Whether nothing is written. -/
  dryRun : Bool

/-- What becomes of the configuration of a service. -/
inductive ConfigChange where
  /-- Both stacks are the same. -/
  | unchanged
  /-- The latest configuration of the target stack is current again. -/
  | reverted
  /-- A new revision holds a merge. -/
  | merged (merge : Merge)
  /-- An earlier service has ended the downgrade. -/
  | notProcessed
  deriving DecidableEq

def ConfigChange.word : ConfigChange → String
  | unchanged => "unchanged"
  | reverted => "reverted"
  | merged _ => "merged"
  | notProcessed => "not-processed"

def ConfigChange.merge? : ConfigChange → Option Merge
  | merged m => some m
  | _ => none

/-- The change of one service. -/
structure ServiceChange where
  service : String
  source : StackId
  target : StackId
  change : ConfigChange
  deriving DecidableEq

def ServiceChange.document (c : ServiceChange) : Document :=
  .ofOptional [("service", some (.text c.service)), ("sourceStack", some (.text c.source.text)),
    ("targetStack", some (.text c.target.text)), ("action", some (.text c.change.word)),
    ("merge", c.change.merge?.map (·.document))]

/-! ## Visiting services -/

namespace Reconcile

open Transition

/-- What is said of a service that stays on its stack. -/
def unchangedText (run : UpgradeRun) (service stack : String) : String :=
  "The " ++ run.direction.form .plain ++ " " ++ run.direction.preposition ++ " " ++
    run.repository.version ++ " will not change stack configurations for " ++ service ++
    " since the source and target are both " ++ stack

/-- What is said of a property that the operators have removed. -/
def removedText (source target : StackId) (p : PropertyPath) : String :=
  "The property " ++ p.text ++ " exists in both " ++ source.text ++ " and " ++ target.text ++
    " but is not part of the current set of configurations and will therefore not be included " ++
    "in the configuration merge"

/-- What is said of the types of a new revision. -/
def createdText (run : UpgradeRun) (target : StackId) (m : Merge) : String :=
  "The " ++ run.direction.form .plain ++ " will create the following configurations for stack " ++
    target.text ++ ": " ++ Text.joined "," m.configs.keys

/-- The merge of a service that moves from one stack to another, as the store stands. -/
def mergeOf (source target : StackId) (service : String) (s : Store) : Except StoreError Merge := do
  let oldDefaults ← s.defaultsOf source service
  let newDefaults ← s.defaultsOf target service
  return Merge.of { oldDefaults, newDefaults, live := s.liveConfig service }

/-- Makes the latest configuration of the target stack current again. -/
def revert (options : ReconcileOptions) (target : StackId) (service : String) :
    Transition ConfigChange := do
  info ("Reverting " ++ service ++ " to the latest configurations of " ++ target.text)
  Operation.when (!options.dryRun) (writing (·.applyLatest target service))
  return .reverted

/-- Adds a revision with the merge. -/
def upgrade (run : UpgradeRun) (options : ReconcileOptions) (source target : StackId)
    (service : String) : Transition ConfigChange := do
  let m ← reading (mergeOf source target service)
  let _ ← Operation.each (fun p => info (removedText source target p)) m.removed
  info (createdText run target m)
  Operation.when (!options.dryRun) (writing fun s =>
    .ok (s.createRevisions target service m.configs options.actor options.comment))
  return .merged m

/-- Reconciles one service, after an earlier one may have ended the run. -/
def visit (run : UpgradeRun) (options : ReconcileOptions) (ended : Bool) (service : String) :
    Transition ServiceChange := do
  let source := (← version run .source service).stackId
  let target := (← version run .target service).stackId
  let change ←
    if ended then pure .notProcessed
    else if source = target then do
      info (unchangedText run service target.text)
      pure .unchanged
    else if run.direction.isDowngrade then revert options target service
    else upgrade run options source target service
  return { service, source, target, change }

/-- Whether no service after this one is reconciled. -/
def ends (options : ReconcileOptions) (c : ServiceChange) : Bool :=
  c.change = .reverted ∧ options.downgradeScope = .firstService

/-- Reconciles services in order. -/
def visitAll (run : UpgradeRun) (options : ReconcileOptions) :
    (ended : Bool) → List String → Transition (List ServiceChange)
  | _, [] => pure []
  | ended, service :: rest => do
    let c ← visit run options ended service
    let cs ← visitAll run options (ended || ends options c) rest
    return c :: cs

/-- Reconciles the services of a run, without protection against a failure on the way. -/
def steps (run : UpgradeRun) (options : ReconcileOptions) : Transition (List ServiceChange) :=
  visitAll run options false run.services

end Reconcile

/-- Reconciles the services of a run, all or nothing. -/
def reconcile (run : UpgradeRun) (options : ReconcileOptions) : Transition (List ServiceChange) :=
  Operation.transaction .refused (Reconcile.steps run options)

end ClusterUpgrade
