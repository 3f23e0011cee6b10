import ClusterUpgrade.Command.Basic
import ClusterUpgrade.Config.Repositories

/-!
# The reconcile command

Loads a topology, moves its services to the target version and reconciles their configurations. A
dry run only says what would become of the configurations.
-/

namespace ClusterUpgrade

/-- What the reconcile command is asked for. -/
structure ReconcileRequest where
  /-- A topology file. -/
  cluster : String
  direction : Direction
  /-- The version that the cluster moves to. -/
  target : String
  /-- The version that the cluster moves from, when it is not the current one. -/
  source : Option String
  dryRun : Bool
  /-- Which services a downgrade reverts, when it is not what the settings say. -/
  downgradeScope : Option DowngradeScope

namespace Command

/-- What a reconciliation has come to. -/
structure Reconciled where
  changes : List ServiceChange
  /-- What became of the components; a dry run leaves them alone. -/
  components : Option (List ComponentTransition)
  /-- The revisions made. -/
  created : List Revision

namespace Reconciled

def document (r : Reconciled) : Document :=
  .ofOptional [("services", some (.list (r.changes.map (·.document)))),
    ("repositories", r.components.map fun cs =>
      .record [("components", .list (cs.map (·.document)))]),
    ("created", some (.list (r.created.map (·.document))))]

/-- How many services have a new configuration. -/
def changedCount (r : Reconciled) : Nat :=
  (r.changes.filter fun c => c.change.merge?.isSome ∨ c.change = .reverted).length

end Reconciled

/-- The lines that show what became of a service. -/
def changeLines (colour : Bool) (c : ServiceChange) : List ConsoleLine :=
  Console.info colour (c.service ++ ": " ++ c.change.word ++ " (" ++ c.source.text ++ " → " ++
    c.target.text ++ ")") ::
  match c.change.merge? with
  | none => []
  | some m =>
    m.configs.keys.map (Console.change colour .added) ++
      m.customized.map (fun p => Console.change colour .kept p.text) ++
      m.removed.map fun p => Console.change colour .removed p.text

/-- Reconciles a cluster, with its versions unless nothing may be written. -/
def reconcileStore (run : UpgradeRun) (site : Site) (options : ReconcileOptions) :
    Command Reconciled := do
  if options.dryRun then
    let (changes, s) ← transition (ClusterUpgrade.reconcile run options) site.store
    return ⟨changes, none, s.createdRevisions⟩
  else
    let ((components, changes), s) ← transition (updateCluster run site.catalog options) site.store
    return ⟨changes, some components, s.createdRevisions⟩

/-- The options of a reconciliation: what is asked for, and else what the settings say. -/
def reconcileOptions (s : Settings) (r : ReconcileRequest) : ReconcileOptions where
  actor := s.actor
  comment := s.changeComment
  downgradeScope := r.downgradeScope.getD s.downgradeScope
  dryRun := r.dryRun

def reconcileMessage (dryRun : Bool) (r : Reconciled) : String :=
  if dryRun then "Would change configuration of " ++ toString r.changedCount ++ " service(s)"
  else "Changed configuration of " ++ toString r.changedCount ++ " service(s), created " ++
    toString r.created.length ++ " revision(s)"

def reconcile (c : CommandContext) (r : ReconcileRequest) : Command CommandResult := do
  c.explain ["Executing reconcile-configs command", "Actor: " ++ c.settings.actor]
  let t ← load (c.files.topology c.yaml r.cluster none)
  let run ← planning (t.run
    { direction := r.direction, orchestration := .nonRolling, scope := none, target := r.target
      source := r.source })
  printIf c.isHuman
    [Console.header c.colour ("Configuration Reconciliation for " ++ t.clusterName)]
  printIf (c.isHuman && r.dryRun) [Console.dryRunNotice c.colour]
  let done ← reconcileStore run t.site (reconcileOptions c.settings r)
  printIf c.isHuman (done.changes.flatMap (changeLines c.colour))
  printIf (c.isHuman && !r.dryRun) [Console.success c.colour
    ("Created " ++ toString done.created.length ++ " configuration revision(s)")]
  return { success := true, message := reconcileMessage r.dryRun done
           data := some done.document, errors := none }

end Command

end ClusterUpgrade
