import ClusterUpgrade.Main
import ClusterUpgrade.Store.Script
import ClusterUpgrade.Proofs.Merge
import ClusterUpgrade.Proofs.Untouched
import ClusterUpgrade.Proofs.Topology
import ClusterUpgrade.Proofs.Live
import ClusterUpgrade.Proofs.Reconcile.Outcome
import ClusterUpgrade.Proofs.Reconcile.Turn
import ClusterUpgrade.Proofs.Reconcile.RoundTrip
import ClusterUpgrade.Proofs.Reconcile.DryRun
import ClusterUpgrade.Proofs.Versions
import ClusterUpgrade.Proofs.Reconcile.Upgrade
import ClusterUpgrade.Proofs.Reconcile.Kept
import ClusterUpgrade.Proofs.Transaction
import ClusterUpgrade.Proofs.Routine
import ClusterUpgrade.Proofs.Plan.Walk
import ClusterUpgrade.Proofs.Stage
import ClusterUpgrade.Proofs.Plan.Targets
import ClusterUpgrade.Proofs.Plan.Unhealthy
import ClusterUpgrade.Proofs.Plan.Rolling
import ClusterUpgrade.Proofs.Plan.Groups
import ClusterUpgrade.Proofs.Plan.Mirror
import ClusterUpgrade.Proofs.Plan.Warned
import ClusterUpgrade.Proofs.Independence
import ClusterUpgrade.Proofs.Layout
import ClusterUpgrade.Proofs.Failures
import ClusterUpgrade.Proofs.Load
import ClusterUpgrade.Proofs.Pack.Lossless
import ClusterUpgrade.Proofs.Pack.FixedPoint
import ClusterUpgrade.Proofs.Topology.Stored
import ClusterUpgrade.Proofs.Redaction
import ClusterUpgrade.Proofs.Record.Rewriting
import ClusterUpgrade.Proofs.Merge.Repeated
import ClusterUpgrade.Proofs.Merge.NullDefaults
import ClusterUpgrade.Proofs.Search
import ClusterUpgrade.Proofs.Token
import ClusterUpgrade.Proofs.Plan.Substitution
import ClusterUpgrade.Proofs.Store.Latest
import ClusterUpgrade.Proofs.Repositories.Component
import ClusterUpgrade.Proofs.Repositories
import ClusterUpgrade.Proofs.Stage.Items
import ClusterUpgrade.Proofs.Stage.SideBySide
import ClusterUpgrade.Proofs.Choice
import ClusterUpgrade.Proofs.Hosts
import ClusterUpgrade.Proofs.Plan.Restarts
import ClusterUpgrade.Proofs.Redaction.Credentials
import ClusterUpgrade.Proofs.Located
import ClusterUpgrade.Proofs.Pack.Reported
import ClusterUpgrade.Proofs.Stack
import ClusterUpgrade.Proofs.Pack.Stated
import ClusterUpgrade.Proofs.Pack.Pointed
import ClusterUpgrade.Proofs.Settings
import ClusterUpgrade.Proofs.Token.Scan
import ClusterUpgrade.Proofs.Plan.Checks
