import ClusterUpgrade.Command.Basic
import ClusterUpgrade.Pack.Select
import ClusterUpgrade.Plan.Summary

/-!
# The plan command

Loads packs and a topology, chooses the pack, and plans the run. Without a type, that of the only
pack is taken; with several packs the command cannot choose, and it says so.
-/

namespace ClusterUpgrade

/-- What the plan command is asked for. -/
structure PlanOptions where
  /-- A pack file, or a directory of pack files. -/
  pack : String
  /-- A topology file. -/
  cluster : String
  direction : Direction
  /-- The version that the cluster moves to. -/
  target : String
  /-- The version that the cluster moves from, when it is not the current one. -/
  source : Option String
  /-- The type of the run, when it is not that of the only pack. -/
  orchestration : Option Orchestration
  scope : Option Scope
  /-- The pack to take when several fit. -/
  packName : Option String

namespace Command

def planDocument (s : Plan.Summary) (p : Plan) : Document :=
  .record [("summary", s.document), ("groups", .list (p.groups.map PlanGroup.document)),
    ("accumulator", p.findings.document)]

def planLines (colour : Bool) (t : Topology) (run : UpgradeRun) (p : Plan) (s : Plan.Summary) :
    List ConsoleLine :=
  [Console.header colour ("Upgrade Plan for " ++ t.clusterName)] ++
    Console.text colour (Plan.summaryText s.packName run p.groups p.findings) ++
    [if p.groups.isEmpty then Console.warn colour "The plan is empty"
      else Console.info colour ("Planned " ++ toString s.stageCount ++ " stage(s) in " ++
        toString s.groupCount ++ " group(s)")]

/-- The pack of the options and the run over the services of a topology. -/
def choosePlan (packs : Record Pack) (only : Option Pack) (t : Topology) (o : PlanOptions)
    (orchestration : Orchestration) : Except PlanningError (ChosenPack × UpgradeRun) := do
  let request : PackRequest :=
    { packs, repositoryVersions := t.repositoryVersions, direction := o.direction, orchestration
      target := o.target, source := some (o.source.getD t.currentVersion)
      preferred := o.packName <|> only.map (·.name) }
  let (pack, _) ← request.select
  let run ← t.run
    { direction := o.direction, orchestration, scope := o.scope, target := o.target
      source := o.source }
  return (pack, run)

/-- Plans a run with loaded packs. -/
def planWith (c : CommandContext) (o : PlanOptions) (packs : Record Pack) (only : Option Pack)
    (orchestration : Orchestration) : Command CommandResult := do
  let t ← load (c.files.topology c.yaml o.cluster none)
  let (pack, run) ← planning (choosePlan packs only t o orchestration)
  let p ← planned (Plan.attemptChosen run t.site pack)
  let s := Plan.Summary.of (pack.name?.getD "") run p.groups
  printIf c.isHuman (planLines c.colour t run p s)
  return { success := true
           message := "Planned " ++ toString s.groupCount ++ " group(s), " ++
             toString s.stageCount ++ " stage(s) using " ++ s.packName
           data := some (planDocument s p), errors := none }

def plan (c : CommandContext) (o : PlanOptions) : Command CommandResult := do
  c.explain ["Executing plan command", "Pack source: " ++ o.pack, "Cluster: " ++ o.cluster]
  let packs ← load (c.files.packSource c.yaml o.pack none)
  let only := match packs.values with
    | [p] => some p
    | _ => none
  match o.orchestration <|> only.map (·.orchestration) with
  | none =>
    return { success := false
             message := "Several upgrade packs were loaded. Use --type to choose the upgrade type"
             data := none, errors := none }
  | some orchestration => planWith c o packs only orchestration

end Command

end ClusterUpgrade
