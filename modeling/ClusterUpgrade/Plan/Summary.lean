import ClusterUpgrade.Plan.Basic

/-!
# Plan summaries

A plan as a text for reading: its pack, direction, type and version, then the numbered groups and
stages with the hosts that they work on, the totals, and whatever was unhealthy or skipped.
-/

namespace ClusterUpgrade.Plan

/-- The size of a plan and what it is for. -/
structure Summary where
  packName : String
  direction : Direction
  orchestration : Orchestration
  version : String
  groupCount : Nat
  stageCount : Nat
  taskCount : Nat
  deriving DecidableEq

namespace Summary

/-- The summary of the groups of a run. -/
def of (packName : String) (run : UpgradeRun) (groups : List PlanGroup) : Summary :=
  let stages := groups.flatMap (·.stages)
  { packName, direction := run.direction, orchestration := run.orchestration
    version := run.repository.version, groupCount := groups.length
    stageCount := stages.length, taskCount := (stages.flatMap (·.assignments)).length }

def document (s : Summary) : Document :=
  .record [("packName", .text s.packName), ("direction", .text (Named.name s.direction)),
    ("type", .text (Named.name s.orchestration)), ("version", .text s.version),
    ("groupCount", .ofInt s.groupCount), ("stageCount", .ofInt s.stageCount),
    ("taskCount", .ofInt s.taskCount)]

end Summary

/-! ## The text -/

/-- Some texts in brackets behind a blank, if there are any. -/
def remark (opening closing : String) (texts : List String) : String :=
  if texts.isEmpty then "" else " " ++ opening ++ Text.joined ", " texts ++ closing

def assignmentLine (a : Assignment) : String :=
  "       - " ++ componentKey a.service a.component ++ " on " ++ Text.joined ", " a.hosts ++
    remark "[" "]" (a.params.entries.map fun e => e.1 ++ "=" ++ e.2)

/-- The lines of a stage of a group. -/
def stageSummary (group : Nat) (s : Stage × Nat) : List String :=
  ("   " ++ toString (group + 1) ++ "." ++ toString (s.2 + 1) ++ " " ++
    s.1.text.getD (Named.name s.1.kind)) :: s.1.assignments.map assignmentLine

def groupSummary (g : PlanGroup × Nat) : List String :=
  let flags := (if g.1.skippable then ["skippable"] else []) ++
    if g.1.allowRetry then ["retry"] else []
  (toString (g.2 + 1) ++ ". " ++ g.1.title ++ remark "(" ")" flags) ::
    g.1.stages.zipIdx.flatMap (stageSummary g.2)

def skipLine (s : Skip) : String :=
  let target := Text.joinedFilled "/" (s.service.toList ++ s.component.toList)
  "  - " ++ s.group ++ (if target = "" then "" else " " ++ target) ++ ": " ++ Named.name s.reason

/-- Lines under a heading, if there are any. -/
def headed (heading : String) (lines : List String) : List String :=
  if lines.isEmpty then [] else "" :: heading :: lines

def summaryLines (packName : String) (run : UpgradeRun) (groups : List PlanGroup)
    (findings : Findings) : List String :=
  let s := Summary.of packName run groups
  ["Upgrade Plan Summary", "====================", "", "Pack: " ++ s.packName,
    "Direction: " ++ run.direction.said .plain true, "Type: " ++ Named.name s.orchestration,
    "Version: " ++ s.version, ""] ++
  groups.zipIdx.flatMap groupSummary ++
  (if groups.isEmpty then [] else [""]) ++
  ["Groups: " ++ toString s.groupCount ++ "  Stages: " ++ toString s.stageCount ++ "  Tasks: " ++
    toString s.taskCount] ++
  headed "Unhealthy hosts:" (findings.unhealthyHosts.map ("  ⚠ " ++ ·)) ++
  headed "Skipped:" (findings.skips.map skipLine)

def summaryText (packName : String) (run : UpgradeRun) (groups : List PlanGroup)
    (findings : Findings) : String :=
  Text.joined "\n" (summaryLines packName run groups findings)

end ClusterUpgrade.Plan
