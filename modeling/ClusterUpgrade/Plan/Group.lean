import ClusterUpgrade.Plan.Placeholder
import ClusterUpgrade.Plan.Stage

/-!
# Groups of a plan

A group is a grouping of the pack as it is planned: its flags for the direction of the run, and its
stages. Tokens in its texts are replaced at the end (`PlanGroup.rendered`). Only the messages of
manual tasks belong to a component, so host tokens stand for hosts there and nowhere else.
-/

namespace ClusterUpgrade

/-- A planned grouping. -/
structure PlanGroup where
  name : String
  title : String
  kind : GroupingKind
  allowRetry : Bool
  /-- Whether a failed stage may be skipped. -/
  skippable : Bool
  supportsAutoSkip : Bool
  performServiceCheck : Bool
  stages : List Stage
  deriving DecidableEq

namespace PlanGroup

def document (g : PlanGroup) : Document :=
  .record [("name", .text g.name), ("title", .text g.title), ("groupKind", .text g.kind.word),
    ("allowRetry", .boolean g.allowRetry), ("skippable", .boolean g.skippable),
    ("supportsAutoSkipOnFailure", .boolean g.supportsAutoSkip),
    ("performServiceCheck", .boolean g.performServiceCheck),
    ("items", .list (g.stages.map Stage.document))]

/-- A group as logs show it. -/
def described (g : PlanGroup) : String :=
  let flag (b : Bool) := if b then "true" else "false"
  "UpgradeGroupHolder\x7bname=" ++ g.name ++ ", title=" ++ g.title ++ ", allowRetry=" ++
    flag g.allowRetry ++ ", skippable=" ++ flag g.skippable ++ "\x7d"

/-- Whether a grouping has its services checked: a run that is not rolling leaves the checks to the
service check groups. -/
def checksServices (run : UpgradeRun) (g : Grouping) : Bool :=
  if run.orchestration = .nonRolling ∧ g.kind ≠ .serviceCheck then false
  else g.performServiceCheck

/-- The group of a grouping. Every stage of a downgrade may be skipped. -/
def ofGrouping (run : UpgradeRun) (g : Grouping) (stages : List Stage) : PlanGroup where
  name := g.name
  title := g.title
  kind := g.kind
  allowRetry := g.allowRetry
  skippable := run.direction.isDowngrade || g.skippable
  supportsAutoSkip := g.supportsAutoSkip
  performServiceCheck := checksServices run g
  stages := stages

/-! ## Rendering -/

section Rendering

variable (run : UpgradeRun) (site : Site)

/-- A task with its tokens replaced. -/
def renderedTask (scope : Plan.TextScope) (t : Task) : Task where
  summary := t.summary.map (Plan.replaceTokens run site none)
  action := match t.action with
    | .manual messages => .manual (messages.map (Plan.replaceTokens run site (some scope)))
    | action => action

/-- An assignment with its tokens replaced. -/
def renderedAssignment (a : Assignment) : Assignment :=
  { a with tasks := a.tasks.map (renderedTask run site ⟨a.service, a.component⟩) }

/-- A stage with its tokens replaced. -/
def renderedStage (s : Stage) : Stage :=
  { s with
    text := s.text.map (Plan.replaceTokens run site none)
    assignments := s.assignments.map (renderedAssignment run site) }

/-- A group with its tokens replaced. -/
def rendered (g : PlanGroup) : PlanGroup :=
  { g with
    title := Plan.replaceTokens run site none g.title
    stages := g.stages.map (renderedStage run site) }

end Rendering

end PlanGroup

end ClusterUpgrade
