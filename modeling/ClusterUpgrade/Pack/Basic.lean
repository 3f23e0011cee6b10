import ClusterUpgrade.Direction
import ClusterUpgrade.Orchestration
import ClusterUpgrade.Task

/-!
# Upgrade packs

A pack declares one upgrade path: the ordered groupings of each direction and the explicit tasks of
components. A grouping is one phase. It names services and their components in order, may apply to
one scope only or depend on a condition, and is of one of three kinds:

1. `standard`: the explicit tasks of each component;
2. `function`: one implied action on every component;
3. `serviceCheck`: checks of the services.
-/

namespace ClusterUpgrade

/-! ## Conditions -/

/-- How a condition compares a property. -/
inductive Comparison where
  | equals
  | notEquals
  | contains
  | notContains
  | present
  | notPresent
  deriving DecidableEq, Inhabited

instance : Named Comparison where
  all := [.equals, .notEquals, .contains, .notContains, .present, .notPresent]
  name
    | .equals => "equals"
    | .notEquals => "not-equals"
    | .contains => "contains"
    | .notContains => "not-contains"
    | .present => "exists"
    | .notPresent => "not-exists"

/-- What a grouping may depend on. -/
inductive Condition where
  /-- The cluster runs in a security mode. -/
  | security (mode : SecurityType)
  /-- A property of a current configuration compares as stated. -/
  | config (configType property : String) (comparison : Comparison) (value : Option String)
  deriving DecidableEq

namespace Condition

/-- Whether a property of the cluster compares as stated. A value that the condition does not state
counts as empty. -/
def compares (comparison : Comparison) (expected : String) (actual : Option String) : Bool :=
  match comparison with
  | .present => actual.isSome
  | .notPresent => actual.isNone
  | .equals => actual == some expected
  | .notEquals => actual != some expected
  | .contains => actual.any fun a => Text.occursIn expected.toList a.toList
  | .notContains => actual.all fun a => !Text.occursIn expected.toList a.toList

/-- A condition as logs show it. -/
def described : Condition → String
  | security mode => "security=" ++ Named.name mode
  | config configType property comparison value =>
    configType ++ "/" ++ property ++ " " ++ Named.name comparison ++
      (value.elim "" fun v => " '" ++ v ++ "'")

def document : Condition → Document
  | security mode => .record [("type", .text "security"), ("securityType", .text (Named.name mode))]
  | config configType property comparison value =>
    .ofOptional [("type", some (.text "config")), ("configType", some (.text configType)),
      ("property", some (.text property)), ("comparison", some (.text (Named.name comparison))),
      ("value", value.map .text)]

end Condition

/-! ## Groupings -/

/-- A service and those of its components that a grouping touches, in order. -/
structure OrderedService where
  serviceName : String
  components : List String
  deriving DecidableEq

def OrderedService.document (s : OrderedService) : Document :=
  .record [("serviceName", .text s.serviceName), ("components", .texts s.components)]

/-- What a grouping does with its components. -/
inductive GroupingKind where
  | standard
  | function (action : FunctionName)
  | serviceCheck
  deriving DecidableEq, Inhabited

def GroupingKind.word : GroupingKind → String
  | standard => "default"
  | function _ => "function"
  | serviceCheck => "service-check"

/-- The action that a kind of grouping implies. -/
def GroupingKind.function? : GroupingKind → Option FunctionName
  | function f => some f
  | _ => none

/-- One phase of a pack. -/
structure Grouping where
  name : String
  title : String
  scope : Scope
  condition : Option Condition
  /-- Whether a failed stage may be skipped. -/
  skippable : Bool
  allowRetry : Bool
  supportsAutoSkip : Bool
  performServiceCheck : Bool
  services : List OrderedService
  kind : GroupingKind
  deriving DecidableEq

def Grouping.document (g : Grouping) : Document :=
  .ofOptional [("name", some (.text g.name)), ("title", some (.text g.title)),
    ("scope", some (.text (Named.name g.scope))), ("condition", g.condition.map (·.document)),
    ("skippable", some (.boolean g.skippable)), ("allowRetry", some (.boolean g.allowRetry)),
    ("supportsAutoSkipOnFailure", some (.boolean g.supportsAutoSkip)),
    ("performServiceCheck", some (.boolean g.performServiceCheck)),
    ("services", some (.list (g.services.map (·.document)))),
    ("kind", some (.text g.kind.word)),
    ("function", g.kind.function?.map fun f => .text (Named.name f))]

/-! ## Packs -/

/-- The declaration of one upgrade path. -/
structure Pack where
  name : String
  orchestration : Orchestration
  /-- The stack that the pack upgrades to, in its written form. -/
  targetStack : String
  upgrade : List Grouping
  /-- The groupings of a downgrade, when they are not those of the upgrade. -/
  downgrade : Option (List Grouping)
  processing : ProcessingMap
  deriving DecidableEq

namespace Pack

/-- The groupings of a direction, in declared order. -/
def groupings (p : Pack) : Direction → List Grouping
  | .upgrade => p.upgrade
  | .downgrade => p.downgrade.getD p.upgrade

def document (p : Pack) : Document :=
  let groupList (gs : List Grouping) : Document := .list (gs.map Grouping.document)
  .record [("name", .text p.name), ("type", .text (Named.name p.orchestration)),
    ("targetStack", .text p.targetStack),
    ("groups", .ofOptional [("upgrade", some (groupList p.upgrade)),
      ("downgrade", p.downgrade.map groupList)]),
    ("processing", .ofRecord (.ofRecord Processing.document) p.processing)]

end Pack

end ClusterUpgrade
