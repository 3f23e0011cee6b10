import ClusterUpgrade.Plan.Token
import ClusterUpgrade.Store.Read
import ClusterUpgrade.Topology.Basic

/-!
# Placeholders

Display texts of a plan may hold tokens that stand for facts of the run: its hosts, version and
direction, or a property of the current configuration. Tokens are replaced one after the other, in
the order of their first occurrence; a token that stands for nothing stays in the text.
-/

namespace ClusterUpgrade.Plan

/-- What a token stands for, apart from a property of the configuration. -/
inductive Placeholder where
  | allHosts
  | masterHost
  | version
  | direction (form : Direction.Form) (proper : Bool)
  deriving DecidableEq

def formWord : Direction.Form → String
  | .plain => "direction.text"
  | .past => "direction.past"
  | .plural => "direction.plural"
  | .verb => "direction.verb"

instance : Named Placeholder where
  all := [.allHosts, .masterHost, .version, .direction .plain false, .direction .plain true,
    .direction .past false, .direction .past true, .direction .plural false,
    .direction .plural true, .direction .verb false, .direction .verb true]
  name
    | .allHosts => "hosts.all"
    | .masterHost => "hosts.master"
    | .version => "version"
    | .direction form proper => formWord form ++ if proper then ".proper" else ""

/-- A name between braces. -/
def braced (name : String) : String := "\x7b\x7b" ++ name ++ "\x7d\x7d"

def Placeholder.ofToken? (token : String) : Option Placeholder :=
  (Named.all : List Placeholder).find? fun p => braced (Named.name p) = token

/-- The service and the component that a text belongs to. -/
structure TextScope where
  service : String
  component : String

/-- The hosts that a text is about; only a text of a component is about some. -/
def scopedHosts? (site : Site) (scope : Option TextScope) : Option HostGroup :=
  scope.bind fun s => site.hosts.resolve? s.service s.component

/-- What a token stands for. -/
def tokenValue? (run : UpgradeRun) (site : Site) (scope : Option TextScope) (token : String) :
    Option String :=
  match Placeholder.ofToken? token with
  | some .allHosts => (scopedHosts? site scope).map fun g => Text.joined ", " g.hosts
  | some .masterHost => (scopedHosts? site scope).bind (·.master)
  | some .version => some run.repository.version
  | some (.direction form proper) => some (run.direction.said form proper)
  | none => site.store.placeholder? token

/-- A text with a token replaced wherever it occurs. -/
def replaceToken (value? : String → Option String) (text : List Char) (token : String) :
    List Char :=
  match value? token with
  | some v => Text.replaceAll token.toList v.toList text
  | none => text

/-- A text with every token of it replaced by what it stands for. -/
def replaceTokens (run : UpgradeRun) (site : Site) (scope : Option TextScope) (text : String) :
    String :=
  String.ofList ((tokens text).foldl (replaceToken (tokenValue? run site scope)) text.toList)

end ClusterUpgrade.Plan
