import ClusterUpgrade.Proofs.Plan.Targets

/-!
# Rolling restarts

In a rolling run a standard group restarts one host at a time: a stage of kind restart has one
assignment on one host (`single_of_restart`), and no other stage restarts anything. A NameNode is
restarted on its standby first and then, in the very next stage, on its active instance
(`NameNodeTurn.exists_group`).
-/

namespace ClusterUpgrade

/-- A stage has a restart to do on a host. -/
def Stage.RestartsOn (stage : Stage) (host : String) : Prop :=
  ∃ a ∈ stage.assignments, host ∈ a.hosts ∧ ∃ t ∈ a.tasks, t.kind = .restart

namespace Plan

open Stage

section Turn

variable (run : UpgradeRun) (site : Site) (pack : Pack)

/-- The turn of a NameNode on the walk through a standard grouping: both of its instances are known,
they run on different hosts, and the service has daemons. -/
structure NameNodeTurn (g : Grouping) (before : List Place) (service component : String)
    (after : List Place) (hosts : HostGroup) (p : Processing) (active standby : String) :
    Prop where
  listed : g ∈ pack.groupings run.direction
  kind : g.kind = .standard
  applies : Applies run site g
  walked : walk run pack g = before ++ .component service component :: after
  namenode : isNameNode service component
  ready : Ready run site pack g service component hosts p
  daemons : clientsOnly site service = false
  hactive : hosts.master = some active
  hstandby : hosts.secondary = some standby
  apart : active ≠ standby

/-- The stages of a restart on the two hosts of a NameNode. -/
def turnStages (service : String) (p : Processing) (t : Task) (active standby : String) :
    List Stage :=
  let w := workOn site service [standby, active] p
  [ofTask w t [standby], ofTask w t [active]].map (PlanGroup.renderedStage run site)

/-- The stages of a grouping with a restart of its NameNode, the two hosts one after the other. What
comes first is made of the places and the tasks before, and what comes last of those that follow. -/
def TakenInTurn (g : Grouping) (before : List Place) (service : String) (after : List Place)
    (p : Processing) (active standby : String) (earlier : List Task) (t : Task)
    (later : List Task) (stages : List Stage) : Prop :=
  ∃ outcomes outcomes', List.Forall₂ (Accounted run site pack g) before outcomes ∧
    List.Forall₂ (Accounted run site pack g) after outcomes' ∧
    let w := workOn site service [standby, active] p
    let works := outcomes.flatMap Outcome.works
    let works' := outcomes'.flatMap Outcome.works
    stages =
      (Stage.standard .rolling works ++ earlier.flatMap (ofTaskRolling .rolling w)).map
        (PlanGroup.renderedStage run site) ++
      turnStages run site service p t active standby ++
      (later.flatMap (ofTaskRolling .rolling w) ++ Stage.standard .rolling works' ++
        addedChecks (PlanGroup.checksServices run g) (works ++ w :: works')).map
        (PlanGroup.renderedStage run site)

end Turn

variable {run : UpgradeRun} {site : Site} {pack : Pack} {g : Grouping} {group : PlanGroup}
  {before after : List Place} {s c active standby : String} {hosts : HostGroup} {p : Processing}
  {stage : Stage}

/-! ## One host at a time -/

theorem kind_renderedTask (scope : TextScope) (t : Task) :
    (PlanGroup.renderedTask run site scope t).kind = t.kind := by
  obtain ⟨action, summary⟩ := t
  cases action <;> rfl

theorem exists_grouping_of_mem (mem : group ∈ (Plan.of run site pack).groups) :
    ∃ g, Applies run site g ∧ group.kind = g.kind ∧
      group.stages = (planGrouping run site pack g).stages := by
  obtain ⟨g, -, planned⟩ := mem_groups_iff.1 mem
  obtain ⟨applies, kind⟩ := applies_of_group planned
  exact ⟨g, applies, kind, GroupPlan.stages_eq planned⟩

/-- A stage of a standard group is made for one task or is a check. In a rolling run it has a single
host if the task is a restart. -/
theorem stage_of_group (mem : group ∈ (Plan.of run site pack).groups)
    (standard : group.kind = .standard) (rolling : run.isRolling) (h : stage ∈ group.stages) :
    (∃ w t hosts, stage = PlanGroup.renderedStage run site (ofTask w t hosts) ∧
      (t.kind = .restart → ∃ host, hosts = [host])) ∨
    ∃ w, stage = PlanGroup.renderedStage run site (ofCheck w) := by
  obtain ⟨g, applies, kind, stages⟩ := exists_grouping_of_mem mem
  obtain ⟨outcomes, -, staged⟩ := stages_planGrouping pack applies
  rw [stages, staged, ← kind, standard, ofWork_standard] at h
  obtain ⟨made, inGroup, rfl⟩ := List.mem_map.1 h
  rcases List.mem_append.1 inGroup with task | check
  · obtain ⟨w, -, t, -, hosts, rfl, single⟩ := of_mem_standard task
    exact Or.inl ⟨w, t, hosts, rfl,
      fun restarts => single restarts (orchestration_of_isRolling rolling)⟩
  · unfold addedChecks at check
    split_ifs at check
    · obtain ⟨w, -, rfl⟩ := List.mem_map.1 check
      exact Or.inr ⟨w, rfl⟩
    · cases check

/-- A stage of kind restart has one assignment, on one host. -/
theorem single_of_restart (mem : group ∈ (Plan.of run site pack).groups)
    (standard : group.kind = .standard) (rolling : run.isRolling) (h : stage ∈ group.stages)
    (restarts : stage.kind = .restart) :
    ∃ a host, stage.assignments = [a] ∧ a.hosts = [host] := by
  rcases stage_of_group mem standard rolling h with ⟨w, t, hosts, rfl, single⟩ | ⟨w, rfl⟩
  · obtain ⟨host, rfl⟩ := single restarts
    exact ⟨_, host, rfl, rfl⟩
  · cases restarts

/-- A stage that is made for one task restarts something only if that is a restart. -/
theorem restart_of_restartsOn {w : Work} {t : Task} {on : List String} {host : String}
    (single : stage.assignments = [w.assign on t])
    (h : (PlanGroup.renderedStage run site stage).RestartsOn host) :
    t.kind = .restart ∧ host ∈ on := by
  obtain ⟨a, mem, place, task, ht, restarts⟩ := h
  rw [PlanGroup.renderedStage, single] at mem
  obtain rfl := List.mem_singleton.1 mem
  obtain rfl := List.mem_singleton.1 ht
  rw [kind_renderedTask] at restarts
  exact ⟨restarts, place⟩

/-- No stage restarts two hosts. -/
theorem eq_of_restartsOn (mem : group ∈ (Plan.of run site pack).groups)
    (standard : group.kind = .standard) (rolling : run.isRolling) (h : stage ∈ group.stages)
    {x y : String} (hx : stage.RestartsOn x) (hy : stage.RestartsOn y) : x = y := by
  rcases stage_of_group mem standard rolling h with ⟨w, t, hosts, rfl, single⟩ | ⟨w, rfl⟩
  · obtain ⟨restarts, hx⟩ := restart_of_restartsOn rfl hx
    obtain ⟨-, hy⟩ := restart_of_restartsOn rfl hy
    obtain ⟨host, rfl⟩ := single restarts
    rw [List.mem_singleton.1 hx, List.mem_singleton.1 hy]
  · -- A check restarts nothing.
    obtain ⟨restarts, -⟩ := restart_of_restartsOn rfl hx
    cases restarts

/-! ## The standby first -/

theorem exists_of_forall₂_at {α β : Type} {R : α → β → Prop} {before after : List α} {a : α}
    {l : List β} (h : List.Forall₂ R (before ++ a :: after) l) :
    ∃ front b back, l = front ++ b :: back ∧ List.Forall₂ R before front ∧ R a b ∧
      List.Forall₂ R after back := by
  have flipped : List.Forall₂ (flip R) l (before ++ a :: after) := List.Forall₂.flip h
  have front := (List.forall₂_take_append l before (a :: after) flipped).flip
  have rest := (List.forall₂_drop_append l before (a :: after) flipped).flip
  obtain ⟨b, back, here, back_eq, split⟩ := List.forall₂_cons_left_iff.1 rest
  exact ⟨_, b, back, by rw [← split, List.take_append_drop], front, here, back_eq⟩

/-- In its turn, a NameNode hands over work on its standby and then on its active instance. -/
theorem NameNodeTurn.accounted
    (turn : NameNodeTurn run site pack g before s c after hosts p active standby)
    (rolling : run.isRolling) : Accounted run site pack g (.component s c)
      (.handed [workOn site s [standby, active] p]) := by
  have hands : HandsOver run site s c hosts p _ :=
    .standbyFirst turn.namenode (orchestration_of_isRolling rolling) turn.hactive turn.hstandby
  rw [if_neg (Ne.symm turn.apart)] at hands
  exact .handed turn.ready hands

theorem NameNodeTurn.kept_eq
    (turn : NameNodeTurn run site pack g before s c after hosts p active standby) :
    (workOn site s [standby, active] p).kept = p.tasks := by
  refine List.filter_eq_self.2 fun t _ => ?_
  simp [Work.leavesOut, workOn, turn.daemons]

theorem ofTaskRolling_pair {t : Task} (restarts : t.kind = .restart)
    (service first second : String) (p : Processing) :
    ofTaskRolling .rolling (workOn site service [first, second] p) t =
      [ofTask (workOn site service [first, second] p) t [first],
        ofTask (workOn site service [first, second] p) t [second]] := by
  rw [ofTaskRolling, if_pos ⟨restarts, rfl⟩]
  rfl

/-- The group of a NameNode restarts the standby and, in the very next stage, the active instance.
-/
theorem NameNodeTurn.exists_group
    (turn : NameNodeTurn run site pack g before s c after hosts p active standby)
    (rolling : run.isRolling) {earlier later : List Task} {t : Task}
    (tasks : p.tasks = earlier ++ t :: later) (restarts : t.kind = .restart) :
    ∃ group ∈ (Plan.of run site pack).groups, group.kind = .standard ∧
      TakenInTurn run site pack g before s after p active standby earlier t later
        group.stages := by
  -- The walk is split at the NameNode, and its work at the restart; what is made of the rest stays.
  obtain ⟨all, places, staged⟩ := stages_planGrouping pack turn.applies
  rw [turn.walked] at places
  obtain ⟨outcomes, o, outcomes', rfl, front, here, back⟩ := exists_of_forall₂_at places
  obtain rfl := here.comesTo.unique (turn.accounted rolling).comesTo
  have works : (outcomes ++ .handed [workOn site s [standby, active] p] :: outcomes').flatMap
      Outcome.works = outcomes.flatMap Outcome.works ++
        workOn site s [standby, active] p :: outcomes'.flatMap Outcome.works := by
    rw [List.flatMap_append, List.flatMap_cons]
    rfl
  rw [works, turn.kind, orchestration_of_isRolling rolling, ofWork_standard,
    standard_append_cons, turn.kept_eq, tasks,
    List.flatMap_append, List.flatMap_cons, ofTaskRolling_pair restarts] at staged
  obtain ⟨group, planned, stages⟩ : ∃ group, (planGrouping run site pack g).group = some group ∧
      group.stages = (planGrouping run site pack g).stages := by
    refine GroupPlan.exists_group ?_
    rw [staged]
    simp
  refine ⟨group, mem_groups_iff.2 ⟨g, turn.listed, planned⟩,
    (applies_of_group planned).2.trans turn.kind, outcomes, outcomes', front, back, ?_⟩
  rw [stages, staged]
  simp only [List.map_append, List.append_assoc]
  rfl

/-- **Rolling restarts.** In a standard group of a rolling plan a stage of kind restart has a single
assignment on a single host, and no stage restarts two hosts. A restart of a NameNode whose two
instances run on different hosts takes two stages, one right after the other: the first is on the
standby and the second on the active instance. -/
theorem rolling_restarts_in_turn (run : UpgradeRun) (site : Site) (pack : Pack)
    (rolling : run.isRolling) :
    (∀ group ∈ (Plan.of run site pack).groups, group.kind = .standard →
      ∀ stage ∈ group.stages,
        (stage.kind = .restart → ∃ a host, stage.assignments = [a] ∧ a.hosts = [host]) ∧
        ∀ x y, stage.RestartsOn x → stage.RestartsOn y → x = y) ∧
    ∀ g before service component after hosts p active standby,
      NameNodeTurn run site pack g before service component after hosts p active standby →
      ∀ earlier t later, p.tasks = earlier ++ t :: later → t.kind = .restart →
        ∃ group ∈ (Plan.of run site pack).groups, group.kind = .standard ∧
          TakenInTurn run site pack g before service after p active standby earlier t later
            group.stages := by
  constructor
  · intro group mem standard stage h
    exact ⟨single_of_restart mem standard rolling h,
      fun x y => eq_of_restartsOn mem standard rolling h⟩
  · intro g before s c after hosts p active standby turn earlier t later tasks restarts
    exact turn.exists_group rolling tasks restarts

/-- The pair of NameNodes has its turn. -/
theorem nameNodePair_turn : ∃ g hosts,
    NameNodeTurn pairRun (nameNodePair []).site restartNameNode g [] "HDFS" "NAMENODE" [] hosts
      ⟨"NAMENODE", [⟨.restart, none⟩]⟩ "h1" "h2" := by
  refine ⟨_, _, List.mem_singleton_self _, rfl, by decide +kernel, by decide +kernel,
    by decide +kernel, ⟨by decide +kernel, rfl, by decide, rfl⟩, by decide +kernel, rfl, rfl,
    by decide⟩

theorem rolling_restarts_pair : ∃ g, ∃ group ∈ (Plan.of pairRun (nameNodePair []).site
      restartNameNode).groups, group.kind = .standard ∧
    TakenInTurn pairRun (nameNodePair []).site restartNameNode g [] "HDFS" []
      ⟨"NAMENODE", [⟨.restart, none⟩]⟩ "h1" "h2" [] ⟨.restart, none⟩ [] group.stages := by
  obtain ⟨g, hosts, turn⟩ := nameNodePair_turn
  exact ⟨g, (rolling_restarts_in_turn pairRun (nameNodePair []).site restartNameNode
    (by decide)).2 g [] "HDFS" "NAMENODE" [] hosts _ "h1" "h2" turn [] _ [] rfl rfl⟩

end Plan

end ClusterUpgrade
