import ClusterUpgrade.Plan.Basic
import ClusterUpgrade.Proofs.Topology
import Mathlib.Data.List.Forall2
import Mathlib.Logic.ExistsUnique

/-!
# The walk through a pack

A grouping is walked service by service and component by component. What a place on the walk comes
to is said once, by `Accounted`: it is skipped for the first check that it does not pass, or it
hands work over to the stages of the group. `visitGrouping_eq` makes a grouping the sum of its
places, and `accounts_for_every_place` says of a whole plan that every place of every grouping turns
up in it exactly once. There is a plan unless planning breaks off at a grouping
(`attempt_eq_ok_iff`). The processing of a pack is looked up by names that every record may have
something under: `FindsOwn` says that nothing but processing is found.
-/

namespace ClusterUpgrade.Plan

section Walk

variable (run : UpgradeRun) (site : Site) (pack : Pack)

/-! ## Places -/

/-- A grouping that is walked: it is in scope, and its condition holds. -/
def Applies (g : Grouping) : Prop :=
  run.scope.admits g.scope ∧ ∀ c ∈ g.condition, c.holds site.store

instance (g : Grouping) : Decidable (Applies run site g) :=
  inferInstanceAs (Decidable (_ ∧ _))

/-- A place on the walk through a grouping. -/
inductive Place where
  /-- A service that is not entered. -/
  | service (name : String)
  /-- A component of a service that is entered. -/
  | component (service name : String)
  deriving DecidableEq

/-- A service is entered when it takes part and, in a rolling run, the pack has tasks for it. -/
def Entered (service : String) : Prop :=
  run.supports service ∧ (run.isRolling → pack.processing.knows service)

instance (service : String) : Decidable (Entered run pack service) :=
  inferInstanceAs (Decidable (_ ∧ _))

/-- The places of one service. -/
def placesOf (s : OrderedService) : List Place :=
  if Entered run pack s.serviceName then s.components.map (.component s.serviceName)
  else [.service s.serviceName]

/-- The places of a grouping, in the order of the walk. -/
def walk (g : Grouping) : List Place := (servicesOf run g).flatMap (placesOf run pack)

/-! ## What comes of a place -/

/-- What comes of a place. -/
inductive Outcome where
  | skipped (reason : SkipReason)
  | handed (works : List Work)

/-- The work that a place hands over. -/
def Outcome.works : Outcome → List Work
  | skipped _ => []
  | handed ws => ws

/-- The skip of a place that is skipped. -/
def Outcome.skips (g : Grouping) : Place → Outcome → List Skip
  | .service s, skipped reason => [⟨reason, g.name, s, none⟩]
  | .component s c, skipped reason => [⟨reason, g.name, s, c⟩]
  | _, handed _ => []

/-- A component that has hosts to work on and tasks to do there. -/
structure Ready (g : Grouping) (service component : String) (hosts : HostGroup)
    (p : Processing) : Prop where
  listed : run.isRolling → pack.processing.finds service component
  resolved : site.hosts.resolve? service component = some hosts
  hosted : hosts.hosts ≠ []
  processed : pack.processing.resolve? service component g.kind.function? = some p

/-- Whether a service has clients only. -/
def clientsOnly (service : String) : Bool := (site.store.service? service).any (·.clientOnly)

/-- The work of a component on all hosts that are resolved for it. -/
def workOn (service : String) (hosts : List String) (p : Processing) : Work :=
  { service, component := p.name, hosts, clientOnly := clientsOnly site service
    tasks := p.tasks, params := Record.empty }

/-- The work that a component hands over once it has hosts and tasks. -/
inductive HandsOver (service component : String) (hosts : HostGroup) (p : Processing) :
    List Work → Prop where
  /-- A rolling run takes the standby NameNode before the active one. -/
  | standbyFirst {active standby : String} (namenode : isNameNode service component)
      (rolling : run.orchestration = .rolling) (hactive : hosts.master = some active)
      (hstandby : hosts.secondary = some standby) :
      HandsOver service component hosts p
        [workOn site service (if standby = active then [standby] else [standby, active]) p]
  /-- With high availability each NameNode is told its role. -/
  | inRoles {active standby : String} (namenode : isNameNode service component)
      (still : run.orchestration = .nonRolling) (available : site.hosts.namenodeHA)
      (hactive : hosts.master = some active) (hstandby : hosts.secondary = some standby) :
      HandsOver service component hosts p
        [{ workOn site service [active] p with params := .ofList [(roleParameter, "active")] },
          { workOn site service [standby] p with params := .ofList [(roleParameter, "standby")] }]
  | whole (alone : ¬ isNameNode service component ∨ run.orchestration = .hostOrdered ∨
      run.orchestration = .nonRolling ∧
        ¬ (site.hosts.namenodeHA ∧ hosts.master.isSome ∧ hosts.secondary.isSome)) :
      HandsOver service component hosts p [workOn site service hosts.hosts p]

/-- What a place on the walk through a grouping comes to, by the first check that it does not
pass. -/
inductive Accounted (g : Grouping) : Place → Outcome → Prop where
  | serviceNotSupported {s : String} (unsupported : run.supports s = false) :
      Accounted g (.service s) (.skipped .serviceNotSupported)
  | noServiceTasks {s : String} (supported : run.supports s) (rolling : run.isRolling)
      (unlisted : pack.processing.knows s = false) :
      Accounted g (.service s) (.skipped .noServiceTasks)
  | noComponentTasks {s c : String} (rolling : run.isRolling)
      (unlisted : pack.processing.finds s c = false) :
      Accounted g (.component s c) (.skipped .noComponentTasks)
  | noHosts {s c : String}
      (listed : run.isRolling → pack.processing.finds s c)
      (unhosted : ∀ hosts, site.hosts.resolve? s c = some hosts → hosts.hosts = []) :
      Accounted g (.component s c) (.skipped .noHosts)
  | noProcessing {s c : String} {hosts : HostGroup}
      (listed : run.isRolling → pack.processing.finds s c)
      (resolved : site.hosts.resolve? s c = some hosts) (hosted : hosts.hosts ≠ [])
      (unprocessed : pack.processing.resolve? s c g.kind.function? = none) :
      Accounted g (.component s c) (.skipped .noProcessing)
  | nameNodeUnresolved {s c : String} {hosts : HostGroup} {p : Processing}
      (ready : Ready run site pack g s c hosts p) (namenode : isNameNode s c)
      (rolling : run.isRolling) (unknown : hosts.master = none ∨ hosts.secondary = none) :
      Accounted g (.component s c) (.skipped .nameNodeUnresolved)
  | handed {s c : String} {hosts : HostGroup} {p : Processing} {ws : List Work}
      (ready : Ready run site pack g s c hosts p) (hands : HandsOver run site s c hosts p ws) :
      Accounted g (.component s c) (.handed ws)

/-- What comes of a grouping: it is left out, or its places are accounted for and what they hand
over is made into stages. -/
inductive GroupAccounted (g : Grouping) : Option PlanGroup → List Skip → Prop where
  | outOfScope (unscoped : run.scope.admits g.scope = false) :
      GroupAccounted g none [⟨.outOfScope, g.name, none, none⟩]
  | conditionNotMet {c : Condition} (inScope : run.scope.admits g.scope) (hc : g.condition = some c)
      (unmet : c.holds site.store = false) :
      GroupAccounted g none [⟨.conditionNotMet, g.name, none, none⟩]
  | empty {outcomes : List Outcome} (applies : Applies run site g)
      (places : List.Forall₂ (Accounted run site pack g) (walk run pack g) outcomes)
      (stageless : Stage.ofWork g.kind run.orchestration (PlanGroup.checksServices run g)
        (outcomes.flatMap Outcome.works) = []) :
      GroupAccounted g none
        ((List.zipWith (Outcome.skips g) (walk run pack g) outcomes).flatten ++
          [⟨.emptyGroup, g.name, none, none⟩])
  | planned {outcomes : List Outcome} {stages : List Stage} (applies : Applies run site g)
      (places : List.Forall₂ (Accounted run site pack g) (walk run pack g) outcomes)
      (staged : Stage.ofWork g.kind run.orchestration (PlanGroup.checksServices run g)
        (outcomes.flatMap Outcome.works) = stages) (filled : stages ≠ []) :
      GroupAccounted g (some ((PlanGroup.ofGrouping run g stages).rendered run site))
        (List.zipWith (Outcome.skips g) (walk run pack g) outcomes).flatten

/-- The visit of a place. -/
def visitPlace (g : Grouping) : Place → Visit
  | .service s =>
    .skip (if run.supports s then .noServiceTasks else .serviceNotSupported) g.name s none
  | .component s c => visitComponent run site pack g s (clientsOnly site s) c

end Walk

/-! ## Visits in sequence -/

namespace Visit

variable {α β : Type}

theorem append_none (v : Visit) : v ++ none = v := by
  simp [append_def, append, none]

theorem append_assoc (u v w : Visit) : u ++ v ++ w = u ++ (v ++ w) := by
  simp [append_def, append]

theorem all_map (f : β → Visit) (h : α → β) (as : List α) : all f (as.map h) = all (f ∘ h) as :=
  List.foldr_map

theorem all_append (f : α → Visit) (as bs : List α) : all f (as ++ bs) = all f as ++ all f bs := by
  induction as with
  | nil => rfl
  | cons a rest ih =>
    change f a ++ all f (rest ++ bs) = f a ++ all f rest ++ all f bs
    rw [ih, append_assoc]

theorem all_flatMap (f : β → Visit) (h : α → List β) (as : List α) :
    all f (as.flatMap h) = all (fun a => all f (h a)) as := by
  induction as with
  | nil => rfl
  | cons a rest ih => rw [List.flatMap_cons, all_append, ih]; rfl

end Visit

variable {run : UpgradeRun} {site : Site} {pack : Pack} {g : Grouping} {place : Place}
  {o : Outcome} {s c : String} {hosts : HostGroup} {p : Processing} {ws : List Work}

theorem not_entered_iff {service : String} : ¬ Entered run pack service ↔
    run.supports service = false ∨
      run.supports service = true ∧ run.isRolling = true ∧
        pack.processing.knows service = false := by
  unfold Entered
  cases run.supports service <;> simp

/-- A service is the sum of its places. -/
theorem visitService_eq (x : OrderedService) :
    visitService run site pack g x = .all (visitPlace run site pack g) (placesOf run pack x) := by
  unfold visitService placesOf
  by_cases entered : Entered run pack x.serviceName
  · have listed : (run.isRolling && !pack.processing.knows x.serviceName) = false := by
      cases hr : run.isRolling with
      | false => rfl
      | true => simp [entered.2 hr]
    rw [if_pos entered, entered.1, listed, Visit.all_map]
    rfl
  · rw [if_neg entered]
    simp only [Visit.all, List.foldr_cons, List.foldr_nil, Visit.append_none, visitPlace]
    rcases not_entered_iff.1 entered with unsupported | ⟨supported, rolling, unlisted⟩
    · rw [unsupported]
      rfl
    · rw [supported, rolling, unlisted]
      rfl

/-- A grouping is the sum of its places. -/
theorem visitGrouping_eq (g : Grouping) :
    visitGrouping run site pack g = .all (visitPlace run site pack g) (walk run pack g) := by
  unfold visitGrouping walk
  rw [Visit.all_flatMap]
  congr 1
  funext x
  exact visitService_eq x

/-! ## Components -/

/-- A visit comes to an outcome. -/
structure ComesTo (g : Grouping) (place : Place) (v : Visit) (o : Outcome) : Prop where
  work : v.work = o.works
  skips : v.skips = o.skips g place

/-- A visit that neither finds work nor skips anything. -/
structure Quiet (v : Visit) : Prop where
  work : v.work = []
  skips : v.skips = []

theorem ComesTo.after {u v : Visit} (h : ComesTo g place v o) (quiet : Quiet u) :
    ComesTo g place (u ++ v) o where
  work := by rw [Visit.work_append, quiet.work, h.work, List.nil_append]
  skips := by rw [Visit.skips_append, quiet.skips, h.skips, List.nil_append]

/-- Looking names up finds nothing else. -/
theorem visitTitles_finds : (visitTitles site s c).work = [] ∧ (visitTitles site s c).skips = [] ∧
    (visitTitles site s c).unhealthy = [] := by
  unfold visitTitles
  dsimp only
  split
  · exact ⟨rfl, rfl, rfl⟩
  · split <;> exact ⟨rfl, rfl, rfl⟩

theorem quiet_visitTitles : Quiet (visitTitles site s c) :=
  ⟨visitTitles_finds.1, visitTitles_finds.2.1⟩

theorem distinct_pair (x y : String) :
    distinct [x, y] = if x = y then [x] else [x, y] := by
  simp [distinct, addDistinct, eq_comm]

theorem HandsOver.nameNodeWork_eq (h : HandsOver run site s c hosts p ws)
    (namenode : isNameNode s c) :
    nameNodeWork run.orchestration site.hosts.namenodeHA hosts (workOn site s hosts.hosts p) =
      some ws := by
  unfold nameNodeWork
  cases h with
  | standbyFirst _ rolling hactive hstandby =>
    simp only [rolling, hactive, hstandby, distinct_pair]
    rfl
  | inRoles _ still available hactive hstandby =>
    simp only [still, hactive, hstandby, available]
    rfl
  | whole alone =>
    rcases alone with other | ordered | ⟨still, unpaired⟩
    · exact absurd namenode other
    · simp only [ordered]
    · rw [still]
      cases hactive : hosts.master with
      | none => rfl
      | some active =>
        cases hstandby : hosts.secondary with
        | none => rfl
        | some standby =>
          have unavailable : site.hosts.namenodeHA ≠ true :=
            fun available => unpaired ⟨available, by simp [hactive], by simp [hstandby]⟩
          simp only [if_neg unavailable]

theorem HandsOver.eq_whole (h : HandsOver run site s c hosts p ws) (other : ¬ isNameNode s c) :
    ws = [workOn site s hosts.hosts p] := by
  cases h with
  | standbyFirst namenode => exact absurd namenode other
  | inRoles namenode => exact absurd namenode other
  | whole => rfl

theorem orchestration_of_isRolling (rolling : run.isRolling) : run.orchestration = .rolling :=
  of_decide_eq_true rolling

/-- A rolling run that does not know both instances of a NameNode has no work for it. -/
theorem nameNodeWork_eq_none (w : Work) (rolling : run.isRolling)
    (unknown : hosts.master = none ∨ hosts.secondary = none) :
    nameNodeWork run.orchestration site.hosts.namenodeHA hosts w = none := by
  unfold nameNodeWork
  rw [orchestration_of_isRolling rolling]
  rcases unknown with hactive | hstandby
  · simp only [hactive]
  · cases hosts.master <;> simp only [hstandby]

theorem visitPlace_of_listed (listed : run.isRolling → pack.processing.finds s c) :
    visitPlace run site pack g (.component s c) =
      match site.hosts.resolve? s c with
      | none => .skip .noHosts g.name s c
      | some hosts =>
        if hosts.hosts.isEmpty then .skip .noHosts g.name s c
        else visitHosted run site pack g s c hosts (clientsOnly site s) := by
  have passes : (run.isRolling && !pack.processing.finds s c) = false := by
    cases hr : run.isRolling with
    | false => rfl
    | true => simpa using listed hr
  simp only [visitPlace, visitComponent, passes]
  rfl

theorem visitPlace_of_hosted (listed : run.isRolling → pack.processing.finds s c)
    (resolved : site.hosts.resolve? s c = some hosts) (hosted : hosts.hosts ≠ []) :
    visitPlace run site pack g (.component s c) =
      visitHosted run site pack g s c hosts (clientsOnly site s) := by
  rw [visitPlace_of_listed listed, resolved]
  exact if_neg (by simpa using hosted)

theorem Ready.visitPlace_eq (h : Ready run site pack g s c hosts p) :
    visitPlace run site pack g (.component s c) =
      { Visit.none with unhealthy := hosts.unhealthy } ++ (visitTitles site s c ++
        if isNameNode s c then
          match nameNodeWork run.orchestration site.hosts.namenodeHA hosts
            (workOn site s hosts.hosts p) with
          | some ws => { Visit.none with work := ws }
          | none => nameNodeWarning hosts ++ .skip .nameNodeUnresolved g.name s c
        else { Visit.none with work := [workOn site s hosts.hosts p] }) := by
  rw [visitPlace_of_hosted h.listed h.resolved h.hosted, visitHosted, h.processed]
  rfl

/-- A place comes to what it is accounted for. -/
theorem Accounted.comesTo (h : Accounted run site pack g place o) :
    ComesTo g place (visitPlace run site pack g place) o := by
  cases h with
  | serviceNotSupported unsupported =>
    rw [visitPlace, unsupported]
    exact ⟨rfl, rfl⟩
  | noServiceTasks supported rolling unlisted =>
    rw [visitPlace, supported]
    exact ⟨rfl, rfl⟩
  | noComponentTasks rolling unlisted =>
    simp only [visitPlace, visitComponent, rolling, unlisted]
    exact ⟨rfl, rfl⟩
  | noHosts listed unhosted =>
    rw [visitPlace_of_listed listed]
    split
    · exact ⟨rfl, rfl⟩
    · next hosts resolved =>
      rw [unhosted hosts resolved]
      exact ⟨rfl, rfl⟩
  | noProcessing listed resolved hosted unprocessed =>
    rw [visitPlace_of_hosted listed resolved hosted, visitHosted, unprocessed]
    exact ⟨rfl, rfl⟩
  | nameNodeUnresolved ready namenode rolling unknown =>
    rw [ready.visitPlace_eq, if_pos namenode, nameNodeWork_eq_none _ rolling unknown]
    refine .after (.after ?_ quiet_visitTitles) ⟨rfl, rfl⟩
    exact ⟨rfl, rfl⟩
  | handed ready hands =>
    rw [ready.visitPlace_eq]
    refine .after (.after ?_ quiet_visitTitles) ⟨rfl, rfl⟩
    split_ifs with namenode
    · rw [hands.nameNodeWork_eq namenode]
      exact ⟨rfl, rfl⟩
    · rw [hands.eq_whole namenode]
      exact ⟨rfl, rfl⟩

/-- A place comes to one thing only. -/
theorem ComesTo.unique {v : Visit} {o' : Outcome} (h : ComesTo g place v o)
    (h' : ComesTo g place v o') : o = o' := by
  have works : o.works = o'.works := h.work.symm.trans h'.work
  have skips : o.skips g place = o'.skips g place := h.skips.symm.trans h'.skips
  -- No work and no skip would not tell a skipped place from one that hands nothing over; but a
  -- skipped place always has its skip.
  cases o with
  | handed ws =>
    cases o' with
    | handed ws' => exact congrArg Outcome.handed works
    | skipped reason => cases place <;> simp [Outcome.skips] at skips
  | skipped reason =>
    cases o' with
    | handed ws' => cases place <;> simp [Outcome.skips] at skips
    | skipped reason' =>
      cases place <;> simp only [Outcome.skips, List.cons.injEq, Skip.mk.injEq, and_true] at skips
      · exact congrArg Outcome.skipped skips
      · exact congrArg Outcome.skipped skips

/-! ## Every place is accounted for -/

theorem mem_servicesOf {x : OrderedService} : x ∈ servicesOf run g ↔ x ∈ g.services := by
  unfold servicesOf
  split
  · exact List.mem_reverse
  · exact Iff.rfl

theorem mem_walk_iff : place ∈ walk run pack g ↔ ∃ x ∈ g.services,
    (Entered run pack x.serviceName ∧ ∃ c ∈ x.components, place = .component x.serviceName c) ∨
      (¬ Entered run pack x.serviceName ∧ place = .service x.serviceName) := by
  simp only [walk, List.mem_flatMap, mem_servicesOf, placesOf]
  refine exists_congr fun x => and_congr_right fun _ => ?_
  split_ifs with entered
  · simp [entered, eq_comm]
  · simp [entered]

/-- A component hands work over unless it is a NameNode whose instances a rolling run does not
know. -/
theorem exists_handsOver (known : ¬ (isNameNode s c ∧ run.isRolling ∧
    (hosts.master = none ∨ hosts.secondary = none))) :
    ∃ ws, HandsOver run site s c hosts p ws := by
  by_cases namenode : isNameNode s c = true
  · cases ho : run.orchestration with
    | rolling =>
      have both : ¬ (hosts.master = none ∨ hosts.secondary = none) :=
        fun unknown => known ⟨namenode, by simp [UpgradeRun.isRolling, ho], unknown⟩
      obtain ⟨hactive, hstandby⟩ := not_or.1 both
      obtain ⟨active, hactive⟩ := Option.ne_none_iff_exists'.1 hactive
      obtain ⟨standby, hstandby⟩ := Option.ne_none_iff_exists'.1 hstandby
      exact ⟨_, .standbyFirst namenode ho hactive hstandby⟩
    | hostOrdered => exact ⟨_, .whole (Or.inr (Or.inl ho))⟩
    | nonRolling =>
      by_cases paired : site.hosts.namenodeHA = true ∧ hosts.master.isSome ∧ hosts.secondary.isSome
      · obtain ⟨available, hactive, hstandby⟩ := paired
        obtain ⟨active, hactive⟩ := Option.isSome_iff_exists.1 hactive
        obtain ⟨standby, hstandby⟩ := Option.isSome_iff_exists.1 hstandby
        exact ⟨_, .inRoles namenode ho available hactive hstandby⟩
      · exact ⟨_, .whole (Or.inr (Or.inr ⟨ho, paired⟩))⟩
  · exact ⟨_, .whole (Or.inl namenode)⟩

theorem exists_accounted_component : ∃ o, Accounted run site pack g (.component s c) o := by
  -- One check after the other, in the order in which a visit makes them.
  by_cases listed : run.isRolling = true → pack.processing.finds s c = true
  · by_cases unhosted : ∀ hosts, site.hosts.resolve? s c = some hosts → hosts.hosts = []
    · exact ⟨_, .noHosts listed unhosted⟩
    · obtain ⟨hosts, h⟩ := not_forall.1 unhosted
      obtain ⟨resolved, hosted⟩ := Classical.not_imp.1 h
      cases hp : pack.processing.resolve? s c g.kind.function? with
      | none => exact ⟨_, .noProcessing listed resolved hosted hp⟩
      | some p =>
        have ready : Ready run site pack g s c hosts p := ⟨listed, resolved, hosted, hp⟩
        by_cases unresolved : isNameNode s c = true ∧ run.isRolling = true ∧
            (hosts.master = none ∨ hosts.secondary = none)
        · obtain ⟨namenode, rolling, unknown⟩ := unresolved
          exact ⟨_, .nameNodeUnresolved ready namenode rolling unknown⟩
        · have hands : ∃ ws, HandsOver run site s c hosts p ws := exists_handsOver unresolved
          obtain ⟨ws, hands⟩ := hands
          exact ⟨_, .handed ready hands⟩
  · obtain ⟨rolling, unlisted⟩ := Classical.not_imp.1 listed
    exact ⟨_, .noComponentTasks rolling (by simpa using unlisted)⟩

/-- Every place comes to exactly one thing. -/
theorem existsUnique_accounted (mem : place ∈ walk run pack g) :
    ∃! o, Accounted run site pack g place o := by
  have exists_accounted : ∃ o, Accounted run site pack g place o := by
    obtain ⟨x, -, ⟨-, c, -, rfl⟩ | ⟨not_entered, rfl⟩⟩ := mem_walk_iff.1 mem
    · exact exists_accounted_component
    · rcases not_entered_iff.1 not_entered with unsupported | ⟨supported, rolling, unlisted⟩
      · exact ⟨_, .serviceNotSupported unsupported⟩
      · exact ⟨_, .noServiceTasks supported rolling unlisted⟩
  obtain ⟨o, h⟩ := exists_accounted
  exact ⟨o, h, fun o' h' => h'.comesTo.unique h.comesTo⟩

theorem exists_outcomes {places : List Place} (mem : ∀ place ∈ places, place ∈ walk run pack g) :
    ∃ outcomes, List.Forall₂ (Accounted run site pack g) places outcomes := by
  induction places with
  | nil => exact ⟨[], .nil⟩
  | cons place rest ih =>
    have here : ∃! o, Accounted run site pack g place o :=
      existsUnique_accounted (mem place List.mem_cons_self)
    obtain ⟨o, h, -⟩ := here
    obtain ⟨os, hs⟩ := ih fun place' mem' => mem place' (List.mem_cons_of_mem _ mem')
    exact ⟨o :: os, .cons h hs⟩

theorem exists_outcomes_walk (run : UpgradeRun) (site : Site) (pack : Pack) (g : Grouping) :
    ∃ outcomes, List.Forall₂ (Accounted run site pack g) (walk run pack g) outcomes :=
  exists_outcomes fun _ mem => mem

/-- What places hand over, and what is skipped of them, is what they are accounted for. -/
theorem all_visitPlace {places : List Place} {outcomes : List Outcome}
    (h : List.Forall₂ (Accounted run site pack g) places outcomes) :
    (Visit.all (visitPlace run site pack g) places).work = outcomes.flatMap Outcome.works ∧
      (Visit.all (visitPlace run site pack g) places).skips =
        (List.zipWith (Outcome.skips g) places outcomes).flatten := by
  rw [Visit.work_all, Visit.skips_all]
  induction h with
  | nil => exact ⟨rfl, rfl⟩
  | cons accounted _ ih =>
    obtain ⟨work, skips⟩ := accounted.comesTo
    rw [List.flatMap_cons, List.flatMap_cons, List.flatMap_cons, List.zipWith_cons_cons,
      List.flatten_cons, work, skips, ih.1, ih.2]
    exact ⟨rfl, rfl⟩

/-! ## Whole plans -/

/-- A grouping that is walked comes to a group, unless there are no stages for it. -/
theorem groupAccounted_planVisited (applies : Applies run site g) : GroupAccounted run site pack g
    (planVisited run site pack g).group (planVisited run site pack g).visit.skips := by
  obtain ⟨outcomes, places⟩ := exists_outcomes_walk run site pack g
  obtain ⟨work, skips⟩ := all_visitPlace places
  simp only [planVisited, visitGrouping_eq, work]
  split_ifs with stageless
  · simp only [Visit.skips_append, skips]
    rw [List.append_assoc]
    exact .empty applies places (List.isEmpty_iff.1 stageless)
  · rw [skips]
    exact .planned applies places rfl (mt List.isEmpty_iff.2 stageless)

/-- A grouping is walked if it applies to the run; otherwise it comes to a skip, with something
said. -/
theorem planGrouping_cases (run : UpgradeRun) (site : Site) (pack : Pack) (g : Grouping) :
    (Applies run site g ∧ planGrouping run site pack g = planVisited run site pack g) ∨
      (¬ Applies run site g ∧ ∃ said reason,
        GroupAccounted run site pack g none [⟨reason, g.name, none, none⟩] ∧
        planGrouping run site pack g =
          ⟨none, .say .info said Record.empty ++ .skip reason g.name none none⟩) := by
  unfold planGrouping
  split_ifs with unscoped
  · have unscoped : run.scope.admits g.scope = false := by simpa using unscoped
    refine Or.inr ⟨fun applies => ?_, _, _, .outOfScope unscoped, rfl⟩
    simpa [unscoped] using applies.1
  · have inScope : run.scope.admits g.scope = true := by simpa using unscoped
    split
    · next c unmet =>
      obtain ⟨hc, unmet⟩ := Option.filter_eq_some_iff.1 unmet
      have unmet : c.holds site.store = false := by simpa using unmet
      refine Or.inr ⟨fun applies => ?_, _, _, .conditionNotMet inScope hc unmet, rfl⟩
      simpa [unmet] using applies.2 c hc
    · next met =>
      refine Or.inl ⟨⟨inScope, fun c hc => ?_⟩, rfl⟩
      have unfailed : ¬ c.holds site.store = false :=
        fun unmet => by simpa [unmet] using Option.filter_eq_none_iff.1 met c hc
      simpa using unfailed

theorem groupAccounted_planGrouping (g : Grouping) : GroupAccounted run site pack g
    (planGrouping run site pack g).group (planGrouping run site pack g).visit.skips := by
  rcases planGrouping_cases run site pack g with ⟨applies, walked⟩ | ⟨-, _, _, accounted, left⟩
  · rw [walked]
    exact groupAccounted_planVisited applies
  · rw [left]
    exact accounted

/-- The stages of a grouping; there are none when it is left out. -/
def GroupPlan.stages (p : GroupPlan) : List Stage := p.group.elim [] (·.stages)

theorem GroupPlan.stages_eq {p : GroupPlan} {group : PlanGroup} (h : p.group = some group) :
    group.stages = p.stages := by
  rw [GroupPlan.stages, h]
  rfl

/-- A grouping with stages has a group in the plan. -/
theorem GroupPlan.exists_group {p : GroupPlan} (h : p.stages ≠ []) :
    ∃ group, p.group = some group ∧ group.stages = p.stages := by
  cases hg : p.group with
  | none => exact absurd (by rw [GroupPlan.stages, hg]; rfl) h
  | some group => exact ⟨group, rfl, GroupPlan.stages_eq hg⟩

/-- The stages of a grouping that is walked are made of what its places hand over. -/
theorem stages_planGrouping (pack : Pack) (applies : Applies run site g) : ∃ outcomes,
    List.Forall₂ (Accounted run site pack g) (walk run pack g) outcomes ∧
      (planGrouping run site pack g).stages = (Stage.ofWork g.kind run.orchestration
        (PlanGroup.checksServices run g) (outcomes.flatMap Outcome.works)).map
          (PlanGroup.renderedStage run site) := by
  have accounted : GroupAccounted run site pack g _ _ := groupAccounted_planGrouping g
  unfold GroupPlan.stages
  generalize (planGrouping run site pack g).visit.skips = skips at accounted
  generalize (planGrouping run site pack g).group = group at accounted
  cases accounted with
  | outOfScope unscoped => exact absurd applies.1 (by simp [unscoped])
  | conditionNotMet _ hc unmet => exact absurd (applies.2 _ hc) (by simp [unmet])
  | empty _ places stageless => exact ⟨_, places, by rw [stageless]; rfl⟩
  | planned _ places staged => exact ⟨_, places, by rw [staged]; rfl⟩

theorem mem_groups_iff {group : PlanGroup} : group ∈ (Plan.of run site pack).groups ↔
    ∃ g ∈ pack.groupings run.direction, (planGrouping run site pack g).group = some group := by
  change group ∈ (planGroupings run site pack).filterMap (·.group) ↔ _
  rw [planGroupings, List.filterMap_map, List.mem_filterMap]
  rfl

/-- A group of a plan has the kind of a grouping that is walked. -/
theorem applies_of_group {group : PlanGroup}
    (planned : (planGrouping run site pack g).group = some group) :
    Applies run site g ∧ group.kind = g.kind := by
  have accounted : GroupAccounted run site pack g _ _ := groupAccounted_planGrouping g
  rw [planned] at accounted
  generalize (planGrouping run site pack g).visit.skips = skips at accounted
  cases accounted with
  | planned applies => exact ⟨applies, rfl⟩

/-! ## Planning that does not break off -/

theorem breakdown?_eq_none_iff {groupings : List Grouping} :
    breakdown? run site pack groupings = none ↔
      ∀ g ∈ groupings, faultOf? run site pack g = none := by
  induction groupings with
  | nil => exact iff_of_true rfl (List.forall_mem_nil _)
  | cons g rest ih =>
    rw [breakdown?, List.forall_mem_cons, ← ih]
    cases faultOf? run site pack g with
    | some fault => simp
    | none => simp

/-- Planning gives the plan of a run exactly when it breaks off at no grouping. -/
theorem attempt_eq_ok_iff {plan : Plan} : attempt run site pack = .ok plan ↔
    (∀ g ∈ pack.groupings run.direction, faultOf? run site pack g = none) ∧
      plan = .of run site pack := by
  rw [← breakdown?_eq_none_iff, attempt]
  cases breakdown? run site pack (pack.groupings run.direction) with
  | some b => simp
  | none => simp [eq_comm]

/-- Planning finds processing and texts where it looks for them: nothing that every record has is
found for a service or a component that is ordered, and no condition of a grouping in scope looks
for a text in what is no text. -/
structure FindsOwn (run : UpgradeRun) (site : Site) (pack : Pack) : Prop where
  processing : ∀ g ∈ pack.groupings run.direction, ∀ s ∈ g.services,
    pack.processing.FindsOwn s.serviceName s.components
  texts : ∀ g ∈ pack.groupings run.direction, run.scope.admits g.scope →
    ∀ c ∈ g.condition, c.breaks site.store = false

theorem anyOrdered_eq_false {p : String → String → Bool}
    (h : ∀ s ∈ g.services, ∀ c ∈ s.components, p s.serviceName c = false) :
    anyOrdered run g p = false := by
  simp only [anyOrdered, List.any_eq_false, Bool.and_eq_true, not_and, Bool.not_eq_true]
  exact fun s hs _ c hc => h s hs c hc

theorem FindsOwn.faultOf?_eq_none (own : FindsOwn run site pack)
    (mem : g ∈ pack.groupings run.direction) : faultOf? run site pack g = none := by
  have absent : ∀ s ∈ g.services, ∀ c ∈ s.components,
      pack.processing.inherited s.serviceName c = .absent :=
    fun s hs => (own.processing g mem s hs).ofComponents
  have guarded : anyOrdered run g (meetsGuarded run site pack g) = false :=
    anyOrdered_eq_false fun s hs c hc => by simp [meetsGuarded, absent s hs c hc]
  have hands : anyOrdered run g (handsInherited site pack g) = false :=
    anyOrdered_eq_false fun s hs c hc => by simp [handsInherited, absent s hs c hc]
  unfold faultOf?
  rw [guarded, hands]
  split_ifs with unscoped broken _ impossible
  · rfl
  · obtain ⟨c, hc, broken⟩ := (Option.any_eq_true _ _).1 broken
    rw [own.texts g mem (by simpa using unscoped) c hc] at broken
    cases broken
  · rfl
  · cases impossible
  · rfl

/-- **Every place of a plan is accounted for.** The groups and the skips of a plan are what its
groupings come to, one after the other: a grouping that is walked has each of its places skipped for
the first check that it does not pass or handed over to its stages, in the order of the walk. And a
place comes to one thing only. Where planning finds nothing but processing and texts, what is found
for a service or a component is what the pack lists, and there is a plan. -/
theorem accounts_for_every_place (own : FindsOwn run site pack) :
    ∃ plan, attempt run site pack = .ok plan ∧
      (∃ accounts : List (Option PlanGroup × List Skip),
        List.Forall₂ (fun g a => GroupAccounted run site pack g a.1 a.2)
          (pack.groupings run.direction) accounts ∧
        plan.groups = accounts.filterMap (·.1) ∧
        plan.findings.skips = accounts.flatMap (·.2)) ∧
      ∀ g, ∀ place ∈ walk run pack g, ∃! o, Accounted run site pack g place o := by
  refine ⟨.of run site pack, attempt_eq_ok_iff.2 ⟨fun g => own.faultOf?_eq_none, rfl⟩,
    ⟨(planGroupings run site pack).map fun p => (p.group, p.visit.skips), ?_, ?_, ?_⟩,
    fun g place => existsUnique_accounted⟩
  · rw [planGroupings, List.map_map, List.forall₂_map_right_iff, List.forall₂_same]
    intro g _
    exact groupAccounted_planGrouping g
  · rw [List.filterMap_map]
    rfl
  · rw [List.flatMap_map]
    exact Visit.skips_all _ _

/-- A pack that orders one component, and lists no processing. -/
def orderOnly (service component : String) : Pack where
  name := "rolling"
  orchestration := .rolling
  targetStack := "HDP-2.3"
  upgrade := [{
    name := "SERVERS"
    title := "Servers"
    scope := .any
    condition := none
    skippable := false
    allowRetry := true
    supportsAutoSkip := true
    performServiceCheck := false
    services := [⟨service, [component]⟩]
    kind := .standard }]
  downgrade := none
  processing := .empty

/-- A service without processing is skipped as a whole. -/
theorem accounts_for_every_place_orderOnly : ∃ run plan,
    Topology.sharedSite.run ⟨.upgrade, .rolling, none, "2.3.0.0", none⟩ = .ok run ∧
    FindsOwn run Topology.sharedSite.site (orderOnly "HDFS" "DATANODE") ∧
    attempt run Topology.sharedSite.site (orderOnly "HDFS" "DATANODE") = .ok plan ∧
    plan.findings.skips = [⟨.noServiceTasks, "SERVERS", some "HDFS", none⟩,
      ⟨.emptyGroup, "SERVERS", none, none⟩] := by
  have own (run : UpgradeRun) (up : run.direction = .upgrade) :
      FindsOwn run Topology.sharedSite.site (orderOnly "HDFS" "DATANODE") := by
    refine ⟨?_, ?_⟩ <;> rw [up]
    · refine List.forall_mem_singleton.2 (List.forall_mem_singleton.2 ?_)
      exact ProcessingMap.findsOwn_of_not_isInherited (by decide) (by decide)
    · exact List.forall_mem_singleton.2 nofun
  have planned (run : UpgradeRun) (up : run.direction = .upgrade) :
      attempt run Topology.sharedSite.site (orderOnly "HDFS" "DATANODE") =
        .ok (.of run Topology.sharedSite.site (orderOnly "HDFS" "DATANODE")) := by
    obtain ⟨plan, planned, -⟩ := accounts_for_every_place (own run up)
    exact (attempt_eq_ok_iff.1 planned).2 ▸ planned
  refine ⟨_, _, rfl, own _ ?_, planned _ ?_, ?_⟩
  · rfl
  · rfl
  · decide +kernel

/-- A service without processing that is named like a function is entered, and its component is
skipped instead. -/
theorem accounts_for_every_place_makerSite : ∃ run plan,
    Topology.makerSite.run ⟨.upgrade, .rolling, none, "2.3.0.0", none⟩ = .ok run ∧
    run.isRolling ∧ run.supports "constructor" ∧
    (orderOnly "constructor" "SERVER").processing.has "constructor" = false ∧
    attempt run Topology.makerSite.site (orderOnly "constructor" "SERVER") = .ok plan ∧
    plan.findings.skips = [⟨.noComponentTasks, "SERVERS", some "constructor", some "SERVER"⟩,
      ⟨.emptyGroup, "SERVERS", none, none⟩] := by
  refine ⟨_, _, rfl, rfl, rfl, rfl, attempt_eq_ok_iff.2 ⟨?_, rfl⟩, ?_⟩
  · exact List.forall_mem_singleton.2 (by decide +kernel)
  · decide +kernel

end ClusterUpgrade.Plan
