import ClusterUpgrade.Command.Plan
import ClusterUpgrade.Proofs.Record
import ClusterUpgrade.Proofs.Topology

/-!
# The pack and the run of a plan

A plan asks for its pack and for its run in two requests, and each of them looks the deciding
version up for itself. Both find the same one: it is looked up by the same name in the same list
(`repository_of_run`, `exists_error_of_run`). Without a preferred pack it is the packs that fit the
version that decide, by their names and not by their order (`decidedByFit`, `select_of_perm`). What
every record has under a preferred name is taken for a pack (`select_of_inherited`).
-/

namespace ClusterUpgrade

namespace PackRequest

/-! ## Packs that fit -/

/-- A pack, by its name among the packs of a request, that leads to the stack of a version with the
orchestration of the request. -/
structure Fitting (r : PackRequest) (v : RepositoryVersion) (name : String) (p : Pack) : Prop where
  listed : r.packs.get? name = some p
  orchestration : p.orchestration = r.orchestration
  targetStack : p.targetStack = v.stackId.text

/-- Nothing is found under the preferred name: no pack has it, and not every record has something
under it. -/
def Unpreferred (r : PackRequest) : Prop :=
  ∀ name ∈ r.preferred, r.packs.get? name = none ∧ Reserved.isInherited name = false

/-- The answer to a request is decided by the packs that fit a version: by the only one there is, or
by there being none or several. -/
structure DecidedByFit (r : PackRequest) (v : RepositoryVersion) : Prop where
  one (chosen : ChosenPack) (w : RepositoryVersion) : r.select = .ok (chosen, w) ↔
    w = v ∧ ∃ name p, chosen = .listed p ∧ r.Fitting v name p ∧
      ∀ name' p', r.Fitting v name' p' → name' = name
  none : (∃ e, r.select = .error e ∧ e.code = "NO_MATCHING_PACK") ↔
    ∀ name p, ¬ r.Fitting v name p
  several : (∃ e, r.select = .error e ∧ e.code = "AMBIGUOUS_PACK") ↔
    ∃ name name' p p', name ≠ name' ∧ r.Fitting v name p ∧ r.Fitting v name' p'

/-- The packs that fit a version, in order. -/
def candidates (r : PackRequest) (v : RepositoryVersion) : List (String × Pack) :=
  r.packs.entries.filter fun e => r.fits v.stackId e.2

variable {r : PackRequest} {v w : RepositoryVersion} {name : String} {p : Pack}
  {chosen : ChosenPack}

theorem mem_candidates_iff : (name, p) ∈ r.candidates v ↔ r.Fitting v name p := by
  rw [candidates, List.mem_filter, ← Record.get?_eq_some_iff, fits, decide_eq_true_iff]
  constructor
  · rintro ⟨listed, stack, orchestration⟩
    exact ⟨listed, orchestration, stack⟩
  · rintro ⟨listed, orchestration, stack⟩
    exact ⟨listed, stack, orchestration⟩

theorem nodup_candidates : ((r.candidates v).map Prod.fst).Nodup :=
  (List.filter_sublist.map Prod.fst).nodup r.packs.nodup

/-! ## The answer -/

theorem select_of_registered (registered : findVersion? r.repositoryVersions r.version = some v) :
    r.select = (r.packFor v).map (·, v) := by
  rw [select, registered]

/-- The version of an answer is the first registered one of its name. -/
theorem registered_of_select (h : r.select = .ok (chosen, v)) :
    findVersion? r.repositoryVersions r.version = some v := by
  cases registered : findVersion? r.repositoryVersions r.version with
  | none =>
    rw [select, registered] at h
    cases h
  | some w =>
    rw [select_of_registered registered] at h
    cases answer : r.packFor w with
    | error e =>
      rw [answer] at h
      cases h
    | ok q =>
      rw [answer] at h
      cases h
      rfl

/-- Where the packs are looked at, the version is registered. -/
theorem unregistered_of_code {e : PlanningError} (h : r.select = .error e)
    (code : e.code = "REPOSITORY_VERSION_NOT_FOUND") :
    findVersion? r.repositoryVersions r.version = none := by
  cases registered : findVersion? r.repositoryVersions r.version with
  | none => rfl
  | some w =>
    rw [select_of_registered registered, packFor] at h
    cases hp : r.preferredPack? with
    | some chosen =>
      rw [hp] at h
      cases h
    | none =>
      rw [hp, fittingPack] at h
      dsimp only at h
      split at h
      · cases h
        simp [PlanningError.code] at code
      · cases h
      · cases h
        simp [PlanningError.code] at code

theorem Unpreferred.packFor_eq (free : r.Unpreferred) :
    r.packFor v = (r.fittingPack v).map .listed := by
  have nothing : r.preferredPack? = none := by
    unfold preferredPack?
    cases h : r.preferred with
    | none => rfl
    | some name =>
      obtain ⟨unlisted, own⟩ := free name h
      simp [unlisted, own]
  rw [packFor, nothing]

theorem filter_values_eq :
    r.packs.values.filter (r.fits v.stackId) = (r.candidates v).map Prod.snd := by
  rw [Record.values, List.filter_map]
  rfl

theorem Unpreferred.packFor_of_nil (free : r.Unpreferred) (h : r.candidates v = []) :
    r.packFor v =
      .error (.noMatchingPack r.direction r.orchestration r.version v.stackId.text) := by
  rw [free.packFor_eq, fittingPack, filter_values_eq, h]
  rfl

theorem Unpreferred.packFor_of_single (free : r.Unpreferred) {e : String × Pack}
    (h : r.candidates v = [e]) : r.packFor v = .ok (.listed e.2) := by
  rw [free.packFor_eq, fittingPack, filter_values_eq, h]
  rfl

theorem Unpreferred.packFor_of_several (free : r.Unpreferred) {e e' : String × Pack}
    {rest : List (String × Pack)} (h : r.candidates v = e :: e' :: rest) :
    r.packFor v = .error (.ambiguousPack r.direction r.orchestration r.version
      (((r.candidates v).map Prod.snd).map (·.name))) := by
  rw [free.packFor_eq, fittingPack, filter_values_eq, h]
  rfl

/-- Without a preferred pack there is no pack for a registered version, the only one that fits it,
or several to choose from. -/
theorem Unpreferred.select_cases (free : r.Unpreferred)
    (registered : findVersion? r.repositoryVersions r.version = some v) :
    ((∃ stack, r.select = .error (.noMatchingPack r.direction r.orchestration r.version stack)) ∧
      ∀ name p, ¬ r.Fitting v name p) ∨
    (∃ name p, r.select = .ok (.listed p, v) ∧ r.Fitting v name p ∧
      ∀ name' p', r.Fitting v name' p' → name' = name ∧ p' = p) ∨
    (∃ packs, r.select = .error (.ambiguousPack r.direction r.orchestration r.version packs)) ∧
      ∃ name name' p p', name ≠ name' ∧ r.Fitting v name p ∧ r.Fitting v name' p' := by
  rw [select_of_registered registered]
  simp only [← mem_candidates_iff]
  cases h : r.candidates v with
  | nil =>
    rw [free.packFor_of_nil h]
    exact Or.inl ⟨⟨_, rfl⟩, fun _ _ => List.not_mem_nil⟩
  | cons e rest =>
    cases rest with
    | nil =>
      rw [free.packFor_of_single h]
      refine Or.inr (Or.inl ⟨e.1, e.2, rfl, List.mem_singleton_self e, fun name p mem => ?_⟩)
      obtain rfl := List.mem_singleton.1 mem
      exact ⟨rfl, rfl⟩
    | cons e' rest =>
      rw [free.packFor_of_several h]
      have distinct : ((e :: e' :: rest).map Prod.fst).Nodup := h ▸ nodup_candidates
      have differ : e.1 ≠ e'.1 := by
        rintro same
        simp [same] at distinct
      exact Or.inr (Or.inr ⟨⟨_, rfl⟩, e.1, e'.1, e.2, e'.2, differ, by simp, by simp⟩)

/-- Without a preferred pack a registered version leaves the choice to the packs that fit it. -/
theorem Unpreferred.decidedByFit (free : r.Unpreferred)
    (registered : findVersion? r.repositoryVersions r.version = some v) : r.DecidedByFit v := by
  have cases := free.select_cases registered
  constructor
  · intro p w
    grind
  · grind [PlanningError.code]
  · grind [PlanningError.code]

theorem select_of_preferred (registered : findVersion? r.repositoryVersions r.version = some v)
    (wanted : r.preferred = some name) (listed : r.packs.get? name = some p) :
    r.select = .ok (.listed p, v) := by
  have found : r.preferredPack? = some (.listed p) := by simp [preferredPack?, wanted, listed]
  rw [select_of_registered registered, packFor, found]
  rfl

/-- A preferred name that no pack has is found all the same if every record has something under
it. -/
theorem select_of_inherited (registered : findVersion? r.repositoryVersions r.version = some v)
    (wanted : r.preferred = some name) (unlisted : r.packs.get? name = none)
    (inherited : Reserved.isInherited name = true) : r.select = .ok (.inherited name, v) := by
  have found : r.preferredPack? = some (.inherited name) := by
    simp [preferredPack?, wanted, unlisted, inherited]
  rw [select_of_registered registered, packFor, found]
  rfl

section Order

variable {packs : Record Pack} (same : packs.entries.Perm r.packs.entries)

include same

theorem get?_of_perm (name : String) : packs.get? name = r.packs.get? name := by
  ext p
  rw [Record.get?_eq_some_iff, Record.get?_eq_some_iff, same.mem_iff]

theorem fitting_of_perm : Fitting { r with packs } v name p ↔ r.Fitting v name p := by
  constructor <;> rintro ⟨listed, orchestration, stack⟩
  · exact ⟨get?_of_perm same name ▸ listed, orchestration, stack⟩
  · exact ⟨(get?_of_perm same name).trans listed, orchestration, stack⟩

/-- The order of the packs makes no difference to the answer, but for the order in which an error
names them. -/
theorem select_of_perm :
    (select { r with packs }).mapError PlanningError.code =
      r.select.mapError PlanningError.code := by
  cases registered : findVersion? r.repositoryVersions r.version with
  | none =>
    have unknown (q : PackRequest) (h : findVersion? q.repositoryVersions q.version = none) :
        q.select = .error (.versionNotFound q.version) := by rw [select, h]
    rw [unknown r registered, unknown { r with packs } registered]
    rfl
  | some v =>
    by_cases free : r.Unpreferred
    · have free' : Unpreferred { r with packs } := fun name wanted =>
        (free name wanted).imp_left (get?_of_perm same name).trans
      have decided : DecidedByFit { r with packs } v := free'.decidedByFit registered
      rcases free.select_cases registered with
        ⟨⟨stack, chosen⟩, unfit⟩ | ⟨name, p, chosen, fit, only⟩ | ⟨⟨names, chosen⟩, several⟩
      · obtain ⟨e, failed, code⟩ := decided.none.2 fun name p fit =>
          unfit name p ((fitting_of_perm same).1 fit)
        rw [failed, chosen]
        exact congrArg Except.error code
      · have taken : select { r with packs } = .ok (.listed p, v) :=
          (decided.one (.listed p) v).2 ⟨rfl, name, p, rfl, (fitting_of_perm same).2 fit,
            fun name' p' fit' => (only name' p' ((fitting_of_perm same).1 fit')).1⟩
        rw [taken, chosen]
      · obtain ⟨name, name', p, p', differ, fit, fit'⟩ := several
        obtain ⟨e, failed, code⟩ := decided.several.2
          ⟨name, name', p, p', differ, (fitting_of_perm same).2 fit, (fitting_of_perm same).2 fit'⟩
        rw [failed, chosen]
        exact congrArg Except.error code
    · obtain ⟨name, preferred⟩ := not_forall.1 free
      obtain ⟨wanted, there⟩ := Classical.not_imp.1 preferred
      cases listed : r.packs.get? name with
      | some p =>
        have taken : select { r with packs } = .ok (.listed p, v) :=
          select_of_preferred registered wanted ((get?_of_perm same name).trans listed)
        rw [taken, select_of_preferred registered wanted listed]
      | none =>
        have inherited : Reserved.isInherited name = true := by simpa [listed] using there
        have taken : select { r with packs } = .ok (.inherited name, v) :=
          select_of_inherited registered wanted ((get?_of_perm same name).trans listed) inherited
        rw [taken, select_of_inherited registered wanted listed inherited]

end Order

end PackRequest

/-! ## The run -/

namespace Topology

variable {t : Topology} {request : RunRequest} {run : UpgradeRun} {e : PlanningError}
  {name : String} {v : RepositoryVersion}

/-- The version that a run is named after: its source on a downgrade, its target on an upgrade. -/
def versionOfRun (t : Topology) (request : RunRequest) : String :=
  if request.direction.isDowngrade then request.source.getD t.currentVersion else request.target

theorem version_eq_ok_iff :
    t.version name = .ok v ↔ findVersion? t.repositoryVersions name = some v := by
  unfold version
  split <;> simp_all

/-- A look-up of versions fails for a version that is not registered, and for nothing else. -/
theorem code_of_version (h : t.version name = .error e) :
    e.code = "REPOSITORY_VERSION_NOT_FOUND" := by
  unfold version at h
  split at h
  · cases h
  · obtain rfl := Except.error.inj h
    rfl

theorem of_bind_eq_error {α β ε : Type} {x : Except ε α} {f : α → Except ε β} {e : ε}
    (h : x >>= f = .error e) : x = .error e ∨ ∃ a, x = .ok a ∧ f a = .error e := by
  cases x with
  | error e' =>
    obtain rfl := Except.error.inj h
    exact Or.inl rfl
  | ok a => exact Or.inr ⟨a, rfl, h⟩

/-- A pass over a list that fails does so at one of its items. -/
theorem exists_of_mapM_eq_error {α β ε : Type} {f : α → Except ε β} {as : List α} {e : ε}
    (h : as.mapM f = .error e) : ∃ a ∈ as, f a = .error e := by
  induction as with
  | nil => cases h
  | cons a rest ih =>
    rw [List.mapM_cons] at h
    rcases of_bind_eq_error h with here | ⟨b, -, h⟩
    · exact ⟨a, List.mem_cons_self, here⟩
    · rcases of_bind_eq_error h with later | ⟨bs, -, done⟩
      · obtain ⟨x, mem, hx⟩ := ih later
        exact ⟨x, List.mem_cons_of_mem a mem, hx⟩
      · cases done

theorem code_of_sources (h : t.sources request = .error e) :
    e.code = "REPOSITORY_VERSION_NOT_FOUND" := by
  obtain ⟨s, -, failed⟩ := exists_of_mapM_eq_error h
  rcases of_bind_eq_error failed with unknown | ⟨v, -, done⟩
  · exact code_of_version unknown
  · cases done

/-- There is no run only because some version is not registered. -/
theorem code_of_run (h : t.run request = .error e) : e.code = "REPOSITORY_VERSION_NOT_FOUND" := by
  rcases of_bind_eq_error h with target | ⟨target, -, h⟩
  · exact code_of_version target
  rcases of_bind_eq_error h with sources | ⟨sources, -, h⟩
  · exact code_of_sources sources
  rcases of_bind_eq_error h with source | ⟨source, -, done⟩
  · exact code_of_version source
  · cases done

/-- A run is named after the first registered version of its name. -/
theorem repository_of_run (h : t.run request = .ok run) :
    findVersion? t.repositoryVersions (t.versionOfRun request) = some run.repository := by
  obtain ⟨target, sources, source, htarget, -, hsource, rfl⟩ := exists_of_run h
  rw [version_eq_ok_iff] at htarget hsource
  unfold versionOfRun
  cases hd : request.direction.isDowngrade with
  | true => exact hsource
  | false => exact htarget

/-- Without its version there is no run. -/
theorem exists_error_of_run
    (unknown : findVersion? t.repositoryVersions (t.versionOfRun request) = none) :
    ∃ e, t.run request = .error e ∧ e.code = "REPOSITORY_VERSION_NOT_FOUND" := by
  cases h : t.run request with
  | ok run =>
    rw [repository_of_run h] at unknown
    cases unknown
  | error e => exact ⟨e, rfl, code_of_run h⟩

end Topology

/-! ## The choice of a plan -/

namespace Command

variable {packs : Record Pack} {only : Option Pack} {t : Topology} {o : PlanOptions}
  {orchestration : Orchestration} {pack : ChosenPack} {run : UpgradeRun} {v : RepositoryVersion}

/-- The request for a pack that a plan makes. -/
def packRequest (packs : Record Pack) (only : Option Pack) (t : Topology) (o : PlanOptions)
    (orchestration : Orchestration) : PackRequest where
  packs := packs
  repositoryVersions := t.repositoryVersions
  direction := o.direction
  orchestration := orchestration
  target := o.target
  source := some (o.source.getD t.currentVersion)
  preferred := o.packName <|> only.map (·.name)

/-- The request for a run that a plan makes. -/
def runRequest (o : PlanOptions) (orchestration : Orchestration) : RunRequest :=
  ⟨o.direction, orchestration, o.scope, o.target, o.source⟩

theorem choosePlan_eq_ok_iff : choosePlan packs only t o orchestration = .ok (pack, run) ↔
    (∃ v, (packRequest packs only t o orchestration).select = .ok (pack, v)) ∧
      t.run (runRequest o orchestration) = .ok run := by
  have steps : choosePlan packs only t o orchestration =
      (packRequest packs only t o orchestration).select.bind fun c =>
        (t.run (runRequest o orchestration)).bind fun run => .ok (c.1, run) := rfl
  rw [steps]
  cases (packRequest packs only t o orchestration).select with
  | error e => simp [Except.bind]
  | ok c =>
    cases t.run (runRequest o orchestration) with
    | error e => simp [Except.bind]
    | ok run' =>
      obtain ⟨p, v⟩ := c
      simp [Except.bind]

/-- Both requests of a plan look for the same version. -/
theorem version_packRequest : (packRequest packs only t o orchestration).version =
    t.versionOfRun (runRequest o orchestration) := rfl

/-- **The pack and the run of a plan are for one version.** A plan has a pack and a run exactly when
both of its requests succeed, and then the version that the pack was chosen for is that of the run.
Where the pack fails for want of the version, the run fails with the same code. Otherwise, where
nothing is found under the preferred name, the packs that fit the version decide, in whatever order
they come; where no pack has that name, but every record has something under it, that is taken. -/
theorem pack_and_run_agree (packs : Record Pack) (only : Option Pack) (t : Topology)
    (o : PlanOptions) (orchestration : Orchestration) :
    let request := packRequest packs only t o orchestration
    (∀ pack run, choosePlan packs only t o orchestration = .ok (pack, run) ↔
      (∃ v, request.select = .ok (pack, v)) ∧ t.run (runRequest o orchestration) = .ok run) ∧
    (∀ pack v run, request.select = .ok (pack, v) →
      t.run (runRequest o orchestration) = .ok run → v = run.repository) ∧
    (∀ e, request.select = .error e → e.code = "REPOSITORY_VERSION_NOT_FOUND" →
      ∃ e', t.run (runRequest o orchestration) = .error e' ∧
        e'.code = "REPOSITORY_VERSION_NOT_FOUND") ∧
    (∀ v, findVersion? t.repositoryVersions request.version = some v → request.Unpreferred →
      request.DecidedByFit v) ∧
    (∀ v name, findVersion? t.repositoryVersions request.version = some v →
      request.preferred = some name → packs.get? name = none → Reserved.isInherited name = true →
        request.select = .ok (.inherited name, v)) ∧
    ∀ packs' : Record Pack, packs'.entries.Perm packs.entries →
      (packRequest packs' only t o orchestration).select.mapError PlanningError.code =
        request.select.mapError PlanningError.code := by
  refine ⟨fun pack run => choosePlan_eq_ok_iff, ?_, ?_, ?_, ?_, ?_⟩
  · intro pack v run chosen made
    have registered := PackRequest.registered_of_select chosen
    rw [version_packRequest] at registered
    exact Option.some.inj (registered.symm.trans (Topology.repository_of_run made))
  · intro e failed code
    have unregistered := PackRequest.unregistered_of_code failed code
    rw [version_packRequest] at unregistered
    exact Topology.exists_error_of_run unregistered
  · intro v registered free
    exact free.decidedByFit registered
  · intro v name registered wanted unlisted inherited
    exact PackRequest.select_of_inherited registered wanted unlisted inherited
  · intro packs' same
    exact PackRequest.select_of_perm (r := packRequest packs only t o orchestration) same

/-! ## Packs to choose from -/

/-- Two packs for rolling runs, to different stacks. -/
def rollingPacks : Record Pack :=
  .ofList [("to-2.3", ⟨"to-2.3", .rolling, "HDP-2.3", [], none, .empty⟩),
    ("to-2.4", ⟨"to-2.4", .rolling, "HDP-2.4", [], none, .empty⟩)]

/-- A cluster with one version registered twice, on different stacks. -/
def twiceRegistered : Topology :=
  { Topology.sharedSite with
    repositoryVersions := [⟨"2.2.0.0", ⟨"HDP", "2.2"⟩⟩, ⟨"2.3.0.0", ⟨"HDP", "2.3"⟩⟩,
      ⟨"2.3.0.0", ⟨"HDP", "2.4"⟩⟩] }

/-- A downgrade from a version. -/
def downgradeFrom (source : String) : PlanOptions where
  pack := "packs"
  cluster := "cluster.yaml"
  direction := .downgrade
  target := "2.2.0.0"
  source := some source
  orchestration := some .rolling
  scope := none
  packName := some "preferred"

/-- A downgrade from a version that is registered twice takes the first for pack and run; from one
that is not registered there is neither; and without the pack for it nothing fits. -/
theorem pack_and_run_agree_downgrade :
    (∃ pack v run, (packRequest rollingPacks none twiceRegistered (downgradeFrom "2.3.0.0")
        .rolling).select = .ok (pack, v) ∧ pack.name? = some "to-2.3" ∧
      twiceRegistered.run (runRequest (downgradeFrom "2.3.0.0") .rolling) = .ok run ∧
      v = run.repository) ∧
    (∃ e, twiceRegistered.run (runRequest (downgradeFrom "2.4.0.0") .rolling) = .error e ∧
      e.code = "REPOSITORY_VERSION_NOT_FOUND") ∧
    (packRequest rollingPacks none twiceRegistered (downgradeFrom "2.3.0.0")
      .rolling).DecidedByFit ⟨"2.3.0.0", ⟨"HDP", "2.3"⟩⟩ ∧
    (packRequest ⟨rollingPacks.entries.reverse, by decide⟩ none twiceRegistered
        (downgradeFrom "2.3.0.0") .rolling).select.mapError PlanningError.code =
      (packRequest rollingPacks none twiceRegistered (downgradeFrom "2.3.0.0")
        .rolling).select.mapError PlanningError.code := by
  obtain ⟨-, agree, -, decided, -, order⟩ := pack_and_run_agree rollingPacks none twiceRegistered
    (downgradeFrom "2.3.0.0") .rolling
  obtain ⟨-, -, unknown, -⟩ := pack_and_run_agree rollingPacks none twiceRegistered
    (downgradeFrom "2.4.0.0") .rolling
  refine ⟨⟨_, _, _, rfl, rfl, rfl, agree _ _ _ rfl rfl⟩, unknown _ rfl rfl, decided _ rfl ?_,
    order _ (List.reverse_perm _)⟩
  intro name wanted
  obtain rfl := Option.some.inj wanted
  exact ⟨by decide, by decide⟩

/-- No pack has the preferred name and one fits, but what every record has under the name is taken
instead. -/
theorem pack_and_run_agree_recordName :
    let o := { downgradeFrom "2.3.0.0" with packName := some Reserved.recordName }
    let request := packRequest rollingPacks none twiceRegistered o .rolling
    let v : RepositoryVersion := ⟨"2.3.0.0", ⟨"HDP", "2.3"⟩⟩
    findVersion? twiceRegistered.repositoryVersions request.version = some v ∧
      rollingPacks.get? Reserved.recordName = none ∧
      (∃ p, request.Fitting v "to-2.3" p) ∧
      request.select = .ok (.inherited Reserved.recordName, v) :=
  ⟨rfl, by decide, ⟨_, rfl, rfl, rfl⟩, rfl⟩

end Command

end ClusterUpgrade
