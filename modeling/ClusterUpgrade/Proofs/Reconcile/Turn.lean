import ClusterUpgrade.Proofs.Live
import ClusterUpgrade.Proofs.Reconcile.Outcome
import ClusterUpgrade.Proofs.Untouched

/-!
# What a service finds at its turn

On an upgrade a service may find less at its turn than it had at first: earlier services have taken
the types that the new stack lists for them (`takes`), and nothing else
(`WritesAll.liveConfig_eq`). Its merge is the one it would have had at first exactly when the types
that it has lost leave no trace in it (`mergeOf_eq_iff`).
-/

namespace ClusterUpgrade.Reconcile

variable {run : UpgradeRun} {options : ReconcileOptions} {s s' s₁ : Store} {before : List String}
  {service other type : String} {c : ServiceChange} {cs done rest : List ServiceChange} {m : Merge}

/-- Whether a service that crosses stacks takes a type, because the new stack lists it for the
service. -/
def takes (run : UpgradeRun) (s : Store) (service type : String) : Bool :=
  match run.sources.get? service, run.targets.get? service with
  | some v, some w =>
    v.stackId ≠ w.stackId && Reserved.isWritable type &&
      (s.defaultsOf w.stackId service).toOption.any (·.has type)
  | _, _ => false

/-- Whether one of several services takes a type. -/
def taken (run : UpgradeRun) (s : Store) (services : List String) (type : String) : Bool :=
  services.any fun service => takes run s service type

/-- What a service takes does not depend on what is current. -/
theorem takes_congr (h : s.defaults = s'.defaults) :
    takes run s service type = takes run s' service type := by
  unfold takes Store.defaultsOf
  rw [h]

theorem takes_of_accounted (h : Accounted run options before c) : takes run s c.service type =
    (c.source ≠ c.target && Reserved.isWritable type &&
      (s.defaultsOf c.target c.service).toOption.any (·.has type)) := by
  obtain ⟨v, hv, hsource⟩ := h.source
  obtain ⟨w, hw, htarget⟩ := h.target
  rw [takes, hv, hw, hsource, htarget]

theorem isWritable_of_taken {services : List String} (h : taken run s services type = true) :
    Reserved.isWritable type = true := by
  obtain ⟨b, -, hb⟩ := List.any_eq_true.1 h
  unfold takes at hb
  split at hb
  · simp only [Bool.and_eq_true] at hb
    exact hb.1.2
  · cases hb

/-! ## Revisions are only added -/

theorem Writes.prefix_revisions (h : Writes options c s s') : s.revisions <+: s'.revisions := by
  rcases h.cases with rfl | ⟨-, ha⟩ | ⟨m, -, -, rfl⟩
  · exact List.prefix_refl _
  · obtain ⟨-, rfl⟩ := Store.applyLatest_eq_ok_iff.1 ha
    exact List.prefix_refl _
  · exact Store.prefix_addRevisions _ _ _

theorem WritesAll.prefix_revisions (h : WritesAll options cs s s') :
    s.revisions <+: s'.revisions := by
  induction cs generalizing s with
  | nil =>
    obtain rfl := h
    exact List.prefix_refl _
  | cons c rest ih =>
    obtain ⟨mid, writes, hrest⟩ := h
    exact writes.prefix_revisions.trans (ih hrest)

/-- The store at the turn of a service. -/
theorem WritesAll.exists_turn
    (h : WritesAll options (done ++ c :: rest) s s') :
    ∃ mid next, WritesAll options done s mid ∧ Writes options c mid next ∧
      WritesAll options rest next s' := by
  induction done generalizing s with
  | nil =>
    obtain ⟨next, writes, hrest⟩ := h
    exact ⟨s, next, rfl, writes, hrest⟩
  | cons d done ih =>
    obtain ⟨s₁, writes, h⟩ := h
    obtain ⟨mid, next, hdone, hc, hrest⟩ := ih h
    exact ⟨mid, next, ⟨s₁, writes, hdone⟩, hc, hrest⟩

theorem WritesAll.defaults (h : WritesAll options cs s s') : s'.defaults = s.defaults :=
  h.induction (P := fun _ s' => s'.defaults = s.defaults) rfl
    fun _ _ _ _ _ _ hd hw => hw.defaults.trans hd

/-- Each service is visited once. -/
theorem not_mem_done (services : cs.map (·.service) = run.services) (h : cs = done ++ c :: rest) :
    c.service ∉ done.map (·.service) := by
  have distinct := run.nodup
  rw [← services, h, List.map_append, List.map_cons, List.nodup_append] at distinct
  intro mem
  exact distinct.2.2 _ mem _ List.mem_cons_self rfl

/-- What holds after each turn. The revisions that there are then are still there in the end, and
the defaults are those of the start. -/
theorem WritesAll.turns {P : List ServiceChange → Store → Prop} (h : WritesAll options cs s s')
    (start : P [] s)
    (step : ∀ done c rest s₁ s₂, cs = done ++ c :: rest → s₁.defaults = s.defaults →
      Writes options c s₁ s₂ → s₂.revisions <+: s'.revisions → P done s₁ → P (done ++ [c]) s₂) :
    P cs s' := by
  have turn : s'.revisions <+: s'.revisions → s'.defaults = s.defaults ∧ P cs s' := by
    refine h.induction (P := fun done s₁ =>
      s₁.revisions <+: s'.revisions → s₁.defaults = s.defaults ∧ P done s₁) ?_ ?_
    · exact fun _ => ⟨rfl, start⟩
    · intro done c rest s₁ s₂ hdone ih writes grown
      obtain ⟨same, hP⟩ := ih (writes.prefix_revisions.trans grown)
      exact ⟨writes.defaults.trans same, step done c rest s₁ s₂ hdone same writes grown hP⟩
  exact (turn (List.prefix_refl _)).2

/-! ## Live configurations -/

theorem defaultsOf_congr (h : s.defaults = s'.defaults) {stack : StackId} :
    s.defaultsOf stack service = s'.defaultsOf stack service := by
  rw [Store.defaultsOf, Store.defaultsOf, h]

/-- An upgrade of a service changes nothing or makes the merge of the service current. -/
theorem Writes.merge_of_upgrade (up : run.direction = .upgrade) (real : options.dryRun = false)
    (h : Writes options c s s') (accounted : Accounted run options before c) :
    (c.source = c.target ∧ s' = s) ∨ (c.source ≠ c.target ∧ ∃ old new,
      s.defaultsOf c.target c.service = .ok new ∧
      s' = s.createRevisions c.target c.service
        (Merge.of ⟨old, new, s.liveConfig c.service⟩).configs options.actor options.comment) := by
  have going : ¬ Ended run options before := not_ended_of_upgrade up
  unfold Writes at h
  by_cases same : c.source = c.target
  · rw [accounted.unchanged going same] at h
    exact Or.inl ⟨same, h⟩
  · obtain ⟨m, hm⟩ := accounted.merged going same up
    simp only [hm, real, Bool.false_eq_true, if_false] at h
    obtain ⟨hmerge, hs'⟩ := h
    obtain ⟨old, new, -, hnew, rfl⟩ := mergeOf_eq_ok_iff.1 hmerge
    exact Or.inr ⟨same, old, new, hnew, hs'⟩

/-- A merge takes from another service what the new stack lists, and nothing else. -/
theorem Writes.liveConfig_eq (up : run.direction = .upgrade) (real : options.dryRun = false)
    (h : Writes options c s s') (accounted : Accounted run options before c)
    (apart : s'.ToldApart) (differs : c.service ≠ other) :
    s'.liveConfig other =
      (s.liveConfig other).filter fun x => !takes run s c.service x.type := by
  simp only [takes_of_accounted accounted]
  rcases h.merge_of_upgrade up real accounted with ⟨same, rfl⟩ | ⟨crosses, old, new, hnew, rfl⟩
  · symm
    rw [List.filter_eq_self]
    intro x _
    simp [same]
  · rw [Store.liveConfig_createRevisions apart differs]
    apply List.filter_congr
    intro x hx
    have foreign : (s.liveConfig c.service).any (fun y => y.type = x.type) = false := by
      rw [List.any_eq_false]
      intro y hy htype
      exact differs (Store.service_eq_of_live hy hx (of_decide_eq_true htype))
    rw [Merge.has_configs, foreign, Bool.or_false, hnew]
    simp [crosses, Except.toOption]

/-- On an upgrade, earlier services take from a later one what the new stack lists for them. -/
theorem WritesAll.liveConfig_eq (up : run.direction = .upgrade) (real : options.dryRun = false)
    (h : WritesAll options cs s s')
    (accounted : ∀ done c rest, cs = done ++ c :: rest →
      Accounted run options (done.map (·.service)) c)
    (apart : s'.ToldApart) (later : other ∉ cs.map (·.service)) :
    s'.liveConfig other = (s.liveConfig other).filter fun x =>
      !taken run s (cs.map (·.service)) x.type := by
  refine h.turns (P := fun done s' => other ∉ done.map (·.service) →
    s'.liveConfig other = (s.liveConfig other).filter fun x =>
      !taken run s (done.map (·.service)) x.type) ?_ ?_ later
  · intro _
    simp [taken]
  · intro done c rest s₁ s₂ hdone same writes grown ih later
    rw [List.map_append, List.map_singleton, List.mem_append, List.mem_singleton, not_or] at later
    rw [writes.liveConfig_eq up real (accounted done c rest hdone) (apart.of_prefix grown)
        (Ne.symm later.2),
      ih later.1, List.filter_filter]
    apply List.filter_congr
    intro x _
    rw [takes_congr same, List.map_append, taken, taken, List.any_append, Bool.not_or, Bool.and_comm]
    simp

/-- The merge of a service at its turn is the one it would have had at first, exactly when what it
has lost leaves no trace in it. -/
theorem mergeOf_eq_iff (up : run.direction = .upgrade) (real : options.dryRun = false)
    (h : WritesAll options cs s s')
    (accounted : ∀ done c rest, cs = done ++ c :: rest →
      Accounted run options (done.map (·.service)) c)
    (apart : s'.ToldApart) (later : service ∉ cs.map (·.service)) {source target : StackId}
    (hm : mergeOf source target service s' = .ok m) :
    mergeOf source target service s = .ok m ↔
      ∀ old new, s.defaultsOf source service = .ok old → s.defaultsOf target service = .ok new →
        ∀ x ∈ s.liveConfig service, taken run s (cs.map (·.service)) x.type →
          Merge.Untouched ⟨old, new, s.liveConfig service⟩ x := by
  obtain ⟨old, new, hold, hnew, rfl⟩ := mergeOf_eq_ok_iff.1 hm
  rw [defaultsOf_congr h.defaults] at hold hnew
  rw [h.liveConfig_eq up real accounted apart later, mergeOf_eq_ok_iff]
  have writable : ∀ x ∈ s.liveConfig service, (!taken run s (cs.map (·.service)) x.type) = false →
      x.type ≠ Reserved.recordName := by
    intro x _ lost
    rw [Bool.not_eq_false'] at lost
    exact Merge.isWritable_iff.1 (isWritable_of_taken lost)
  have untouched := Merge.of_filter_live_eq_iff ⟨old, new, s.liveConfig service⟩ _
    Store.nodup_liveConfig writable
  constructor
  · rintro ⟨old', new', hold', hnew', hsame⟩ old₁ new₁ hold₁ hnew₁ x hx lost
    rw [hold, Except.ok.injEq] at hold' hold₁
    rw [hnew, Except.ok.injEq] at hnew' hnew₁
    subst hold' hold₁ hnew' hnew₁
    exact untouched.1 hsame x hx (by rw [lost]; rfl)
  · intro h
    refine ⟨old, new, hold, hnew, untouched.2 ?_⟩
    intro x hx lost
    exact h old new hold hnew x hx (by rwa [Bool.not_eq_false'] at lost)

end ClusterUpgrade.Reconcile
