import ClusterUpgrade.Load
import ClusterUpgrade.Plan.Placeholder
import ClusterUpgrade.Proofs.Topology.Described
import ClusterUpgrade.Proofs.Versions

/-!
# What reaches the store

A topology that is read from a document holds the whole of it exactly when nothing of it can be lost
(`Topology.whole_iff`, `Topology.Keepable`). The store of the topology holds what the topology
describes, wherever it is looked up (`Store.Holds`): the current revision of each type, the live
configuration of a service, the defaults of a stack and the property that a token names.
`Topology.reaches_store_iff` is the whole statement.
-/

namespace ClusterUpgrade

open Document (Reads Writable Entries Each)

/-! ## Reading the whole of a document -/

namespace Document

variable {α : Type} {R R' : String → Document → α → Prop} {P : Document → Prop} {d : Document}
  {value : Option Document} {as : List α}

/-- Hosts that are named by texts. -/
def HostsAreTexts (d : Document) : Prop := d.TextIfScalar "master" ∧ d.TextIfScalar "secondary"

theorem reads_entries_iff (read : Reads value (Entries R) [] as)
    (ordered : ∀ v, value = some v → v.inOrder)
    (each : ∀ key d a, d.inOrder → R key d a → (R' key d a ↔ P d)) :
    Reads value (Entries R') [] as ↔ Each P value := by
  cases value with
  | none => exact iff_of_true read nofun
  | some v =>
    obtain ⟨fields, rfl, related⟩ := read
    have inside := (inOrder_record_iff.1 (ordered _ rfl)).2
    have matched : List.Forall₂ (fun e a => e.2.fields?.isSome ∧ R' e.1 e.2 a) fields as ↔
        ∀ e ∈ fields, P e.2 := by
      refine forall₂_iff_forall_mem related fun e mem a same => ?_
      rw [and_iff_right same.1, each e.1 e.2 a (inside e mem) same.2]
    constructor
    · rintro ⟨_, ⟨⟩, whole⟩ _ ⟨⟩
      exact matched.1 whole
    · intro h
      exact ⟨fields, rfl, matched.2 (h fields rfl)⟩

/-- Items that bear the names of the fields they are read from stand in record order. -/
theorem keysInOrder_of_entries {name : α → String} (read : Reads value (Entries R) [] as)
    (ordered : ∀ v, value = some v → v.inOrder) (named : ∀ key d a, R key d a → name a = key) :
    Record.KeysInOrder (as.map name) := by
  cases value with
  | none =>
    rw [reads_none.1 read]
    exact List.Pairwise.nil
  | some v =>
    obtain ⟨fields, rfl, related⟩ := read
    have names : as.map name = fields.map Prod.fst := by
      clear ordered
      induction related with
      | nil => rfl
      | cons same _ ih => rw [List.map_cons, List.map_cons, named _ _ _ same.2, ih]
    rw [names]
    exact (inOrder_record_iff.1 (ordered _ rfl)).1

end Document

section Records

variable {α : Type} {R R' : String → Document → α → Prop} {P : Document → Prop} {r : Record α}

theorem Reading.whole_ofRecord_iff {v : Document} (read : checked.OfRecord R v r)
    (ordered : v.inOrder) (each : ∀ key d a, d.inOrder → R key d a → (R' key d a ↔ P d)) :
    whole.OfRecord R' v r ↔ v.Writable P := Document.wholeRecord_iff (R := R) read ordered each

theorem Reading.reads_whole_ofRecord_iff {value : Option Document}
    (read : Reads value (checked.OfRecord R) Record.empty r)
    (ordered : ∀ v, value = some v → v.inOrder)
    (each : ∀ key d a, d.inOrder → R key d a → (R' key d a ↔ P d)) :
    Reads value (whole.OfRecord R') Record.empty r ↔ ∀ v, value = some v → v.Writable P :=
  Document.reads_wholeRecord_iff (R := R) read ordered each

end Records

section Whole

variable {d : Document} {name : String}

theorem ComponentTopology.whole_iff {c : ComponentTopology} (h : c.DescribedIn .checked name d) :
    c.DescribedIn .whole name d ↔ d.HostsAreTexts := by
  constructor
  · intro whole
    exact ⟨Document.textIfScalar_iff.2 (h.master.symm.trans whole.master),
      Document.textIfScalar_iff.2 (h.secondary.symm.trans whole.secondary)⟩
  · rintro ⟨master, secondary⟩
    exact ⟨h.name, h.displayName, h.advertisesVersion, h.hosts, h.unhealthy,
      h.master.trans (Document.textIfScalar_iff.1 master),
      h.secondary.trans (Document.textIfScalar_iff.1 secondary)⟩

theorem ServiceTopology.whole_iff {s : ServiceTopology} (ordered : d.inOrder)
    (h : s.DescribedIn .checked name d) :
    s.DescribedIn .whole name d ↔ Each Document.HostsAreTexts (d.field? "components") := by
  have components := Document.reads_entries_iff h.components
    (fun _ => Document.inOrder_of_field? ordered) fun _ _ _ _ => ComponentTopology.whole_iff
  constructor
  · intro whole
    exact components.1 whole.components
  · intro texts
    exact ⟨h.name, h.displayName, h.clientOnly, h.version, components.2 texts⟩

/-- A configuration that has something to be written under each name of its properties. -/
def Document.PropertiesWritable (d : Document) : Prop :=
  ∀ v, d.field? "properties" = some v → v.Writable fun _ => True

theorem ConfigTopology.whole_iff {c : ConfigTopology} (ordered : d.inOrder)
    (h : c.DescribedIn .checked name d) :
    c.DescribedIn .whole name d ↔ d.PropertiesWritable := by
  have properties := Reading.reads_whole_ofRecord_iff (P := fun _ => True) h.properties
    (fun _ => Document.inOrder_of_field? ordered) fun _ _ _ _ written => iff_of_true written trivial
  constructor
  · intro whole
    exact properties.1 whole.properties
  · intro writable
    exact ⟨h.type, h.service, h.tag, properties.2 writable⟩

theorem Topology.stack_whole_iff {services : Record DefaultsByType} (ordered : d.inOrder)
    (h : StackDescribedIn .checked name d services) : StackDescribedIn .whole name d services ↔
      d.Writable (Writable (Writable fun _ => True)) := by
  refine (and_iff_right h.1).trans (Reading.whole_ofRecord_iff h.2 ordered ?_)
  intro service types r inside read
  refine Reading.whole_ofRecord_iff read inside ?_
  intro type properties r inside read
  exact Reading.whole_ofRecord_iff read inside fun _ _ _ _ written => iff_of_true written trivial

/-- A document of which nothing can be lost: texts name its hosts, and something can be written
under each name of a property and of a default. -/
structure Topology.Keepable (d : Document) : Prop where
  hosts : Each (fun s => Each Document.HostsAreTexts (s.field? "components")) (d.field? "services")
  properties : Each Document.PropertiesWritable (d.field? "configurations")
  defaults : ∀ v, d.field? "stackDefaults" = some v →
    v.Writable (Writable (Writable (Writable fun _ => True)))

/-- A topology holds the whole of its document exactly when nothing of that can be lost. -/
theorem Topology.whole_iff {t : Topology} (ordered : d.inOrder) (h : DescribedIn .checked d t) :
    DescribedIn .whole d t ↔ Keepable d := by
  have inside (field : String) (v : Document) (there : d.field? field = some v) : v.inOrder :=
    Document.inOrder_of_field? ordered there
  have services := Document.reads_entries_iff h.services (inside _) fun _ _ _ =>
    ServiceTopology.whole_iff
  have configurations := Document.reads_entries_iff h.configurations (inside _) fun _ _ _ =>
    ConfigTopology.whole_iff
  have defaults := Reading.reads_whole_ofRecord_iff h.stackDefaults (inside _) fun _ _ _ =>
    stack_whole_iff
  constructor
  · intro whole
    exact ⟨services.1 whole.services, configurations.1 whole.configurations,
      defaults.1 whole.stackDefaults⟩
  · intro keepable
    exact ⟨h.clusterName, h.currentVersion, h.stack, h.securityType, h.namenodeHA,
      h.repositoryVersions, services.2 keepable.hosts, configurations.2 keepable.properties,
      defaults.2 keepable.defaults⟩

end Whole

/-! ## The store -/

/-- The current configuration that a description gives a type. -/
def ConfigTopology.live (c : ConfigTopology) : LiveConfig := ⟨c.type, c.tag, c.properties⟩

/-- A store in which every look-up gives what a topology describes. A name that every record has
something under is looked up where the topology lists it. -/
structure Store.Holds (s : Store) (t : Topology) : Prop where
  current : ∀ c ∈ t.configurations, s.currentConfig? c.type = some c.live
  live : ∀ service, s.liveConfig service =
    (t.configurations.filter (·.service = service)).map (·.live)
  once : (t.configurations.map (·.type)).Nodup
  defaults : ∀ stack services, t.stackDefaults.get? stack.text = some services → ∀ service,
    (Reserved.isFunction service = true → services.has service = true) →
      s.defaultsOf stack service = .ok ((services.get? service).getD Record.empty)
  noDefaults : ∀ stack service, t.stackDefaults.get? stack.text = none →
    s.defaultsOf stack service = .error (.noDefaults stack.text)
  placeholder : ∀ type property, type ≠ "" → '/' ∉ type.toList →
    (∀ c ∈ t.configurations, c.type = type → Reserved.isInherited property = true →
      c.properties.has property = true) →
    s.placeholder? (Plan.braced (type ++ "/" ++ property)) =
      (t.configurations.find? (·.type = type)).bind (·.properties.get? property)

namespace Store

variable {t : Topology} {type property service : String}

/-- The path in a token between braces: its type ends at the first slash. -/
theorem tokenPath?_braced (filled : type ≠ "") (piece : '/' ∉ type.toList) :
    tokenPath? (Plan.braced (type ++ "/" ++ property)) = some (type, property) := by
  have opened : Text.afterPiece? ['\x7b', '\x7b']
      (Plan.braced (type ++ "/" ++ property)).toList =
        some (type.toList ++ '/' :: property.toList ++ ['\x7d', '\x7d']) := by
    rw [Text.afterPiece?_eq_some_iff]
    simp [Plan.braced]
  have closed : Text.afterPiece? ['\x7d', '\x7d']
      (type.toList ++ '/' :: property.toList ++ ['\x7d', '\x7d']).reverse =
        some (type.toList ++ '/' :: property.toList).reverse := by
    rw [Text.afterPiece?_eq_some_iff]
    simp
  have whole : ∀ c ∈ type.toList, decide (c ≠ '/') = true := by
    intro c mem
    exact decide_eq_true fun same => piece (same ▸ mem)
  have before : (type.toList ++ '/' :: property.toList).takeWhile (· ≠ '/') = type.toList := by
    rw [List.takeWhile_append_of_pos whole, List.takeWhile_cons_of_neg (by simp), List.append_nil]
  have after : (type.toList ++ '/' :: property.toList).dropWhile (· ≠ '/') =
      '/' :: property.toList := by
    rw [List.dropWhile_append_of_pos whole, List.dropWhile_cons_of_neg (by simp)]
  unfold tokenPath?
  dsimp only
  rw [opened, Option.getD_some, closed]
  dsimp only
  rw [List.reverse_reverse, before, after]
  cases h : type.toList with
  | nil => exact absurd (String.toList_inj.1 h) filled
  | cons c rest =>
    dsimp only
    rw [← h, String.ofList_toList, String.ofList_toList]

/-- The current revision of a type is that of its configuration. -/
theorem exists_currentRevision_of_mem (sound : t.Sound)
    (few : t.configurations.length < Number.powerOfTwo 53) {c : ConfigTopology}
    (mem : c ∈ t.configurations) : ∃ r, t.store.currentRevision? c.type = some r ∧
      r.type = c.type ∧ r.service = c.service ∧ r.tag = c.tag ∧ r.properties = c.properties := by
  obtain ⟨i, hi⟩ := List.mem_iff_getElem?.1 mem
  refine ⟨t.revision (c, i), ?_, rfl, rfl, rfl, rfl⟩
  have fewer : t.revisions.length < Number.powerOfTwo 53 := by
    rwa [← List.length_map (·.type), Topology.map_type_revisions, List.length_map]
  exact (currentRevision?_eq_some_iff sound fewer).2 ⟨Topology.mem_revisions.2 ⟨i, c, hi, rfl⟩, rfl⟩

theorem currentRevision?_eq_none (sound : t.Sound)
    (absent : ∀ c ∈ t.configurations, c.type ≠ type) : t.store.currentRevision? type = none := by
  rw [Option.eq_none_iff_forall_ne_some]
  intro r hr
  obtain ⟨v, hv, -⟩ := Option.bind_eq_some_iff.1 hr
  obtain ⟨r, mem, rfl, -⟩ := (Topology.get?_current_eq_some_iff sound).1 hv
  obtain ⟨i, c, hc, rfl⟩ := Topology.mem_revisions.1 mem
  exact absent c (List.mem_of_getElem? hc) rfl

/-- The types of a store are current in the order of the configurations. -/
theorem keys_current (ordered : Record.KeysInOrder (t.configurations.map (·.type))) :
    t.store.current.keys = t.configurations.map (·.type) := by
  rw [← Topology.map_fst_versions] at ordered ⊢
  exact congrArg (List.map Prod.fst) (Record.entries_ofList ordered)

theorem liveConfig_store (sound : t.Sound) (few : t.configurations.length < Number.powerOfTwo 53)
    (ordered : Record.KeysInOrder (t.configurations.map (·.type))) :
    t.store.liveConfig service =
      (t.configurations.filter (·.service = service)).map (·.live) := by
  rw [liveConfig_eq, keys_current ordered, List.filterMap_map, ← List.filterMap_eq_map,
    List.filterMap_filter]
  refine List.filterMap_congr fun c mem => ?_
  obtain ⟨r, hr, -, hservice, htag, hproperties⟩ := exists_currentRevision_of_mem sound few mem
  rw [Function.comp_apply, liveAs?, hr, Option.bind_some, hservice, htag, hproperties]
  by_cases owned : c.service = service <;> simp [owned, ConfigTopology.live]

theorem placeholder?_store (sound : t.Sound) (few : t.configurations.length < Number.powerOfTwo 53)
    (filled : type ≠ "") (piece : '/' ∉ type.toList)
    (listed : ∀ c ∈ t.configurations, c.type = type → Reserved.isInherited property = true →
      c.properties.has property = true) :
    t.store.placeholder? (Plan.braced (type ++ "/" ++ property)) =
      (t.configurations.find? (·.type = type)).bind (·.properties.get? property) := by
  unfold placeholder?
  rw [tokenPath?_braced filled piece]
  cases found : t.configurations.find? (·.type = type) with
  | none =>
    have absent : ∀ c ∈ t.configurations, c.type ≠ type := by
      simpa [List.find?_eq_none] using found
    simp [currentRevision?_eq_none sound absent]
  | some c =>
    have named := List.find?_some found
    obtain rfl := of_decide_eq_true named
    obtain ⟨r, hr, -, -, -, hproperties⟩ :=
      exists_currentRevision_of_mem sound few (List.mem_of_find?_eq_some found)
    cases inherited : Reserved.isInherited property with
    | false => simp [hr, hproperties, inherited]
    | true =>
      have there := listed c (List.mem_of_find?_eq_some found) rfl inherited
      obtain ⟨value, hvalue⟩ := Record.has_iff.1 there
      simp [hr, hproperties, hvalue]

/-- The store of a topology holds what the topology describes, as long as counting is exact. -/
theorem holds_store (sound : t.Sound) (few : t.configurations.length < Number.powerOfTwo 53)
    (ordered : Record.KeysInOrder (t.configurations.map (·.type))) : t.store.Holds t where
  current c mem := by
    obtain ⟨r, hr, htype, -, htag, hproperties⟩ := exists_currentRevision_of_mem sound few mem
    rw [currentConfig?, hr, Option.map_some, htype, htag, hproperties]
    rfl
  live _ := liveConfig_store sound few ordered
  once := ordered.nodup
  defaults stack services there service listed := by
    have declared : t.store.defaults.get? stack.text = some services := there
    rw [defaultsOf, declared]
    dsimp only
    cases own : services.get? service with
    | some types => rfl
    | none =>
      have plain : Reserved.isFunction service = false := by
        refine eq_false_of_ne_true fun function => ?_
        have there := listed function
        rw [Record.has, own] at there
        cases there
      simp [unlistedDefaults, plain]
  noDefaults stack service missing := by
    have absent : t.store.defaults.get? stack.text = none := missing
    rw [defaultsOf, absent]
  placeholder _ _ := placeholder?_store sound few

end Store

/-! ## Documents -/

namespace Topology

variable {d : Document} {t : Topology}

theorem keysInOrder_types (ordered : d.inOrder) (h : DescribedIn .checked d t) :
    Record.KeysInOrder (t.configurations.map (·.type)) :=
  Document.keysInOrder_of_entries h.configurations (fun _ => Document.inOrder_of_field? ordered)
    fun _ _ _ described => described.type

/-- A document that describes nothing is refused with an issue. Any other one is accepted without,
and gives what it describes. -/
theorem refused_or_described (d : Document) :
    ((check d).value = none ∧ (check d).issues ≠ [] ∧ ∀ t, ¬ DescribedIn .checked d t) ∨
      ∃ t, DescribedIn .checked d t ∧ check d = ⟨some t, []⟩ := by
  by_cases ok : Issues.valid (check d).issues = true
  · obtain ⟨t, given, described⟩ := check_gives.sound ok
    exact Or.inr ⟨t, described, check_gives.complete _ ⟨t, rfl, described⟩⟩
  · refine Or.inl ⟨?_, fun none => ok (by rw [none]; rfl), fun t described => ok ?_⟩
    · cases d with
      | record fields => exact if_neg ok
      | null | boolean _ | number _ | text _ | list _ => rfl
    · rw [check_gives.complete _ ⟨t, rfl, described⟩]
      rfl

theorem ofDocument_eq_ok {source : String} (given : (check d).value = some t) :
    ofDocument source d = .ok t := by
  unfold ofDocument
  dsimp only
  rw [given]

/-- A document that describes no topology is refused with an issue, and any other one gives the
topology that it describes. That holds the whole of the document exactly when nothing of it can be
lost, and its store holds what the topology describes, as long as the revisions can be counted. -/
theorem reaches_store_iff (ordered : d.inOrder) (source : String) :
    (∃ issues, issues ≠ [] ∧ ofDocument source d = .error (.invalidTopology source issues) ∧
      ∀ t, ¬ DescribedIn .checked d t) ∨
    ∃ t, ofDocument source d = .ok t ∧ DescribedIn .checked d t ∧
      (DescribedIn .whole d t ↔ Keepable d) ∧
      (t.configurations.length < Number.powerOfTwo 53 → t.store.Holds t) := by
  rcases refused_or_described d with ⟨refused, issues, nothing⟩ | ⟨t, described, accepted⟩
  · refine Or.inl ⟨(check d).issues, issues, ?_, nothing⟩
    unfold ofDocument
    dsimp only
    rw [refused]
  · have given : (check d).value = some t := by rw [accepted]
    have sound := sound_of_distinctNames given (Document.distinctNames_of_inOrder d ordered)
    refine Or.inr ⟨t, ?_, described, whole_iff ordered described, fun few =>
      Store.holds_store sound few (keysInOrder_types ordered described)⟩
    exact ofDocument_eq_ok given

/-- A cluster with one NameNode on two hosts and one property. -/
def namenodeDocument (master : Document) (property : String) : Document :=
  .record [("clusterName", .text "c1"), ("stack", .text "HDP-2.2"),
    ("currentVersion", .text "2.2.0.0"), ("repositoryVersions", .list []),
    ("services", .record [("HDFS", .record [("components", .record [("NAMENODE", .record
      [("hosts", .texts ["5", "6"]), ("master", master)])])])]),
    ("configurations", .record [("hdfs-site", .record [("service", .text "HDFS"),
      ("properties", .record [(property, .text "1")])])])]

theorem reaches_store_namenode :
    (namenodeDocument (.text "5") "dfs.replication").inOrder ∧ ∃ t,
      ofDocument "c1.json" (namenodeDocument (.text "5") "dfs.replication") = .ok t ∧
      DescribedIn .whole (namenodeDocument (.text "5") "dfs.replication") t ∧
      t.store.Holds t := by
  have ordered : (namenodeDocument (.text "5") "dfs.replication").inOrder := by decide +kernel
  have counted : ((ofDocument "c1.json" (namenodeDocument (.text "5")
      "dfs.replication")).toOption.map (·.configurations.length)) = some 1 := by decide +kernel
  have keepable : Keepable (namenodeDocument (.text "5") "dfs.replication") := by
    refine ⟨?_, ?_, nofun⟩
    · rintro _ ⟨⟩
      refine List.forall_mem_singleton.2 ?_
      rintro _ ⟨⟩
      refine List.forall_mem_singleton.2 ⟨?_, nofun⟩
      rintro _ ⟨⟩ _
      rfl
    · rintro _ ⟨⟩
      refine List.forall_mem_singleton.2 ?_
      rintro _ ⟨⟩ _ ⟨⟩
      exact ⟨by decide, List.forall_mem_singleton.2 trivial⟩
  refine ⟨ordered, ?_⟩
  rcases reaches_store_iff ordered "c1.json" with
    ⟨_, -, refused, -⟩ | ⟨t, given, -, whole, stored⟩
  · rw [refused] at counted
    cases counted
  · rw [given] at counted
    have one : t.configurations.length = 1 := Option.some.inj counted
    exact ⟨t, given, whole.2 keepable, stored (one ▸ by decide +kernel)⟩

theorem exists_not_whole (ordered : d.inOrder) (given : (check d).value.isSome)
    (lost : ¬ Keepable d) (source : String) :
    ∃ t, ofDocument source d = .ok t ∧ ¬ DescribedIn .whole d t := by
  rcases refused_or_described d with ⟨refused, -⟩ | ⟨t, described, accepted⟩
  · rw [refused] at given
    cases given
  · refine ⟨t, ofDocument_eq_ok (by rw [accepted]), fun whole => lost ?_⟩
    exact (whole_iff ordered described).1 whole

/-- A host that is written as a number is lost, and so is a property under the reserved name,
although no issue is reported. -/
theorem not_whole_namenode :
    (∃ t, ofDocument "c1.json" (namenodeDocument (.ofInt 5) "dfs.replication") = .ok t ∧
      ¬ DescribedIn .whole (namenodeDocument (.ofInt 5) "dfs.replication") t) ∧
    ∃ t, ofDocument "c1.json" (namenodeDocument (.text "5") Reserved.recordName) = .ok t ∧
      ¬ DescribedIn .whole (namenodeDocument (.text "5") Reserved.recordName) t := by
  constructor
  · refine exists_not_whole (by decide +kernel) (by decide +kernel) (fun keepable => ?_) _
    have texts := keepable.hosts _ rfl _ List.mem_cons_self _ rfl _ List.mem_cons_self
    exact nomatch texts.1 _ rfl rfl
  · refine exists_not_whole (by decide +kernel) (by decide +kernel) (fun keepable => ?_) _
    exact (keepable.properties _ rfl _ List.mem_cons_self _ rfl _ rfl).1 List.mem_cons_self

end Topology

end ClusterUpgrade
