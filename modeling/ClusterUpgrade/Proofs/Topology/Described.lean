import ClusterUpgrade.Proofs.Topology

/-!
# What a topology document describes

`Topology.DescribedIn` says which topology a document describes, part by part: `DescribedIn` relates
each kind of part to its own piece of the document. There are two ways of reading a document
(`Reading`). One is that of the check, with one lemma for each of its functions, and so a document
is accepted exactly when it describes a topology in that way (`Topology.check_gives`). The other one
loses nothing.
-/

namespace ClusterUpgrade

open Document (Reads ListOf RecordOf WholeRecord)

/-! ## Readings -/

/-- A way of reading documents: which scalars name a host, and which records come of a record. -/
structure Reading where
  host? : Document → Option String
  OfRecord {α : Type} : (String → Document → α → Prop) → Document → Record α → Prop

namespace Reading

/-- The way of the check. Only texts name hosts, and what has the name that nothing can be written
under is left out. -/
def checked : Reading := ⟨Document.text?, RecordOf⟩

/-- The way that loses nothing. -/
def whole : Reading := ⟨Document.scalarText?, WholeRecord⟩

end Reading

namespace Document

variable {α : Type} {R : String → Document → α → Prop} {d : Document} {field : String}

/-- A list with one item for each field of a record, in order, each of them a record itself. -/
def Entries (R : String → Document → α → Prop) (v : Document) (as : List α) : Prop :=
  ∃ fields, v = .record fields ∧
    List.Forall₂ (fun e a => e.2.fields?.isSome ∧ R e.1 e.2 a) fields as

theorem entries_record_iff {fields : List (String × Document)} {as : List α}
    (records : ∀ key d a, R key d a → d.fields?.isSome) :
    Entries R (.record fields) as ↔ List.Forall₂ (fun e a => R e.1 e.2 a) fields as := by
  constructor
  · rintro ⟨_, ⟨⟩, related⟩
    exact related.imp fun _ _ => And.right
  · intro related
    exact ⟨fields, rfl, related.imp fun e a read => ⟨records e.1 e.2 a read, read⟩⟩

/-- A record that is written from the fields of another, beside a name of its own. -/
theorem exists_named_iff {fields : List (String × Document)} {key : String}
    {x : String × Record α} :
    (∃ entries, List.Forall₂ (fun e y => y.1 = e.1 ∧ R e.1 e.2 y.2) fields entries ∧
      x = (key, Reserved.record entries)) ↔ x.1 = key ∧ RecordOf R (.record fields) x.2 := by
  constructor
  · rintro ⟨entries, related, rfl⟩
    exact ⟨rfl, fields, entries, rfl, related, rfl⟩
  · obtain ⟨name, r⟩ := x
    rintro ⟨rfl, _, entries, ⟨⟩, related, rfl⟩
    exact ⟨entries, related, rfl⟩

/-- A property of each field of a record that may be missing. -/
def Each (P : Document → Prop) (value : Option Document) : Prop :=
  ∀ fields, value = some (.record fields) → ∀ e ∈ fields, P e.2

/-- A field that holds no scalar, or one that is a text. -/
def TextIfScalar (d : Document) (field : String) : Prop :=
  ∀ v, d.field? field = some v → v.scalarText?.isSome → v.text?.isSome

theorem textIfScalar_iff : d.TextIfScalar field ↔
    (d.field? field).bind text? = (d.field? field).bind scalarText? := by
  unfold TextIfScalar
  cases d.field? field with
  | none => simp
  | some v => cases v <;> simp [text?, scalarText?]

end Document

/-! ## Descriptions -/

/-- The stack id that a text field names. -/
def StackId.NamedIn (value : Option Document) (id : StackId) : Prop :=
  ∃ s, value = some (.text s) ∧ parse? s = some id

/-- The registered version that a document describes. -/
def RepositoryVersion.DescribedIn (d : Document) (v : RepositoryVersion) : Prop :=
  Topology.scalar? d "version" = some v.version ∧ v.stackId.NamedIn (d.field? "stack")

/-- The component that a document describes under a name. -/
structure ComponentTopology.DescribedIn (how : Reading) (name : String) (d : Document)
    (c : ComponentTopology) : Prop where
  name : c.name = name
  displayName : c.displayName = Topology.scalar? d "displayName"
  advertisesVersion : c.advertisesVersion = Topology.flag d "advertiseVersion" true
  hosts : d.Lists "hosts" c.placement.hosts
  unhealthy : d.Lists "unhealthy" c.placement.unhealthy
  master : c.placement.master = (d.field? "master").bind how.host?
  secondary : c.placement.secondary = (d.field? "secondary").bind how.host?

/-- The service that a document describes under a name, with its components in order. -/
structure ServiceTopology.DescribedIn (how : Reading) (name : String) (d : Document)
    (s : ServiceTopology) : Prop where
  name : s.name = name
  displayName : s.displayName = Topology.scalar? d "displayName"
  clientOnly : s.clientOnly = Topology.flag d "clientOnly" false
  version : s.version = Topology.scalar? d "version"
  components : Reads (d.field? "components")
    (Document.Entries (ComponentTopology.DescribedIn how)) [] s.components

/-- The configuration that a document describes under a type. -/
structure ConfigTopology.DescribedIn (how : Reading) (type : String) (d : Document)
    (c : ConfigTopology) : Prop where
  type : c.type = type
  service : Topology.scalar? d "service" = some c.service
  tag : c.tag = (Topology.scalar? d "tag").getD "version1"
  properties : Reads (d.field? "properties") (how.OfRecord fun _ v s => v.scalarText? = some s)
    Record.empty c.properties

/-- The default that a document holds; null is kept. -/
def Document.IsDefault (v : Document) : Option String → Prop
  | none => v = .null
  | some s => v.scalarText? = some s

/-- The defaults of a stack that a document describes. -/
def Topology.StackDescribedIn (how : Reading) (stack : String) (d : Document)
    (services : Record DefaultsByType) : Prop :=
  (StackId.parse? stack).isSome ∧
    how.OfRecord (fun _ => how.OfRecord fun _ => how.OfRecord fun _ => Document.IsDefault) d
      services

/-- The topology that a document describes. What is missing has its fallback. -/
structure Topology.DescribedIn (how : Reading) (d : Document) (t : Topology) : Prop where
  clusterName : scalar? d "clusterName" = some t.clusterName ∧ t.clusterName ≠ ""
  currentVersion : scalar? d "currentVersion" = some t.currentVersion ∧ t.currentVersion ≠ ""
  stack : t.stack.NamedIn (d.field? "stack")
  securityType : Reads (d.field? "securityType") (fun v mode => v = .text (Named.name mode)) .none
    t.securityType
  namenodeHA : Reads (d.field? "namenodeHA") (fun v b => v = .boolean b ∨ v = .null ∧ b = false)
    false t.namenodeHA
  repositoryVersions : ∃ v, d.field? "repositoryVersions" = some v ∧
    ListOf RepositoryVersion.DescribedIn v t.repositoryVersions
  services : Reads (d.field? "services") (Document.Entries (ServiceTopology.DescribedIn how)) []
    t.services
  configurations : Reads (d.field? "configurations")
    (Document.Entries (ConfigTopology.DescribedIn how)) [] t.configurations
  stackDefaults : Reads (d.field? "stackDefaults") (how.OfRecord (StackDescribedIn how))
    Record.empty t.stackDefaults

namespace Topology

open Checked

/-! ## Fields -/

section Fields

variable {d : Document} {value : Option Document} {place : Location} {field : String}

theorem requireScalar_gives : (requireScalar d field).Gives fun s =>
    scalar? d field = some s ∧ s ≠ "" := by
  unfold requireScalar
  split
  · next none => exact .of_error rfl (by simp [none])
  · next empty => exact .of_error rfl (by simp [empty])
  · next s filled found => exact .of_pure (by grind)

theorem requireStack_gives : (requireStack value place).Gives (StackId.NamedIn value) := by
  unfold requireStack StackId.NamedIn
  split
  · next s =>
    split
    · next id parsed => exact .of_pure (by simp [parsed, eq_comm])
    · next bad => exact .of_error rfl (by simp [bad])
  · next other => exact .of_error rfl (by rintro id ⟨s, rfl, -⟩; exact other s rfl)

theorem checkSecurity_gives : (checkSecurity d).Gives
    (Reads (d.field? "securityType") (fun v mode => v = .text (Named.name mode)) .none) := by
  unfold checkSecurity Reads
  cases d.field? "securityType" with
  | none => exact .of_pure fun _ => Iff.rfl
  | some v =>
    simp only [← text?_bind_ofName?_eq_some_iff]
    cases v.text?.bind (Named.ofName? (α := SecurityType)) with
    | none => exact .of_error rfl (by simp)
    | some mode => exact .of_pure (by simp [eq_comm])

theorem checkHighAvailability_accepts : (checkHighAvailability d).Accepts
    (Reads (d.field? "namenodeHA") (fun v b => v = .boolean b ∨ v = .null ∧ b = false) false) := by
  unfold checkHighAvailability
  cases d.field? "namenodeHA" with
  | none => exact .of_pure fun _ => Iff.rfl
  | some v =>
    cases v with
    | null => exact .of_pure (by simp)
    | boolean b => exact .of_pure (by simp [eq_comm])
    | number _ | text _ | list _ | record _ => exact .of_error rfl (by simp)

theorem hostNames?_eq_some_iff {hosts : List String} :
    hostNames? d field = some hosts ↔ d.Lists field hosts := by
  unfold hostNames? Document.Lists
  cases d.field? field with
  | none => simp [eq_comm]
  | some v =>
    cases v with
    | null => simp [eq_comm]
    | boolean _ | number _ | text _ | list _ | record _ => exact Document.texts?_eq_some_iff

/-- The fields of a record that are records themselves, checked one by one. -/
theorem eachField_accepts {α : Type} {f : String → Document → Location → Checked (Option α)}
    {R : String → Document → α → Prop} (h : ∀ key d place, (f key d place).Gives (R key d)) :
    (eachField value place f).Accepts (Reads value (Document.Entries R) []) := by
  unfold eachField fieldsOf Reads
  cases value with
  | none => exact .of_pure fun _ => Iff.rfl
  | some v =>
    cases v with
    | record fields =>
      refine (accepts_each (S := fun e a => e.2.fields?.isSome ∧ R e.1 e.2 a) id
        fun e _ => ?_).congr fun as => by simp [Document.Entries]
      obtain ⟨key, d⟩ := e
      cases d with
      | record _ => exact (h _ _ _).congr fun a => by simp [Document.fields?]
      | null | boolean _ | text _ | number _ | list _ =>
        exact .of_error rfl (by simp [Document.fields?])
    | null | boolean _ | text _ | number _ | list _ =>
      exact (accepts_error_bind rfl _).congr fun as => by simp [Document.Entries]

end Fields

/-! ## Parts of topologies -/

section Parts

variable {d : Document} {value : Option Document} {place : Location}

theorem checkVersion_gives (entry : Document × Nat) :
    (checkVersion entry).Gives fun v => v.DescribedIn entry.1 := by
  obtain ⟨d, n⟩ := entry
  unfold checkVersion
  cases d with
  | record fields =>
    dsimp only
    cases version : scalar? (.record fields) "version" with
    | none =>
      refine (requireStack_gives.gives_bind (f := fun _ => reported _ none) fun id _ =>
        Gives.of_error (R := fun _ => False) rfl fun _ => not_false).congr fun v => ?_
      simp [RepositoryVersion.DescribedIn, version]
    | some text =>
      refine (requireStack_gives.gives_bind fun id _ => Gives.of_pure
        (a := RepositoryVersion.mk text id) fun v => Iff.rfl).congr fun v => ?_
      cases v
      simp [RepositoryVersion.DescribedIn, version, eq_comm, and_comm]
  | null | boolean _ | number _ | text _ | list _ =>
    exact .of_error rfl fun v => by simp [RepositoryVersion.DescribedIn, scalar?, Document.field?]

theorem checkVersions_accepts : (checkVersions value).Accepts
    fun vs => ∃ v, value = some v ∧ ListOf RepositoryVersion.DescribedIn v vs := by
  unfold checkVersions
  cases value with
  | none => exact .of_error rfl (by simp)
  | some v =>
    cases v with
    | list items =>
      refine (accepts_each id fun e (_ : e ∈ items.zipIdx) => checkVersion_gives e).congr
        fun vs => ?_
      simp only [Document.forall₂_zipIdx_iff (S := RepositoryVersion.DescribedIn)]
      simp [ListOf]
    | null | boolean _ | number _ | text _ | record _ => exact .of_error rfl (by simp [ListOf])

theorem checkComponent_gives (name : String) (d : Document) (place : Location) :
    (checkComponent name d place).Gives (ComponentTopology.DescribedIn .checked name d) := by
  unfold checkComponent
  split
  · next hosts unhealthy hhosts hunhealthy =>
    refine .of_pure fun c => ⟨fun read => ?_, ?_⟩
    · obtain ⟨_, _, _, _, _, _, _⟩ := c
      obtain ⟨rfl, rfl, rfl, given, givenUnhealthy, rfl, rfl⟩ := read
      cases hhosts.symm.trans (hostNames?_eq_some_iff.2 given)
      cases hunhealthy.symm.trans (hostNames?_eq_some_iff.2 givenUnhealthy)
      rfl
    · rintro rfl
      exact ⟨rfl, rfl, rfl, hostNames?_eq_some_iff.1 hhosts, hostNames?_eq_some_iff.1 hunhealthy,
        rfl, rfl⟩
  · next spoilt =>
    refine .of_error rfl fun c read => ?_
    exact spoilt _ _ (hostNames?_eq_some_iff.2 read.hosts)
      (hostNames?_eq_some_iff.2 read.unhealthy)

theorem checkService_gives (name : String) (d : Document) (place : Location) :
    (checkService name d place).Gives (ServiceTopology.DescribedIn .checked name d) := by
  unfold checkService
  refine ((eachField_accepts checkComponent_gives).gives_bind fun components _ => Gives.of_pure
    fun s => Iff.rfl).congr fun s => ?_
  constructor
  · rintro ⟨components, read, rfl⟩
    exact ⟨rfl, rfl, rfl, rfl, read⟩
  · intro read
    refine ⟨s.components, read.components, ?_⟩
    rw [← read.displayName, ← read.clientOnly, ← read.version]
    cases read.name
    rfl

theorem checkProperty_gives (place : Location) (e : String × Document) :
    (checkProperty place e).Gives fun x => x.1 = e.1 ∧ e.2.scalarText? = some x.2 := by
  unfold checkProperty
  split
  · next s written => exact .of_pure fun x => by grind
  · next other => exact .of_error rfl (by simp [other])

theorem checkConfig_gives (type : String) (d : Document) (place : Location) :
    (checkConfig type d place).Gives (ConfigTopology.DescribedIn .checked type d) := by
  unfold checkConfig
  cases service : scalar? d "service" with
  | none => exact .of_error rfl fun c read => nomatch service.symm.trans read.service
  | some owner =>
    refine ((fieldsOf_accepts (R := fun _ v s => v.scalarText? = some s)
      (checkProperty_gives _)).gives_bind fun properties _ => Gives.of_pure
      (a := ConfigTopology.mk type owner ((scalar? d "tag").getD "version1") properties)
      fun s => Iff.rfl).congr fun c => ?_
    constructor
    · rintro ⟨properties, read, rfl⟩
      exact ⟨rfl, service, rfl, read⟩
    · intro read
      refine ⟨c.properties, read.properties, ?_⟩
      cases service.symm.trans read.service
      cases read.type
      rw [← read.tag]

/-! ## Defaults of stacks -/

theorem checkDefault_gives (place : Location) (e : String × Document) :
    (checkDefault place e).Gives fun x => x.1 = e.1 ∧ e.2.IsDefault x.2 := by
  obtain ⟨key, v⟩ := e
  unfold checkDefault Document.IsDefault
  cases v with
  | null =>
    refine .of_pure fun x => ?_
    obtain ⟨_, _ | _⟩ := x <;> simp [Document.scalarText?]
  | boolean _ | number _ | text _ =>
    refine .of_pure fun x => ?_
    obtain ⟨_, _ | _⟩ := x <;> simp [Document.scalarText?, eq_comm]
  | list _ | record _ =>
    refine .of_error rfl fun x => ?_
    obtain ⟨_, _ | _⟩ := x <;> simp [Document.scalarText?]

theorem checkDefaults_accepts (place : Location) (e : String × Document) :
    (checkDefaults place e).Accepts fun x =>
      x.1 = e.1 ∧ RecordOf (fun _ => Document.IsDefault) e.2 x.2 := by
  obtain ⟨key, v⟩ := e
  unfold checkDefaults
  cases v with
  | record fields =>
    refine (accepts_each (fun bs => (key, Reserved.record bs)) fun e (_ : e ∈ fields) =>
      checkDefault_gives _ e).congr fun x => Document.exists_named_iff
      (R := fun _ => Document.IsDefault)
  | null | boolean _ | number _ | text _ | list _ => exact .of_error rfl (by simp [RecordOf])

theorem checkServiceDefaults_gives (service : String) (d : Document) (place : Location) :
    (checkServiceDefaults service d place).Gives fun x =>
      x.1 = service ∧ RecordOf (fun _ => RecordOf fun _ => Document.IsDefault) d x.2 := by
  unfold checkServiceDefaults fieldsOf
  cases d with
  | record fields =>
    refine ((accepts_all fun e (_ : e ∈ fields) => checkDefaults_accepts place e).gives_bind
      fun entries _ => Gives.of_pure (a := (service, Reserved.record entries))
      fun x => Iff.rfl).congr fun x => Document.exists_named_iff
      (R := fun _ => RecordOf fun _ => Document.IsDefault)
  | null | boolean _ | number _ | text _ | list _ =>
    exact (accepts_error_bind rfl _).congr fun o => by simp [RecordOf]

theorem checkStack_gives (e : String × Document) : (checkStack e).Gives fun x =>
    x.1 = e.1 ∧ StackDescribedIn .checked e.1 e.2 x.2 := by
  obtain ⟨stack, v⟩ := e
  unfold checkStack StackDescribedIn
  dsimp only
  split
  · next bad => exact .of_error rfl fun x read => by simp_all
  · next good =>
    have parsed : (StackId.parse? stack).isSome := by
      rwa [Option.isNone_iff_eq_none, ← ne_eq, ← Option.isSome_iff_ne_none] at good
    simp only [parsed, true_and]
    cases v with
    | record fields =>
      refine ((eachField_accepts checkServiceDefaults_gives).gives_bind fun entries _ =>
        Gives.of_pure (a := (stack, Reserved.record entries)) fun x => Iff.rfl).congr fun x => ?_
      refine Iff.trans ?_ (Document.exists_named_iff
        (R := fun _ => RecordOf fun _ => RecordOf fun _ => Document.IsDefault))
      refine exists_congr fun entries => and_congr_left fun _ => ?_
      rw [Document.reads_some, Document.entries_record_iff]
      rintro _ _ _ ⟨-, _, _, rfl, -⟩
      rfl
    | null | boolean _ | number _ | text _ | list _ =>
      exact .of_error rfl fun x read => by simpa [Reading.checked, RecordOf] using read.2

/-- The name that nothing can be written under is no stack id, so no stack is left out. -/
theorem record_eq_ofList_of_stacks {fields : List (String × Document)}
    {entries : List (String × Record DefaultsByType)}
    (related : List.Forall₂ (fun e x => x.1 = e.1 ∧ StackDescribedIn .checked e.1 e.2 x.2) fields
      entries) : Reserved.record entries = .ofList entries := by
  refine Reserved.record_eq_ofList fun mem => ?_
  obtain ⟨x, hx, same⟩ := List.mem_map.1 mem
  obtain ⟨e, -, named, parsed, -⟩ := Document.exists_mem_of_forall₂ related hx
  rw [← named, same] at parsed
  exact absurd parsed (by decide +kernel)

theorem checkStackDefaults_accepts : (checkStackDefaults value).Accepts
    (Reads value (RecordOf (StackDescribedIn .checked)) Record.empty) := by
  unfold checkStackDefaults fieldsOf Reads
  cases value with
  | none => exact .of_pure fun _ => Iff.rfl
  | some v =>
    cases v with
    | record fields =>
      refine (accepts_each Record.ofList fun e (_ : e ∈ fields) => checkStack_gives e).congr
        fun r => ?_
      constructor
      · rintro ⟨entries, related, rfl⟩
        exact ⟨fields, entries, rfl, related, (record_eq_ofList_of_stacks related).symm⟩
      · rintro ⟨_, entries, ⟨⟩, related, rfl⟩
        exact ⟨entries, related, record_eq_ofList_of_stacks related⟩
    | null | boolean _ | text _ | number _ | list _ =>
      exact (accepts_error_bind rfl _).congr fun as => by simp [RecordOf]

end Parts

/-! ## Topologies -/

theorem checkFields_gives {d : Document} : (checkFields d).Gives (DescribedIn .checked d) := by
  unfold checkFields
  refine (requireScalar_gives.gives_bind fun clusterName _ => requireScalar_gives.gives_bind
    fun currentVersion _ => requireStack_gives.gives_bind fun stack _ =>
    checkSecurity_gives.gives_bind fun securityType _ => checkHighAvailability_accepts.gives_bind
    fun namenodeHA _ => checkVersions_accepts.gives_bind fun repositoryVersions _ =>
    (eachField_accepts checkService_gives).gives_bind fun services _ =>
    (eachField_accepts checkConfig_gives).gives_bind fun configurations _ =>
    checkStackDefaults_accepts.gives_bind fun stackDefaults _ => Gives.of_pure
      (a := Topology.mk clusterName securityType stack namenodeHA currentVersion repositoryVersions
        services configurations stackDefaults) fun t => Iff.rfl).congr fun t => ?_
  constructor
  · rintro ⟨clusterName, h₁, currentVersion, h₂, stack, h₃, securityType, h₄, namenodeHA, h₅,
      repositoryVersions, h₆, services, h₇, configurations, h₈, stackDefaults, h₉, rfl⟩
    exact ⟨h₁, h₂, h₃, h₄, h₅, h₆, h₇, h₈, h₉⟩
  · intro h
    exact ⟨_, h.clusterName, _, h.currentVersion, _, h.stack, _, h.securityType, _, h.namenodeHA, _,
      h.repositoryVersions, _, h.services, _, h.configurations, _, h.stackDefaults, rfl⟩

/-- A document is accepted exactly when it describes a topology, and then gives just that. -/
theorem check_gives {d : Document} : (check d).Gives (DescribedIn .checked d) := by
  cases d with
  | record fields =>
    constructor
    · intro ok
      have valid : Issues.valid (checkFields (.record fields)).issues = true := ok
      rw [check, if_pos valid]
      exact checkFields_gives.sound valid
    · intro o described
      rw [check, checkFields_gives.complete o described]
      rfl
  | null | boolean _ | number _ | text _ | list _ =>
    exact .of_error rfl fun t described => by
      simpa [scalar?, Document.field?] using described.clusterName

end Topology

end ClusterUpgrade
