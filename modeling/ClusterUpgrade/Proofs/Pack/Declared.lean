import ClusterUpgrade.Pack.Check
import ClusterUpgrade.Proofs.Checked

/-!
# What a pack document declares

`Pack.DeclaredIn` says which pack a document declares, part by part: `DeclaredIn` relates each kind
of part to its own piece of the document. The check of a document accepts just these parts, with one
lemma for each of its functions, and so it gives a pack exactly when the document declares it
(`Pack.check_value_iff`). The issues of such a document are its warnings (`Pack.check_of_declared`).
-/

namespace ClusterUpgrade

open Document (Reads ListOf RecordOf)

instance : LawfulNamed TaskKind := ⟨fun a => by cases a <;> decide⟩

instance : LawfulNamed FunctionName := ⟨fun a => by cases a <;> decide⟩

instance : LawfulNamed Comparison := ⟨fun a => by cases a <;> decide⟩

/-! ## Declarations -/

/-- The condition that a document declares. -/
def Condition.DeclaredIn (d : Document) : Condition → Prop
  | security mode =>
    d.field? "type" = some (.text "security") ∧ d.HasWord "securityType" mode
  | config configType property comparison value =>
    d.field? "type" = some (.text "config") ∧ d.HasText "configType" configType ∧
      d.HasText "property" property ∧ d.HasWord "comparison" comparison ∧
      d.field? "value" = value.map .text

/-- The service and the components that a document declares. -/
def OrderedService.DeclaredIn (d : Document) (s : OrderedService) : Prop :=
  d.HasText "serviceName" s.serviceName ∧ d.Lists "components" s.components

/-- The grouping that a document declares. What is missing has its fallback. -/
structure Grouping.DeclaredIn (d : Document) (g : Grouping) : Prop where
  name : d.HasText "name" g.name
  kind : Reads (d.field? "kind") (fun v w => v = .text w) "default" g.kind.word
  function : ∀ f, g.kind.function? = some f → d.HasWord "function" f
  scope : Reads (d.field? "scope") (fun v a => v = .text (Named.name a)) .complete g.scope
  title : Reads (d.field? "title") (fun v t => v = .text t) g.name g.title
  condition : Reads (d.field? "condition") (fun v o => ∃ c, o = some c ∧ c.DeclaredIn v) none
    g.condition
  services : Reads (d.field? "services") (ListOf OrderedService.DeclaredIn) [] g.services
  skippable : Reads (d.field? "skippable") (fun v b => v = .boolean b) false g.skippable
  allowRetry : Reads (d.field? "allowRetry") (fun v b => v = .boolean b) true g.allowRetry
  supportsAutoSkip : Reads (d.field? "supportsAutoSkipOnFailure") (fun v b => v = .boolean b) true
    g.supportsAutoSkip
  performServiceCheck : Reads (d.field? "performServiceCheck") (fun v b => v = .boolean b) true
    g.performServiceCheck

/-- The field that has the groupings of a direction. -/
def Direction.field : Direction → String
  | upgrade => "upgrade"
  | downgrade => "downgrade"

/-- The groupings of a direction; their names tell them apart. -/
def Grouping.DeclaredAll (v : Document) (gs : List Grouping) : Prop :=
  ListOf Grouping.DeclaredIn v gs ∧ (gs.map (·.name)).Nodup

/-- The payload that a task has for its kind. -/
def Action.DeclaredIn (d : Document) : Action → Prop
  | manual messages => d.Lists "messages" messages
  | execute command => d.HasText "command" command
  | configure change => d.HasText "changeId" change
  | restart | start | stop | serviceCheck => True

/-- The task that a document declares. -/
def Task.DeclaredIn (d : Document) (t : Task) : Prop :=
  d.HasWord "type" t.kind ∧ t.action.DeclaredIn d ∧ d.field? "summary" = t.summary.map .text

/-- The processing of a component. -/
def Processing.DeclaredIn (component : String) (d : Document) (p : Processing) : Prop :=
  p.name = component ∧ d.fields?.isSome ∧
    Reads (d.field? "tasks") (ListOf Task.DeclaredIn) [] p.tasks

/-- The pack that a document declares. -/
structure Pack.DeclaredIn (d : Document) (p : Pack) : Prop where
  name : d.HasText "name" p.name
  orchestration : d.HasWord "type" p.orchestration
  targetStack : d.HasText "targetStack" p.targetStack
  parsed : (StackId.parse? p.targetStack).isSome
  processing : Reads (d.field? "processing") (RecordOf fun _ => RecordOf Processing.DeclaredIn)
    Record.empty p.processing
  upgrade : ∃ v, (d.field? "groups").bind (·.field? "upgrade") = some v ∧
    Grouping.DeclaredAll v p.upgrade
  downgrade : Reads ((d.field? "groups").bind (·.field? "downgrade"))
    (fun v o => ∃ gs, o = some gs ∧ Grouping.DeclaredAll v gs) none p.downgrade

namespace Pack

open Checked

/-! ## Parts of groupings -/

section Grouping

variable {d : Document} {place : Location} {field : String}

theorem checkTexts_gives : (checkTexts d field place).Gives (d.Lists field) := by
  unfold checkTexts Document.Lists
  cases d.field? field with
  | none => exact .of_pure fun _ => Iff.rfl
  | some v =>
    cases v with
    | null => exact .of_pure fun _ => Iff.rfl
    | boolean _ | number _ | text _ | list _ | record _ =>
      simp only [← Document.texts?_eq_some_iff]
      split
      · next given => exact .of_pure (by simp [given, eq_comm])
      · next other => exact .of_error rfl (by simp [other])

theorem checkCondition_gives : (checkCondition d place).Gives fun c => c.DeclaredIn d := by
  unfold checkCondition
  cases d with
  | record fields =>
    dsimp only
    cases kind : (Document.record fields).field? "type" with
    | none => exact .of_error rfl fun c => by cases c <;> simp [Condition.DeclaredIn, kind]
    | some v =>
      dsimp only
      cases chosen : v.choice? ["security", "config"] with
      | none =>
        refine .of_error rfl fun c declared => ?_
        have word : ∀ w, v = .text w → w ∉ ["security", "config"] := by
          intro w same mem
          rw [Document.choice?_eq_some_iff.2 ⟨same, mem⟩] at chosen
          cases chosen
        cases c <;> simp [Condition.DeclaredIn, kind] at declared <;> simp [declared] at word
      | some w =>
        obtain ⟨rfl, mem⟩ := Document.choice?_eq_some_iff.1 chosen
        rcases List.mem_pair.1 mem with rfl | rfl
        · refine (requireWord_gives.gives_bind fun (mode : SecurityType) _ =>
            Gives.of_pure (a := Condition.security mode) fun c => Iff.rfl).congr fun c => ?_
          cases c <;> simp [Condition.DeclaredIn, kind]
        · refine (requireText_gives.gives_bind fun t _ => requireText_gives.gives_bind fun p _ =>
            requireWord_gives.gives_bind fun comparison _ => optionalText_accepts.gives_bind
            fun value _ => Gives.of_pure fun c => Iff.rfl).congr fun c => ?_
          cases c <;> simp [Condition.DeclaredIn, kind]
  | null | boolean _ | number _ | text _ | list _ =>
    exact .of_error rfl fun c => by cases c <;> simp [Condition.DeclaredIn, Document.field?]

theorem checkService_gives (entry : Document × Nat) :
    (checkService place entry).Gives fun s => s.DeclaredIn entry.1 := by
  obtain ⟨d, n⟩ := entry
  unfold checkService
  cases d with
  | record fields =>
    refine (requireText_gives.gives_bind fun name _ => checkTexts_gives.gives_bind
      fun components _ => Gives.of_pure (a := OrderedService.mk name components)
      fun s => Iff.rfl).congr fun s => ?_
    cases s
    simp [OrderedService.DeclaredIn]
  | null | boolean _ | number _ | text _ | list _ =>
    exact .of_error rfl fun s => by
      simp [OrderedService.DeclaredIn, Document.HasText, Document.field?]

theorem checkServices_accepts {value : Option Document} :
    (checkServices value place).Accepts (Reads value (ListOf OrderedService.DeclaredIn) []) :=
  itemsOf_accepts checkService_gives

/-- The word for the kind of a grouping, and the function that a word calls for. -/
theorem checkKindWord_gives : (checkKindWord d place).Gives
    fun w => w ∈ kindWords ∧ Reads (d.field? "kind") (fun v w => v = .text w) "default" w := by
  unfold checkKindWord Reads
  cases d.field? "kind" with
  | none => exact .of_pure (by simp [kindWords])
  | some v =>
    simp only [and_comm (a := _ ∈ kindWords), ← Document.choice?_eq_some_iff]
    cases v.choice? kindWords with
    | none => exact .of_error rfl (by simp)
    | some w => exact .of_pure (by simp [eq_comm])

theorem word_mem_kindWords (k : GroupingKind) : k.word ∈ kindWords := by
  cases k <;> simp [GroupingKind.word, kindWords]

theorem checkKind_gives {w : String} (mem : w ∈ kindWords) : (checkKind d place w).Gives
    fun k => k.word = w ∧ ∀ f, k.function? = some f → d.HasWord "function" f := by
  unfold checkKind
  split
  · next named =>
    refine (requireWord_gives.gives_bind fun f _ => Gives.of_pure (a := GroupingKind.function f)
      fun k => Iff.rfl).congr fun k => ?_
    cases k <;> simp [named, GroupingKind.word, GroupingKind.function?]
  · next named =>
    refine Gives.of_pure fun k => ?_
    simp only [kindWords, List.mem_cons, named, List.not_mem_nil, or_false, false_or] at mem
    rcases mem with rfl | rfl <;> cases k <;> simp [GroupingKind.word, GroupingKind.function?]

theorem checkGroupCondition_accepts {value : Option Document} :
    (checkGroupCondition value place).Accepts
      (Reads value (fun v o => ∃ c, o = some c ∧ c.DeclaredIn v) none) := by
  cases value with
  | none => exact .of_pure fun _ => Iff.rfl
  | some v => exact checkCondition_gives

theorem checkGrouping_gives : (checkGrouping d place).Gives fun g => g.DeclaredIn d := by
  unfold checkGrouping
  cases d with
  | record fields =>
    refine (requireText_gives.gives_bind fun name _ => checkKindWord_gives.gives_bind
      fun word known => wordOr_gives.gives_bind fun scope _ => optionalText_accepts.gives_bind
      fun title _ => checkGroupCondition_accepts.gives_bind fun condition _ =>
      checkServices_accepts.gives_bind fun services _ => optionalBoolean_accepts.gives_bind
      fun skippable _ => optionalBoolean_accepts.gives_bind fun allowRetry _ =>
      optionalBoolean_accepts.gives_bind fun supportsAutoSkip _ =>
      optionalBoolean_accepts.gives_bind fun performServiceCheck _ =>
      (checkKind_gives known.1).gives_bind fun kind _ => Gives.of_pure
        (a := Grouping.mk name (title.getD name) scope condition skippable allowRetry
          supportsAutoSkip performServiceCheck services kind) fun g => Iff.rfl).congr fun g => ?_
    constructor
    · rintro ⟨name, hname, word, hword, scope, hscope, title, htitle, condition, hcondition,
        services, hservices, skippable, hskippable, allowRetry, hallowRetry, supportsAutoSkip,
        hsupportsAutoSkip, performServiceCheck, hperformServiceCheck, kind, ⟨rfl, hfunction⟩, rfl⟩
      exact ⟨hname, hword.2, hfunction, hscope,
        Document.reads_text_iff.2 ⟨title, htitle, rfl⟩, hcondition, hservices, hskippable,
        hallowRetry, hsupportsAutoSkip, hperformServiceCheck⟩
    · intro h
      obtain ⟨title, htitle, named⟩ := Document.reads_text_iff.1 h.title
      refine ⟨g.name, h.name, g.kind.word, ⟨word_mem_kindWords _, h.kind⟩, g.scope, h.scope, title,
        htitle, g.condition, h.condition, g.services, h.services, g.skippable, h.skippable,
        g.allowRetry, h.allowRetry, g.supportsAutoSkip, h.supportsAutoSkip, g.performServiceCheck,
        h.performServiceCheck, g.kind, ⟨rfl, h.function⟩, ?_⟩
      rw [← named]
  | null | boolean _ | number _ | text _ | list _ =>
    exact .of_error rfl fun g declared => by
      simpa [Document.HasText, Document.field?] using declared.name

theorem lookup_cons_eq_none_iff {α : Type} {key old : String} {value : α}
    {taken : List (String × α)} :
    ((old, value) :: taken).lookup key = none ↔ key ≠ old ∧ taken.lookup key = none := by
  rw [lookup_entry_cons]
  split <;> simp_all

/-- A grouping whose name is free, before groupings that are told apart from it too. -/
theorem nodup_names_cons_iff {taken : List (String × Location)} {g : Grouping}
    {more : List Grouping} {here : Location} (free : taken.lookup g.name = none) :
    ((g :: more).map (·.name)).Nodup ∧ (∀ h ∈ g :: more, taken.lookup h.name = none) ↔
      (more.map (·.name)).Nodup ∧
        ∀ h ∈ more, ((g.name, here) :: taken).lookup h.name = none := by
  simp only [List.map_cons, List.nodup_cons, List.mem_map, not_exists, not_and,
    List.forall_mem_cons, lookup_cons_eq_none_iff, free, true_and]
  constructor
  · rintro ⟨⟨apart, nodup⟩, unused⟩
    exact ⟨nodup, fun h mem => ⟨apart h mem, unused h mem⟩⟩
  · rintro ⟨nodup, others⟩
    exact ⟨⟨fun h mem => (others h mem).1, nodup⟩, fun h mem => (others h mem).2⟩

/-- The entries that are left, after groupings that have taken some names. -/
theorem checkEntries_accepts (taken : List (String × Location)) (entries : List (Document × Nat)) :
    (checkEntries place taken entries).Accepts fun gs =>
      List.Forall₂ (fun e g => g.DeclaredIn e.1) entries gs ∧ (gs.map (·.name)).Nodup ∧
        ∀ g ∈ gs, taken.lookup g.name = none := by
  induction entries generalizing taken with
  | nil =>
    refine .of_pure fun gs => ?_
    rw [List.forall₂_nil_left_iff]
    exact ⟨And.left, fun none => ⟨none, by simp [none]⟩⟩
  | cons entry rest ih =>
    unfold checkEntries
    refine (checkGrouping_gives.bind (S := fun g gs => ∃ more, gs = g :: more ∧
      List.Forall₂ (fun e g => g.DeclaredIn e.1) rest more ∧ (gs.map (·.name)).Nodup ∧
        ∀ g ∈ gs, taken.lookup g.name = none) fun g hg => ?_).congr fun gs => ?_
    · dsimp only
      split
      · next earlier used =>
        refine (accepts_error_bind (i := .duplicateGroup (place.index entry.2) g.name earlier)
          (a := ()) rfl _).congr fun gs => iff_of_false id ?_
        rintro ⟨more, rfl, -, -, free⟩
        rw [free g List.mem_cons_self] at used
        cases used
      · next free =>
        refine ((ih _).bind fun more _ => Accepts.of_pure (a := g :: more) fun gs => Iff.rfl).congr
          fun gs => ?_
        constructor
        · rintro ⟨more, ⟨related, told⟩, rfl⟩
          exact ⟨more, rfl, related, (nodup_names_cons_iff free).2 told⟩
        · rintro ⟨more, rfl, related, told⟩
          exact ⟨more, ⟨related, (nodup_names_cons_iff free).1 told⟩, rfl⟩
    · rw [List.forall₂_cons_left_iff]
      constructor
      · rintro ⟨g, hg, more, rfl, related, told⟩
        exact ⟨⟨g, more, hg, related, rfl⟩, told⟩
      · rintro ⟨⟨g, more, hg, related, rfl⟩, told⟩
        exact ⟨g, hg, more, rfl, related, told⟩

theorem checkGroupings_accepts :
    (checkGroupings d place).Accepts (Grouping.DeclaredAll d) := by
  unfold checkGroupings Grouping.DeclaredAll ListOf
  cases d with
  | list items =>
    refine (checkEntries_accepts [] items.zipIdx).congr fun gs => ?_
    rw [Document.forall₂_zipIdx_iff (S := Grouping.DeclaredIn)]
    simp
  | null | boolean _ | number _ | text _ | record _ => exact .of_error rfl (by simp)

theorem checkUpgrade_accepts {value : Option Document} : (checkUpgrade value place).Accepts
    fun gs => ∃ v, value = some v ∧ Grouping.DeclaredAll v gs := by
  unfold checkUpgrade
  cases value with
  | none => exact .of_error rfl (by simp)
  | some v => exact checkGroupings_accepts.congr (by simp)

theorem checkDowngrade_accepts {value : Option Document} : (checkDowngrade value place).Accepts
    (Reads value (fun v o => ∃ gs, o = some gs ∧ Grouping.DeclaredAll v gs) none) := by
  unfold checkDowngrade Reads
  cases value with
  | none => exact .of_pure fun _ => Iff.rfl
  | some v =>
    refine (checkGroupings_accepts.bind fun gs _ => Accepts.of_pure (a := some gs) fun o =>
      Iff.rfl).congr fun o => ?_
    simp only [and_comm]

theorem checkGroups_accepts {groups : Option Document} : (checkGroups groups).Accepts fun gs =>
    (∃ v, groups.bind (·.field? "upgrade") = some v ∧ Grouping.DeclaredAll v gs.1) ∧
      Reads (groups.bind (·.field? "downgrade"))
        (fun v o => ∃ gs, o = some gs ∧ Grouping.DeclaredAll v gs) none gs.2 := by
  unfold checkGroups
  cases groups with
  | none => exact .of_error rfl (by simp)
  | some v =>
    cases v with
    | record fields =>
      refine (checkUpgrade_accepts.bind fun up _ => checkDowngrade_accepts.bind fun down _ =>
        Accepts.of_pure (a := (up, down)) fun gs => Iff.rfl).congr fun gs => ?_
      simp [Prod.ext_iff]
    | null | boolean _ | number _ | text _ | list _ =>
      exact .of_error rfl fun gs => by simp [Document.field?]

end Grouping

/-! ## Parts of processing -/

section Processing

variable {d : Document} {place : Location}

/-- A task with the payload of its kind. -/
theorem checkAction_gives (kind : TaskKind) :
    (checkAction d place kind).Gives fun a => a.kind = kind ∧ a.DeclaredIn d := by
  unfold checkAction
  cases kind with
  | manual =>
    refine (checkTexts_gives.gives_bind fun messages _ => Gives.of_pure
      (a := Action.manual messages) fun a => Iff.rfl).congr fun a => ?_
    cases a <;> simp [Action.kind, Action.DeclaredIn]
  | execute =>
    refine (requireText_gives.gives_bind fun command _ => Gives.of_pure
      (a := Action.execute command) fun a => Iff.rfl).congr fun a => ?_
    cases a <;> simp [Action.kind, Action.DeclaredIn]
  | configure =>
    refine (requireText_gives.gives_bind fun change _ => Gives.of_pure
      (a := Action.configure change) fun a => Iff.rfl).congr fun a => ?_
    cases a <;> simp [Action.kind, Action.DeclaredIn]
  | restart | start | stop | serviceCheck =>
    exact Gives.of_pure fun a => by cases a <;> simp [Action.kind, Action.DeclaredIn]

theorem checkTask_gives (entry : Document × Nat) :
    (checkTask place entry).Gives fun t => t.DeclaredIn entry.1 := by
  obtain ⟨d, n⟩ := entry
  unfold checkTask
  cases d with
  | record fields =>
    refine (requireWord_gives.gives_bind fun (kind : TaskKind) _ => optionalText_accepts.gives_bind
      fun summary _ => (checkAction_gives kind).gives_bind fun action _ => Gives.of_pure
        (a := Task.mk action summary) fun t => Iff.rfl).congr fun t => ?_
    constructor
    · rintro ⟨_, word, summary, written, action, ⟨rfl, payload⟩, rfl⟩
      exact ⟨word, payload, written⟩
    · rintro ⟨word, payload, written⟩
      exact ⟨t.kind, word, t.summary, written, t.action, ⟨rfl, payload⟩, rfl⟩
  | null | boolean _ | number _ | text _ | list _ =>
    exact .of_error rfl fun t => by simp [Task.DeclaredIn, Document.HasWord, Document.field?]

theorem checkTasks_accepts {value : Option Document} :
    (checkTasks value place).Accepts (Reads value (ListOf Task.DeclaredIn) []) :=
  itemsOf_accepts checkTask_gives

theorem checkComponent_gives (entry : String × Document) : (checkComponent place entry).Gives
    fun x => x.1 = entry.1 ∧ x.2.DeclaredIn entry.1 entry.2 := by
  obtain ⟨name, d⟩ := entry
  unfold checkComponent
  cases d with
  | record fields =>
    refine (checkTasks_accepts.gives_bind fun tasks _ => Gives.of_pure
      (a := (name, Processing.mk name tasks)) fun x => Iff.rfl).congr fun x => ?_
    constructor
    · rintro ⟨tasks, read, rfl⟩
      exact ⟨rfl, rfl, rfl, read⟩
    · obtain ⟨key, p⟩ := x
      rintro ⟨rfl, named, -, read⟩
      obtain rfl : p.name = key := named
      exact ⟨p.tasks, read, rfl⟩
  | null | boolean _ | number _ | text _ | list _ =>
    exact .of_error rfl fun x => by simp [Processing.DeclaredIn, Document.fields?]

theorem checkServiceProcessing_gives (entry : String × Document) :
    (checkServiceProcessing place entry).Gives
      fun x => x.1 = entry.1 ∧ RecordOf Processing.DeclaredIn entry.2 x.2 := by
  obtain ⟨name, d⟩ := entry
  unfold checkServiceProcessing RecordOf
  cases d with
  | record fields =>
    refine (accepts_each (fun cs => some (name, Reserved.record cs)) fun e (_ : e ∈ fields) =>
      checkComponent_gives e).congr fun o => ?_
    constructor
    · rintro ⟨entries, related, rfl⟩
      exact ⟨_, rfl, rfl, fields, entries, rfl, related, rfl⟩
    · rintro ⟨⟨_, r⟩, rfl, rfl, _, entries, ⟨⟩, related, rfl⟩
      exact ⟨entries, related, rfl⟩
  | null | boolean _ | number _ | text _ | list _ => exact .of_error rfl fun x => by simp

theorem checkProcessing_accepts {value : Option Document} : (checkProcessing value).Accepts
    (Reads value (RecordOf fun _ => RecordOf Processing.DeclaredIn) Record.empty) :=
  fieldsOf_accepts checkServiceProcessing_gives

end Processing

/-! ## Packs -/

theorem checkTargetStack_gives {d : Document} : (checkTargetStack d).Gives
    fun t => d.HasText "targetStack" t ∧ (StackId.parse? t).isSome := by
  unfold checkTargetStack
  refine (requireText_gives.gives_bind (S := fun t u => u = t ∧ (StackId.parse? t).isSome)
    fun t _ => ?_).congr fun t => ?_
  · dsimp only
    split
    · next bad =>
      refine (accepts_error_bind (i := .invalidStack (Location.top "targetStack") t) (a := ()) rfl
        _).congr fun o => ?_
      simp [Option.isNone_iff_eq_none.1 bad]
    · next good =>
      refine Gives.of_pure fun u => and_iff_left ?_
      exact Option.isSome_iff_ne_none.2 fun none => good (Option.isNone_iff_eq_none.2 none)
  · constructor
    · rintro ⟨_, text, rfl, parsed⟩
      exact ⟨text, parsed⟩
    · rintro ⟨text, parsed⟩
      exact ⟨t, text, rfl, parsed⟩

/-! ## Warnings -/

/-- Where a document orders a service: the grouping of a direction and the item in it. -/
def servicePlace (direction : String) (grouping service : Nat) : Location :=
  ((((Location.top "groups").field direction).index grouping).field "services").index service

theorem servicePlace_inj {direction direction' : String} {i i' j j' : Nat}
    (same : servicePlace direction i j = servicePlace direction' i' j') :
    direction = direction' ∧ i = i' ∧ j = j' := by
  simpa [servicePlace, Location.field, Location.index, Location.top] using same

/-- What a pack orders without processing, where some names show through. Only rolling packs are
warned. -/
def warnings (p : Pack) (through : List String) : List Issue :=
  if p.orchestration = .rolling then
    unprocessedIn p.processing through "upgrade" p.upgrade ++
      unprocessedIn p.processing through "downgrade" (p.downgrade.getD [])
  else []

theorem mem_unprocessedIn_iff {processing : ProcessingMap} {through : List String}
    {direction : String} {gs : List Grouping} {issue : Issue} :
    issue ∈ unprocessedIn processing through direction gs ↔
      ∃ i g j s, gs[i]? = some g ∧ g.kind ≠ .serviceCheck ∧ g.services[j]? = some s ∧
        isProcessed processing through s.serviceName = false ∧
        issue = .unprocessedService (servicePlace direction i j) s.serviceName := by
  have each (i : Nat) (g : Grouping) :
      issue ∈ unprocessed processing through ((Location.top "groups").field direction) (g, i) ↔
        g.kind ≠ .serviceCheck ∧ ∃ j s, g.services[j]? = some s ∧
          isProcessed processing through s.serviceName = false ∧
          issue = .unprocessedService (servicePlace direction i j) s.serviceName := by
    unfold unprocessed servicePlace
    split
    · next checks => exact iff_of_false List.not_mem_nil fun h => h.1 checks
    · next other =>
      simp only [List.mem_filterMap, Prod.exists, List.mem_zipIdx_iff_getElem?]
      constructor
      · rintro ⟨s, j, there, found⟩
        split at found
        · cases found
        · next bare =>
          exact ⟨other, j, s, there, eq_false_of_ne_true bare, (Option.some.inj found).symm⟩
      · rintro ⟨-, j, s, there, bare, rfl⟩
        exact ⟨s, j, there, if_neg (ne_true_of_eq_false bare)⟩
  simp only [unprocessedIn, List.mem_flatMap, Prod.exists, List.mem_zipIdx_iff_getElem?, each]
  constructor
  · rintro ⟨g, i, there, kind, j, s, rest⟩
    exact ⟨i, g, j, s, there, kind, rest⟩
  · rintro ⟨i, g, j, s, there, kind, rest⟩
    exact ⟨g, i, there, kind, j, s, rest⟩

theorem not_isError_of_mem_unprocessedIn {processing : ProcessingMap} {through : List String}
    {direction : String} {gs : List Grouping} {issue : Issue}
    (mem : issue ∈ unprocessedIn processing through direction gs) : issue.isError = false := by
  obtain ⟨_, _, _, _, -, -, -, -, rfl⟩ := mem_unprocessedIn_iff.1 mem
  rfl

theorem valid_warnings (p : Pack) (through : List String) :
    Issues.valid (p.warnings through) = true := by
  rw [Issues.valid, List.isEmpty_iff, Issues.errors, List.filter_eq_nil_iff]
  intro issue mem
  unfold warnings at mem
  split at mem
  · rw [Bool.not_eq_true]
    exact (List.mem_append.1 mem).elim not_isError_of_mem_unprocessedIn
      not_isError_of_mem_unprocessedIn
  · cases mem

/-! ## Accepted packs -/

variable {d : Document} {p : Pack}

theorem checkFields_of_declared (declared : DeclaredIn d p) :
    checkFields d = ⟨some p, p.warnings (shownThrough (d.field? "processing"))⟩ := by
  unfold checkFields
  rw [requireText_gives.bind_eq ⟨_, rfl, declared.name⟩,
    requireWord_gives.bind_eq ⟨_, rfl, declared.orchestration⟩,
    checkTargetStack_gives.bind_eq ⟨_, rfl, declared.targetStack, declared.parsed⟩,
    checkProcessing_accepts.bind_eq declared.processing,
    checkGroups_accepts.bind_eq (a := (p.upgrade, p.downgrade))
      ⟨declared.upgrade, declared.downgrade⟩]
  unfold warnings
  dsimp only
  split
  · next rolling =>
    rw [if_pos (Option.some.inj rolling)]
    exact congrArg (Checked.mk (some p)) (List.append_nil _)
  · next other =>
    rw [if_neg fun rolling => other (congrArg some rolling)]
    rfl

theorem exists_declared_of_checkFields (ok : Issues.valid (checkFields d).issues = true) :
    ∃ p, DeclaredIn d p := by
  unfold checkFields at ok
  obtain ⟨⟨name, -, hname⟩, ok⟩ := requireText_gives.sound_bind ok
  obtain ⟨⟨orchestration, -, horchestration⟩, ok⟩ := requireWord_gives.sound_bind ok
  obtain ⟨⟨targetStack, -, htarget, parsed⟩, ok⟩ := checkTargetStack_gives.sound_bind ok
  obtain ⟨hprocessing, ok⟩ := checkProcessing_accepts.sound_bind ok
  obtain ⟨hgroups, -⟩ := checkGroups_accepts.sound_bind ok
  exact ⟨⟨name, orchestration, targetStack, _, _, _⟩, hname, horchestration, htarget, parsed,
    hprocessing, hgroups.1, hgroups.2⟩

/-- The pack that a document declares is accepted, and what is reported are its warnings. -/
theorem check_of_declared (declared : DeclaredIn d p) :
    check d = ⟨some p, p.warnings (shownThrough (d.field? "processing"))⟩ := by
  have fields := checkFields_of_declared declared
  cases d with
  | record _ => rw [check, fields, if_pos (valid_warnings _ _)]
  | null | boolean _ | number _ | text _ | list _ =>
    exact nomatch declared.name.1

theorem exists_declared_of_valid (ok : Issues.valid (check d).issues = true) :
    ∃ p, DeclaredIn d p := by
  cases d with
  | record _ => exact exists_declared_of_checkFields ok
  | null | boolean _ | number _ | text _ | list _ => cases ok

/-- The pack that is given is the one that the document declares. -/
theorem check_value_iff : (check d).value = some p ↔ DeclaredIn d p := by
  constructor
  · intro h
    have ok : Issues.valid (check d).issues = true := by
      cases d with
      | record _ =>
        by_contra bad
        rw [check] at h bad
        dsimp only at h bad
        rw [if_neg bad] at h
        cases h
      | null | boolean _ | number _ | text _ | list _ => cases h
    obtain ⟨q, declared⟩ := exists_declared_of_valid ok
    rw [check_of_declared declared] at h
    exact Option.some.inj h ▸ declared
  · intro declared
    rw [check_of_declared declared]

/-- The document of a rolling pack that orders ZooKeeper and restarts a component of a service. -/
def zookeeperDocument (service component : String) : Document :=
  .record [("name", .text "zookeeper"), ("type", .text "ROLLING"),
    ("targetStack", .text "HDP-2.3"),
    ("groups", .record [("upgrade", .list [.record [("name", .text "SERVERS"),
      ("services", .list [.record [("serviceName", .text "ZOOKEEPER"),
        ("components", .texts ["ZOOKEEPER_SERVER"])]])]])]),
    ("processing", .record [(service, .record [(component, .record
      [("tasks", .list [.record [("type", .text "RESTART")]])])])])]

end Pack

end ClusterUpgrade
