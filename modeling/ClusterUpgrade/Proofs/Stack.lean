import ClusterUpgrade.Catalog
import ClusterUpgrade.Pack.Select
import ClusterUpgrade.Proofs.Reconcile.Outcome
import ClusterUpgrade.Proofs.Topology

/-!
# Stack ids and their texts

A text is read as a stack id by its last dash (`StackId.splitLastDash_eq_some_iff`), so what is read
has no dash in its version, and only such an id comes back from its text
(`StackId.parse?_eq_some_iff`). Formatting runs distinct ids together in general, since both parts
may hold dashes, but never two that have been read. So the comparison of ids, on which
reconciliation relies, agrees with the texts by which the store, the catalog and the choice of packs
tell stacks apart (`StackId.Agreement`).
-/

namespace ClusterUpgrade

/-- A service whose configuration is looked at is left as it is exactly when it stays on its
stack. -/
theorem Reconcile.Accounted.unchanged_iff {run : UpgradeRun} {options : ReconcileOptions}
    {before : List String} {c : ServiceChange} (h : Accounted run options before c)
    (processed : c.change ≠ .notProcessed) : c.change = .unchanged ↔ c.source = c.target := by
  have going : ¬ Ended run options before := fun ended => processed (h.notProcessed ended)
  refine ⟨fun unchanged => ?_, h.unchanged going⟩
  by_contra differs
  cases direction : run.direction with
  | upgrade =>
    obtain ⟨m, merged⟩ := h.merged going differs direction
    rw [merged] at unchanged
    cases unchanged
  | downgrade =>
    rw [h.reverted going differs direction] at unchanged
    cases unchanged

namespace StackId

/-! ## The last dash -/

theorem splitLastDash_eq_none_iff {chars : List Char} :
    splitLastDash chars = none ↔ '-' ∉ chars := by
  induction chars with
  | nil => simp [splitLastDash]
  | cons c rest ih =>
    rw [splitLastDash, List.mem_cons, not_or]
    cases cut : splitLastDash rest with
    | none => simp [ih.1 cut, eq_comm]
    | some p =>
      have dashed : '-' ∈ rest := by
        by_contra undashed
        rw [ih.2 undashed] at cut
        cases cut
      simp [dashed]

theorem splitLastDash_append (name : List Char) {version : List Char} (undashed : '-' ∉ version) :
    splitLastDash (name ++ '-' :: version) = some (name, version) := by
  induction name with
  | nil => simp [splitLastDash, splitLastDash_eq_none_iff.2 undashed]
  | cons c rest ih => simp [splitLastDash, ih]

theorem splitLastDash_eq_some_iff {chars name version : List Char} :
    splitLastDash chars = some (name, version) ↔
      chars = name ++ '-' :: version ∧ '-' ∉ version := by
  constructor
  · intro cut
    refine ⟨append_of_splitLastDash cut, ?_⟩
    induction chars generalizing name with
    | nil => cases cut
    | cons c rest ih =>
      rw [splitLastDash] at cut
      cases later : splitLastDash rest with
      | some p =>
        simp only [later, Option.some.injEq, Prod.mk.injEq] at cut
        obtain ⟨-, rfl⟩ := cut
        exact ih later
      | none =>
        simp only [later, Option.ite_none_right_eq_some, Option.some.injEq, Prod.mk.injEq] at cut
        obtain ⟨-, -, rfl⟩ := cut
        exact splitLastDash_eq_none_iff.1 later
  · rintro ⟨rfl, undashed⟩
    exact splitLastDash_append name undashed

/-! ## Reading and writing -/

/-- An id that a text can stand for: it has a name and a version, and no dash in the version. -/
structure Plain (id : StackId) : Prop where
  name : id.stackName ≠ ""
  version : id.stackVersion ≠ ""
  undashed : '-' ∉ id.stackVersion.toList

variable {s : String} {id a b : StackId}

theorem plain_of_parse? (h : parse? s = some id) : id.Plain := by
  unfold parse? at h
  split at h
  · next c name d version cut =>
    obtain rfl := Option.some.inj h
    refine ⟨by simp, by simp, ?_⟩
    rw [String.toList_ofList]
    exact (splitLastDash_eq_some_iff.1 cut).2
  · cases h

theorem Plain.written (plain : id.Plain) : id.Written := by
  obtain ⟨name, version⟩ := id
  obtain ⟨c, cs, hname⟩ := List.exists_cons_of_ne_nil (mt String.toList_eq_nil_iff.1 plain.name)
  obtain ⟨d, ds, hversion⟩ :=
    List.exists_cons_of_ne_nil (mt String.toList_eq_nil_iff.1 plain.version)
  have cut : splitLastDash (text ⟨name, version⟩).toList = some (name.toList, version.toList) := by
    simpa [text] using splitLastDash_append name.toList plain.undashed
  dsimp only at hname hversion
  rw [Written, parse?, cut]
  simp only [hname, hversion]
  rw [← hname, ← hversion, String.ofList_toList, String.ofList_toList]

/-- What is read from a text is the id that is written so. -/
theorem parse?_eq_some_iff : parse? s = some id ↔ id.Plain ∧ id.text = s := by
  constructor
  · intro h
    exact ⟨plain_of_parse? h, text_of_parse? h⟩
  · rintro ⟨plain, rfl⟩
    exact plain.written

theorem parse?_eq_none_iff : parse? s = none ↔ ¬ ∃ name version : String,
    s = name ++ "-" ++ version ∧ '-' ∉ version.toList ∧ name ≠ "" ∧ version ≠ "" := by
  simp only [Option.eq_none_iff_forall_ne_some, ne_eq, parse?_eq_some_iff, not_exists]
  constructor
  · rintro unread name version ⟨rfl, undashed, hname, hversion⟩
    exact unread ⟨name, version⟩ ⟨⟨hname, hversion, undashed⟩, rfl⟩
  · rintro uncut ⟨name, version⟩ ⟨⟨hname, hversion, undashed⟩, rfl⟩
    exact uncut name version ⟨rfl, undashed, hname, hversion⟩

theorem eq_iff_text_eq (ha : a.Plain) (hb : b.Plain) : a = b ↔ a.text = b.text :=
  ⟨congrArg text, eq_of_text_eq ha.written hb.written⟩

/-! ## What goes by the text -/

/-- Everything that takes two stacks for the same or tells them apart does it alike. -/
structure Agreement (a b : StackId) : Prop where
  /-- Ids are equal when their texts are. -/
  text : a = b ↔ a.text = b.text
  /-- A reconciliation leaves a service as it is when the texts of its stacks are equal. -/
  reconciled (run : UpgradeRun) (options : ReconcileOptions) (s : Store) (cs : List ServiceChange) :
    ((reconcile run options).run s).result = .ok cs → ∀ c ∈ cs, c.source = a → c.target = b →
      c.change ≠ .notProcessed → (c.change = .unchanged ↔ a.text = b.text)
  /-- Defaults that the store has for one of the stacks are found for the other if it is the same. -/
  defaults (s : Store) (services : Record DefaultsByType) (service : String) :
    Store.defaultsOf { s with defaults := s.defaults.insert a.text services } b service =
      if a = b then (services.get? service).elim (Store.unlistedDefaults service) .ok
      else s.defaultsOf b service
  /-- So is a revision. -/
  revisions (s : Store) (service type : String) (properties : Properties) (actor comment : String)
    (service' : String) :
    (s.addRevision a service type properties actor comment).latestVersions b service' =
      if service = service' ∧ a = b then (s.latestVersions b service').insert type s.nextVersion
      else s.latestVersions b service'
  /-- So are the services of the catalog. -/
  catalog (c : Catalog) (services : List CatalogService) (name : String) :
    Catalog.service (c.insert a.text services) b name =
      if a = b then (services.find? (·.name = name)).elim (.error (.unknownService b.text name)) .ok
      else c.service b name
  /-- A pack that leads to one of the stacks fits a version of the other if it is the same. -/
  packs (r : PackRequest) (p : Pack) : p.targetStack = a.text →
    (r.fits b p = true ↔ a = b ∧ p.orchestration = r.orchestration)

theorem Plain.agreement (ha : a.Plain) (hb : b.Plain) : Agreement a b where
  text := eq_iff_text_eq ha hb
  reconciled run options s cs ok c mem source target processed := by
    obtain ⟨-, s', steps⟩ := Reconcile.result_eq_ok_iff.1 ok
    obtain ⟨-, -, accounted⟩ := Reconcile.eval_steps_eq_ok steps
    obtain ⟨done, rest, split⟩ := List.append_of_mem mem
    rw [(accounted done c rest split).unchanged_iff processed, source, target, eq_iff_text_eq ha hb]
  defaults s services service := by
    simp only [eq_iff_text_eq ha hb, eq_comm (a := a.text), Store.defaultsOf, Record.get?_insert]
    by_cases same : b.text = a.text <;> simp [same]
  revisions s service type properties actor comment service' := by
    simp only [eq_iff_text_eq ha hb, Store.latestVersions, Store.addRevision, List.foldl_append,
      List.foldl_cons, List.foldl_nil]
  catalog c services name := by
    simp only [eq_iff_text_eq ha hb, eq_comm (a := a.text), Catalog.service, Record.get?_insert]
    by_cases same : b.text = a.text
    · simp only [same, if_true]
      cases services.find? (·.name = name) <;> rfl
    · simp only [same, if_false]
  packs r p leads := by
    rw [PackRequest.fits, decide_eq_true_iff, leads, eq_iff_text_eq ha hb]

/-- **Stack ids and their texts.** A text that is read as an id is the text of that id, and every
id with a name and a version without a dash is read from its text, as is every id that is ever read.
Nothing is read exactly when the last dash of a text has nothing before it or nothing after it, or
there is none. So equal ids among those that are read are those with equal texts, wherever stacks
are compared or looked up. -/
theorem texts_tell_stacks_apart :
    (∀ s id, parse? s = some id → id.text = s ∧ id.Plain) ∧
    (∀ id : StackId, id.Plain → parse? id.text = some id) ∧
    (∀ s, parse? s = none ↔ ¬ ∃ name version : String,
      s = name ++ "-" ++ version ∧ '-' ∉ version.toList ∧ name ≠ "" ∧ version ≠ "") ∧
    ∀ s t a b, parse? s = some a → parse? t = some b → Agreement a b := by
  refine ⟨fun s id read => (parse?_eq_some_iff.1 read).symm, fun id plain => plain.written,
    fun s => parse?_eq_none_iff, fun s t a b ha hb => ?_⟩
  exact (plain_of_parse? ha).agreement (plain_of_parse? hb)

/-- Ids with dashes in their versions may have the same text. -/
example : text ⟨"HDP", "LTS-2.3"⟩ = text ⟨"HDP-LTS", "2.3"⟩ := by decide

end StackId

end ClusterUpgrade
