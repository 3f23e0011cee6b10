import ClusterUpgrade.Issue.Checked
import ClusterUpgrade.Orchestration
import ClusterUpgrade.Proofs.Document
import ClusterUpgrade.Proofs.Reserved
import Mathlib.Data.List.Forall2

/-!
# What checks accept

A check accepts the values of a relation (`Checked.Accepts`) if it gives a value of the relation
whenever it finds no error, and finds nothing at all where there is such a value. So it neither lets
a spoilt document pass nor refuses a sound one, and what it leaves out it has reported. Checks that
follow one another accept what their parts accept (`Accepts.bind`, `accepts_all`), and what a whole
document is checked for can be read off the relations of its fields: `Document.Reads` for a field
with a fallback, `Document.ListOf` and `Document.RecordOf` for lists and records.
-/

namespace ClusterUpgrade

/-! ## Words -/

/-- A vocabulary whose words tell its values apart. -/
class LawfulNamed (α : Type) [Named α] : Prop where
  ofName?_name (a : α) : Named.ofName? (Named.name a) = some a

theorem Named.ofName?_eq_some_iff {α : Type} [Named α] [LawfulNamed α] {word : String} {a : α} :
    Named.ofName? word = some a ↔ word = Named.name a := by
  constructor
  · intro h
    exact (Named.name_of_ofName? h).symm
  · rintro rfl
    exact LawfulNamed.ofName?_name a

instance : LawfulNamed Orchestration := ⟨fun a => by cases a <;> decide⟩

instance : LawfulNamed Scope := ⟨fun a => by cases a <;> decide⟩

instance : LawfulNamed SecurityType := ⟨fun a => by cases a <;> decide⟩

/-! ## Relations of documents -/

namespace Document

variable {α β : Type}

/-- What is read from a field that may be missing, and stands for a fallback then. -/
def Reads (value : Option Document) (R : Document → α → Prop) (fallback a : α) : Prop :=
  match value with
  | none => a = fallback
  | some v => R v a

/-- A list whose items are read one by one. -/
def ListOf (R : Document → α → Prop) (v : Document) (as : List α) : Prop :=
  ∃ items, v = .list items ∧ List.Forall₂ R items as

/-- A record whose fields are read one by one and written under their names. -/
def RecordOf (R : String → Document → α → Prop) (v : Document) (r : Record α) : Prop :=
  ∃ fields entries, v = .record fields ∧
    List.Forall₂ (fun e x => x.1 = e.1 ∧ R e.1 e.2 x.2) fields entries ∧
    r = Reserved.record entries

/-- A record whose fields are read one by one, none of them left out, in order. -/
def WholeRecord (R : String → Document → α → Prop) (v : Document) (r : Record α) : Prop :=
  ∃ fields, v = .record fields ∧
    List.Forall₂ (fun e x => x.1 = e.1 ∧ R e.1 e.2 x.2) fields r.entries

/-- Something can be written under every name of a record, and its fields have a property. -/
def Writable (P : Document → Prop) (v : Document) : Prop :=
  ∀ fields, v = .record fields → Reserved.recordName ∉ fields.map Prod.fst ∧ ∀ e ∈ fields, P e.2

/-- A text field that is there and not empty. -/
def HasText (d : Document) (field s : String) : Prop := d.field? field = some (.text s) ∧ s ≠ ""

/-- A field with a word of a vocabulary. -/
def HasWord [Named α] (d : Document) (field : String) (a : α) : Prop :=
  d.field? field = some (.text (Named.name a))

/-- The texts of a list field; one that is missing or null has none. -/
def Lists (d : Document) (field : String) (texts : List String) : Prop :=
  match d.field? field with
  | none | some .null => texts = []
  | some v => v = .texts texts

section Reads

variable {value : Option Document} {R S : Document → α → Prop} {v : Document} {fallback a : α}

@[simp] theorem reads_none : Reads none R fallback a ↔ a = fallback := Iff.rfl

@[simp] theorem reads_some : Reads (some v) R fallback a ↔ R v a := Iff.rfl

theorem Reads.imp (read : Reads value R fallback a) (h : ∀ v, R v a → S v a) :
    Reads value S fallback a := by
  cases value with
  | none => exact read
  | some v => exact h v read

/-- What is not the fallback has been read. -/
theorem Reads.exists_of_ne (read : Reads value R fallback a) (other : a ≠ fallback) :
    ∃ v, value = some v ∧ R v a := by
  cases value with
  | none => exact absurd read other
  | some v => exact ⟨v, rfl, read⟩

end Reads

/-! ## Texts of documents -/

section Texts

variable {v : Document} {s : String} {texts allowed : List String}

theorem text?_eq_some_iff : v.text? = some s ↔ v = .text s := by
  cases v <;> simp [text?]

theorem texts?_eq_some_iff : v.texts? = some texts ↔ v = .texts texts := by
  cases v with
  | list items =>
    rw [texts?, Document.texts, list.injEq]
    induction items generalizing texts with
    | nil => cases texts <;> simp
    | cons item rest ih =>
      rw [List.mapM_cons]
      cases texts <;> simp [Option.bind_eq_some_iff, text?_eq_some_iff, ih]
  | null | boolean _ | text _ | number _ | record _ => simp [texts?, Document.texts]

/-- A text that may be missing, with its fallback. -/
theorem reads_text_iff {value : Option Document} {fallback : String} :
    Reads value (fun v t => v = .text t) fallback s ↔
      ∃ o : Option String, value = o.map .text ∧ s = o.getD fallback := by
  cases value with
  | none => simp [Reads, eq_comm]
  | some v =>
    simp only [Reads, eq_comm (a := some v), Option.map_eq_some_iff]
    constructor
    · rintro rfl
      exact ⟨some s, ⟨s, rfl, rfl⟩, rfl⟩
    · rintro ⟨_, ⟨t, rfl, rfl⟩, rfl⟩
      rfl

theorem choice?_eq_some_iff : v.choice? allowed = some s ↔ v = .text s ∧ s ∈ allowed := by
  cases v with
  | text t =>
    rw [choice?, text.injEq]
    constructor
    · intro found
      have same := List.find?_some found
      obtain rfl := of_decide_eq_true same
      exact ⟨rfl, List.mem_of_find?_eq_some found⟩
    · rintro ⟨rfl, mem⟩
      have there : (allowed.find? (· = t)).isSome := List.find?_isSome.2 ⟨t, mem, by simp⟩
      obtain ⟨s, found⟩ := Option.isSome_iff_exists.1 there
      have same := List.find?_some found
      rwa [of_decide_eq_true same] at found
  | null | boolean _ | number _ | list _ | record _ => simp [choice?]

end Texts

/-! ## Whole records -/

section Whole

variable {R R' : String → Document → α → Prop} {P : Document → Prop} {v : Document}
  {fields : List (String × Document)} {entries : List (String × α)} {r : Record α}

theorem map_fst_eq_of_forall₂
    (h : List.Forall₂ (fun e x => x.1 = e.1 ∧ R e.1 e.2 x.2) fields entries) :
    entries.map Prod.fst = fields.map Prod.fst := by
  induction h with
  | nil => rfl
  | cons same _ ih => rw [List.map_cons, List.map_cons, same.1, ih]

theorem exists_mem_of_forall₂ {S : α → β → Prop} {as : List α} {bs : List β}
    (h : List.Forall₂ S as bs) {b : β} (mem : b ∈ bs) : ∃ a ∈ as, S a b := by
  induction h with
  | nil => cases mem
  | cons related _ ih =>
    rcases List.mem_cons.1 mem with rfl | mem
    · exact ⟨_, List.mem_cons_self, related⟩
    · obtain ⟨a, ha, hab⟩ := ih mem
      exact ⟨a, List.mem_cons_of_mem _ ha, hab⟩

/-- Items that are read together with their indices, which do not matter. -/
theorem forall₂_zipIdx_iff {S : α → β → Prop} {as : List α} {bs : List β} :
    List.Forall₂ (fun e b => S e.1 b) as.zipIdx bs ↔ List.Forall₂ S as bs := by
  rw [← List.forall₂_map_left_iff (f := Prod.fst), List.zipIdx_map_fst]

/-- What a record holds has been read from a document. -/
theorem RecordOf.exists_of_get? (read : RecordOf R v r) {key : String} {a : α}
    (found : r.get? key = some a) : ∃ d, R key d a := by
  obtain ⟨fields, entries, -, related, rfl⟩ := read
  rcases Record.exists_of_get?_foldl_insert Prod.fst Prod.snd found with ⟨x, mem, rfl, rfl⟩ | old
  · obtain ⟨e, -, same, hx⟩ := exists_mem_of_forall₂ related (List.mem_of_mem_filter mem)
    exact ⟨e.2, same ▸ hx⟩
  · cases old

/-- Items in which every pair of one relation is one of another, where the first item allows it. -/
theorem forall₂_iff_forall_mem {S T : α → β → Prop} {Q : α → Prop} {as : List α} {bs : List β}
    (h : List.Forall₂ S as bs) (each : ∀ a ∈ as, ∀ b, S a b → (T a b ↔ Q a)) :
    List.Forall₂ T as bs ↔ ∀ a ∈ as, Q a := by
  induction h with
  | nil => simp
  | cons related _ ih =>
    rw [List.forall_mem_cons] at each ⊢
    rw [List.forall₂_cons, each.1 _ related, ih each.2]

/-- A record is read whole exactly when something can be written under each of its names and each
field is read whole. -/
theorem wholeRecord_iff (read : RecordOf R v r) (ordered : v.inOrder)
    (each : ∀ key d a, d.inOrder → R key d a → (R' key d a ↔ P d)) :
    WholeRecord R' v r ↔ Writable P v := by
  obtain ⟨fields, entries, rfl, related, rfl⟩ := read
  have keys := map_fst_eq_of_forall₂ related
  obtain ⟨placed, inside⟩ := inOrder_record_iff.1 ordered
  by_cases reserved : Reserved.recordName ∈ fields.map Prod.fst
  · refine iff_of_false ?_ fun h => (h fields rfl).1 reserved
    rintro ⟨_, ⟨⟩, whole⟩
    rw [← map_fst_eq_of_forall₂ whole] at reserved
    have there := (Record.mem_keys_iff _ _).1 reserved
    rw [Reserved.get?_record_recordName] at there
    cases there
  · rw [← keys] at placed
    have kept : (Reserved.record entries).entries = entries := by
      rw [Reserved.record_eq_ofList (keys ▸ reserved), Record.entries_ofList placed]
    have matched : List.Forall₂ (fun e x => x.1 = e.1 ∧ R' e.1 e.2 x.2) fields entries ↔
        ∀ e ∈ fields, P e.2 := by
      refine forall₂_iff_forall_mem related fun e mem x same => ?_
      rw [and_iff_right same.1, each e.1 e.2 x.2 (inside e mem) same.2]
    constructor
    · rintro ⟨_, ⟨⟩, whole⟩ _ ⟨⟩
      exact ⟨reserved, matched.1 (kept ▸ whole)⟩
    · intro h
      exact ⟨fields, rfl, kept.symm ▸ matched.2 (h fields rfl).2⟩

/-- A record that may be missing, and is read whole if it is there. -/
theorem reads_wholeRecord_iff {value : Option Document}
    (read : Reads value (RecordOf R) Record.empty r) (ordered : ∀ v, value = some v → v.inOrder)
    (each : ∀ key d a, d.inOrder → R key d a → (R' key d a ↔ P d)) :
    Reads value (WholeRecord R') Record.empty r ↔ ∀ v, value = some v → v.Writable P := by
  cases value with
  | none => exact iff_of_true read nofun
  | some v => simpa [Reads] using wholeRecord_iff read (ordered v rfl) each

end Whole

end Document

/-! ## Accepted values -/

theorem Issues.valid_append {a b : List Issue} :
    Issues.valid (a ++ b) = true ↔ Issues.valid a = true ∧ Issues.valid b = true := by
  simp [Issues.valid, Issues.errors]

namespace Checked

variable {α β : Type} {c : Checked α} {R : α → Prop}

/-- A check accepts the values of a relation: where it finds no error it gives one, and where there
is one it gives just that and finds nothing. -/
structure Accepts (c : Checked α) (R : α → Prop) : Prop where
  sound : Issues.valid c.issues = true → R c.value
  complete : ∀ a, R a → c = ⟨a, []⟩

/-- A check that may give nothing accepts the values of a relation. -/
abbrev Gives (c : Checked (Option α)) (R : α → Prop) : Prop :=
  c.Accepts fun o => ∃ a, o = some a ∧ R a

theorem Accepts.congr {S : α → Prop} (h : c.Accepts R) (same : ∀ a, R a ↔ S a) : c.Accepts S where
  sound ok := (same _).1 (h.sound ok)
  complete a ha := h.complete a ((same a).2 ha)

theorem Gives.congr {c : Checked (Option α)} {S : α → Prop} (h : c.Gives R)
    (same : ∀ a, R a ↔ S a) : c.Gives S :=
  Accepts.congr h fun _ => exists_congr fun a => and_congr_right fun _ => same a

theorem Accepts.of_pure {a : α} (h : ∀ b, R b ↔ b = a) : (pure a : Checked α).Accepts R where
  sound _ := (h a).2 rfl
  complete b hb := by rw [(h b).1 hb]; rfl

theorem Accepts.of_error {i : Issue} {a : α} (error : i.isError = true) (h : ∀ b, ¬ R b) :
    (reported i a).Accepts R where
  sound ok := by simp [reported, Issues.valid, Issues.errors, error] at ok
  complete b hb := absurd hb (h b)

theorem Gives.of_pure {a : α} (h : ∀ b, R b ↔ b = a) :
    (pure (some a) : Checked (Option α)).Gives R := by
  refine Accepts.of_pure fun o => ?_
  simp only [h, exists_eq_right]

theorem Gives.of_error {i : Issue} {o : Option α} (error : i.isError = true) (h : ∀ b, ¬ R b) :
    (reported i o).Gives R :=
  Accepts.of_error error fun _ ⟨b, _, hb⟩ => h b hb

theorem Accepts.sound_bind (hc : c.Accepts R) {f : α → Checked β}
    (ok : Issues.valid (c >>= f).issues = true) :
    R c.value ∧ Issues.valid (f c.value).issues = true := by
  obtain ⟨first, second⟩ := Issues.valid_append.1 ok
  exact ⟨hc.sound first, second⟩

theorem Accepts.bind_eq (hc : c.Accepts R) {a : α} (ha : R a) (f : α → Checked β) :
    c >>= f = f a := by
  rw [hc.complete a ha]
  rfl

/-- Checks that follow one another accept what both accept. -/
theorem Accepts.bind {f : α → Checked β} {S : α → β → Prop} (hc : c.Accepts R)
    (hf : ∀ a, R a → (f a).Accepts (S a)) : (c >>= f).Accepts fun b => ∃ a, R a ∧ S a b where
  sound ok := by
    obtain ⟨ha, next⟩ := hc.sound_bind ok
    exact ⟨c.value, ha, (hf _ ha).sound next⟩
  complete := by
    rintro b ⟨a, ha, hb⟩
    rw [hc.bind_eq ha, (hf a ha).complete b hb]

/-- Nothing is accepted after an error. -/
theorem accepts_error_bind {i : Issue} {a : α} (error : i.isError = true) (f : α → Checked β) :
    (reported i a >>= f).Accepts fun _ => False where
  sound ok := by
    have first := (Issues.valid_append.1 ok).1
    simp [reported, Issues.valid, Issues.errors, error] at first
  complete _ hb := hb.elim

/-- What follows a check that may give nothing need only be known where it gives something. -/
theorem Gives.bind {c : Checked (Option α)} {f : Option α → Checked β} {S : α → β → Prop}
    (hc : c.Gives R) (hf : ∀ a, R a → (f (some a)).Accepts (S a)) :
    (c >>= f).Accepts fun b => ∃ a, R a ∧ S a b := by
  have next : ∀ o, (∃ a, o = some a ∧ R a) →
      (f o).Accepts fun b => ∃ a, o = some a ∧ S a b := by
    rintro _ ⟨a, rfl, ha⟩
    exact (hf a ha).congr fun b => by simp
  refine (Accepts.bind hc next).congr fun b => ?_
  constructor
  · rintro ⟨_, ⟨a, rfl, ha⟩, _, ⟨⟩, hb⟩
    exact ⟨a, ha, hb⟩
  · rintro ⟨a, ha, hb⟩
    exact ⟨some a, ⟨a, rfl, ha⟩, a, rfl, hb⟩

/-- A check that may give nothing, after one that always gives something. -/
theorem Accepts.gives_bind {f : α → Checked (Option β)} {S : α → β → Prop} (hc : c.Accepts R)
    (hf : ∀ a, R a → (f a).Gives (S a)) : (c >>= f).Gives fun b => ∃ a, R a ∧ S a b := by
  refine (hc.bind hf).congr fun o => ?_
  constructor
  · rintro ⟨a, ha, b, rfl, hb⟩
    exact ⟨b, rfl, a, ha, hb⟩
  · rintro ⟨b, rfl, a, ha, hb⟩
    exact ⟨a, ha, b, rfl, hb⟩

/-- Two checks that may give nothing; the second gives nothing unless the first gives something. -/
theorem Gives.gives_bind {c : Checked (Option α)} {f : Option α → Checked (Option β)}
    {S : α → β → Prop} (hc : c.Gives R) (hf : ∀ a, R a → (f (some a)).Gives (S a)) :
    (c >>= f).Gives fun b => ∃ a, R a ∧ S a b := by
  refine (hc.bind hf).congr fun o => ?_
  constructor
  · rintro ⟨a, ha, b, rfl, hb⟩
    exact ⟨b, rfl, a, ha, hb⟩
  · rintro ⟨b, rfl, a, ha, hb⟩
    exact ⟨a, ha, b, rfl, hb⟩

section Lists

variable {γ : Type} {f : γ → Checked β} {g : γ → Checked (Option β)} {S : γ → β → Prop}
  {xs : List γ}

theorem accepts_all (h : ∀ x ∈ xs, (f x).Accepts (S x)) :
    (all f xs).Accepts (List.Forall₂ S xs) := by
  induction xs with
  | nil => exact Accepts.of_pure fun bs => by simp
  | cons x rest ih =>
    rw [List.forall_mem_cons] at h
    refine (h.1.bind fun b _ => (ih h.2).bind fun bs _ => Accepts.of_pure (a := b :: bs)
      (R := (· = b :: bs)) fun _ => Iff.rfl).congr fun bs => ?_
    rw [List.forall₂_cons_left_iff]
    simp only [exists_and_left]

/-- What is made of the items that come to something. None of those that come to nothing is
accepted. -/
theorem accepts_each {δ : Type} (make : List β → δ) (h : ∀ x ∈ xs, (g x).Gives (S x)) :
    (do let os ← all g xs; return make (os.filterMap id) : Checked δ).Accepts fun y =>
      ∃ bs, List.Forall₂ S xs bs ∧ y = make bs := by
  refine ((accepts_all h).bind fun os _ => Accepts.of_pure (a := make (os.filterMap id))
    (R := (· = make (os.filterMap id))) fun _ => Iff.rfl).congr fun y => ?_
  constructor
  · rintro ⟨os, related, rfl⟩
    refine ⟨os.filterMap id, ?_, rfl⟩
    induction related with
    | nil => exact .nil
    | cons found _ ih =>
      obtain ⟨b, rfl, hb⟩ := found
      exact .cons hb (ih fun x mem => h x (List.mem_cons_of_mem _ mem))
  · rintro ⟨bs, related, rfl⟩
    refine ⟨bs.map some, ?_, by simp⟩
    rw [List.forall₂_map_right_iff]
    exact related.imp fun _ b hb => ⟨b, rfl, hb⟩

end Lists

/-! ## Fields -/

section Fields

variable {d : Document} {value : Option Document} {field : String} {place : Location}

theorem requireText_gives : (requireText d field place).Gives (d.HasText field) := by
  unfold requireText Document.HasText
  cases d.field? field with
  | none => exact .of_error rfl (by simp)
  | some v =>
    cases v with
    | text s =>
      dsimp only
      split
      · next empty => exact .of_error rfl (by simp [empty])
      · next filled => exact .of_pure (by grind)
    | null | boolean _ | number _ | list _ | record _ => exact .of_error rfl (by simp)

theorem optionalText_accepts : (optionalText d field place).Accepts fun o =>
    d.field? field = o.map .text := by
  unfold optionalText
  cases d.field? field with
  | none => exact .of_pure (by simp [eq_comm])
  | some v =>
    cases v with
    | text s => exact .of_pure (by grind [Option.map_eq_some_iff])
    | null | boolean _ | number _ | list _ | record _ =>
      exact .of_error rfl fun o => by cases o <;> simp

theorem optionalBoolean_accepts {fallback : Bool} :
    (optionalBoolean d field place fallback).Accepts
      (Document.Reads (d.field? field) (fun v b => v = .boolean b) fallback) := by
  unfold optionalBoolean Document.Reads
  cases d.field? field with
  | none => exact .of_pure fun _ => Iff.rfl
  | some v =>
    cases v with
    | boolean b => exact .of_pure (by simp [eq_comm])
    | null | text _ | number _ | list _ | record _ => exact .of_error rfl (by simp)

theorem text?_bind_ofName?_eq_some_iff {α : Type} [Named α] [LawfulNamed α] {v : Document} {a : α} :
    v.text?.bind Named.ofName? = some a ↔ v = .text (Named.name a) := by
  simp only [Option.bind_eq_some_iff, Document.text?_eq_some_iff, Named.ofName?_eq_some_iff,
    exists_eq_right]

theorem requireWord_gives {α : Type} [Named α] [LawfulNamed α] :
    (requireWord α d field place).Gives (d.HasWord field) := by
  unfold requireWord Document.HasWord
  cases d.field? field with
  | none => exact .of_error rfl (by simp)
  | some v =>
    simp only [Option.some.injEq, ← text?_bind_ofName?_eq_some_iff]
    cases v.text?.bind (Named.ofName? (α := α)) with
    | none => exact .of_error rfl (by simp)
    | some a => exact .of_pure (by simp [eq_comm])

theorem wordOr_gives {α : Type} [Named α] [LawfulNamed α] {fallback : α} :
    (wordOr α d field place fallback).Gives
      (Document.Reads (d.field? field) (fun v a => v = .text (Named.name a)) fallback) := by
  unfold wordOr Document.Reads
  cases h : d.field? field with
  | none => exact .of_pure fun _ => Iff.rfl
  | some v =>
    rw [Option.isSome_some, if_pos rfl]
    refine requireWord_gives.congr fun a => ?_
    rw [Document.HasWord, h, Option.some.injEq]

/-- The items of a list field, checked one by one. -/
theorem itemsOf_accepts {α : Type} {f : Document × Nat → Checked (Option α)}
    {R : Document → α → Prop} (h : ∀ e, (f e).Gives (R e.1)) :
    (do let items ← itemsOf value place
        let os ← all f items
        return os.filterMap id : Checked (List α)).Accepts
      (Document.Reads value (Document.ListOf R) []) := by
  have each (items : List (Document × Nat)) := accepts_each id fun e (_ : e ∈ items) => h e
  unfold itemsOf Document.Reads
  cases value with
  | none => exact (each []).congr fun as => by simp
  | some v =>
    cases v with
    | list items =>
      refine (each items.zipIdx).congr fun as => ?_
      simp only [Document.forall₂_zipIdx_iff (S := R)]
      simp [Document.ListOf]
    | null | boolean _ | text _ | number _ | record _ =>
      exact (accepts_error_bind rfl _).congr fun as => by simp [Document.ListOf]

/-- The fields of a record field, checked one by one. -/
theorem fieldsOf_accepts {α : Type} {f : String × Document → Checked (Option (String × α))}
    {R : String → Document → α → Prop}
    (h : ∀ e, (f e).Gives fun x => x.1 = e.1 ∧ R e.1 e.2 x.2) :
    (do let fields ← fieldsOf value place
        let os ← all f fields
        return Reserved.record (os.filterMap id) : Checked (Record α)).Accepts
      (Document.Reads value (Document.RecordOf R) Record.empty) := by
  have each (fields : List (String × Document)) :=
    accepts_each Reserved.record fun e (_ : e ∈ fields) => h e
  unfold fieldsOf Document.Reads
  cases value with
  | none => exact (each []).congr fun r => by simp; rfl
  | some v =>
    cases v with
    | record fields =>
      refine (each fields).congr fun r => ?_
      simp [Document.RecordOf]
    | null | boolean _ | text _ | number _ | list _ =>
      exact (accepts_error_bind rfl _).congr fun r => by simp [Document.RecordOf]

end Fields

end Checked

end ClusterUpgrade
