import ClusterUpgrade.Config.Merge
import ClusterUpgrade.Proofs.Record
import Mathlib.Data.List.Nodup

/-!
# The law of the three-way merge

`Merge.Lawful` says of every configuration type and every property what a merge gives and what it
reports, from the old default, the new default and the live value alone.

1. `get?_properties`: a property of a type that the new stack knows is `settled` by its three sides.
2. `get?_configs_of_live`, `get?_configs_of_not_live`: where the properties of a type come from.
3. `mem_customizedIn`, `mem_removedIn`: which properties are reported.
4. `lawful_iff`: a merge is lawful exactly when no reserved name shows in it (`Ordinary`).
-/

namespace ClusterUpgrade

open Reserved

/-! ## The law -/

/-- The default that the old stack lists for a property; it may be null. -/
def MergeInput.oldDefault (input : MergeInput) (type key : String) : Option (Option String) :=
  (input.oldDefaults.get? type).bind (·.get? key)

namespace Merge

/-- The value of a property on the new stack, from its old default, its new default that is not
null, and its live value. -/
def settled (old : Option (Option String)) (new live : Option String) : Option String :=
  match live, new with
  | none, none => none
  | none, some n => if old.isSome then none else some n
  | some l, none => some l
  | some l, some n => if l = n ∨ old = some (some l) then some n else some l

/-- What a merge of three sides has to be. -/
structure Lawful (input : MergeInput) (m : Merge) : Prop where
  /-- The types are those of the new defaults and the live ones. -/
  types (type : String) :
    m.configs.has type ↔ input.newDefaults.has type ∨ ∃ c ∈ input.live, c.type = type
  /-- A type that is not live has the new defaults that are not null. -/
  added {type : String} {new : Defaults} : input.newDefaults.get? type = some new →
    (∀ c ∈ input.live, c.type ≠ type) →
      ∃ p, m.configs.get? type = some p ∧ ∀ key, p.get? key = (new.get? key).join
  /-- A live type without new defaults stays as it is. -/
  carried {c : LiveConfig} : c ∈ input.live → input.newDefaults.get? c.type = none →
    m.configs.get? c.type = some c.properties
  /-- Any other type has its properties settled one by one. -/
  merged {c : LiveConfig} {new : Defaults} : c ∈ input.live →
    input.newDefaults.get? c.type = some new →
      ∃ p, m.configs.get? c.type = some p ∧ ∀ key, p.get? key =
        settled (input.oldDefault c.type key) (new.get? key).join (c.properties.get? key)
  /-- No live property is lost. -/
  kept {c : LiveConfig} {key : String} : c ∈ input.live → c.properties.has key →
    ∃ p, m.configs.get? c.type = some p ∧ p.has key
  /-- The types carried over, once each. -/
  carriedOver : m.carriedOver.Nodup ∧ ∀ type, type ∈ m.carriedOver ↔
    (∃ c ∈ input.live, c.type = type) ∧ input.newDefaults.get? type = none
  /-- The properties whose live value stands against a new default, once each. -/
  customized : m.customized.Nodup ∧ ∀ path, path ∈ m.customized ↔
    ∃ c ∈ input.live, c.type = path.type ∧ ∃ new n l,
      input.newDefaults.get? c.type = some new ∧ new.get? path.property = some (some n) ∧
      c.properties.get? path.property = some l ∧ l ≠ n ∧
      input.oldDefault c.type path.property ≠ some (some l)
  /-- The new defaults that are left out, once each. -/
  removed : m.removed.Nodup ∧ ∀ path, path ∈ m.removed ↔
    ∃ c ∈ input.live, c.type = path.type ∧ ∃ new n,
      input.newDefaults.get? c.type = some new ∧ new.get? path.property = some (some n) ∧
      c.properties.get? path.property = none ∧
      (input.oldDefault c.type path.property).isSome

/-- No reserved name shows in a merge: nothing stands under the name of the record itself, every
live type of a reserved name has new defaults, and where it has no old ones its own properties make
no difference. -/
structure Ordinary (input : MergeInput) : Prop where
  new_types : input.newDefaults.get? recordName = none
  new_values : ∀ type new, input.newDefaults.get? type = some new →
    (new.get? recordName).join = none
  known : ∀ c ∈ input.live, input.newDefaults.get? c.type = none → isKnown c.type = false
  live_properties : ∀ c ∈ input.live, input.newDefaults.has c.type →
    c.properties.get? recordName = none
  own_properties : ∀ c ∈ input.live, ∀ new, input.newDefaults.get? c.type = some new →
    input.oldDefaults.get? c.type = none → ∀ own, ownDefaults? c.type = some own →
      ∀ key n o, new.get? key = some (some n) → own.get? key = some o →
        ∃ l, c.properties.get? key = some l ∧ (o = some l → l = n)

/-! ## One configuration type -/

variable {old new : Defaults} {live : Properties}

theorem isWritable_iff {name : String} : isWritable name = true ↔ name ≠ recordName := by
  simp [isWritable]

theorem isWritable_recordName : isWritable recordName = false := by
  simp [isWritable]

theorem get?_shipped_of_ne {key : String} (h : key ≠ recordName) :
    new.shipped.get? key = (new.get? key).join := by
  rw [Defaults.get?_shipped, if_pos (isWritable_iff.2 h)]

theorem get?_shipped_recordName : new.shipped.get? recordName = none := by
  rw [Defaults.get?_shipped, isWritable_recordName]
  rfl

theorem isCustomized_iff {key l : String} : isCustomized old new key l = true ↔
    key ≠ recordName ∧ ∃ n, new.get? key = some (some n) ∧ l ≠ n ∧ old.get? key ≠ some (some l) := by
  by_cases h : key = recordName
  · subst h
    simp [isCustomized, get?_shipped_recordName]
  · simp only [isCustomized, get?_shipped_of_ne h, Bool.and_eq_true, Option.any_eq_true,
      Option.join_eq_some_iff, decide_eq_true_eq, bne_iff_ne, ne_eq, h, not_false_eq_true, true_and]
    constructor
    · rintro ⟨⟨n, hn, hne⟩, hold⟩
      exact ⟨n, hn, fun e => hne e.symm, hold⟩
    · rintro ⟨n, hn, hne, hold⟩
      exact ⟨⟨n, hn, fun e => hne e.symm⟩, hold⟩

theorem get?_overlaid (key : String) : (overlaid old new live).get? key =
    match live.get? key with
    | none => new.shipped.get? key
    | some l => if keepsLive old new key l then some l else new.shipped.get? key := by
  have distinct : ((live.entries.filter fun e => keepsLive old new e.1 e.2).map Prod.fst).Nodup :=
    (List.filter_sublist.map Prod.fst).nodup live.nodup
  by_cases mem : ∃ l, live.get? key = some l ∧ keepsLive old new key l = true
  · obtain ⟨l, hl, keeps⟩ := mem
    have he : (key, l) ∈ live.entries.filter fun e => keepsLive old new e.1 e.2 :=
      List.mem_filter.2 ⟨Record.get?_eq_some_iff.1 hl, keeps⟩
    rw [hl]
    simp only [keeps, if_true]
    exact Record.get?_foldl_insert_of_mem Prod.fst Prod.snd distinct he _
  · have absent : key ∉ (live.entries.filter fun e => keepsLive old new e.1 e.2).map Prod.fst := by
      intro h
      obtain ⟨⟨k, l⟩, he, rfl⟩ := List.mem_map.1 h
      obtain ⟨hl, keeps⟩ := List.mem_filter.1 he
      exact mem ⟨l, Record.get?_eq_some_iff.2 hl, keeps⟩
    rw [overlaid, Record.get?_foldl_insert_of_not_mem Prod.fst Prod.snd absent]
    cases hl : live.get? key with
    | none => rfl
    | some l =>
      have drops : ¬ keepsLive old new key l = true := fun keeps => mem ⟨l, hl, keeps⟩
      simp only [drops]
      rfl

theorem isRemoved_iff {key : String} :
    isRemoved old live key = true ↔ (old.get? key).isSome ∧ live.get? key = none := by
  simp [isRemoved, Record.has]

/-- A removed property stands in the merge as the new default before it is left out. -/
theorem get?_overlaid_of_isRemoved {key : String} (h : isRemoved old live key = true) :
    (overlaid old new live).get? key = new.shipped.get? key := by
  rw [get?_overlaid, (isRemoved_iff.1 h).2]

/-- A property of a type that the new stack knows is settled by its three sides. -/
theorem get?_properties (key : String) : (properties old new live).get? key =
    if key = recordName then none
    else settled (old.get? key) (new.get? key).join (live.get? key) := by
  rw [properties, Record.get?_filterKeys, get?_overlaid]
  by_cases h : key = recordName
  · subst h
    have drops (l : String) : keepsLive old new recordName l = false := by
      simp [keepsLive, isWritable_recordName]
    cases live.get? recordName <;> simp [drops, get?_shipped_recordName]
  · rw [if_neg h, get?_shipped_of_ne h]
    cases hl : live.get? key with
    | none =>
      cases hn : (new.get? key).join <;> simp [settled, isRemoved, Record.has, hl]
      cases old.get? key <;> simp
    | some l =>
      have stays : isRemoved old live key = false := by simp [isRemoved, Record.has, hl]
      cases hn : (new.get? key).join with
      | none =>
        have keeps : keepsLive old new key l = true := by
          simp [keepsLive, isWritable_iff.2 h, Record.has, get?_shipped_of_ne h, hn]
        simp [settled, stays, keeps]
      | some n =>
        have keeps : keepsLive old new key l = true ↔ ¬ (l = n ∨ old.get? key = some (some l)) := by
          simp only [keepsLive, isWritable_iff.2 h, Record.has, get?_shipped_of_ne h, hn,
            isCustomized, Option.isSome_some, Option.any_some, Bool.not_true, Bool.false_or,
            Bool.true_and, Bool.and_eq_true, decide_eq_true_eq, bne_iff_ne, ne_eq, not_or]
          exact and_congr_left fun _ => not_congr eq_comm
        by_cases hk : l = n ∨ old.get? key = some (some l)
        · have drops : ¬ keepsLive old new key l = true := fun k => keeps.1 k hk
          simp [settled, stays, drops, hk]
        · simp [settled, stays, keeps.2 hk, hk]

theorem settled_ne_none {old : Option (Option String)} {new : Option String} {l : String} :
    settled old new (some l) ≠ none := by
  cases new with
  | none => simp [settled]
  | some n => simp only [settled]; split <;> simp

/-! ## All types -/

variable {input : MergeInput}

/-- The types of a merge. Nothing is written under the name of the record itself. -/
theorem has_configs (type : String) : (of input).configs.has type =
    (isWritable type && (input.newDefaults.has type || input.live.any (·.type = type))) := by
  rw [of, Record.has_foldl_insert LiveConfig.type (mergedLive input)]
  by_cases h : isWritable type = true
  · have written :
        decide (type ∈ (input.live.filter fun c => isWritable c.type).map LiveConfig.type) =
        input.live.any (·.type = type) := by
      rw [Bool.eq_iff_iff, decide_eq_true_iff, List.mem_map, List.any_eq_true]
      constructor
      · rintro ⟨c, hc, hct⟩
        exact ⟨c, List.mem_of_mem_filter hc, decide_eq_true hct⟩
      · rintro ⟨c, hc, hct⟩
        have hct := of_decide_eq_true hct
        exact ⟨c, List.mem_filter.2 ⟨hc, by rw [hct]; exact h⟩, hct⟩
    rw [written, Record.has, Record.get?_map, Record.get?_filterKeys, if_pos h, h,
      Option.isSome_map, Bool.true_and, Bool.or_comm]
    rfl
  · have absent : type ∉ (input.live.filter fun c => isWritable c.type).map LiveConfig.type := by
      intro m
      obtain ⟨c, hc, rfl⟩ := List.mem_map.1 m
      exact h (List.mem_filter.1 hc).2
    rw [decide_eq_false absent, Record.has, Record.get?_map, Record.get?_filterKeys, if_neg h]
    simp [h]

theorem get?_configs_recordName : (of input).configs.get? recordName = none := by
  rw [← Record.has_eq_false_iff, has_configs, isWritable_recordName]
  rfl

theorem isWritable_of_mem_configs {e : String × Properties} (mem : e ∈ (of input).configs.entries) :
    isWritable e.1 = true := by
  rw [isWritable_iff]
  intro reserved
  have there := Record.get?_eq_some_iff.2 mem
  rw [reserved, get?_configs_recordName] at there
  cases there

/-- A live type has its merged properties. -/
theorem get?_configs_of_live (distinct : (input.live.map (·.type)).Nodup) {c : LiveConfig}
    (mem : c ∈ input.live) (writable : c.type ≠ recordName) :
    (of input).configs.get? c.type = some (mergedLive input c) := by
  have he : c ∈ input.live.filter fun c => isWritable c.type :=
    List.mem_filter.2 ⟨mem, isWritable_iff.2 writable⟩
  exact Record.get?_foldl_insert_of_mem LiveConfig.type (mergedLive input)
    ((List.filter_sublist.map LiveConfig.type).nodup distinct) he _

/-- A type that is not live has the new defaults. -/
theorem get?_configs_of_not_live {type : String} (absent : ∀ c ∈ input.live, c.type ≠ type)
    (writable : type ≠ recordName) :
    (of input).configs.get? type = (input.newDefaults.get? type).map Defaults.shipped := by
  have habsent : type ∉ (input.live.filter fun c => isWritable c.type).map LiveConfig.type := by
    intro h
    obtain ⟨c, hc, rfl⟩ := List.mem_map.1 h
    exact absent c (List.mem_of_mem_filter hc) rfl
  rw [of, Record.get?_foldl_insert_of_not_mem LiveConfig.type (mergedLive input) habsent,
    Record.get?_map, Record.get?_filterKeys, if_pos (isWritable_iff.2 writable)]

theorem mem_carriedOver {type : String} : type ∈ (of input).carriedOver ↔
    (∃ c ∈ input.live, c.type = type) ∧ newOf? input type = none := by
  simp only [of, List.mem_map, List.mem_filter, Option.isNone_iff_eq_none]
  constructor
  · rintro ⟨c, ⟨hc, hnew⟩, rfl⟩
    exact ⟨⟨c, hc, rfl⟩, hnew⟩
  · rintro ⟨⟨c, hc, rfl⟩, hnew⟩
    exact ⟨c, ⟨hc, hnew⟩, rfl⟩

theorem mem_customizedIn {c : LiveConfig} {path : PropertyPath} : path ∈ customizedIn input c ↔
    c.type = path.type ∧ path.property ≠ recordName ∧ ∃ new n l, newOf? input c.type = some new ∧
      new.get? path.property = some (some n) ∧ c.properties.get? path.property = some l ∧ l ≠ n ∧
      (oldOf input c.type).get? path.property ≠ some (some l) := by
  unfold customizedIn
  cases hnew : newOf? input c.type with
  | none => simp
  | some new =>
    simp only [List.mem_map, List.mem_filter, isCustomized_iff]
    constructor
    · rintro ⟨⟨key, l⟩, ⟨hl, hkey, n, hn, hne, hold⟩, rfl⟩
      exact ⟨rfl, hkey, new, n, l, rfl, hn, Record.get?_eq_some_iff.2 hl, hne, hold⟩
    · rintro ⟨htype, hkey, _, n, l, hsome, hn, hl, hne, hold⟩
      obtain rfl := Option.some.inj hsome
      exact ⟨(path.property, l), ⟨Record.get?_eq_some_iff.1 hl, hkey, n, hn, hne, hold⟩,
        by rw [htype]⟩

theorem mem_removedIn {c : LiveConfig} {path : PropertyPath} : path ∈ removedIn input c ↔
    c.type = path.type ∧ path.property ≠ recordName ∧ ∃ new n, newOf? input c.type = some new ∧
      new.get? path.property = some (some n) ∧ c.properties.get? path.property = none ∧
      ((oldOf input c.type).get? path.property).isSome := by
  unfold removedIn
  cases hnew : newOf? input c.type with
  | none => simp
  | some new =>
    -- A removed property is not live, so what is overlaid there is the new default.
    have overlaid_iff {key : String} (hl : c.properties.get? key = none) :
        key ∈ (overlaid (oldOf input c.type) new c.properties).keys ↔
          key ≠ recordName ∧ ∃ n, new.get? key = some (some n) := by
      rw [Record.mem_keys_iff, get?_overlaid, hl]
      by_cases h : key = recordName
      · subst h
        simp [get?_shipped_recordName]
      · simp [get?_shipped_of_ne h, h, Option.isSome_iff_exists, Option.join_eq_some_iff]
    simp only [List.mem_map, List.mem_filter, isRemoved_iff]
    constructor
    · rintro ⟨key, ⟨hmem, hold, hl⟩, rfl⟩
      obtain ⟨hkey, n, hn⟩ := (overlaid_iff hl).1 hmem
      exact ⟨rfl, hkey, new, n, rfl, hn, hl, hold⟩
    · rintro ⟨htype, hkey, _, n, hsome, hn, hl, hold⟩
      obtain rfl := Option.some.inj hsome
      exact ⟨path.property, ⟨(overlaid_iff hl).2 ⟨hkey, n, hn⟩, hold, hl⟩, by rw [htype]⟩

/-- Each type reports its own properties, so no report of a merge names a property twice. -/
theorem nodup_flatMap_reports (distinct : (input.live.map (·.type)).Nodup)
    {report : LiveConfig → List PropertyPath} (own : ∀ c, ∀ path ∈ report c, c.type = path.type)
    (once : ∀ c, (report c).Nodup) : (input.live.flatMap report).Nodup := by
  rw [List.nodup_flatMap]
  refine ⟨fun c _ => once c, (List.pairwise_map.1 distinct).imp ?_⟩
  intro c d hne path hc hd
  exact hne ((own c path hc).trans (own d path hd).symm)

theorem nodup_customizedIn (c : LiveConfig) : (customizedIn input c).Nodup := by
  unfold customizedIn
  cases newOf? input c.type with
  | none => exact List.nodup_nil
  | some new =>
    have keys := (List.filter_sublist (p := fun e =>
      isCustomized (oldOf input c.type) new e.1 e.2)).map Prod.fst |>.nodup c.properties.nodup
    refine List.Nodup.of_map PropertyPath.property ?_
    rwa [List.map_map]

theorem nodup_removedIn (c : LiveConfig) : (removedIn input c).Nodup := by
  unfold removedIn
  cases newOf? input c.type with
  | none => exact List.nodup_nil
  | some new =>
    refine List.Nodup.map ?_ ((Record.nodup_keys _).filter _)
    intro a b h
    exact congrArg PropertyPath.property h

/-! ## Reserved names -/

theorem newOf?_of_some {type : String} {new : Defaults}
    (h : input.newDefaults.get? type = some new) : newOf? input type = some new := by
  rw [newOf?, h]
  rfl

/-- A type that the new stack knows is listed, or has a reserved name and no defaults. -/
theorem newOf?_eq_some_iff {type : String} {new : Defaults} : newOf? input type = some new ↔
    input.newDefaults.get? type = some new ∨
      input.newDefaults.get? type = none ∧ isKnown type = true ∧ new = Record.empty := by
  rw [newOf?]
  cases input.newDefaults.get? type with
  | some listed => simp
  | none => cases isKnown type <;> simp [eq_comm]

theorem oldOf_of_some {type : String} {old : Defaults}
    (h : input.oldDefaults.get? type = some old) : oldOf input type = old := by
  rw [oldOf, h]
  rfl

theorem oldDefault_of_none {type key : String} (h : input.oldDefaults.get? type = none) :
    input.oldDefault type key = none := by
  rw [MergeInput.oldDefault, h]
  rfl

theorem isKnown_recordName : isKnown recordName = true := by
  simp [isKnown, ownDefaults?]

/-- A live type that the new stack knows has its properties settled, as long as its name is not that
of the record itself. -/
theorem get?_configs_of_known (distinct : (input.live.map (·.type)).Nodup) {c : LiveConfig}
    {new : Defaults} (mem : c ∈ input.live) (writable : c.type ≠ recordName)
    (hnew : input.newDefaults.get? c.type = some new) :
    (of input).configs.get? c.type = some (properties (oldOf input c.type) new c.properties) := by
  rw [get?_configs_of_live distinct mem writable, mergedLive, newOf?_of_some hnew]

namespace Ordinary

variable (h : Ordinary input)

include h

theorem type_ne {c : LiveConfig} (mem : c ∈ input.live) : c.type ≠ recordName := by
  intro hc
  have unknown := h.known c mem (by rw [hc]; exact h.new_types)
  rw [hc, isKnown_recordName] at unknown
  cases unknown

theorem newOf?_eq {c : LiveConfig} (mem : c ∈ input.live) :
    newOf? input c.type = input.newDefaults.get? c.type := by
  cases hnew : input.newDefaults.get? c.type with
  | none => rw [newOf?, hnew, h.known c mem hnew]; rfl
  | some new => exact newOf?_of_some hnew

/-- The own properties of a reserved type count as old defaults only where that makes no
difference. -/
theorem get?_oldOf {c : LiveConfig} {new : Defaults} {key n : String} (mem : c ∈ input.live)
    (hnew : input.newDefaults.get? c.type = some new) (hn : new.get? key = some (some n)) :
    (oldOf input c.type).get? key = input.oldDefault c.type key ∨
      input.oldDefault c.type key = none ∧ ∃ l, c.properties.get? key = some l ∧
        ((oldOf input c.type).get? key = some (some l) → l = n) := by
  cases hold : input.oldDefaults.get? c.type with
  | some old =>
    left
    rw [oldOf_of_some hold, MergeInput.oldDefault, hold]
    rfl
  | none =>
    rw [oldDefault_of_none hold]
    cases hown : ownDefaults? c.type with
    | none =>
      left
      rw [oldOf, hold, hown]
      rfl
    | some own =>
      have holdOf : oldOf input c.type = own := by
        rw [oldOf, hold, hown]
        rfl
      rw [holdOf]
      cases ho : own.get? key with
      | none => exact Or.inl rfl
      | some o =>
        obtain ⟨l, hl, heq⟩ := h.own_properties c mem new hnew hold own hown key n o hn ho
        exact Or.inr ⟨rfl, l, hl, fun e => heq (Option.some.inj e)⟩

theorem settled_eq {c : LiveConfig} {new : Defaults} (mem : c ∈ input.live)
    (hnew : input.newDefaults.get? c.type = some new) (key : String) :
    settled ((oldOf input c.type).get? key) (new.get? key).join (c.properties.get? key) =
      settled (input.oldDefault c.type key) (new.get? key).join (c.properties.get? key) := by
  cases hn : (new.get? key).join with
  | none => cases c.properties.get? key <;> rfl
  | some n =>
    rcases h.get?_oldOf mem hnew (Option.join_eq_some_iff.1 hn) with he | ⟨hnone, l, hl, heq⟩
    · rw [he]
    · rw [hnone, hl]
      by_cases hln : l = n
      · simp [settled, hln]
      · have : (oldOf input c.type).get? key ≠ some (some l) := fun e => hln (heq e)
        simp [settled, hln, this]

theorem get?_properties {c : LiveConfig} {new : Defaults} (mem : c ∈ input.live)
    (hnew : input.newDefaults.get? c.type = some new) (key : String) :
    (properties (oldOf input c.type) new c.properties).get? key =
      settled (input.oldDefault c.type key) (new.get? key).join (c.properties.get? key) := by
  rw [Merge.get?_properties]
  by_cases hkey : key = recordName
  · subst hkey
    have hlive := h.live_properties c mem (Record.has_iff.2 ⟨new, hnew⟩)
    rw [if_pos rfl, h.new_values _ new hnew, hlive]
    rfl
  · rw [if_neg hkey, h.settled_eq mem hnew]

theorem customized_iff {path : PropertyPath} : path ∈ (of input).customized ↔
    ∃ c ∈ input.live, c.type = path.type ∧ ∃ new n l,
      input.newDefaults.get? c.type = some new ∧ new.get? path.property = some (some n) ∧
      c.properties.get? path.property = some l ∧ l ≠ n ∧
      input.oldDefault c.type path.property ≠ some (some l) := by
  rw [of, List.mem_flatMap]
  refine exists_congr fun c => and_congr_right fun mem => ?_
  rw [mem_customizedIn, h.newOf?_eq mem]
  refine and_congr_right fun htype => ?_
  constructor
  · rintro ⟨hkey, new, n, l, hnew, hn, hl, hne, hold⟩
    refine ⟨new, n, l, hnew, hn, hl, hne, ?_⟩
    rcases h.get?_oldOf mem hnew hn with he | ⟨hnone, _⟩
    · rwa [← he]
    · rw [hnone]
      exact nofun
  · rintro ⟨new, n, l, hnew, hn, hl, hne, hold⟩
    refine ⟨?_, new, n, l, hnew, hn, hl, hne, ?_⟩
    · intro hkey
      have := h.new_values _ new hnew
      rw [← hkey, hn] at this
      cases this
    · rcases h.get?_oldOf mem hnew hn with he | ⟨_, l', hl', heq⟩
      · rwa [he]
      · rw [hl, Option.some.injEq] at hl'
        subst hl'
        exact fun e => hne (heq e)

theorem removed_iff {path : PropertyPath} : path ∈ (of input).removed ↔
    ∃ c ∈ input.live, c.type = path.type ∧ ∃ new n,
      input.newDefaults.get? c.type = some new ∧ new.get? path.property = some (some n) ∧
      c.properties.get? path.property = none ∧
      (input.oldDefault c.type path.property).isSome := by
  rw [of, List.mem_flatMap]
  refine exists_congr fun c => and_congr_right fun mem => ?_
  rw [mem_removedIn, h.newOf?_eq mem]
  refine and_congr_right fun htype => ?_
  -- Where a live value makes the own properties harmless, nothing is removed on either side.
  have old_eq {new : Defaults} {n : String} (hnew : input.newDefaults.get? c.type = some new)
      (hn : new.get? path.property = some (some n)) (hl : c.properties.get? path.property = none) :
      (oldOf input c.type).get? path.property = input.oldDefault c.type path.property := by
    rcases h.get?_oldOf mem hnew hn with he | ⟨_, l, hl', _⟩
    · exact he
    · rw [hl] at hl'
      cases hl'
  constructor
  · rintro ⟨hkey, new, n, hnew, hn, hl, hold⟩
    exact ⟨new, n, hnew, hn, hl, by rwa [← old_eq hnew hn hl]⟩
  · rintro ⟨new, n, hnew, hn, hl, hold⟩
    refine ⟨?_, new, n, hnew, hn, hl, by rwa [old_eq hnew hn hl]⟩
    intro hkey
    have := h.new_values _ new hnew
    rw [← hkey, hn] at this
    cases this

theorem has_configs_iff (type : String) : (of input).configs.has type ↔
    input.newDefaults.has type ∨ ∃ c ∈ input.live, c.type = type := by
  rw [has_configs, Bool.and_eq_true, Bool.or_eq_true, List.any_eq_true]
  simp only [decide_eq_true_eq]
  refine and_iff_right_of_imp ?_
  rintro (hnew | ⟨c, mem, rfl⟩)
  · rw [isWritable_iff]
    rintro rfl
    rw [Record.has_eq_false_iff.2 h.new_types] at hnew
    cases hnew
  · exact isWritable_iff.2 (h.type_ne mem)

/-- A merge in which no reserved name shows is lawful. -/
theorem lawful (distinct : (input.live.map (·.type)).Nodup) : Lawful input (of input) where
  types := h.has_configs_iff
  added := by
    intro type new hnew absent
    have writable : type ≠ recordName := by
      rintro rfl
      rw [h.new_types] at hnew
      cases hnew
    refine ⟨new.shipped, by rw [get?_configs_of_not_live absent writable, hnew]; rfl, ?_⟩
    intro key
    by_cases hkey : key = recordName
    · subst hkey
      rw [get?_shipped_recordName, h.new_values _ new hnew]
    · exact get?_shipped_of_ne hkey
  carried := by
    intro c mem hnone
    rw [get?_configs_of_live distinct mem (h.type_ne mem), mergedLive, h.newOf?_eq mem, hnone]
  merged := by
    intro c new mem hnew
    exact ⟨_, get?_configs_of_known distinct mem (h.type_ne mem) hnew, h.get?_properties mem hnew⟩
  kept := by
    intro c key mem hkey
    refine ⟨_, get?_configs_of_live distinct mem (h.type_ne mem), ?_⟩
    rw [mergedLive, h.newOf?_eq mem]
    cases hnew : input.newDefaults.get? c.type with
    | none => exact hkey
    | some new =>
      obtain ⟨l, hl⟩ := Record.has_iff.1 hkey
      simp only [Record.has, h.get?_properties mem hnew, hl]
      exact Option.isSome_iff_ne_none.2 settled_ne_none
  carriedOver := by
    refine ⟨(List.filter_sublist.map LiveConfig.type).nodup distinct, fun type => ?_⟩
    rw [mem_carriedOver]
    refine and_congr_right ?_
    rintro ⟨c, mem, rfl⟩
    rw [h.newOf?_eq mem]
  customized := ⟨nodup_flatMap_reports distinct (fun _ _ hp => (mem_customizedIn.1 hp).1)
    nodup_customizedIn, fun _ => h.customized_iff⟩
  removed := ⟨nodup_flatMap_reports distinct (fun _ _ hp => (mem_removedIn.1 hp).1)
    nodup_removedIn, fun _ => h.removed_iff⟩

end Ordinary

namespace Lawful

variable (h : Lawful input (of input))

include h

theorem new_types : input.newDefaults.get? recordName = none := by
  rw [← Record.has_eq_false_iff]
  cases hnew : input.newDefaults.has recordName with
  | false => rfl
  | true =>
    have hconfigs := (h.types recordName).2 (Or.inl hnew)
    rw [has_configs, isWritable_recordName] at hconfigs
    cases hconfigs

theorem type_ne {c : LiveConfig} (mem : c ∈ input.live) : c.type ≠ recordName := by
  intro hc
  have hconfigs := (h.types c.type).2 (Or.inr ⟨c, mem, rfl⟩)
  rw [has_configs, hc, isWritable_recordName] at hconfigs
  cases hconfigs

variable (distinct : (input.live.map (·.type)).Nodup)

include distinct

/-- What the merge does with a property of a known type is what the law wants. -/
theorem settled_eq {c : LiveConfig} {new : Defaults} (mem : c ∈ input.live)
    (hnew : input.newDefaults.get? c.type = some new) (key : String) :
    (if key = recordName then none else
      settled ((oldOf input c.type).get? key) (new.get? key).join (c.properties.get? key)) =
      settled (input.oldDefault c.type key) (new.get? key).join (c.properties.get? key) := by
  obtain ⟨p, hp, hlaw⟩ := h.merged mem hnew
  rw [get?_configs_of_known distinct mem (h.type_ne mem) hnew, Option.some.injEq] at hp
  rw [← hlaw key, ← hp, get?_properties]

theorem live_properties {c : LiveConfig} (mem : c ∈ input.live)
    (known : input.newDefaults.has c.type) : c.properties.get? recordName = none := by
  obtain ⟨new, hnew⟩ := Record.has_iff.1 known
  have hlaw := h.settled_eq distinct mem hnew recordName
  rw [if_pos rfl] at hlaw
  cases hl : c.properties.get? recordName with
  | none => rfl
  | some l =>
    rw [hl] at hlaw
    exact absurd hlaw.symm settled_ne_none

theorem new_values {type : String} {new : Defaults} (hnew : input.newDefaults.get? type = some new) :
    (new.get? recordName).join = none := by
  by_cases live : ∃ c ∈ input.live, c.type = type
  · obtain ⟨c, mem, rfl⟩ := live
    have hlaw := h.settled_eq distinct mem hnew recordName
    have hl := h.live_properties distinct mem (Record.has_iff.2 ⟨new, hnew⟩)
    rw [if_pos rfl, hl] at hlaw
    cases hn : (new.get? recordName).join with
    | none => rfl
    | some n =>
      -- The new default would have to be removed, and a merge never reports that name.
      cases hold : input.oldDefault c.type recordName with
      | none => simp [hn, hold, settled] at hlaw
      | some o =>
        have hrem : (⟨c.type, recordName⟩ : PropertyPath) ∈ (of input).removed :=
          (h.removed.2 _).2 ⟨c, mem, rfl, new, n, hnew, Option.join_eq_some_iff.1 hn, hl,
            by rw [hold]; rfl⟩
        obtain ⟨d, _, hd⟩ := List.mem_flatMap.1 hrem
        exact absurd rfl (mem_removedIn.1 hd).2.1
  · have writable : type ≠ recordName := by
      rintro rfl
      rw [h.new_types] at hnew
      cases hnew
    have absent : ∀ c ∈ input.live, c.type ≠ type := fun c mem e => live ⟨c, mem, e⟩
    obtain ⟨p, hp, hlaw⟩ := h.added hnew absent
    rw [get?_configs_of_not_live absent writable, hnew] at hp
    rw [← hlaw recordName, ← Option.some.inj hp, get?_shipped_recordName]

/-- A lawful merge has no reserved name that shows. -/
theorem ordinary : Ordinary input where
  new_types := h.new_types
  new_values := fun _ _ hnew => h.new_values distinct hnew
  known := by
    intro c mem hnone
    have hcarried := (h.carriedOver.2 c.type).2 ⟨⟨c, mem, rfl⟩, hnone⟩
    have hnew := (mem_carriedOver.1 hcarried).2
    rw [newOf?, hnone] at hnew
    cases hknown : isKnown c.type with
    | false => rfl
    | true => rw [hknown] at hnew; cases hnew
  live_properties := fun _ mem known => h.live_properties distinct mem known
  own_properties := by
    intro c mem new hnew hnone own hown key n o hn ho
    have hkey : key ≠ recordName := by
      rintro rfl
      have := h.new_values distinct hnew
      rw [hn] at this
      cases this
    have hold : oldOf input c.type = own := by
      rw [oldOf, hnone, hown]
      rfl
    have hlaw := h.settled_eq distinct mem hnew key
    rw [if_neg hkey, hold, ho, oldDefault_of_none hnone, hn] at hlaw
    cases hl : c.properties.get? key with
    | none => simp [hl, settled] at hlaw
    | some l =>
      refine ⟨l, rfl, ?_⟩
      rintro rfl
      by_cases hln : l = n
      · exact hln
      · simp [hl, settled, hln] at hlaw
        exact hlaw.symm

end Lawful

/-- A property that the operators have set, one that they have left alone and one that they have
removed. -/
def zookeeperMerge : MergeInput where
  oldDefaults := Record.ofList [("zoo.cfg", Record.ofList
    [("tickTime", some "2000"), ("initLimit", some "10"), ("syncLimit", some "5")])]
  newDefaults := Record.ofList [("zoo.cfg", Record.ofList
    [("tickTime", some "3000"), ("initLimit", some "20"), ("syncLimit", some "5")])]
  live := [⟨"zoo.cfg", "version1", Record.ofList [("tickTime", "2000"), ("initLimit", "15")]⟩]

/-- A live configuration under the name of the type that records are made from; no stack lists it.
-/
def makerMerge : MergeInput where
  oldDefaults := Record.empty
  newDefaults := Record.empty
  live := [⟨makerName, "version1", Record.ofList [("a", "1")]⟩]

end Merge

end ClusterUpgrade
