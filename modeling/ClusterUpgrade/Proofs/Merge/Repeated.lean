import ClusterUpgrade.Proofs.Merge
import ClusterUpgrade.Proofs.Record.Rewriting

/-!
# Merging again

A merge whose old defaults are the new ones has nothing to decide: what the operators have set, left
alone, added or removed cancels out, and the live properties stay.

1. `settled_of_same`: no property changes.
2. `properties_properties`: what a merge has given for a type is given again, in the same order, as
   long as the old stack lists the new defaults (`Lists`).
3. `Taken.get?_configs_again`, `Taken.configs_again`: the same for all types of a merge.
4. `same_defaults_change_nothing`: the main statement.
-/

namespace ClusterUpgrade.Merge

open Reserved

/-! ## One configuration type -/

variable {old old' new : Defaults} {live : Properties}

/-- What the operators have not set and the new stack does not change stays as it is. -/
theorem settled_of_same {old : Option (Option String)} {new live : Option String}
    (same : ∀ n, new = some n → old = some (some n)) : settled old new live = live := by
  cases new with
  | none => cases live <;> rfl
  | some n =>
    rw [same n rfl]
    cases live with
    | none => rfl
    | some l =>
      rw [settled]
      split
      · next h =>
        rcases h with rfl | h
        · rfl
        · rw [Option.some.inj (Option.some.inj h)]
      · rfl

/-- Defaults that list every new default, with its value. -/
def Lists (old new : Defaults) : Prop :=
  ∀ key n, new.get? key = some (some n) → old.get? key = some (some n)

theorem Lists.get?_of_shipped (h : Lists old new) {key n : String}
    (hn : new.shipped.get? key = some n) : old.get? key = some (some n) := by
  rw [Defaults.get?_shipped] at hn
  split at hn
  · exact h key n (Option.join_eq_some_iff.1 hn)
  · cases hn

/-- A live value that is not written over the new default is that default. -/
theorem Lists.get?_shipped_of_not_keepsLive (h : Lists old new) {key value : String}
    (writable : key ≠ recordName) (drops : keepsLive old new key value = false) :
    new.shipped.get? key = some value := by
  rw [keepsLive, isWritable_iff.2 writable, Bool.true_and, Bool.or_eq_false_iff,
    Bool.not_eq_false'] at drops
  obtain ⟨n, hn⟩ := Record.has_iff.1 drops.1
  by_cases differs : n = value
  · rw [hn, differs]
  · have customized : isCustomized old new key value = true := by
      have old_eq := h.get?_of_shipped hn
      simp [isCustomized, hn, old_eq, differs]
    rw [customized] at drops
    cases drops.2

/-- What a merge has given is overlaid on the new defaults as before. -/
theorem overlaid_properties (h : Lists old' new) :
    overlaid old' new (properties old new live) = overlaid old new live := by
  have written : overlaid old' new (properties old new live) =
      new.shipped.overlay (properties old new live) := by
    refine Record.foldl_insert_filter Prod.fst Prod.snd (properties old new live).nodup ?_
    rintro ⟨key, value⟩ he drops
    have hvalue := Record.get?_eq_some_iff.2 he
    rw [get?_properties] at hvalue
    split at hvalue
    · cases hvalue
    · next writable => exact h.get?_shipped_of_not_keepsLive writable drops
  have restored : new.shipped.overlay (properties old new live) =
      new.shipped.overlay (overlaid old new live) := by
    refine Record.foldl_insert_filter Prod.fst Prod.snd (overlaid old new live).nodup ?_
    rintro ⟨key, value⟩ he drops
    rw [← get?_overlaid_of_isRemoved (by simpa using drops)]
    exact Record.get?_eq_some_iff.2 he
  rw [written, restored]
  exact Record.overlay_foldl_insert new.shipped _

/-- What a merge has left out is left out again, and nothing else is. -/
theorem isRemoved_properties (h : Lists old' new) {key value : String}
    (hvalue : (overlaid old new live).get? key = some value) :
    isRemoved old' (properties old new live) key = isRemoved old live key := by
  cases hremoved : isRemoved old live key with
  | true =>
    have shipped : (overlaid old new live).get? key = new.shipped.get? key :=
      get?_overlaid_of_isRemoved hremoved
    refine isRemoved_iff.2 ⟨?_, ?_⟩
    · rw [h.get?_of_shipped (shipped.symm.trans hvalue)]
      rfl
    · rw [properties, Record.get?_filterKeys, hremoved]
      rfl
  | false =>
    have kept : (properties old new live).get? key = some value := by
      rw [properties, Record.get?_filterKeys, hremoved]
      exact hvalue
    simp [isRemoved, Record.has, kept]

/-- A merge that starts from what it has given gives the same again, in the same order. -/
theorem properties_properties (h : Lists old' new) :
    properties old' new (properties old new live) = properties old new live := by
  rw [properties, overlaid_properties h]
  apply Record.eq_of_entries_eq
  refine List.filter_congr ?_
  rintro ⟨key, value⟩ he
  exact congrArg (!·) (isRemoved_properties h (Record.get?_eq_some_iff.2 he))

theorem properties_empty : properties Record.empty new Record.empty = new.shipped :=
  Record.filterKeys_eq_self fun _ _ => rfl

/-! ## All types -/

variable {defaults : DefaultsByType} {input : MergeInput}

theorem newOf?_isSome_iff {type : String} :
    (newOf? input type).isSome ↔ input.newDefaults.has type ∨ isKnown type = true := by
  rw [newOf?, Record.has]
  cases input.newDefaults.get? type with
  | some new => simp
  | none => cases isKnown type <;> simp

/-- With the same defaults on either side, the old ones of a type list the new ones. -/
theorem lists_of_newOf? {type : String} (live : List LiveConfig)
    (hnew : newOf? input type = some new) :
    Lists (oldOf ⟨input.newDefaults, input.newDefaults, live⟩ type) new := by
  rcases newOf?_eq_some_iff.1 hnew with listed | ⟨-, -, rfl⟩
  · rw [oldOf_of_some listed]
    exact fun _ _ h => h
  · exact fun _ _ h => by cases h

/-- With the same defaults on either side, a live type keeps its properties. -/
theorem get?_mergedLive_of_same {live : List LiveConfig} {c : LiveConfig}
    (shown : defaults.has c.type ∨ isKnown c.type = true → c.properties.get? recordName = none)
    (key : String) :
    (mergedLive ⟨defaults, defaults, live⟩ c).get? key = c.properties.get? key := by
  rw [mergedLive]
  cases hnew : newOf? ⟨defaults, defaults, live⟩ c.type with
  | none => rfl
  | some new =>
    simp only [get?_properties]
    split
    · next h =>
      have known := newOf?_isSome_iff.1 (Option.isSome_iff_exists.2 ⟨new, hnew⟩)
      rw [h, shown known]
    · exact settled_of_same fun n hn =>
        lists_of_newOf? live hnew key n (Option.join_eq_some_iff.1 hn)

/-- What stands under a type after a merge: the merged properties of a live type, or what the new
stack ships. -/
theorem exists_source {type : String} {p : Properties}
    (h : (of input).configs.get? type = some p) :
    (∃ c ∈ input.live, c.type = type ∧ mergedLive input c = p) ∨
      ∃ new, input.newDefaults.get? type = some new ∧ new.shipped = p := by
  rcases Record.exists_of_get?_foldl_insert LiveConfig.type (mergedLive input) h with
    ⟨c, hc, htype, hp⟩ | hbase
  · exact Or.inl ⟨c, List.mem_of_mem_filter hc, htype, hp⟩
  · rw [Record.get?_map, Record.get?_filterKeys] at hbase
    split at hbase
    · exact Or.inr (Option.map_eq_some_iff.1 hbase)
    · cases hbase

/-- The result of a merge is merged with the same defaults on either side into itself. -/
theorem mergedLive_again {live : List LiveConfig} {c : LiveConfig}
    (h : (of input).configs.get? c.type = some c.properties) :
    mergedLive ⟨input.newDefaults, input.newDefaults, live⟩ c = c.properties := by
  rw [mergedLive]
  cases hnew : newOf? ⟨input.newDefaults, input.newDefaults, live⟩ c.type with
  | none => rfl
  | some new =>
    have hnew' : newOf? input c.type = some new := hnew
    have lists := lists_of_newOf? live hnew'
    rcases exists_source h with ⟨d, _, htype, hd⟩ | ⟨listed, hlisted, hshipped⟩
    · rw [mergedLive, htype, hnew'] at hd
      simp only at hd ⊢
      rw [← hd]
      exact properties_properties lists
    · rw [newOf?_of_some hlisted, Option.some.injEq] at hnew'
      subst hnew'
      simp only
      rw [← hshipped, ← properties_empty]
      exact properties_properties lists

/-- What a stack ships, by type. -/
def shippedTypes (defaults : DefaultsByType) : PropertiesByType :=
  (defaults.filterKeys isWritable).map Defaults.shipped

theorem configs_of (input : MergeInput) : (of input).configs =
    ((input.live.filter fun c => isWritable c.type).map fun c => (c.type, mergedLive input c)).foldl
      (fun r e => r.insert e.1 e.2) (shippedTypes input.newDefaults) := by
  rw [List.foldl_map]
  rfl

/-- Live configurations that a merge has given, of whatever tags and in whatever order. -/
def Taken (m : Merge) (live : List LiveConfig) : Prop :=
  (live.map fun c => (c.type, c.properties)).Perm m.configs.entries

namespace Taken

variable {again : List LiveConfig} (h : Taken (of input) again)

include h

theorem get?_configs {c : LiveConfig} (mem : c ∈ again) :
    (of input).configs.get? c.type = some c.properties :=
  Record.get?_eq_some_iff.2 (h.mem_iff.1 (List.mem_map_of_mem mem))

theorem writable {c : LiveConfig} (mem : c ∈ again) : isWritable c.type = true := by
  rw [isWritable_iff]
  intro reserved
  have stands := h.get?_configs mem
  rw [reserved, get?_configs_recordName] at stands
  cases stands

theorem distinct : (again.map (·.type)).Nodup := by
  have keys := (h.map Prod.fst).nodup_iff.2 (of input).configs.nodup
  rwa [List.map_map] at keys

/-- Merged again, with the same defaults on either side, the taken types are written as they are. -/
theorem configs_eq : (of ⟨input.newDefaults, input.newDefaults, again⟩).configs =
    again.foldl (fun r c => r.insert c.type c.properties)
      (shippedTypes input.newDefaults) := by
  rw [configs_of, List.filter_eq_self.2 fun c mem => h.writable mem, List.foldl_map]
  exact List.foldl_ext _ _ _ fun r c mem => by rw [mergedLive_again (h.get?_configs mem)]

/-- A merge with the same defaults on either side gives what it is given. -/
theorem get?_configs_again (type : String) :
    (of ⟨input.newDefaults, input.newDefaults, again⟩).configs.get? type =
      (of input).configs.get? type := by
  rw [h.configs_eq]
  by_cases mem : type ∈ again.map (·.type)
  · obtain ⟨c, hc, rfl⟩ := List.mem_map.1 mem
    rw [h.get?_configs hc]
    exact Record.get?_foldl_insert_of_mem LiveConfig.type LiveConfig.properties h.distinct hc _
  · -- A type that is not taken does not stand in the merge, so the new stack does not ship it.
    have absent : (of input).configs.get? type = none := by
      rw [← Record.has_eq_false_iff, Bool.eq_false_iff]
      intro has
      obtain ⟨p, hp⟩ := Record.has_iff.1 has
      obtain ⟨c, hc, hentry⟩ := List.mem_map.1 (h.mem_iff.2 (Record.get?_eq_some_iff.1 hp))
      exact mem (List.mem_map.2 ⟨c, hc, congrArg Prod.fst hentry⟩)
    have unshipped : (shippedTypes input.newDefaults).get? type = none := by
      rw [← Record.has_eq_false_iff, configs_of, Record.has_foldl_insert Prod.fst Prod.snd,
        Bool.or_eq_false_iff] at absent
      exact Record.has_eq_false_iff.1 absent.2
    rw [absent, Record.get?_foldl_insert_of_not_mem LiveConfig.type LiveConfig.properties mem,
      unshipped]

/-- Taken in their order, they are given in their order. -/
theorem configs_again
    (order : (again.map fun c => (c.type, c.properties)) = (of input).configs.entries) :
    (of ⟨input.newDefaults, input.newDefaults, again⟩).configs = (of input).configs := by
  have rewritten := Record.overlay_foldl_insert (shippedTypes input.newDefaults)
    ((input.live.filter fun c => isWritable c.type).map fun c => (c.type, mergedLive input c))
  rw [← configs_of, Record.overlay, ← order, List.foldl_map] at rewritten
  rw [h.configs_eq, rewritten]

end Taken

/-- **The same defaults change nothing.** A live type keeps its properties when the old defaults are
the new ones, exactly where nothing stands under the name of the record itself; and what any merge
has given is given again when it is merged with its new defaults on either side, in the same order
when it is taken in that order. -/
theorem same_defaults_change_nothing (old new : DefaultsByType) (live : List LiveConfig) :
    ((live.map (·.type)).Nodup →
      ((∀ c ∈ live, ∃ p, (of ⟨new, new, live⟩).configs.get? c.type = some p ∧
          ∀ key, p.get? key = c.properties.get? key) ↔
        ∀ c ∈ live, c.type ≠ recordName ∧
          (new.has c.type ∨ isKnown c.type = true → c.properties.get? recordName = none))) ∧
    ∀ again, Taken (of ⟨old, new, live⟩) again →
      (∀ type, (of ⟨new, new, again⟩).configs.get? type =
        (of ⟨old, new, live⟩).configs.get? type) ∧
      ((again.map fun c => (c.type, c.properties)) = (of ⟨old, new, live⟩).configs.entries →
        (of ⟨new, new, again⟩).configs = (of ⟨old, new, live⟩).configs) := by
  refine ⟨fun distinct => forall₂_congr fun c mem => ?_, fun again taken =>
    ⟨taken.get?_configs_again, taken.configs_again⟩⟩
  constructor
  · rintro ⟨p, hp, same⟩
    have writable : c.type ≠ recordName := by
      intro reserved
      rw [reserved, get?_configs_recordName] at hp
      cases hp
    refine ⟨writable, fun known => ?_⟩
    rw [get?_configs_of_live distinct mem writable, Option.some.injEq] at hp
    have shown : (newOf? ⟨new, new, live⟩ c.type).isSome := newOf?_isSome_iff.2 known
    obtain ⟨d, hd⟩ := Option.isSome_iff_exists.1 shown
    rw [← same, ← hp, mergedLive, hd]
    simp only [get?_properties, if_true]
  · rintro ⟨writable, shown⟩
    exact ⟨_, get?_configs_of_live distinct mem writable, get?_mergedLive_of_same shown⟩

/-- The live configuration of ZooKeeper after its merge. -/
def mergedZookeeper : LiveConfig :=
  ⟨"zoo.cfg", "version2", Record.ofList [("tickTime", "3000"), ("initLimit", "15")]⟩

theorem same_defaults_change_nothing_zookeeper :
    (zookeeperMerge.live.map (·.type)).Nodup ∧
    (∀ c ∈ zookeeperMerge.live, ∃ p,
      (of ⟨zookeeperMerge.newDefaults, zookeeperMerge.newDefaults,
        zookeeperMerge.live⟩).configs.get? c.type = some p ∧
          ∀ key, p.get? key = c.properties.get? key) ∧
    (of ⟨zookeeperMerge.newDefaults, zookeeperMerge.newDefaults, [mergedZookeeper]⟩).configs =
      (of zookeeperMerge).configs := by
  have distinct : (zookeeperMerge.live.map (·.type)).Nodup := by decide
  obtain ⟨identity, again⟩ := same_defaults_change_nothing zookeeperMerge.oldDefaults
    zookeeperMerge.newDefaults zookeeperMerge.live
  have order : ([mergedZookeeper].map fun c => (c.type, c.properties)) =
      (of zookeeperMerge).configs.entries := by decide
  exact ⟨distinct, (identity distinct).2 (by decide), (again _ (.of_eq order)).2 order⟩

/-- A live property under the name of the record itself. -/
def selfNamed : LiveConfig := ⟨"zoo.cfg", "version1", Record.ofList [(recordName, "1")]⟩

/-- A stack that ships no defaults for its type. -/
def zooDefaults : DefaultsByType := Record.ofList [("zoo.cfg", Record.empty)]

/-- It does not outlive a merge with the same defaults on either side. -/
theorem same_defaults_drop_self_named :
    ¬ ∀ c ∈ [selfNamed], ∃ p,
      (of ⟨zooDefaults, zooDefaults, [selfNamed]⟩).configs.get? c.type = some p ∧
        ∀ key, p.get? key = c.properties.get? key := by
  intro kept
  obtain ⟨p, hp, same⟩ := kept selfNamed List.mem_cons_self
  have given : (of ⟨zooDefaults, zooDefaults, [selfNamed]⟩).configs.get? selfNamed.type =
      some Record.empty := by decide
  rw [given, Option.some.injEq] at hp
  have lost := same recordName
  rw [← hp] at lost
  exact absurd lost (by decide)

end ClusterUpgrade.Merge
