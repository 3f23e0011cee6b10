import ClusterUpgrade.Proofs.Merge

/-!
# Null defaults of the old stack

A null default is a property that a stack does not ship. On the old side of a merge it makes a
difference all the same: a property that is not live counts as removed by the operators wherever the
old stack lists it, with or without a value.

1. `customized_withoutOldNulls`, `removed_withoutOldNulls`: what a merge reports without the null
   defaults of the old stack.
2. `null_old_defaults_iff`: the merge does without them exactly when no property is `Revived`, and
   what happens to one that is.
-/

namespace ClusterUpgrade

/-- The defaults that have a value. -/
def Defaults.withoutNulls (d : Defaults) : Defaults :=
  ⟨d.entries.filter (·.2.isSome), (List.filter_sublist.map Prod.fst).nodup d.nodup⟩

theorem Defaults.get?_withoutNulls (d : Defaults) (key : String) :
    d.withoutNulls.get? key = (d.get? key).filter Option.isSome := by
  refine Option.ext fun value => ?_
  rw [Record.get?_eq_some_iff, Option.filter_eq_some_iff, Record.get?_eq_some_iff]
  exact List.mem_filter

/-- A merge whose old stack lists no null defaults. -/
def MergeInput.withoutOldNulls (input : MergeInput) : MergeInput :=
  { input with oldDefaults := input.oldDefaults.map Defaults.withoutNulls }

namespace Merge

open Reserved

variable {input : MergeInput} {c : LiveConfig} {old old' new : Defaults} {live : Properties}

/-- A property that the old stack lists without a value, the new stack ships with one, and a live
configuration does not have. -/
structure Revived (input : MergeInput) (c : LiveConfig) (key : String) : Prop where
  writable : key ≠ recordName
  unshipped : input.oldDefault c.type key = some none
  shipped : ∃ new n, input.newDefaults.get? c.type = some new ∧ new.get? key = some (some n)
  missing : c.properties.get? key = none

/-! ## Old defaults with and without values -/

/-- Old defaults with the same values. -/
def SameValues (old old' : Defaults) : Prop :=
  ∀ key value, old'.get? key = some (some value) ↔ old.get? key = some (some value)

theorem SameValues.isCustomized_eq (h : SameValues old old') (key value : String) :
    isCustomized old' new key value = isCustomized old new key value := by
  have same : (old'.get? key != some (some value)) = (old.get? key != some (some value)) := by
    rw [Bool.eq_iff_iff, bne_iff_ne, bne_iff_ne]
    exact not_congr (h key value)
  rw [isCustomized, isCustomized, same]

theorem SameValues.overlaid_eq (h : SameValues old old') :
    overlaid old' new live = overlaid old new live := by
  have same : (fun e : String × String => keepsLive old' new e.1 e.2) =
      fun e => keepsLive old new e.1 e.2 := by
    funext e
    rw [keepsLive, keepsLive, h.isCustomized_eq]
  rw [overlaid, overlaid, same]

theorem get?_oldOf_of_oldDefault {type key : String} {value : Option String}
    (h : input.oldDefault type key = some value) : (oldOf input type).get? key = some value := by
  obtain ⟨old, hold, hvalue⟩ := Option.bind_eq_some_iff.1 h
  rw [oldOf_of_some hold, hvalue]

theorem get?_oldOf_withoutOldNulls (type key : String) :
    (oldOf input.withoutOldNulls type).get? key =
      if input.oldDefault type key = some none then none else (oldOf input type).get? key := by
  have listed : input.withoutOldNulls.oldDefaults.get? type =
      (input.oldDefaults.get? type).map Defaults.withoutNulls := Record.get?_map _ _ _
  cases hold : input.oldDefaults.get? type with
  | none =>
    rw [oldDefault_of_none hold, if_neg nofun, oldOf, oldOf, listed, hold]
    rfl
  | some old =>
    rw [hold] at listed
    rw [oldOf_of_some listed, oldOf_of_some hold, Defaults.get?_withoutNulls, MergeInput.oldDefault,
      hold, Option.bind_some]
    rcases old.get? key with _ | _ | value <;> rfl

theorem sameValues_withoutOldNulls (type : String) :
    SameValues (oldOf input type) (oldOf input.withoutOldNulls type) := by
  intro key value
  rw [get?_oldOf_withoutOldNulls]
  split
  · next h =>
    rw [get?_oldOf_of_oldDefault h]
    exact ⟨nofun, nofun⟩
  · exact Iff.rfl

/-- Without null defaults, a property that the old stack lists without a value has not been
removed. -/
theorem isRemoved_withoutOldNulls (type key : String) :
    isRemoved (oldOf input.withoutOldNulls type) live key =
      (decide (input.oldDefault type key ≠ some none) &&
        isRemoved (oldOf input type) live key) := by
  rw [isRemoved, isRemoved, Record.has, get?_oldOf_withoutOldNulls]
  split
  · next h => simp [h]
  · next h => simp [h, Record.has]

/-! ## Reports -/

theorem customized_withoutOldNulls :
    (of input.withoutOldNulls).customized = (of input).customized := by
  refine List.flatMap_congr fun c _ => ?_
  unfold customizedIn
  cases hnew : newOf? input c.type with
  | none => rw [show newOf? input.withoutOldNulls c.type = none from hnew]
  | some new =>
    rw [show newOf? input.withoutOldNulls c.type = some new from hnew]
    simp only [(sameValues_withoutOldNulls c.type).isCustomized_eq]

theorem removedIn_withoutOldNulls : removedIn input.withoutOldNulls c =
    (removedIn input c).filter fun path =>
      input.oldDefault path.type path.property ≠ some none := by
  unfold removedIn
  cases hnew : newOf? input c.type with
  | none =>
    rw [show newOf? input.withoutOldNulls c.type = none from hnew]
    rfl
  | some new =>
    rw [show newOf? input.withoutOldNulls c.type = some new from hnew]
    simp only [(sameValues_withoutOldNulls c.type).overlaid_eq, List.filter_map, List.filter_filter,
      Function.comp_def]
    exact congrArg _ (List.filter_congr fun key _ => isRemoved_withoutOldNulls c.type key)

theorem removed_withoutOldNulls : (of input.withoutOldNulls).removed =
    (of input).removed.filter fun path => input.oldDefault path.type path.property ≠ some none := by
  rw [of, of, List.filter_flatMap]
  exact List.flatMap_congr fun c _ => removedIn_withoutOldNulls

/-! ## Revived properties -/

/-- A property with a new default belongs to a type that the new stack lists. -/
theorem listed_of_newOf? {key n : String} {type : String} (hnew : newOf? input type = some new)
    (hn : new.get? key = some (some n)) : input.newDefaults.get? type = some new := by
  rcases newOf?_eq_some_iff.1 hnew with listed | ⟨-, -, rfl⟩
  · exact listed
  · cases hn

theorem Revived.mem_removedIn {key : String} (h : Revived input c key) :
    (⟨c.type, key⟩ : PropertyPath) ∈ removedIn input c := by
  obtain ⟨new, n, hnew, hn⟩ := h.shipped
  refine Merge.mem_removedIn.2 ⟨rfl, h.writable, new, n, newOf?_of_some hnew, hn, h.missing, ?_⟩
  rw [get?_oldOf_of_oldDefault h.unshipped]
  rfl

theorem Revived.mem_removed {key : String} (h : Revived input c key) (mem : c ∈ input.live) :
    (⟨c.type, key⟩ : PropertyPath) ∈ (of input).removed :=
  List.mem_flatMap.2 ⟨c, mem, h.mem_removedIn⟩

theorem Revived.not_mem_removed {key : String} (h : Revived input c key) :
    (⟨c.type, key⟩ : PropertyPath) ∉ (of input.withoutOldNulls).removed := by
  rw [removed_withoutOldNulls, List.mem_filter]
  rintro ⟨-, listed⟩
  exact of_decide_eq_true listed h.unshipped

/-- A reported property that the old stack lists without a value is revived. -/
theorem revived_of_mem_removedIn {path : PropertyPath} (mem : path ∈ removedIn input c)
    (unshipped : input.oldDefault path.type path.property = some none) :
    Revived input c path.property := by
  obtain ⟨htype, writable, new, n, hnew, hn, missing, -⟩ := Merge.mem_removedIn.1 mem
  exact ⟨writable, by rw [htype, unshipped], ⟨new, n, listed_of_newOf? hnew hn, hn⟩, missing⟩

/-- A type without revived properties is merged as if the old stack listed no null defaults. -/
theorem mergedLive_withoutOldNulls (none_revived : ∀ key, ¬ Revived input c key) :
    mergedLive input.withoutOldNulls c = mergedLive input c := by
  unfold mergedLive
  cases hnew : newOf? input c.type with
  | none => rw [show newOf? input.withoutOldNulls c.type = none from hnew]
  | some new =>
    rw [show newOf? input.withoutOldNulls c.type = some new from hnew]
    simp only
    rw [properties, properties, (sameValues_withoutOldNulls c.type).overlaid_eq]
    apply Record.eq_of_entries_eq
    refine List.filter_congr ?_
    rintro ⟨key, value⟩ he
    refine congrArg (!·) ((isRemoved_withoutOldNulls c.type key).trans ?_)
    cases hremoved : isRemoved (oldOf input c.type) c.properties key with
    | false => exact Bool.and_false _
    | true =>
      have shipped : new.shipped.get? key = some value := by
        rw [← get?_overlaid_of_isRemoved hremoved]
        exact Record.get?_eq_some_iff.2 he
      have writable : key ≠ recordName := by
        rintro rfl
        rw [get?_shipped_recordName] at shipped
        cases shipped
      rw [get?_shipped_of_ne writable] at shipped
      have hn := Option.join_eq_some_iff.1 shipped
      rw [Bool.and_true, decide_eq_true_iff]
      intro unshipped
      have missing := (isRemoved_iff.1 hremoved).2
      exact none_revived key
        ⟨writable, unshipped, ⟨new, value, listed_of_newOf? hnew hn, hn⟩, missing⟩

theorem configs_withoutOldNulls (none_revived : ∀ c ∈ input.live, ∀ key, ¬ Revived input c key) :
    (of input.withoutOldNulls).configs = (of input).configs :=
  List.foldl_ext _ _ _ fun r c mem => by
    rw [mergedLive_withoutOldNulls (none_revived c (List.mem_of_mem_filter mem))]

/-- What a merge holds of a revived property: nothing, and the new default where the old stack lists
no null defaults. -/
theorem Revived.get?_mergedLive {key : String} (h : Revived input c key) :
    (mergedLive input c).get? key = none ∧
      ∃ new n, input.newDefaults.get? c.type = some new ∧ new.get? key = some (some n) ∧
        (mergedLive input.withoutOldNulls c).get? key = some n := by
  obtain ⟨new, n, hnew, hn⟩ := h.shipped
  have known : newOf? input c.type = some new := newOf?_of_some hnew
  have known' : newOf? input.withoutOldNulls c.type = some new := known
  refine ⟨?_, new, n, hnew, hn, ?_⟩
  · rw [mergedLive, known]
    simp only [get?_properties, if_neg h.writable, get?_oldOf_of_oldDefault h.unshipped, hn,
      h.missing]
    rfl
  · rw [mergedLive, known']
    simp only [get?_properties, if_neg h.writable, get?_oldOf_withoutOldNulls, if_pos h.unshipped,
      hn, h.missing]
    rfl

/-- **A null default of the old stack counts as shipped.** Without the null defaults of the old
stack a merge customizes the same, and it is the same altogether exactly when none of them stands
for a property that the new stack ships and a live type does not have. Such a property is reported
as removed and left out; without null defaults it would come with its new default, and nothing would
be reported. -/
theorem null_old_defaults_iff (input : MergeInput) :
    (of input.withoutOldNulls).customized = (of input).customized ∧
    ((of input.withoutOldNulls).configs = (of input).configs ∧
      (of input.withoutOldNulls).removed = (of input).removed ↔
        ∀ c ∈ input.live, ∀ key, ¬ Revived input c key) ∧
    ∀ c ∈ input.live, ∀ key, Revived input c key →
      ((⟨c.type, key⟩ : PropertyPath) ∈ (of input).removed ∧
        (⟨c.type, key⟩ : PropertyPath) ∉ (of input.withoutOldNulls).removed) ∧
      ((input.live.map (·.type)).Nodup → c.type ≠ recordName → ∃ p p' new n,
        (of input).configs.get? c.type = some p ∧ p.get? key = none ∧
        (of input.withoutOldNulls).configs.get? c.type = some p' ∧ p'.get? key = some n ∧
        input.newDefaults.get? c.type = some new ∧ new.get? key = some (some n)) := by
  refine ⟨customized_withoutOldNulls, ⟨?_, ?_⟩, ?_⟩
  · rintro ⟨-, reports⟩ c mem key h
    exact h.not_mem_removed (reports ▸ h.mem_removed mem)
  · intro none_revived
    refine ⟨configs_withoutOldNulls none_revived, ?_⟩
    rw [removed_withoutOldNulls, List.filter_eq_self]
    intro path reported
    obtain ⟨c, mem, hpath⟩ := List.mem_flatMap.1 reported
    exact decide_eq_true fun unshipped =>
      none_revived c mem _ (revived_of_mem_removedIn hpath unshipped)
  · intro c mem key h
    refine ⟨⟨h.mem_removed mem, h.not_mem_removed⟩, fun distinct writable => ?_⟩
    obtain ⟨dropped, new, n, hnew, hn, added⟩ := h.get?_mergedLive
    have distinct' : (input.withoutOldNulls.live.map (·.type)).Nodup := distinct
    have mem' : c ∈ input.withoutOldNulls.live := mem
    exact ⟨_, _, new, n, get?_configs_of_live distinct mem writable, dropped,
      get?_configs_of_live distinct' mem' writable, added, hnew, hn⟩

/-- A property that ZooKeeper's old stack lists without a value. -/
def tickTimeMerge : MergeInput where
  oldDefaults := Record.ofList [("zoo.cfg", Record.ofList [("tickTime", none)])]
  newDefaults := Record.ofList [("zoo.cfg", Record.ofList [("tickTime", some "3000")])]
  live := [⟨"zoo.cfg", "version1", Record.empty⟩]

theorem revived_tickTime :
    Revived tickTimeMerge ⟨"zoo.cfg", "version1", Record.empty⟩ "tickTime" where
  writable := by decide
  unshipped := by decide
  shipped := ⟨Record.ofList [("tickTime", some "3000")], "3000", by decide, by decide⟩
  missing := rfl

theorem null_old_defaults_iff_tickTime :
    Revived tickTimeMerge ⟨"zoo.cfg", "version1", Record.empty⟩ "tickTime" ∧
      (⟨"zoo.cfg", "tickTime"⟩ : PropertyPath) ∈ (of tickTimeMerge).removed ∧
      (⟨"zoo.cfg", "tickTime"⟩ : PropertyPath) ∉ (of tickTimeMerge.withoutOldNulls).removed :=
  ⟨revived_tickTime,
    ((null_old_defaults_iff tickTimeMerge).2.2 _ List.mem_cons_self _ revived_tickTime).1⟩

/-- The null default makes a difference to what is merged and to what is reported. -/
theorem null_old_default_counts :
    ¬ ((of tickTimeMerge.withoutOldNulls).configs = (of tickTimeMerge).configs ∧
      (of tickTimeMerge.withoutOldNulls).customized = (of tickTimeMerge).customized ∧
      (of tickTimeMerge.withoutOldNulls).removed = (of tickTimeMerge).removed) := by
  decide

end Merge

end ClusterUpgrade
