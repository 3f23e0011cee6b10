import ClusterUpgrade.Proofs.Merge
import Mathlib.Data.List.Flatten

/-!
# Configurations that leave no trace

Some live configurations leave no trace in a merge: for all that is theirs, the merge holds what the
new stack ships anyway (`untouched_iff`). They are exactly the ones that a merge can do without
(`of_filter_live_eq_iff`).
-/

namespace ClusterUpgrade.Merge

open Reserved

variable {input : MergeInput} {c : LiveConfig} {old new : Defaults}

/-- A live configuration that leaves no trace in a merge: the new stack lists its type, none of its
values stands against the new defaults, and no property of the old stack is missing from it. -/
def Untouched (input : MergeInput) (c : LiveConfig) : Prop :=
  ∃ new, input.newDefaults.get? c.type = some new ∧
    (∀ key l, c.properties.get? key = some l →
      keepsLive (oldOf input c.type) new key l = false) ∧
    ∀ key, new.shipped.has key → isRemoved (oldOf input c.type) c.properties key = false

/-! ## What is merged of it -/

theorem keepsLive_iff {key l : String} : keepsLive old new key l = true ↔
    isWritable key = true ∧ (new.shipped.get? key = none ∨ isCustomized old new key l = true) := by
  simp [keepsLive, Record.has_eq_false_iff]

theorem isWritable_of_isCustomized {key l : String} (h : isCustomized old new key l = true) :
    isWritable key = true :=
  isWritable_iff.2 (isCustomized_iff.1 h).1

/-- Where no live value stands against the new defaults, these are all there is. -/
theorem overlaid_eq_shipped {live : Properties}
    (drops : ∀ key l, live.get? key = some l → keepsLive old new key l = false) :
    overlaid old new live = new.shipped := by
  have none_kept : (live.entries.filter fun e => keepsLive old new e.1 e.2) = [] := by
    rw [List.filter_eq_nil_iff]
    rintro ⟨key, l⟩ mem
    simp [drops key l (Record.get?_eq_some_iff.2 mem)]
  rw [overlaid, none_kept]
  rfl

/-- A configuration leaves no trace when its type has what the new stack ships and nothing is
reported of it. -/
theorem untouched_iff : Untouched input c ↔ ∃ new, input.newDefaults.get? c.type = some new ∧
    mergedLive input c = new.shipped ∧ customizedIn input c = [] ∧ removedIn input c = [] := by
  refine exists_congr fun new => and_congr_right fun hnew => ?_
  have hsome := newOf?_of_some hnew
  unfold mergedLive customizedIn removedIn
  simp only [hsome, List.map_eq_nil_iff, List.filter_eq_nil_iff]
  generalize oldOf input c.type = old
  constructor
  · rintro ⟨drops, complete⟩
    have overlaid_eq := overlaid_eq_shipped drops
    refine ⟨?_, ?_, ?_⟩
    · rw [properties, overlaid_eq]
      apply Record.filterKeys_eq_self
      intro key hkey
      simp [complete key hkey]
    · rintro ⟨key, l⟩ mem customized
      have kept := keepsLive_iff.2 ⟨isWritable_of_isCustomized customized, Or.inr customized⟩
      rw [drops key l (Record.get?_eq_some_iff.2 mem)] at kept
      cases kept
    · intro key mem
      rw [overlaid_eq, Record.mem_keys_iff] at mem
      simp [complete key mem]
  · rintro ⟨hmerged, hcustomized, hremoved⟩
    refine ⟨?_, ?_⟩
    · intro key l hl
      rw [← Bool.not_eq_true]
      intro kept
      have present : isRemoved old c.properties key = false := by
        simp [isRemoved, Record.has, hl]
      have hkey : (properties old new c.properties).get? key = some l := by
        simp [properties, present, get?_overlaid, hl, kept]
      rw [hmerged] at hkey
      rcases (keepsLive_iff.1 kept).2 with missing | customized
      · rw [missing] at hkey
        cases hkey
      · exact hcustomized (key, l) (Record.get?_eq_some_iff.1 hl) customized
    · intro key hkey
      rw [← Bool.not_eq_true]
      intro removed
      refine hremoved key ?_ removed
      rw [Record.mem_keys_iff, get?_overlaid, (isRemoved_iff.1 removed).2]
      exact hkey

/-! ## A merge without it -/

/-- Items that contribute nothing to a list may be left out, and no others. -/
theorem flatMap_filter_eq_iff {α β : Type} {f : α → List β} {p : α → Bool} {l : List α} :
    (l.filter p).flatMap f = l.flatMap f ↔ ∀ a ∈ l, p a = false → f a = [] := by
  induction l with
  | nil => simp
  | cons a rest ih =>
    rw [List.forall_mem_cons, ← ih]
    cases hp : p a with
    | true => simp [hp]
    | false =>
      have shorter : ((rest.filter p).flatMap f).length ≤ (rest.flatMap f).length :=
        (List.filter_sublist.flatMap f).length_le
      rw [List.filter_cons_of_neg (by simp [hp]), List.flatMap_cons]
      constructor
      · intro h
        have hlength := congrArg List.length h
        rw [List.length_append] at hlength
        have hnil : f a = [] := List.eq_nil_of_length_eq_zero (by omega)
        rw [hnil, List.nil_append] at h
        exact ⟨fun _ => hnil, h⟩
      · rintro ⟨hnil, h⟩
        rw [hnil rfl, h]
        rfl

section Without

variable (p : LiveConfig → Bool)

/-- What may be left out of a merge leaves no trace in it. -/
theorem untouched_of_filter_live (distinct : (input.live.map (·.type)).Nodup)
    (h : of { input with live := input.live.filter p } = of input) (mem : c ∈ input.live)
    (hp : p c = false) (writable : c.type ≠ recordName) : Untouched input c := by
  have absent : ∀ c' ∈ input.live.filter p, c'.type ≠ c.type := by
    intro c' mem' same
    rw [List.mem_filter] at mem'
    rw [List.inj_on_of_nodup_map distinct mem'.1 mem same, hp] at mem'
    exact Bool.false_ne_true mem'.2
  have hconfigs := congrArg (fun m => m.configs.get? c.type) h
  simp only [get?_configs_of_live distinct mem writable] at hconfigs
  rw [get?_configs_of_not_live absent writable, Option.map_eq_some_iff] at hconfigs
  obtain ⟨new, hnew, hmerged⟩ := hconfigs
  have hcustomized : customizedIn input c = [] :=
    flatMap_filter_eq_iff.1 (congrArg Merge.customized h) c mem hp
  have hremoved : removedIn input c = [] :=
    flatMap_filter_eq_iff.1 (congrArg Merge.removed h) c mem hp
  exact untouched_iff.2 ⟨new, hnew, hmerged.symm, hcustomized, hremoved⟩

variable (untouched : ∀ c ∈ input.live, p c = false → Untouched input c)

include untouched

theorem configs_filter_live (distinct : (input.live.map (·.type)).Nodup) :
    (of { input with live := input.live.filter p }).configs = (of input).configs := by
  show ((input.live.filter p).filter fun c => isWritable c.type).foldl
    (fun r c => r.insert c.type (mergedLive input c)) _ = (of input).configs
  rw [List.filter_comm]
  apply Record.foldl_insert_filter LiveConfig.type (mergedLive input)
    ((List.filter_sublist.map _).nodup distinct)
  intro c mem hp
  rw [List.mem_filter] at mem
  obtain ⟨new, hnew, hmerged, -⟩ := untouched_iff.1 (untouched c mem.1 hp)
  rw [Record.get?_map, Record.get?_filterKeys, if_pos mem.2, hnew, hmerged]
  rfl

theorem carriedOver_filter_live :
    (of { input with live := input.live.filter p }).carriedOver = (of input).carriedOver := by
  show ((input.live.filter p).filter fun c => (newOf? input c.type).isNone).map (·.type) = _
  rw [List.filter_filter]
  refine congrArg _ (List.filter_congr ?_)
  intro c mem
  cases hp : p c with
  | true => rw [Bool.and_true]
  | false =>
    obtain ⟨new, hnew, -⟩ := untouched c mem hp
    rw [newOf?_of_some hnew]
    rfl

/-- What leaves no trace in a merge may be left out of it. -/
theorem of_filter_live (distinct : (input.live.map (·.type)).Nodup) :
    of { input with live := input.live.filter p } = of input := by
  have configs := configs_filter_live p untouched distinct
  have carriedOver := carriedOver_filter_live p untouched
  have customized : (of { input with live := input.live.filter p }).customized =
      (of input).customized := by
    apply flatMap_filter_eq_iff.2
    intro c mem hp
    obtain ⟨new, -, -, hcustomized, -⟩ := untouched_iff.1 (untouched c mem hp)
    exact hcustomized
  have removed : (of { input with live := input.live.filter p }).removed = (of input).removed := by
    apply flatMap_filter_eq_iff.2
    intro c mem hp
    obtain ⟨new, -, -, -, hremoved⟩ := untouched_iff.1 (untouched c mem hp)
    exact hremoved
  generalize of { input with live := input.live.filter p } = m at *
  generalize of input = m' at *
  cases m
  cases m'
  rw [Merge.mk.injEq]
  exact ⟨configs, carriedOver, customized, removed⟩

end Without

/-- Live configurations may be left out of a merge exactly when they leave no trace in it. -/
theorem of_filter_live_eq_iff (input : MergeInput) (p : LiveConfig → Bool)
    (distinct : (input.live.map (·.type)).Nodup)
    (writable : ∀ c ∈ input.live, p c = false → c.type ≠ recordName) :
    of { input with live := input.live.filter p } = of input ↔
      ∀ c ∈ input.live, p c = false → Untouched input c :=
  ⟨fun h c mem hp => untouched_of_filter_live p distinct h mem hp (writable c mem hp),
    fun untouched => of_filter_live p untouched distinct⟩

end ClusterUpgrade.Merge
