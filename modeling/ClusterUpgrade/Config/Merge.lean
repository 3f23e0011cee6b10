import ClusterUpgrade.Config.Reserved

/-!
# Merging configurations

A service that moves to a new stack keeps what its operators have changed. Three sides are merged
for each configuration type: the defaults of the old stack, those of the new one, and the live
properties. For a live property:

| new default     | old default   | afterwards  |
|-----------------|---------------|-------------|
| none            | any           | live value  |
| the live value  | any           | new default |
| another value   | the live value| new default |
| another value   | no such value | live value  |

A new default without a live property is taken, unless the old stack had a default for it: then the
operators have removed the property, and it stays away. A null default of the new stack counts as
none. Every stack knows the reserved types, also when it lists no defaults for them.
-/

namespace ClusterUpgrade

/-- The three sides of a merge. -/
structure MergeInput where
  oldDefaults : DefaultsByType
  newDefaults : DefaultsByType
  live : List LiveConfig

/-- A property of a configuration type. -/
structure PropertyPath where
  type : String
  property : String
  deriving DecidableEq

/-- The written form of a property path. -/
def PropertyPath.text (p : PropertyPath) : String := p.type ++ "/" ++ p.property

/-- What a merge comes to. -/
structure Merge where
  /-- The properties of each type on the new stack. -/
  configs : PropertiesByType
  /-- Live types that the new stack does not know, kept as they are. -/
  carriedOver : List String
  /-- Properties whose live value stands against the new default. -/
  customized : List PropertyPath
  /-- New defaults left out because the operators have removed the property. -/
  removed : List PropertyPath
  deriving DecidableEq

/-- The defaults that are not null. -/
def Defaults.valued (d : Defaults) : Properties :=
  ⟨d.entries.filterMap fun e => e.2.map (e.1, ·), by
    refine List.Nodup.sublist ?_ d.nodup
    induction d.entries with
    | nil => simp
    | cons e rest ih =>
      obtain ⟨key, value⟩ := e
      cases value with
      | none => exact (List.Sublist.cons key ih)
      | some v => simpa using ih⟩

theorem Defaults.get?_valued (d : Defaults) (key : String) :
    d.valued.get? key = (d.get? key).join := by
  obtain ⟨entries, nodup⟩ := d
  simp only [Record.get?, valued]
  induction entries with
  | nil => rfl
  | cons e rest ih =>
    obtain ⟨k, value⟩ := e
    simp only [List.map_cons, List.nodup_cons] at nodup
    cases value with
    | none =>
      simp only [List.filterMap_cons, Option.map_none]
      rw [ih nodup.2, lookup_entry_cons]
      split
      · next h =>
        subst h
        have absent : rest.lookup key = none :=
          Option.not_isSome_iff_eq_none.1 (mt (Record.lookup_isSome_iff rest key).1 nodup.1)
        simp [absent]
      · rfl
    | some v =>
      simp only [List.filterMap_cons, Option.map_some]
      rw [lookup_entry_cons, lookup_entry_cons, ih nodup.2]
      split <;> rfl

/-- The properties that defaults come to. -/
def Defaults.shipped (d : Defaults) : Properties := d.valued.filterKeys Reserved.isWritable

theorem Defaults.get?_shipped (d : Defaults) (key : String) :
    d.shipped.get? key = if Reserved.isWritable key then (d.get? key).join else none := by
  rw [shipped, Record.get?_filterKeys, get?_valued]

namespace Merge

/-! ## One configuration type -/

/-- Whether a live value was set by the operators: the new stack has another default, and the old
stack had not this one. -/
def isCustomized (old new : Defaults) (key value : String) : Bool :=
  (new.shipped.get? key).any (· ≠ value) && old.get? key != some (some value)

/-- Whether a live value goes into the merge. -/
def keepsLive (old new : Defaults) (key value : String) : Bool :=
  Reserved.isWritable key && (!new.shipped.has key || isCustomized old new key value)

/-- The defaults of the new stack with the live values that stand against them. -/
def overlaid (old new : Defaults) (live : Properties) : Properties :=
  (live.entries.filter fun e => keepsLive old new e.1 e.2).foldl
    (fun p e => p.insert e.1 e.2) new.shipped

/-- Whether the operators have removed a property that the old stack had. -/
def isRemoved (old : Defaults) (live : Properties) (key : String) : Bool :=
  old.has key && !live.has key

/-- The properties of a type that the new stack knows. -/
def properties (old new : Defaults) (live : Properties) : Properties :=
  (overlaid old new live).filterKeys fun key => !isRemoved old live key

/-! ## All types -/

/-- The old defaults of a type. -/
def oldOf (input : MergeInput) (type : String) : Defaults :=
  (input.oldDefaults.get? type <|> Reserved.ownDefaults? type).getD Record.empty

/-- The new defaults of a type, if the new stack knows it. -/
def newOf? (input : MergeInput) (type : String) : Option Defaults :=
  input.newDefaults.get? type <|> if Reserved.isKnown type then some Record.empty else none

/-- The merged properties of a live type. -/
def mergedLive (input : MergeInput) (c : LiveConfig) : Properties :=
  match newOf? input c.type with
  | none => c.properties
  | some new => properties (oldOf input c.type) new c.properties

/-- The customized properties of a live type. -/
def customizedIn (input : MergeInput) (c : LiveConfig) : List PropertyPath :=
  match newOf? input c.type with
  | none => []
  | some new =>
    (c.properties.entries.filter fun e => isCustomized (oldOf input c.type) new e.1 e.2).map
      fun e => ⟨c.type, e.1⟩

/-- The removed properties of a live type. -/
def removedIn (input : MergeInput) (c : LiveConfig) : List PropertyPath :=
  match newOf? input c.type with
  | none => []
  | some new =>
    let old := oldOf input c.type
    ((overlaid old new c.properties).keys.filter (isRemoved old c.properties)).map (⟨c.type, ·⟩)

/-- The merge of three sides. Types of the new stack come first; a live type that it does not know
follows. -/
def of (input : MergeInput) : Merge where
  configs := (input.live.filter fun c => Reserved.isWritable c.type).foldl
    (fun r c => r.insert c.type (mergedLive input c))
    ((input.newDefaults.filterKeys Reserved.isWritable).map Defaults.shipped)
  carriedOver := (input.live.filter fun c => (newOf? input c.type).isNone).map (·.type)
  customized := input.live.flatMap (customizedIn input)
  removed := input.live.flatMap (removedIn input)

def document (m : Merge) : Document :=
  .record [("configs", m.configs.document), ("carriedOver", .texts m.carriedOver),
    ("customized", .texts (m.customized.map (·.text))),
    ("removed", .texts (m.removed.map (·.text)))]

end Merge

end ClusterUpgrade
