import ClusterUpgrade.Issue.Basic
import ClusterUpgrade.Named

/-!
# Checks

A check gives a value together with the issues that it has found on the way. Checks run one after
the other and none of them stops the next, so the issues of a sequence of checks are those of its
parts, in order (`Checked.issues_bind`).
-/

namespace ClusterUpgrade

/-- A value and the issues found while making it. -/
structure Checked (α : Type) where
  value : α
  issues : List Issue

namespace Checked

variable {α β : Type}

instance : Monad Checked where
  pure a := ⟨a, []⟩
  bind c f := ⟨(f c.value).value, c.issues ++ (f c.value).issues⟩

def report (issue : Issue) : Checked Unit := ⟨(), [issue]⟩

/-- A value that stands in for the one that an issue spoils. -/
def reported (issue : Issue) (value : α) : Checked α := ⟨value, [issue]⟩

/-- One check after the other, over a list. -/
def all (f : α → Checked β) : List α → Checked (List β)
  | [] => pure []
  | a :: rest => do
    let b ← f a
    let bs ← all f rest
    return b :: bs

@[simp] theorem value_pure (a : α) : (pure a : Checked α).value = a := rfl

@[simp] theorem issues_pure (a : α) : (pure a : Checked α).issues = [] := rfl

@[simp] theorem value_bind (c : Checked α) (f : α → Checked β) :
    (c >>= f).value = (f c.value).value := rfl

@[simp] theorem issues_bind (c : Checked α) (f : α → Checked β) :
    (c >>= f).issues = c.issues ++ (f c.value).issues := rfl

@[simp] theorem value_all (f : α → Checked β) (as : List α) :
    (all f as).value = as.map fun a => (f a).value := by
  induction as with
  | nil => rfl
  | cons a rest ih => simp [all, ih]

@[simp] theorem issues_all (f : α → Checked β) (as : List α) :
    (all f as).issues = as.flatMap fun a => (f a).issues := by
  induction as with
  | nil => rfl
  | cons a rest ih => simp [all, ih]

/-! ## Fields -/

/-- Where a missing field is reported: at the record around it, or, in the whole document, at the
field itself. -/
def missingPlace (place : Location) (field : String) : Location :=
  if place.isEmpty then Location.top field else place

/-- A text field that must be there and not empty. -/
def requireText (d : Document) (field : String) (place : Location) : Checked (Option String) :=
  match d.field? field with
  | none => reported (.missingField (missingPlace place field) field) none
  | some (.text s) =>
    if s = "" then reported (.missingField (missingPlace place field) field) none
    else pure (some s)
  | some v => reported (.ofKind (place.field field) "string" v) none

/-- A text field that may be missing. -/
def optionalText (d : Document) (field : String) (place : Location) : Checked (Option String) :=
  match d.field? field with
  | none => pure none
  | some (.text s) => pure (some s)
  | some v => reported (.ofKind (place.field field) "string" v) none

/-- A boolean field with the value that it has when it is missing or spoilt. -/
def optionalBoolean (d : Document) (field : String) (place : Location) (fallback : Bool) :
    Checked Bool :=
  match d.field? field with
  | none => pure fallback
  | some (.boolean b) => pure b
  | some v => reported (.ofKind (place.field field) "boolean" v) fallback

/-- A field that must hold a word of a vocabulary. -/
def requireWord (α : Type) [Named α] (d : Document) (field : String) (place : Location) :
    Checked (Option α) :=
  match d.field? field with
  | none => reported (.missingField (missingPlace place field) field) none
  | some v =>
    match v.text?.bind Named.ofName? with
    | some a => pure (some a)
    | none => reported (.unknownValue (place.field field) v (Named.names α)) none

/-- A field that may be missing, and else holds a word of a vocabulary. -/
def wordOr (α : Type) [Named α] (d : Document) (field : String) (place : Location) (fallback : α) :
    Checked (Option α) :=
  if (d.field? field).isSome then requireWord α d field place else pure (some fallback)

/-- The items of a list field with their indices. A missing list is empty, and so is one that is no
list. -/
def itemsOf (value : Option Document) (place : Location) : Checked (List (Document × Nat)) :=
  match value with
  | none => pure []
  | some (.list items) => pure items.zipIdx
  | some v => reported (.ofKind place "array" v) []

/-- The fields of a record field. A missing record is empty, and so is one that is no record. -/
def fieldsOf (value : Option Document) (place : Location) :
    Checked (List (String × Document)) :=
  match value with
  | none => pure []
  | some (.record fields) => pure fields
  | some v => reported (.ofKind place "object" v) []

end Checked

end ClusterUpgrade
