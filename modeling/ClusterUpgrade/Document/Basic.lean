import ClusterUpgrade.Number.Shortest
import ClusterUpgrade.Record
import ClusterUpgrade.Text.Search

/-!
# Documents

A document is what a JSON or YAML text holds: scalars, lists and records. Packs, topologies and
settings are checked as documents, and every result is written as one.
-/

namespace ClusterUpgrade

/-- A value read from a text or written into one. -/
inductive Document where
  | null
  | boolean (value : Bool)
  | number (value : Number)
  | text (value : String)
  | list (items : List Document)
  | record (fields : List (String × Document))

namespace Document

instance : Inhabited Document := ⟨null⟩

/-! ## Building -/

def ofInt (n : Int) : Document := number (Number.ofInt n)

def texts (items : List String) : Document := list (items.map text)

def ofRecord {α : Type} (f : α → Document) (r : Record α) : Document :=
  record (r.entries.map fun e => (e.1, f e.2))

/-- A record of the fields that are there. -/
def ofOptional (fields : List (String × Option Document)) : Document :=
  record (fields.filterMap fun f => f.2.map fun d => (f.1, d))

/-! ## Reading -/

/-- A field of a record. -/
def field? (d : Document) (name : String) : Option Document :=
  match d with
  | record fields => fields.lookup name
  | _ => none

def fields? : Document → Option (List (String × Document))
  | record fields => some fields
  | _ => none

/-- The text of a text document. -/
def text? : Document → Option String
  | text s => some s
  | _ => none

/-- The items, when all of them are texts. -/
def texts? : Document → Option (List String)
  | list items => items.mapM text?
  | _ => none

/-- What kind of value a document is. -/
def kind : Document → String
  | null => "null"
  | boolean _ => "boolean"
  | number _ => "number"
  | text _ => "string"
  | list _ => "array"
  | record _ => "object"

/-- The text of a scalar; a number or a boolean counts as its written form. -/
def scalarText? : Document → Option String
  | text s => some s
  | number n => some n.text
  | boolean b => some (if b then "true" else "false")
  | _ => none

mutual

/-- The text by which a message shows a document. Lists show their items without brackets, and
records show nothing of what they hold. A record with a field `toString` of its own can be shown by
no text; it is given the same one here, so what needs its text is said of other records only. -/
def shown : Document → String
  | null => "null"
  | boolean b => if b then "true" else "false"
  | number n => n.text
  | text s => s
  | list items => Text.joined "," (shownItems items)
  | record _ => "[object Object]"

/-- The shown items of a list; an item that is null shows as nothing. -/
def shownItems : List Document → List String
  | [] => []
  | null :: rest => "" :: shownItems rest
  | d :: rest => d.shown :: shownItems rest

end

/-- The first of some texts that the document is. -/
def choice? (d : Document) (allowed : List String) : Option String :=
  match d with
  | text s => allowed.find? (· = s)
  | _ => none

end Document

end ClusterUpgrade
