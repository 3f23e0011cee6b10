import ClusterUpgrade.Record

/-!
# Reserved names

Every record has some members that it does not list: a function for what it is made by, one for each
thing that it can do, and itself under `recordName`. A look-up that does not ask what a record lists
finds them; nothing can be written under the name of the record itself unless the record lists it.

* `Reserved.isFunction`, `Reserved.isInherited`: the names of such members;
* `Reserved.write`, `Reserved.record`: writes that leave the record itself alone.
-/

namespace ClusterUpgrade.Reserved

/-! ## Writes -/

/-- The name under which nothing can be written. -/
def recordName : String := "__proto__"

def isWritable (name : String) : Bool := name ≠ recordName

section Writes

variable {α : Type}

/-- The record of entries, without one under a name that nothing can be written under. -/
def record (entries : List (String × α)) : Record α :=
  .ofList (entries.filter fun e => isWritable e.1)

/-- Whether something can be written under a key of a record: the record itself stands under its
reserved name, unless the record lists the name. -/
def takes (r : Record α) (key : String) : Bool := isWritable key || r.has key

/-- Writes a key, as far as it can be written. -/
def write (r : Record α) (key : String) (value : α) : Record α :=
  if takes r key then r.insert key value else r

/-- Writes the entries of `s` over `r` as far as they can be written. -/
def overlay (r s : Record α) : Record α := r.overlay (s.filterKeys (takes r))

theorem takes_of_isWritable {key : String} (h : isWritable key = true) (r : Record α) :
    takes r key = true := by
  simp [takes, h]

theorem get?_eq_none_of_not_takes {r : Record α} {key : String} (h : takes r key = false) :
    r.get? key = none := by
  simp_all [takes, Record.has]

theorem takes_filterKeys {p : String → Bool} {key : String} (h : p key = true) (r : Record α) :
    takes (r.filterKeys p) key = takes r key := by
  simp [takes, Record.has, h]

theorem write_of_takes {r : Record α} {key : String} (h : takes r key = true) (value : α) :
    write r key value = r.insert key value := if_pos h

theorem write_of_not_takes {r : Record α} {key : String} (h : takes r key = false) (value : α) :
    write r key value = r := if_neg (ne_true_of_eq_false h)

theorem get?_write (r : Record α) (key k : String) (value : α) : (write r key value).get? k =
    if k = key ∧ takes r key = true then some value else r.get? k := by
  unfold write; split
  · next h => simp [h]
  · next h => simp [h]

end Writes

/-! ## Members that are not listed -/

/-- The name of the function that all records are made by. -/
def makerName : String := "constructor"

/-- The names of what every record can do. -/
def abilityNames : List String :=
  ["__defineGetter__", "__defineSetter__", "hasOwnProperty", "__lookupGetter__", "__lookupSetter__",
    "isPrototypeOf", "propertyIsEnumerable", "toString", "valueOf", "toLocaleString"]

/-- The names of what the maker of records can do. -/
def makerAbilities : List String :=
  ["prototype", "assign", "getOwnPropertyDescriptor", "getOwnPropertyDescriptors",
    "getOwnPropertyNames", "getOwnPropertySymbols", "hasOwn", "is", "preventExtensions", "seal",
    "create", "defineProperties", "defineProperty", "freeze", "getPrototypeOf", "setPrototypeOf",
    "isExtensible", "isFrozen", "isSealed", "keys", "entries", "fromEntries", "values", "groupBy"]

/-- Whether every record has a function under a name. -/
def isFunction (name : String) : Bool := name = makerName || abilityNames.contains name

/-- Whether every record has a member under a name. -/
def isInherited (name : String) : Bool := name = recordName || isFunction name

/-- The name that a function gives itself. -/
def functionName (name : String) : String := if name = makerName then "Object" else name

def functionText (name : String) : String :=
  "function " ++ functionName name ++ "() \x7b [native code] \x7d"

/-- The text that a member of every record is written as. -/
def memberText (name : String) : String :=
  if isFunction name then functionText name else "[object Object]"

/-- The names of what every function has beside the members of every record. -/
def functionMembers : List String := ["length", "name", "apply", "bind", "call"]

/-- The names of what no function lets anyone look at. -/
def guardedNames : List String := ["caller", "arguments"]

/-- The names of the functions of every record that take nothing. -/
def plainAbilities : List String := ["toString", "valueOf", "toLocaleString"]

/-- What a member that every record has holds under a name. -/
inductive Held where
  | absent
  /-- What marks that there is nothing. -/
  | null
  | zero
  /-- What must not be looked at. -/
  | guarded
  | present
  deriving DecidableEq

/-- What the member that every record has under a name holds under another. The length of a function
is the number of things that it takes. -/
def held (name member : String) : Held :=
  if !isInherited name then .absent
  else if isFunction name && guardedNames.contains member then .guarded
  else if plainAbilities.contains name && member = "length" then .zero
  else if name = recordName && member = recordName then .null
  else if isInherited member || isFunction name && functionMembers.contains member ||
      name = makerName && makerAbilities.contains member then .present
  else .absent

end ClusterUpgrade.Reserved
