import ClusterUpgrade.Document.Yaml.Scalar
import ClusterUpgrade.Document.Yaml.Token

/-!
# Reading YAML

The reader that the program is run with, one of many (`Document.YamlReader`). It reads the part of
YAML that packs and clusters are written in: block mappings and sequences, collections in brackets,
plain and quoted scalars, comments. It refuses document marks, block scalars, anchors and tags.

Every token has an indentation: the blanks and marks of collections before it in its line. A block
collection owns the tokens of one indentation; a token further left ends it, and one further right
that nothing has taken is an error. Blanks that hold a tab may not stand where the indentation
decides.

The bound on the number of steps is a multiple of the number of tokens: between two steps that read
no token there are at most two that do not recur.
-/

namespace ClusterUpgrade.Document.Yaml

/-! ## Tokens and gaps -/

/-- A token and its indentation. -/
structure Placed where
  token : Token
  indent : Nat

/-- The indentation of tokens; `fresh` says that the line has had blanks and marks only. -/
def placed (indent : Nat) (fresh : Bool) : List Token → List Placed
  | [] => []
  | t :: rest =>
    ⟨t, indent⟩ ::
      match t with
      | .lineBreak => placed 0 true rest
      | .blanks run =>
        placed (if fresh ∧ run.head? = some ' ' then indent + run.length else indent) fresh rest
      | .dash => placed (if fresh then indent + 1 else indent) fresh rest
      | .colon => placed (if fresh then indent + 1 else indent) fresh rest
      | _ => placed indent false rest

/-- What stands before a token. -/
structure Gap where
  hasBreak : Bool
  /-- The indentation of blanks with a tab right before the token. -/
  tab : Option Nat

/-- A fault as an error. -/
def fail {α : Type} (fault : YamlFault) : Except YamlFault α := .error fault

/-- Passes what stands before the next token. A comment has to follow a blank or a line break;
`spaced` says that one of them precedes. -/
def passGap (spaced : Bool) (gap : Gap) : List Placed → Except YamlFault (Gap × List Placed)
  | [] => .ok (gap, [])
  | ⟨t, indent⟩ :: rest =>
    match t with
    | .blanks run =>
      passGap true { gap with tab := if '\t' ∈ run then some indent else none } rest
    | .lineBreak => passGap true ⟨true, none⟩ rest
    | .comment =>
      if spaced then passGap true { gap with tab := none } rest else fail .commentWithoutBlank
    | t => .ok (gap, ⟨t, indent⟩ :: rest)

/-- Passes what stands between a token and the next one. -/
def afterToken (ts : List Placed) : Except YamlFault (Gap × List Placed) :=
  passGap false ⟨false, none⟩ ts

/-- Passes what stands before the first token of a line. -/
def beforeLine (ts : List Placed) : Except YamlFault (Gap × List Placed) :=
  passGap true ⟨true, none⟩ ts

/-- Ends the line after a value. -/
def endLine (ts : List Placed) : Except YamlFault (List Placed) := do
  let (gap, rest) ← afterToken ts
  if rest.isEmpty ∨ gap.hasBreak then return ts else fail .unexpected

/-- Refuses a tab before a token of a collection, or one in the first blanks of a line that are not
right of the indentation around them. -/
def checkTab (gap : Gap) (around : Nat) (isCollection : Bool) : Except YamlFault Unit :=
  match gap.tab with
  | none => return
  | some indent =>
    if isCollection ∨ (gap.hasBreak ∧ indent ≤ around) then fail .tabIndentation else return

/-! ## Scalars and keys -/

def scalar (style : NumberStyle) (form : ScalarForm) (source : List Char) :
    Except YamlFault Document :=
  match form with
  | .plain => .ok (resolvePlain style (String.ofList (folded source)))
  | .singleQuoted => .ok (.text (singleQuoted source))
  | .doubleQuoted => (doubleQuoted source).map .text

/-- What follows the colon of a key, if the colon stands in the line of the key. -/
def afterColon? : List Placed → Option (List Placed)
  | ⟨.blanks _, _⟩ :: ⟨.colon, _⟩ :: rest => some rest
  | ⟨.colon, _⟩ :: rest => some rest
  | _ => none

/-- How many units a token takes at least. -/
def Token.units : Token → Nat
  | .blanks run => Text.units run
  | .scalar .plain source => Text.units source
  | .scalar _ source => Text.units source + 2
  | _ => 1

/-- The greatest distance between the start of a key and its colon. -/
def longestKey : Nat := 1024

/-- Checks a key before its colon: it has to stand on one line and near the colon. -/
def checkKey (source : List Char) (before : List Placed) (after : List Placed) :
    Except YamlFault Unit :=
  let length := (before.take (before.length - after.length - 1)).foldl
    (fun n p => n + p.token.units) 0
  if '\n' ∈ source then fail .keyOnSeveralLines
  else if longestKey < length then fail .keyTooLong
  else return

/-- What follows the colon of a key that is not the first of its mapping: the colon may also stand
in a later line, if it is indented more than the key. -/
def laterColon? (indent : Nat) (ts : List Placed) : Except YamlFault (Option (List Placed)) := do
  let (gap, rest) ← afterToken ts
  match rest with
  | ⟨.colon, i⟩ :: rest =>
    if !gap.hasBreak then return some rest
    else if gap.tab.isSome then fail .tabIndentation
    else return if indent < i then some rest else none
  | _ => return none

/-! ## Collections in brackets -/

mutual

def bracketValue (style : NumberStyle) : (bound : Nat) → List Placed →
    Except YamlFault (Document × List Placed)
  | 0, _ => fail .unfinished
  | bound + 1, ts =>
    match ts with
    | ⟨.scalar form source, _⟩ :: rest => do return (← scalar style form source, rest)
    | ⟨.opening true, _⟩ :: rest => bracketFields style bound [] [] rest
    | ⟨.opening false, _⟩ :: rest => bracketItems style bound [] rest
    | [] => fail .unfinished
    | _ => fail .unexpected

/-- What follows a colon between brackets: null when it is nothing. -/
def bracketMapped (style : NumberStyle) : (bound : Nat) → List Placed →
    Except YamlFault (Document × List Placed)
  | 0, _ => fail .unfinished
  | bound + 1, ts => do
    let (_, next) ← afterToken ts
    match next with
    | ⟨.comma, _⟩ :: _ => return (.null, next)
    | ⟨.closing _, _⟩ :: _ => return (.null, next)
    | _ => bracketValue style bound next

/-- The items of a list up to its closing bracket; an item may be a single mapping. -/
def bracketItems (style : NumberStyle) : (bound : Nat) → (seen : List Document) → List Placed →
    Except YamlFault (Document × List Placed)
  | 0, _, _ => fail .unfinished
  | bound + 1, seen, ts => do
    let (_, next) ← afterToken ts
    match next with
    | ⟨.closing false, _⟩ :: rest => return (.list seen.reverse, rest)
    | _ =>
      let (item, rest) ← bracketItem style bound next
      let (_, next) ← afterToken rest
      match next with
      | ⟨.comma, _⟩ :: rest => bracketItems style bound (item :: seen) rest
      | ⟨.closing false, _⟩ :: rest => return (.list (item :: seen).reverse, rest)
      | _ => fail .unexpected

/-- An item of a list in brackets. The colon of a single mapping has to stand in the line of its
key. -/
def bracketItem (style : NumberStyle) : (bound : Nat) → List Placed →
    Except YamlFault (Document × List Placed)
  | 0, _ => fail .unfinished
  | bound + 1, ts =>
    match ts with
    | ⟨.colon, _⟩ :: rest => do
      let (v, rest) ← bracketMapped style bound rest
      return (.record [("", v)], rest)
    | _ => do
      let (item, rest) ← bracketValue style bound ts
      let (gap, next) ← afterToken rest
      match next, ts with
      | ⟨.colon, _⟩ :: value, ⟨.scalar _ source, _⟩ :: _ =>
        checkKey source ts value
        if gap.hasBreak then fail .keyOnSeveralLines
        let (v, rest) ← bracketMapped style bound value
        return (.record [(keyText item, v)], rest)
      | _, _ => return (item, rest)

/-- The fields of a record up to its closing brace. -/
def bracketFields (style : NumberStyle) : (bound : Nat) → (keys : List Document) →
    (seen : List (String × Document)) → List Placed → Except YamlFault (Document × List Placed)
  | 0, _, _, _ => fail .unfinished
  | bound + 1, keys, seen, ts => do
    let (_, next) ← afterToken ts
    match next with
    | ⟨.closing true, _⟩ :: rest => return (.record seen, rest)
    | _ =>
      let (key, rest) ← match next with
        | ⟨.scalar form source, _⟩ :: rest => do
          Except.ok (← scalar style form source, rest)
        | ⟨.colon, _⟩ :: _ => .ok (.null, next)
        | ⟨.opening _, _⟩ :: _ => fail .unsupported
        | [] => fail .unfinished
        | _ => fail .unexpected
      if keys.any (sameKey key) then fail .duplicateKey
      let (_, next) ← afterToken rest
      let (v, rest) ← match next with
        | ⟨.colon, _⟩ :: value => bracketMapped style bound value
        | _ => .ok (.null, next)
      let seen := putEntry seen (keyText key) v
      let (_, next) ← afterToken rest
      match next with
      | ⟨.comma, _⟩ :: rest => bracketFields style bound (key :: keys) seen rest
      | ⟨.closing true, _⟩ :: rest => return (.record seen, rest)
      | _ => fail .unexpected

end

/-! ## Block collections -/

mutual

/-- The node at a token. `around` is the indentation of the collection that the node stands in, and
`sameLine` says that it stands in the line of its key, where no block collection can start. -/
def node (style : NumberStyle) : (bound : Nat) → (around : Nat) → (sameLine : Bool) → Gap →
    List Placed → Except YamlFault (Document × List Placed)
  | 0, _, _, _, _ => fail .unfinished
  | bound + 1, around, sameLine, gap, ts => do
    match ts with
    | ⟨.scalar form source, indent⟩ :: rest =>
      if (afterColon? rest).isSome then
        if sameLine then fail .nestedMapping
        checkTab gap around true
        mapping style bound indent true [] [] ts
      else
        checkTab gap around false
        return (← scalar style form source, ← endLine rest)
    | ⟨.opening _, _⟩ :: _ =>
      checkTab gap around false
      let (d, rest) ← bracketValue style bound ts
      return (d, ← endLine rest)
    | ⟨.dash, indent⟩ :: _ =>
      if sameLine then fail .nestedMapping
      checkTab gap around true
      sequence style bound indent [] ts
    | ⟨.colon, indent⟩ :: _ =>
      if sameLine then fail .nestedMapping
      checkTab gap around true
      mapping style bound indent true [] [] ts
    | _ => fail .unexpected

/-- The value of a key whose mapping stands at an indentation: null when the next token is further
left, or is the next key. -/
def mapped (style : NumberStyle) : (bound : Nat) → (indent : Nat) → List Placed →
    Except YamlFault (Document × List Placed)
  | 0, _, _ => fail .unfinished
  | bound + 1, indent, ts => do
    let (gap, next) ← afterToken ts
    match next with
    | [] => do
      checkTab gap indent false
      return (.null, [])
    | ⟨t, i⟩ :: _ =>
      if !gap.hasBreak then node style bound indent true gap next
      else if indent < i then node style bound indent false gap next
      else if indent = i ∧ t = .dash then
        checkTab gap indent true
        sequence style bound indent [] next
      else
        checkTab gap indent false
        return (.null, next)

/-- The fields of a mapping at an indentation, from a key on. A key may be empty. -/
def mapping (style : NumberStyle) : (bound : Nat) → (indent : Nat) → (isFirst : Bool) →
    (keys : List Document) → (seen : List (String × Document)) → List Placed →
    Except YamlFault (Document × List Placed)
  | 0, _, _, _, _, _ => fail .unfinished
  | bound + 1, indent, isFirst, keys, seen, ts => do
    let (key, value) ← match ts with
      | ⟨.scalar form source, _⟩ :: rest => do
        let key ← scalar style form source
        let value? ← if isFirst then .ok (afterColon? rest) else laterColon? indent rest
        match value? with
        | none => fail .keyWithoutValue
        | some value => do
          checkKey source ts value
          Except.ok (key, value)
      | ⟨.colon, _⟩ :: rest => .ok (.null, rest)
      | _ => fail .unexpected
    if keys.any (sameKey key) then fail .duplicateKey
    let (v, rest) ← mapped style bound indent value
    let seen := putEntry seen (keyText key) v
    let (gap, next) ← beforeLine rest
    match next with
    | [] => return (.record seen, [])
    | ⟨t, i⟩ :: _ =>
      if i < indent then return (.record seen, rest)
      else if i = indent ∨ t = .colon then
        checkTab gap indent false
        mapping style bound indent false (key :: keys) seen next
      else fail .indentation

/-- The items of a sequence at an indentation, from a dash on. -/
def sequence (style : NumberStyle) : (bound : Nat) → (indent : Nat) → (seen : List Document) →
    List Placed → Except YamlFault (Document × List Placed)
  | 0, _, _, _ => fail .unfinished
  | bound + 1, indent, seen, ts => do
    let (gap, next) ← afterToken (ts.drop 1)
    let (d, rest) ← match next with
      | [] => do
        checkTab gap indent false
        Except.ok (.null, [])
      | ⟨_, i⟩ :: _ =>
        if !gap.hasBreak ∨ indent < i then node style bound indent false gap next
        else do
          checkTab gap indent false
          Except.ok (.null, next)
    let seen := d :: seen
    let (gap, next) ← beforeLine rest
    match next with
    | [] => return (.list seen.reverse, [])
    | ⟨t, i⟩ :: _ =>
      if i = indent ∧ t = .dash then
        checkTab gap indent true
        sequence style bound indent seen next
      else if indent < i then fail .indentation
      else return (.list seen.reverse, rest)

end

/-- The document of a YAML text. A text without a token is null. -/
def read (style : NumberStyle) (text : String) : Except YamlFault Document := do
  let ts := placed 0 true (← tokens text)
  let (gap, next) ← beforeLine ts
  match next with
  | [] => return .null
  | ⟨t, _⟩ :: _ =>
    let gap := match t with
      | .opening _ => { gap with tab := none }
      | _ => gap
    let (d, rest) ← node style (4 * ts.length + 4) 0 false gap next
    let (_, rest) ← beforeLine rest
    if rest.isEmpty then return d else fail .unexpected

/-- A reader of YAML texts. -/
def reader : YamlReader := fun style text => (read style text).mapError YamlFault.message

end ClusterUpgrade.Document.Yaml
