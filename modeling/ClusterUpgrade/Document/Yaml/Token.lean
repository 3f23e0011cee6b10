import ClusterUpgrade.Document.Yaml.Fault

/-!
# YAML tokens

A text is a list of tokens: blanks, line breaks, comments, marks and scalars. Where a scalar of
several lines ends depends on how far its lines are indented: after a mark of a collection that is
not in brackets, further lines of a value have to stand right of the collection.

The bound on the number of steps is a multiple of the length of the text: every step reads a
character, but for the two that lead from the start of a line to its first token.
-/

namespace ClusterUpgrade.Document.Yaml

/-- How a scalar is written. -/
inductive ScalarForm where
  | plain
  | singleQuoted
  | doubleQuoted
  deriving DecidableEq

/-- A token of a text. -/
inductive Token where
  | blanks (text : List Char)
  | lineBreak
  | comment
  /-- The mark of a list item. -/
  | dash
  /-- The mark of a value. -/
  | colon
  | comma
  | opening (isRecord : Bool)
  | closing (isRecord : Bool)
  /-- A scalar, without its quotes. -/
  | scalar (form : ScalarForm) (source : List Char)
  deriving DecidableEq

/-! ## Characters -/

/-- Whether a character is a blank inside a line. -/
def isInset (c : Char) : Bool := c == ' ' || c == '\t'

/-- Whether a token has ended before this text. -/
def endsToken : List Char → Bool
  | [] => true
  | c :: _ => isInset c || c == '\n' || c == '\r'

/-- Whether a character opens, closes or divides a collection in brackets. -/
def isBracketMark (c : Char) : Bool :=
  c == ',' || c == '[' || c == ']' || c == '\x7b' || c == '\x7d'

/-- Whether a text starts with a mark of brackets. -/
def atBracketMark (s : List Char) : Bool := s.head?.any isBracketMark

/-- Whether a line is a mark between documents. -/
def atDocumentMark (s : List Char) : Bool :=
  (s.take 3 == ['-', '-', '-'] || s.take 3 == ['.', '.', '.']) && endsToken (s.drop 3)

/-- Whether a character cannot start a scalar, though it is no mark of the collections. -/
def isReserved (c : Char) : Bool := [',', '%', '@', '\x60'].contains c

/-- Whether a character starts what no document here may hold: tags, anchors, aliases and blocks of
text. -/
def isUnsupported (c : Char) : Bool := ['!', '&', '*', '|', '>'].contains c

/-! ## Scalars -/

/-- The text after a line break from where a value goes on, if the line belongs to the value. It
has to be indented by `least` blanks, unless it is empty. -/
def continuation? (least : Nat) (s : List Char) : Option (List Char) :=
  if least = 0 then if atDocumentMark s then none else some s
  else
    let rest := s.dropWhile (· == ' ')
    match rest with
    | '\r' :: '\n' :: rest => some ('\n' :: rest)
    | '\n' :: _ => some rest
    | _ => if s.length - rest.length < least then none else some rest

/-- The rest of a quoted scalar and what follows it; `seen` holds what has been read, last first. -/
def quoted (quote : Char) (least : Nat) : (bound : Nat) → (seen : List Char) → List Char →
    Except YamlFault (List Char × List Char)
  | 0, _, _ => .error .unfinished
  | bound + 1, seen, s =>
    match s with
    | [] => .error .unfinished
    | '\n' :: rest =>
      if (continuation? least rest).isSome then quoted quote least bound ('\n' :: seen) rest
      else .error .indentation
    | '\\' :: c :: rest =>
      if quote = '"' ∧ c ≠ '\n' then quoted quote least bound (c :: '\\' :: seen) rest
      else quoted quote least bound ('\\' :: seen) (c :: rest)
    | c :: rest =>
      if c ≠ quote then quoted quote least bound (c :: seen) rest
      else
        match quote, rest with
        | '\'', '\'' :: rest => quoted quote least bound ('\'' :: '\'' :: seen) rest
        | _, _ => .ok (seen.reverse, rest)

/-- A plain scalar as far as it has been read: what belongs to it, last first, and the blanks and
line breaks after that, which belong to it only if more follows. -/
structure PlainRun where
  taken : List Char
  pending : List Char

/-- Takes a character, and with it the blanks before. -/
def PlainRun.take (r : PlainRun) (c : Char) : PlainRun := ⟨c :: (r.pending ++ r.taken), []⟩

def PlainRun.pass (r : PlainRun) (c : Char) : PlainRun := { r with pending := c :: r.pending }

/-- Ends the scalar before a text: what has been passed over goes back to the text. -/
def PlainRun.ended (r : PlainRun) (s : List Char) : List Char × List Char :=
  (r.taken.reverse, r.pending.reverse ++ s)

/-- Whether a plain scalar ends after a blank, before this text. -/
def endsPlain (inBrackets : Bool) (s : List Char) : Bool :=
  s.head? == some '#' || (inBrackets && atBracketMark s)

/-- The rest of a plain scalar and what follows it. -/
def plain (inBrackets : Bool) (least : Nat) : (bound : Nat) → PlainRun → List Char →
    List Char × List Char
  | 0, r, s => r.ended s
  | bound + 1, r, s =>
    match s with
    | [] => r.ended s
    | ':' :: rest =>
      if endsToken rest ∨ (inBrackets ∧ atBracketMark rest) then r.ended s
      else plain inBrackets least bound (r.take ':') rest
    | '\r' :: '\n' :: rest => plain inBrackets least bound (r.pass '\r') ('\n' :: rest)
    | '\n' :: rest =>
      if endsPlain inBrackets rest then r.ended s
      else
        match continuation? least rest with
        | none => r.ended s
        | some next =>
          let passed := rest.take (rest.length - next.length - 1)
          plain inBrackets least bound (passed.foldl PlainRun.pass (r.pass '\n'))
            (rest.drop passed.length)
    | c :: rest =>
      if c = '\r' then
        let r := r.take c
        if endsPlain inBrackets rest then r.ended rest
        else plain inBrackets least bound r rest
      else if isInset c then
        if endsPlain inBrackets rest then r.ended s else plain inBrackets least bound (r.pass c) rest
      else if inBrackets ∧ isBracketMark c then r.ended s
      else plain inBrackets least bound (r.take c) rest

/-! ## The tokens of a text -/

/-- Where reading stands in a line. -/
inductive LinePart where
  | start
  /-- Before the first token that is no mark of a collection. -/
  | marks
  | rest
  /-- Between brackets. -/
  | brackets
  deriving DecidableEq

/-- What has been read tells of the tokens to come. -/
structure Margins where
  /-- The column of the first token of the line that is no mark of a collection. -/
  column : Nat
  /-- How many blanks further lines of a value must have. -/
  least : Nat
  /-- How many brackets are open. -/
  depth : Nat
  /-- Whether a colon is a mark whatever follows it: after a quoted scalar or a closing bracket. -/
  closed : Bool

/-- Some tokens read, and where reading goes on. -/
structure Reading where
  tokens : List Token
  part : LinePart
  margins : Margins
  rest : List Char

/-- Blanks as tokens. -/
def blankTokens (text : List Char) : List Token := if text.isEmpty then [] else [.blanks text]

/-- Reads a mark of a collection with the blanks after it. -/
def readMark (part : LinePart) (m : Margins) (mark : Char) (rest : List Char) : Reading :=
  let run := rest.takeWhile isInset
  { tokens := (if mark = '-' then .dash else .colon) :: blankTokens run
    part, margins := m, rest := rest.drop run.length }

/-- Reads the indentation of a line. -/
def readStart (m : Margins) (s : List Char) : Except YamlFault Reading :=
  if atDocumentMark s then .error .unsupported
  else
    let spaces := s.takeWhile (· == ' ')
    let column := spaces.length
    let rest := s.drop column
    let least := if column < m.least ∧ !endsToken (rest.drop 1) then column else m.least
    .ok ⟨blankTokens spaces, .marks, { m with column, least }, rest⟩

/-- Reads the marks of the collections that start in a line. -/
def readMarks (m : Margins) (c : Char) (rest : List Char) : Reading :=
  if (c = '-' ∨ c = ':') ∧ endsToken rest then
    let r := readMark .marks m c rest
    let column := m.column + 1 + (rest.length - r.rest.length)
    { r with margins := { m with least := m.column + 1, column } }
  else ⟨[], .rest, m, c :: rest⟩

def readScalar (part : LinePart) (m : Margins) (c : Char) (rest : List Char) :
    Except YamlFault Reading :=
  if c = '"' ∨ c = '\'' then
    (quoted c m.least (2 * rest.length + 2) [] rest).map fun (source, rest) =>
      { tokens := [.scalar (if c = '"' then .doubleQuoted else .singleQuoted) source]
        part, margins := { m with closed := true }, rest }
  else if isUnsupported c ∨ (c = '?' ∧ endsToken rest) then .error .unsupported
  else if isReserved c then .error .unexpected
  else
    let (source, rest) :=
      plain (part == .brackets) m.least (2 * rest.length + 4) ⟨[], []⟩ (c :: rest)
    .ok ⟨[.scalar .plain source], part, { m with closed := false }, rest⟩

/-- Reads the next token of a line. -/
def readRest (m : Margins) (c : Char) (rest : List Char) : Except YamlFault Reading :=
  match c, rest with
  | '\n', _ => .ok ⟨[.lineBreak], .start, m, rest⟩
  | '\r', '\n' :: rest => .ok ⟨[.lineBreak], .start, m, rest⟩
  | _, _ =>
    if isInset c then
      .ok ⟨[.blanks ((c :: rest).takeWhile isInset)], .rest, m, rest.dropWhile isInset⟩
    else if c = '#' then .ok ⟨[.comment], .rest, m, rest.dropWhile (· != '\n')⟩
    else if (c = '-' ∨ c = ':') ∧ endsToken rest then
      .ok (readMark .rest { m with least := m.column + 1 } c rest)
    else if c = '[' ∨ c = '\x7b' then
      .ok ⟨[.opening (c == '\x7b')], .brackets, { m with depth := 1, closed := false }, rest⟩
    else if isBracketMark c then .error .unexpected
    else readScalar .rest m c rest

/-- The line breaks and blanks between brackets, the indentation of the line that follows them if
there is a line break, and what follows. -/
def bracketGap : (bound : Nat) → (indent : Option Nat) → List Char →
    List Token × Option Nat × List Char
  | 0, indent, s => ([], indent, s)
  | bound + 1, indent, s =>
    match s with
    | '\n' :: rest =>
      let spaces := rest.takeWhile (· == ' ')
      let (ts, indent, s) := bracketGap bound (some spaces.length) (rest.drop spaces.length)
      (.lineBreak :: blankTokens spaces ++ ts, indent, s)
    | '\r' :: '\n' :: rest => bracketGap bound indent ('\n' :: rest)
    | c :: rest =>
      if isInset c then
        let (ts, indent, s) := bracketGap bound indent rest
        (.blanks [c] :: ts, indent, s)
      else ([], indent, s)
    | [] => ([], indent, [])

/-- Whether a line between brackets is indented enough. The last closing bracket may stand one
column further left. -/
def allowsLine (m : Margins) (s : List Char) (indent : Nat) : Bool :=
  let closes := s.head? == some ']' || s.head? == some '\x7d'
  (m.least ≤ indent || s.head? == some '#' || (indent + 1 == m.least && m.depth == 1 && closes)) &&
    !(indent == 0 && atDocumentMark s)

/-- Reads a token between brackets. -/
def readInBrackets (m : Margins) (c : Char) (rest : List Char) : Except YamlFault Reading :=
  let ends := endsToken rest || atBracketMark rest
  if c = ',' then .ok ⟨[.comma], .brackets, { m with closed := false }, rest⟩
  else if c = '#' then .ok ⟨[.comment], .brackets, m, rest.dropWhile (· != '\n')⟩
  else if c = '[' ∨ c = '\x7b' then
    let m := { m with depth := m.depth + 1, closed := false }
    .ok ⟨[.opening (c == '\x7b')], .brackets, m, rest⟩
  else if c = ']' ∨ c = '\x7d' then
    let part := if m.depth = 1 then LinePart.rest else .brackets
    .ok ⟨[.closing (c == '\x7d')], part, { m with depth := m.depth - 1, closed := true }, rest⟩
  else if c = ':' ∧ (m.closed ∨ ends) then
    .ok (readMark .brackets { m with closed := false } c rest)
  else if (c = '-' ∨ c = '?') ∧ ends then .error .unsupported
  else readScalar .brackets m c rest

/-- Reads what stands between brackets up to a token, and the token. -/
def readBrackets (m : Margins) (s : List Char) : Except YamlFault Reading :=
  let (gap, indent, s) := bracketGap (s.length + 1) none s
  if indent.any fun n => !allowsLine m s n then .error .indentation
  else
    match s with
    | [] => .ok ⟨gap, .brackets, m, []⟩
    | c :: rest => (readInBrackets m c rest).map fun r => { r with tokens := gap ++ r.tokens }

def readPart (part : LinePart) (m : Margins) (c : Char) (rest : List Char) :
    Except YamlFault Reading :=
  match part with
  | .start => readStart m (c :: rest)
  | .marks => .ok (readMarks m c rest)
  | .rest => readRest m c rest
  | .brackets => readBrackets m (c :: rest)

/-- The tokens of a text from a part of a line on; `seen` holds what has been read, last first. -/
def tokensFrom : (bound : Nat) → (seen : List Token) → LinePart → Margins → List Char →
    Except YamlFault (List Token)
  | _, seen, _, _, [] => .ok seen.reverse
  | 0, _, _, _, _ :: _ => .error .unfinished
  | bound + 1, seen, part, m, c :: rest => do
    let r ← readPart part m c rest
    tokensFrom bound (r.tokens.reverse ++ seen) r.part r.margins r.rest

/-- The text from the first line that holds more than blanks and a comment. -/
def afterEmptyLines : (bound : Nat) → List Char → List Char
  | 0, s => s
  | bound + 1, s =>
    let s := match s with
      | '\ufeff' :: rest => rest
      | s => s
    match s.dropWhile isInset with
    | [] => []
    | '#' :: rest => afterEmptyLines bound ((rest.dropWhile (· != '\n')).drop 1)
    | '\n' :: rest => afterEmptyLines bound rest
    | '\r' :: '\n' :: rest => afterEmptyLines bound rest
    | _ => s

/-- The tokens of a text. -/
def tokens (text : String) : Except YamlFault (List Token) :=
  let s := afterEmptyLines (text.length + 1) text.toList
  if s.head? = some '%' then .error .unsupported
  else tokensFrom (3 * s.length + 3) [] .start ⟨0, 0, 0, false⟩ s

end ClusterUpgrade.Document.Yaml
