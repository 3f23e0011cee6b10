import ClusterUpgrade.Document.JsonPrinter
import ClusterUpgrade.Text.Blank
import ClusterUpgrade.Text.Search

/-!
# The console

Commands write lines to the console. Marks and lines may be styled; a style never goes past the end
of a line, and without colours nothing is styled.
-/

namespace ClusterUpgrade

/-- Where a line is written. -/
inductive Stream where
  | out
  | err
  | warn
  deriving DecidableEq, Inhabited

def Stream.word : Stream → String
  | out => "out"
  | err => "err"
  | warn => "warn"

/-- A text written to the console, without the line end that follows it. -/
structure ConsoleLine where
  stream : Stream
  text : String
  deriving DecidableEq

def ConsoleLine.document (l : ConsoleLine) : Document :=
  .list [.text l.stream.word, .text l.text]

/-! ## Styles -/

/-- How text is set off. -/
inductive Style where
  | bold
  | underline
  | red
  | green
  | yellow
  | blue
  | gray
  deriving DecidableEq

namespace Style

/-- A control sequence of the terminal. -/
def sequence (code : String) : List Char := ("\x1b[" ++ code ++ "m").toList

/-- The sequence that starts a style. -/
def opening : Style → List Char
  | bold => sequence "1"
  | underline => sequence "4"
  | red => sequence "31"
  | green => sequence "32"
  | yellow => sequence "33"
  | blue => sequence "34"
  | gray => sequence "90"

/-- The sequence that ends a style. -/
def closing : Style → List Char
  | bold => sequence "22"
  | underline => sequence "24"
  | _ => sequence "39"

/-- A text with every line end put between two pieces. -/
def aroundLineEnds (before after : List Char) : List Char → List Char
  | '\r' :: '\n' :: rest =>
    before ++ '\r' :: '\n' :: after ++ aroundLineEnds before after rest
  | '\n' :: rest => before ++ '\n' :: after ++ aroundLineEnds before after rest
  | c :: rest => c :: aroundLineEnds before after rest
  | [] => []

/-- A text in some styles, the outermost first. A style that the text itself ends is started
again. -/
def applied (styles : List Style) (text : List Char) : List Char :=
  let opened := styles.flatMap opening
  let closed := styles.reverse.flatMap closing
  let text := styles.reverse.foldl
    (fun t s => Text.replaceAll s.closing (s.closing ++ s.opening) t) text
  opened ++ aroundLineEnds closed opened text ++ closed

end Style

/-- A text in some styles, if there are colours and it is not empty. -/
def styled (colour : Bool) (styles : List Style) (text : String) : String :=
  if colour ∧ text ≠ "" then String.ofList (Style.applied styles text.toList) else text

/-! ## Lines -/

/-- What became of a command. -/
structure CommandResult where
  success : Bool
  message : String
  data : Option Document
  errors : Option (List String)

def CommandResult.document (r : CommandResult) : Document :=
  .ofOptional [("success", some (.boolean r.success)), ("message", some (.text r.message)),
    ("data", r.data), ("errors", r.errors.map .texts)]

/-- What a configuration change did to a type or a property. -/
inductive ChangeKind where
  | added
  | kept
  | removed
  deriving DecidableEq, Inhabited

namespace Console

variable (colour : Bool)

/-- A line on the standard output. -/
def line (text : String) : ConsoleLine := ⟨.out, text⟩

/-- A line with a mark in front. -/
def marked (style : Style) (mark message : String) : ConsoleLine :=
  line (styled colour [style] mark ++ " " ++ message)

def info (message : String) : ConsoleLine := marked colour .blue "ℹ" message

def warn (message : String) : ConsoleLine := marked colour .yellow "⚠" message

/-- A line that reports a failure. -/
def error (message : String) : ConsoleLine := marked colour .red "✗" message

/-- A line that reports a success. -/
def success (message : String) : ConsoleLine := marked colour .green "✓" message

/-- A line for those who want to know everything; it never goes to the standard output. -/
def verbose (message : String) : ConsoleLine :=
  ⟨.err, styled colour [.gray] "[verbose]" ++ " " ++ message⟩

/-- The title of what follows. -/
def header (title : String) : ConsoleLine :=
  line (styled colour [.bold, .underline] ("\n" ++ title ++ "\n"))

def dryRunNotice : ConsoleLine :=
  line (styled colour [.yellow, .bold] "\n[DRY RUN] No changes will be applied\n")

/-- Whether a line starts with a number, a point and a blank. -/
def isNumbered (s : List Char) : Bool :=
  s.head?.any Char.isDigit && (Text.afterPiece? ". ".toList (s.dropWhile Char.isDigit)).isSome

/-- The style of a line by what it starts with. -/
def styleOf? (s : List Char) : Option Style :=
  let trimmed := Text.trimStart s
  if trimmed.head? = some '⚠' then some .yellow
  else if isNumbered s then some .bold
  else if (Text.afterPiece? "- ".toList trimmed).isSome then some .gray
  else none

/-- The lines of a text, each in its style. -/
def text (s : String) : List ConsoleLine :=
  (Text.splitAt '\n' s.toList).map fun l =>
    line (styled colour (styleOf? l).toList (String.ofList l))

def change (kind : ChangeKind) (path : String) : ConsoleLine :=
  match kind with
  | .added => line (styled colour [.green] ("  + " ++ path))
  | .kept => line (styled colour [.yellow] ("  ~ " ++ path))
  | .removed => line (styled colour [.red] ("  - " ++ path))

/-- A document as JSON. -/
def json (d : Document) : ConsoleLine := line (d.pretty 0)

/-- The lines of a command's result for reading. -/
def result (r : CommandResult) : List ConsoleLine :=
  let errors := r.errors.getD []
  (if r.success then success colour r.message else error colour r.message) ::
    if errors.isEmpty then []
    else line (styled colour [.red] "\nErrors:") :: errors.map (marked colour .red "  •")

end Console

end ClusterUpgrade
