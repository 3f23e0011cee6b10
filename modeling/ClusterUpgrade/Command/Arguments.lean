import ClusterUpgrade.Text.Search
import ClusterUpgrade.Text.Similar

/-!
# Reading arguments

An argument that starts with a dash and does not stop there is an option. An option with a value
takes the next argument, whatever it looks like, or what follows an equals sign; options of one
letter may share a dash. `--` ends the options. From the first option that is not known on, all
arguments that are not known options are left to be read again with other options.
-/

namespace ClusterUpgrade

/-- An option of a command line. -/
structure OptionSpec where
  /-- The long form, with its dashes. -/
  long : String
  /-- The form of one letter, with its dash. -/
  short : Option String
  /-- The name of the value, if the option has one. -/
  value : Option String
  /-- The values that are allowed, if not all are. -/
  choices : List String
  required : Bool
  deriving DecidableEq

namespace OptionSpec

def flag (long : String) : OptionSpec := ⟨long, none, none, [], false⟩

def valued (long value : String) : OptionSpec := ⟨long, none, some value, [], false⟩

/-- The option as messages show it. -/
def text (o : OptionSpec) : String :=
  (o.short.elim "" (· ++ ", ")) ++ o.long ++ o.value.elim "" (" " ++ ·)

/-- Whether a word is the option. -/
def isNamed (o : OptionSpec) (word : String) : Bool := o.long = word ∨ o.short = some word

/-- Whether the option may have a value. -/
def accepts (o : OptionSpec) (value : String) : Bool := o.choices.isEmpty ∨ value ∈ o.choices

end OptionSpec

/-- What is wrong with arguments. -/
inductive ArgumentError where
  | missingValue (option : OptionSpec)
  | invalidChoice (option : OptionSpec) (value : String)
  | missingOption (option : OptionSpec)
  /-- A word that is none of the options. -/
  | unknownOption (word : String) (options : List String)
  /-- A word that is none of the commands. -/
  | unknownCommand (word : String) (commands : List String)
  deriving DecidableEq

/-- The guess what a word was meant to be, on a line of its own. A word with two dashes is compared
without them, and so are the candidates. -/
def guess (word : String) (candidates : List String) : String :=
  let dashed := word.startsWith "--"
  let bare (w : String) : String := if dashed then (w.drop 2).toString else w
  let dash (w : String) : String := if dashed then "--" ++ w else w
  match (Text.mostSimilar (bare word) (candidates.map bare)).map dash with
  | [] => ""
  | [one] => "\n(Did you mean " ++ one ++ "?)"
  | several => "\n(Did you mean one of " ++ Text.joined ", " several ++ "?)"

/-- The wording of an argument error. A guess at an option needs two dashes. -/
def ArgumentError.message : ArgumentError → String
  | missingValue o => "error: option '" ++ o.text ++ "' argument missing"
  | invalidChoice o value => "error: option '" ++ o.text ++ "' argument '" ++ value ++
    "' is invalid. Allowed choices are " ++ Text.joined ", " o.choices ++ "."
  | missingOption o => "error: required option '" ++ o.text ++ "' not specified"
  | unknownOption word options => "error: unknown option '" ++ word ++ "'" ++
    if word.startsWith "--" then guess word options else ""
  | unknownCommand word commands => "error: unknown command '" ++ word ++ "'" ++
    guess word commands

/-- Arguments as far as they have been read. -/
structure Arguments where
  /-- The long forms of the options given, with their values, in order. -/
  given : List (String × String)
  operands : List String
  /-- What is left to be read with other options. -/
  left : List String
  /-- Why reading has stopped. -/
  error : Option ArgumentError

namespace Arguments

/-- Nothing read yet. -/
def none : Arguments := ⟨[], [], [], .none⟩

/-- The last value of an option. -/
def value? (a : Arguments) (long : String) : Option String := a.given.reverse.lookup long

/-- Whether an option is given. -/
def has (a : Arguments) (long : String) : Bool := (a.value? long).isSome

/-- Takes an option with its value. -/
def take (a : Arguments) (o : OptionSpec) (value : String) : Arguments :=
  if o.accepts value then { a with given := a.given ++ [(o.long, value)] }
  else { a with error := some (.invalidChoice o value) }

/-- Leaves an argument that is no known option. -/
def leave (a : Arguments) (word : String) (isOption : Bool) : Arguments :=
  if isOption ∨ !a.left.isEmpty then { a with left := a.left ++ [word] }
  else { a with operands := a.operands ++ [word] }

/-- Leaves everything after the end of the options. -/
def leaveRest (a : Arguments) (rest : List String) : Arguments :=
  if a.left.isEmpty then { a with operands := a.operands ++ rest }
  else { a with left := a.left ++ "--" :: rest }

def isOption (word : String) : Bool :=
  match word.toList with
  | '-' :: _ :: _ => true
  | _ => false

/-- How an argument is read. -/
inductive Reading where
  /-- An option, known as it stands. -/
  | known (option : OptionSpec)
  /-- A letter that takes the rest of the argument as its value. -/
  | joined (option : OptionSpec) (value : String)
  /-- A letter before others. -/
  | grouped (option : OptionSpec) (rest : String)
  /-- An option and its value around an equals sign. -/
  | assigned (option : OptionSpec) (value : String)
  | other

def readGroup? (options : List OptionSpec) : List Char → Option Reading
  | '-' :: letter :: c :: rest =>
    if letter = '-' then Option.none
    else (options.find? (·.isNamed (String.ofList ['-', letter]))).map fun o =>
      if o.value.isSome then .joined o (String.ofList (c :: rest))
      else .grouped o (String.ofList ('-' :: c :: rest))
  | _ => Option.none

/-- The reading of an option with an equals sign. -/
def readAssigned? (options : List OptionSpec) (word : List Char) : Option Reading :=
  match word.dropWhile (· ≠ '=') with
  | _ :: value => (options.find? fun o =>
      o.isNamed (String.ofList (word.takeWhile (· ≠ '='))) && o.value.isSome).map
        (.assigned · (String.ofList value))
  | [] => Option.none

def readWord (options : List OptionSpec) (word : String) : Reading :=
  if !isOption word then .other
  else
    match options.find? (·.isNamed word) with
    | some o => .known o
    | Option.none =>
      (readGroup? options word.toList <|> readAssigned? options word.toList).getD .other

/-- Reads arguments. The bound counts characters and arguments: a group of letters gets shorter, and
any other argument is used up. -/
def readFrom (options : List OptionSpec) : (bound : Nat) → Arguments → List String → Arguments
  | _, a, [] => a
  | 0, a, _ :: _ => a
  | bound + 1, a, word :: rest =>
    if a.error.isSome then a
    else if word = "--" then a.leaveRest rest
    else
      match readWord options word with
      | .known o =>
        if o.value.isNone then readFrom options bound (a.take o "") rest
        else
          match rest with
          | [] => { a with error := some (.missingValue o) }
          | value :: rest => readFrom options bound (a.take o value) rest
      | .joined o value => readFrom options bound (a.take o value) rest
      | .grouped o letters => readFrom options bound (a.take o "") (letters :: rest)
      | .assigned o value => readFrom options bound (a.take o value) rest
      | .other => readFrom options bound (a.leave word (isOption word)) rest

def read (options : List OptionSpec) (words : List String) : Arguments :=
  readFrom options ((words.flatMap fun w => '-' :: w.toList).length + 1) none words

/-- The first required option that is missing. -/
def firstMissing? (options : List OptionSpec) (a : Arguments) : Option ArgumentError :=
  (options.find? fun o => o.required && !a.has o.long).map .missingOption

end Arguments

end ClusterUpgrade
