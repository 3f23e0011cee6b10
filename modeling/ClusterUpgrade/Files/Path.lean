import ClusterUpgrade.Text.Letters
import ClusterUpgrade.Text.Search

/-!
# Paths

A path is a text of names with slashes between them; one that starts with a slash leads from the
root. `resolved` reads a path from a directory without looking at any file: empty names and `.` stay
where they are, and `..` goes up. An extension is the last dot of a file name with what follows it,
unless the name starts there.
-/

namespace ClusterUpgrade.Path

/-- Whether a path leads from the root. -/
def isAbsolute (path : String) : Bool := path.toList.head? = some '/'

def names (path : String) : List String := (Text.splitAt '/' path.toList).map String.ofList

/-- One step from a directory, given by the names that lead to it from the root. -/
def step (directory : List String) (name : String) : List String :=
  if name = "" ∨ name = "." then directory
  else if name = ".." then directory.dropLast
  else directory ++ [name]

/-- Where a path leads from a directory. -/
def resolved (directory : List String) (path : String) : List String :=
  (names path).foldl step (if isAbsolute path then [] else directory)

/-- The written path of names from the root. -/
def text (directory : List String) : String := "/" ++ Text.joined "/" directory

/-- What a file name is, up to its last dot and from it on. -/
def splitLastDot : List Char → Option (List Char × List Char)
  | [] => none
  | c :: rest =>
    match splitLastDot rest with
    | some (before, after) => some (c :: before, after)
    | none => if c = '.' then some ([], c :: rest) else none

/-- The extension of a file name. -/
def extension (name : String) : String :=
  match splitLastDot name.toList with
  | some (c :: before, after) =>
    if c :: before ++ after = ['.', '.'] then "" else String.ofList after
  | _ => ""

/-- The last name of a path. -/
def fileName (path : String) : String := ((names path).filter (· ≠ "")).getLast?.getD ""

/-- The extension of the file of a path, in lower case. -/
def loweredExtension (path : String) : String := Text.lower (extension (fileName path))

end ClusterUpgrade.Path
