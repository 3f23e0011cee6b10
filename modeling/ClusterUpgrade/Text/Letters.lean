/-!
# Letter case

Names of log levels, sensitive keys and file name extensions are compared in lower case, the names
of the NameNode and its service in upper case. All of them are ASCII words, so of the case maps of
Unicode only those pairs matter that have an ASCII letter on the receiving side: the Kelvin sign
lowers to `k`, the long s raises to `S` and the dotless i raises to `I`.
-/

namespace ClusterUpgrade.Text

/-- Lower case, as far as the result is an ASCII letter. -/
def lowerLetter (c : Char) : Char :=
  if 'A' ≤ c ∧ c ≤ 'Z' then Char.ofNat (c.toNat + 32) else if c = '\u212a' then 'k' else c

/-- Upper case, as far as the result is an ASCII letter. -/
def upperLetter (c : Char) : Char :=
  if 'a' ≤ c ∧ c ≤ 'z' then Char.ofNat (c.toNat - 32)
  else if c = '\u017f' then 'S' else if c = '\u0131' then 'I' else c

def lower (s : String) : String := s.map lowerLetter

def upper (s : String) : String := s.map upperLetter

/-- A word with its first letter in upper case. -/
def capitalised (s : String) : String :=
  match s.toList with
  | [] => ""
  | c :: rest => String.ofList (upperLetter c :: rest)

/-- The digits and letters of ASCII. -/
def isAlphanumeric (c : Char) : Bool :=
  ('a' ≤ c ∧ c ≤ 'z') ∨ ('A' ≤ c ∧ c ≤ 'Z') ∨ ('0' ≤ c ∧ c ≤ '9')

end ClusterUpgrade.Text
