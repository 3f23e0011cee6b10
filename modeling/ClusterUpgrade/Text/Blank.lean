/-!
# Blank characters

The blanks that trimming removes and that may stand between a scheme word and its credentials: tab,
line breaks of every kind, the space separators of Unicode and the byte order mark.
-/

namespace ClusterUpgrade.Text

/-- The blank characters. -/
def blanks : List Char :=
  ['\t', '\n', '\x0b', '\x0c', '\r', ' ', '\u00a0', '\u1680', '\u2000', '\u2001', '\u2002',
    '\u2003', '\u2004', '\u2005', '\u2006', '\u2007', '\u2008', '\u2009', '\u200a', '\u2028',
    '\u2029', '\u202f', '\u205f', '\u3000', '\ufeff']

def isBlank (c : Char) : Bool := blanks.contains c

/-- The text from its first character that is not blank. -/
def trimStart (s : List Char) : List Char := s.dropWhile isBlank

/-- Whether a text holds nothing but blanks. -/
def allBlank (s : String) : Bool := s.toList.all isBlank

/-- The characters that end a line of text; a token never spans one. -/
def isLineEnd (c : Char) : Bool := c == '\n' || c == '\r' || c == '\u2028' || c == '\u2029'

end ClusterUpgrade.Text
