/-!
# Searching text

Finding, cutting and replacing a piece of text, on lists of characters. A replacement goes from left
to right and never looks into what it has already passed.
-/

namespace ClusterUpgrade.Text

/-- What follows `piece` when the text starts with it. -/
def afterPiece? : (piece text : List Char) → Option (List Char)
  | [], text => some text
  | _ :: _, [] => none
  | p :: piece, c :: text => if p = c then afterPiece? piece text else none

/-- Whether the piece occurs in the text. -/
def occursIn (piece : List Char) : List Char → Bool
  | [] => piece.isEmpty
  | c :: text => (afterPiece? piece (c :: text)).isSome || occursIn piece text

theorem afterPiece?_eq_some_iff {piece text rest : List Char} :
    afterPiece? piece text = some rest ↔ text = piece ++ rest := by
  induction piece generalizing text with
  | nil => simp [afterPiece?, eq_comm]
  | cons p piece ih =>
    cases text with
    | nil => simp [afterPiece?]
    | cons c text => by_cases h : p = c <;> simp [afterPiece?, h, ih, eq_comm]

/-- Replaces a piece that is not empty wherever it occurs in the text; the first `skip` characters
belong to an occurrence that has been replaced already. -/
def replaceFrom (piece value : List Char) : (skip : Nat) → List Char → List Char
  | _, [] => []
  | skip + 1, _ :: text => replaceFrom piece value skip text
  | 0, c :: text =>
    if (afterPiece? piece (c :: text)).isSome then
      value ++ replaceFrom piece value (piece.length - 1) text
    else c :: replaceFrom piece value 0 text

/-- Replaces a piece that is not empty wherever it occurs in the text. -/
def replaceAll (piece value text : List Char) : List Char := replaceFrom piece value 0 text

/-- The pieces of a text between occurrences of a character. -/
def splitAt (separator : Char) : List Char → List (List Char)
  | [] => [[]]
  | c :: text =>
    match splitAt separator text with
    | [] => [[c]]
    | piece :: pieces =>
      if c = separator then [] :: piece :: pieces else (c :: piece) :: pieces

/-- The texts with a separator between each two. -/
def joined (separator : String) (texts : List String) : String :=
  String.intercalate separator texts

/-- The texts that hold something, with a separator between each two. -/
def joinedFilled (separator : String) (texts : List String) : String :=
  joined separator (texts.filter (· ≠ ""))

end ClusterUpgrade.Text
