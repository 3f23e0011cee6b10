import ClusterUpgrade.Distinct
import ClusterUpgrade.Text.Blank

/-!
# Tokens of a text

A token starts with two opening braces and goes on to the first two closing braces after them; it
never goes past the end of a line. A text falls into tokens and single characters, from left to
right (`pieces`), and nothing of it is lost (`flatMap_chars_pieces`).
-/

namespace ClusterUpgrade.Plan

/-- A piece of a text. -/
inductive Piece where
  | plain (c : Char)
  | token (chars : List Char)
  deriving DecidableEq

namespace Piece

def chars : Piece → List Char
  | plain c => [c]
  | token cs => cs

def token? : Piece → Option (List Char)
  | plain _ => none
  | token cs => some cs

end Piece

/-- The text up to the first two closing braces, together with them, if they come before the line
ends. -/
def closed? : List Char → Option (List Char)
  | '\x7d' :: '\x7d' :: _ => some ['\x7d', '\x7d']
  | c :: rest => if Text.isLineEnd c then none else (closed? rest).map (c :: ·)
  | [] => none

/-- The token at the start of a text. -/
def tokenAt? : List Char → Option (List Char)
  | '\x7b' :: '\x7b' :: rest => (closed? rest).map fun cs => '\x7b' :: '\x7b' :: cs
  | _ => none

/-- The pieces of a text; its first `skip` characters belong to a token that has been taken
already. -/
def piecesFrom : (skip : Nat) → List Char → List Piece
  | _, [] => []
  | skip + 1, _ :: rest => piecesFrom skip rest
  | 0, c :: rest =>
    match tokenAt? (c :: rest) with
    | some cs => .token cs :: piecesFrom (cs.length - 1) rest
    | none => .plain c :: piecesFrom 0 rest

/-- The pieces of a text. -/
def pieces (text : List Char) : List Piece := piecesFrom 0 text

/-- The tokens of a text, each once, by their first occurrence. -/
def tokens (text : String) : List String :=
  distinct (((pieces text.toList).filterMap Piece.token?).map String.ofList)

/-! ## Laws -/

theorem closed?_prefix {text cs : List Char} (h : closed? text = some cs) :
    ∃ rest, text = cs ++ rest := by
  fun_induction closed? text generalizing cs with
  | case1 rest => cases h; exact ⟨rest, rfl⟩
  | case2 => cases h
  | case3 c rest _ _ ih =>
    obtain ⟨ds, hd, rfl⟩ := Option.map_eq_some_iff.1 h
    obtain ⟨after, rfl⟩ := ih hd
    exact ⟨after, rfl⟩
  | case4 => cases h

theorem tokenAt?_prefix {text cs : List Char} (h : tokenAt? text = some cs) :
    cs ≠ [] ∧ ∃ rest, text = cs ++ rest := by
  unfold tokenAt? at h
  split at h
  · obtain ⟨ds, hd, rfl⟩ := Option.map_eq_some_iff.1 h
    obtain ⟨after, rfl⟩ := closed?_prefix hd
    exact ⟨by simp, after, rfl⟩
  · cases h

theorem flatMap_chars_piecesFrom (skip : Nat) (text : List Char) :
    (piecesFrom skip text).flatMap Piece.chars = text.drop skip := by
  fun_induction piecesFrom skip text with
  | case1 => simp
  | case2 skip c rest ih => simpa using ih
  | case3 c rest cs h ih =>
    obtain ⟨hne, after, ht⟩ := tokenAt?_prefix h
    rw [List.flatMap_cons, ih]
    obtain ⟨d, ds, rfl⟩ := List.exists_cons_of_ne_nil hne
    simp only [List.cons_append, List.cons.injEq] at ht
    simp [Piece.chars, ht.1, ht.2]
  | case4 c rest h ih => simpa [Piece.chars] using ih

theorem flatMap_chars_pieces (text : List Char) :
    (pieces text).flatMap Piece.chars = text := by
  simp [pieces, flatMap_chars_piecesFrom]

end ClusterUpgrade.Plan
