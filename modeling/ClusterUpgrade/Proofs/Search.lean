import Mathlib.Data.List.Infix
import ClusterUpgrade.Text.Search

/-!
# Occurrences of a piece in a text

`replaceAll` replaces the occurrences that it meets from left to right. Where a piece cannot overlap
itself (`Unbordered`), it meets every one that stands between two other parts of a text, and
replaces the parts on their own (`replaceAll_intercalate`). What it finds within the parts cannot go
unnoticed (`intercalate_map_replaceAll_eq_iff`).
-/

namespace ClusterUpgrade.Text

variable {piece value text : List Char}

theorem afterPiece?_isSome_iff : (afterPiece? piece text).isSome ↔ piece <+: text := by
  rw [Option.isSome_iff_exists]
  exact exists_congr fun rest => afterPiece?_eq_some_iff.trans eq_comm

/-! ## One replacement after the other -/

theorem replaceFrom_eq_replaceAll_drop (skip : Nat) (text : List Char) :
    replaceFrom piece value skip text = replaceAll piece value (text.drop skip) := by
  induction skip generalizing text with
  | zero => rfl
  | succ skip ih =>
    cases text with
    | nil => rfl
    | cons c text => exact ih text

@[simp] theorem replaceAll_nil : replaceAll piece value [] = [] := rfl

/-- An occurrence at the start is replaced. -/
theorem replaceAll_piece_append (filled : piece ≠ []) (text : List Char) :
    replaceAll piece value (piece ++ text) = value ++ replaceAll piece value text := by
  obtain ⟨p, rest, rfl⟩ := List.exists_cons_of_ne_nil filled
  have found : (afterPiece? (p :: rest) (p :: (rest ++ text))).isSome :=
    afterPiece?_isSome_iff.2 (List.prefix_append (p :: rest) text)
  rw [List.cons_append, replaceAll, replaceFrom, if_pos found, replaceFrom_eq_replaceAll_drop]
  simp

/-- A character that starts no occurrence stays. -/
theorem replaceAll_cons {c : Char} (absent : ¬ piece <+: c :: text) :
    replaceAll piece value (c :: text) = c :: replaceAll piece value text := by
  have passed : ¬ (afterPiece? piece (c :: text)).isSome = true :=
    fun h => absent (afterPiece?_isSome_iff.1 h)
  rw [replaceAll, replaceFrom, if_neg passed, replaceAll]

/-- Induction along a replacement: a text starts with the piece, or with a character that is
passed. -/
theorem occurrence_induction {motive : List Char → Prop} (filled : piece ≠ []) (nil : motive [])
    (found : ∀ text, motive text → motive (piece ++ text))
    (passed : ∀ c text, ¬ piece <+: c :: text → motive text → motive (c :: text))
    (text : List Char) : motive text := by
  induction hlen : text.length using Nat.strong_induction_on generalizing text with
  | h length ih =>
    cases text with
    | nil => exact nil
    | cons c rest =>
      by_cases starts : piece <+: c :: rest
      · obtain ⟨after, hafter⟩ := starts
        have shorter : after.length < length := by
          have filled' := List.length_pos_of_ne_nil filled
          rw [← hlen, ← hafter, List.length_append]
          omega
        rw [← hafter]
        exact found after (ih _ shorter after rfl)
      · have shorter : rest.length < length := by rw [← hlen, List.length_cons]; omega
        exact passed c rest starts (ih _ shorter rest rfl)

/-- A text without the piece stays. -/
theorem replaceAll_eq_self (absent : ¬ piece <:+: text) : replaceAll piece value text = text := by
  induction text with
  | nil => rfl
  | cons c text ih =>
    rw [List.infix_cons_iff, not_or] at absent
    rw [replaceAll_cons absent.1, ih absent.2]

/-- A piece is replaced by itself. -/
theorem replaceAll_self (filled : piece ≠ []) (text : List Char) :
    replaceAll piece piece text = text := by
  induction text using occurrence_induction filled with
  | nil => rfl
  | found text ih => rw [replaceAll_piece_append filled, ih]
  | passed c text absent ih => rw [replaceAll_cons absent, ih]

/-- Every replacement changes the length by the same amount, and some are made wherever the piece
occurs. -/
theorem exists_length_replaceAll (filled : piece ≠ []) (value text : List Char) :
    ∃ count, (count = 0 ↔ ¬ piece <:+: text) ∧
      (replaceAll piece value text).length + count * piece.length =
        text.length + count * value.length := by
  induction text using occurrence_induction filled with
  | nil => exact ⟨0, by simp [filled], by simp⟩
  | found text ih =>
    obtain ⟨count, -, hlength⟩ := ih
    refine ⟨count + 1, ⟨nofun, fun absent => absurd (List.prefix_append _ _).isInfix absent⟩, ?_⟩
    rw [replaceAll_piece_append filled]
    simp only [List.length_append, Nat.add_mul]
    omega
  | passed c text absent ih =>
    obtain ⟨count, hcount, hlength⟩ := ih
    refine ⟨count, ?_, ?_⟩
    · rw [hcount, List.infix_cons_iff, or_iff_right absent]
    · rw [replaceAll_cons absent, List.length_cons, List.length_cons]
      omega

theorem length_replaceAll (filled : piece ≠ []) (same : value.length = piece.length)
    (text : List Char) : (replaceAll piece value text).length = text.length := by
  obtain ⟨count, -, hlength⟩ := exists_length_replaceAll filled value text
  rw [same] at hlength
  exact Nat.add_right_cancel hlength

/-- A replacement of the same length that changes nothing replaces the piece by itself. -/
theorem eq_of_replaceAll_eq_self (filled : piece ≠ []) (same : value.length = piece.length)
    (unchanged : replaceAll piece value text = text) (occurs : piece <:+: text) :
    value = piece := by
  induction text using occurrence_induction filled with
  | nil => exact absurd (List.infix_nil.1 occurs) filled
  | found text _ =>
    rw [replaceAll_piece_append filled] at unchanged
    exact (List.append_inj unchanged same).1
  | passed c text absent ih =>
    rw [replaceAll_cons absent, List.cons.injEq] at unchanged
    exact ih unchanged.2 ((List.infix_cons_iff.1 occurs).resolve_left absent)

/-! ## Pieces that cannot overlap -/

/-- No part at the start of the piece is one at its end, apart from the whole. -/
def Unbordered (piece : List Char) : Prop :=
  ∀ part, part ≠ [] → part <:+ piece → part <+: piece → part = piece

/-- A piece that stands in a text is replaced there, and what is around it on its own. -/
theorem Unbordered.replaceAll_append (unbordered : Unbordered piece) (filled : piece ≠ [])
    (text after : List Char) :
    replaceAll piece value (text ++ piece ++ after) =
      replaceAll piece value text ++ value ++ replaceAll piece value after := by
  rw [List.append_assoc, List.append_assoc]
  induction text using occurrence_induction filled with
  | nil => rw [List.nil_append, replaceAll_piece_append filled, replaceAll_nil, List.nil_append]
  | found text ih =>
    rw [List.append_assoc, replaceAll_piece_append filled, ih, replaceAll_piece_append filled,
      List.append_assoc]
  | passed c text absent ih =>
    -- An occurrence at the start would have to end within the piece.
    have absent' : ¬ piece <+: c :: (text ++ (piece ++ after)) := by
      intro starts
      have starts' : piece <+: (c :: text) ++ (piece ++ after) := starts
      rcases List.prefix_or_prefix_of_prefix starts' (List.prefix_append _ _) with within | beyond
      · exact absent within
      · obtain ⟨part, hpart⟩ := beyond
        have short : part.length < piece.length := by
          rw [← hpart, List.length_append, List.length_cons]
          omega
        have leads : part <+: piece ++ after :=
          (List.prefix_append_right_inj (c :: text)).1 (hpart.symm ▸ starts')
        have part_prefix : part <+: piece :=
          List.prefix_of_prefix_length_le leads (List.prefix_append _ _) short.le
        by_cases empty : part = []
        · rw [empty, List.append_nil] at hpart
          exact absent (hpart ▸ List.prefix_rfl)
        · rw [unbordered part empty ⟨_, hpart⟩ part_prefix] at short
          exact absurd short (lt_irrefl _)
    rw [List.cons_append, replaceAll_cons absent', ih, replaceAll_cons absent, List.cons_append]

/-- Parts with the piece between each two are replaced on their own. -/
theorem Unbordered.replaceAll_intercalate (unbordered : Unbordered piece) (filled : piece ≠ []) :
    ∀ gaps : List (List Char), replaceAll piece value (piece.intercalate gaps) =
      value.intercalate (gaps.map (replaceAll piece value))
  | [] => rfl
  | [gap] => by simp
  | gap :: next :: gaps => by
    rw [List.intercalate_cons_cons, unbordered.replaceAll_append filled, List.map_cons,
      List.map_cons, List.intercalate_cons_cons, ← List.map_cons,
      unbordered.replaceAll_intercalate filled (next :: gaps)]

/-! ## Replacements within the parts of a text -/

theorem exists_length_intercalate (filled : piece ≠ []) (value : List Char) :
    ∀ gaps : List (List Char), ∃ count, (count = 0 ↔ ∀ gap ∈ gaps, ¬ piece <:+: gap) ∧
      (value.intercalate (gaps.map (replaceAll piece value))).length + count * piece.length =
        (value.intercalate gaps).length + count * value.length
  | [] => ⟨0, by simp, by simp⟩
  | [gap] => by simpa using exists_length_replaceAll filled value gap
  | gap :: next :: gaps => by
    obtain ⟨count, hcount, hlength⟩ := exists_length_replaceAll filled value gap
    obtain ⟨rest, hrest, hlengths⟩ := exists_length_intercalate filled value (next :: gaps)
    refine ⟨count + rest, ?_, ?_⟩
    · rw [Nat.add_eq_zero_iff, hcount, hrest]
      exact (List.forall_mem_cons (p := fun gap => ¬ piece <:+: gap)).symm
    · rw [List.map_cons, List.map_cons, List.intercalate_cons_cons, List.intercalate_cons_cons,
        ← List.map_cons]
      simp only [List.length_append, Nat.add_mul]
      omega

theorem replaceAll_eq_self_of_intercalate_eq (filled : piece ≠ [])
    (same : value.length = piece.length) : ∀ {gaps : List (List Char)},
      value.intercalate (gaps.map (replaceAll piece value)) = value.intercalate gaps →
        ∀ gap ∈ gaps, replaceAll piece value gap = gap
  | [], _ => nofun
  | [gap], unchanged => by simpa using unchanged
  | gap :: next :: gaps, unchanged => by
    rw [List.map_cons, List.map_cons, List.intercalate_cons_cons, List.intercalate_cons_cons,
      ← List.map_cons, List.append_assoc, List.append_assoc] at unchanged
    obtain ⟨first, rest⟩ := List.append_inj unchanged (length_replaceAll filled same gap)
    exact List.forall_mem_cons.2
      ⟨first, replaceAll_eq_self_of_intercalate_eq filled same (List.append_cancel_left rest)⟩

/-- Replacements within the parts of a text change it, unless the piece is replaced by itself or
none of the parts has it. -/
theorem intercalate_map_replaceAll_eq_iff (filled : piece ≠ []) {gaps : List (List Char)} :
    value.intercalate (gaps.map (replaceAll piece value)) = value.intercalate gaps ↔
      value = piece ∨ ∀ gap ∈ gaps, ¬ piece <:+: gap := by
  constructor
  · intro unchanged
    obtain ⟨count, hcount, hlength⟩ := exists_length_intercalate filled value gaps
    rw [unchanged, Nat.add_left_cancel_iff] at hlength
    by_cases none_made : count = 0
    · exact Or.inr (hcount.1 none_made)
    · have same := (Nat.eq_of_mul_eq_mul_left (Nat.pos_of_ne_zero none_made) hlength).symm
      refine or_iff_not_imp_right.2 fun occurs => ?_
      push Not at occurs
      obtain ⟨gap, mem, occurs⟩ := occurs
      exact eq_of_replaceAll_eq_self filled same
        (replaceAll_eq_self_of_intercalate_eq filled same unchanged gap mem) occurs
  · rintro (rfl | absent)
    · rw [List.map_congr_left fun gap _ => replaceAll_self filled gap, List.map_id'']
      exact fun _ => rfl
    · rw [List.map_congr_left fun gap mem => replaceAll_eq_self (absent gap mem), List.map_id'']
      exact fun _ => rfl

end ClusterUpgrade.Text
