import Mathlib.Data.List.Infix
import ClusterUpgrade.Plan.Token
import ClusterUpgrade.Proofs.Search

/-!
# Tokens and the pieces of a text

1. A token closes only at its end (`IsToken.eq_of_closed_start`), so two tokens never overlap
   (`IsToken.eq_of_overlap`) and a token within a token ends with it (`IsToken.suffix_of_within`).
2. `Scanned` is what a scan from left to right has left: no token starts at a character that stands
   on its own. `tokenAt?_drawn`: none starts there either when the tokens after it are replaced by
   something else.
-/

namespace ClusterUpgrade.Plan

/-! ## Closing braces -/

theorem closed?_cons (c : Char) (rest : List Char) : closed? (c :: rest) =
    if c = '\x7d' ∧ rest.head? = some '\x7d' then some ['\x7d', '\x7d']
    else if Text.isLineEnd c then none else (closed? rest).map (c :: ·) := by
  rw [closed?.eq_def]
  split
  · next heq =>
    obtain ⟨rfl, rfl⟩ := List.cons.inj heq
    rfl
  · next h heq =>
    obtain ⟨rfl, rfl⟩ := List.cons.inj heq
    have apart : ¬ (c = '\x7d' ∧ rest.head? = some '\x7d') := by
      rintro ⟨rfl, closes⟩
      obtain ⟨after, rfl⟩ := List.head?_eq_some_iff.1 closes
      exact h _ rfl rfl
    rw [if_neg apart]
  · next heq => cases heq

/-- What follows a closed text does not matter. -/
theorem closed?_append {text cs : List Char} (h : closed? text = some cs) (after : List Char) :
    closed? (text ++ after) = some cs := by
  induction text generalizing cs with
  | nil => cases h
  | cons c rest ih =>
    rw [List.cons_append, closed?_cons]
    rw [closed?_cons] at h
    split at h
    · next closes =>
      obtain ⟨rest, rfl⟩ := List.head?_eq_some_iff.1 closes.2
      exact (if_pos ⟨closes.1, rfl⟩).trans h
    · next open_ =>
      split at h
      · cases h
      · next inline =>
        obtain ⟨ds, hds, rfl⟩ := Option.map_eq_some_iff.1 h
        have open_' : ¬ (c = '\x7d' ∧ (rest ++ after).head? = some '\x7d') := by
          cases rest with
          | nil => cases hds
          | cons d rest => exact open_
        rw [if_neg open_', if_neg inline, ih hds]
        rfl

/-- A closed text is closed on its own. -/
theorem closed?_self {text cs : List Char} (h : closed? text = some cs) : closed? cs = some cs := by
  induction text generalizing cs with
  | nil => cases h
  | cons c rest ih =>
    rw [closed?_cons] at h
    split at h
    · cases h
      rfl
    · next open_ =>
      split at h
      · cases h
      · next inline =>
        obtain ⟨ds, hds, rfl⟩ := Option.map_eq_some_iff.1 h
        have open_' : ¬ (c = '\x7d' ∧ ds.head? = some '\x7d') := by
          rintro ⟨hc, hd⟩
          obtain ⟨after, rfl⟩ := closed?_prefix hds
          obtain ⟨ds, rfl⟩ := List.head?_eq_some_iff.1 hd
          exact open_ ⟨hc, rfl⟩
        rw [closed?_cons, if_neg open_', if_neg inline, ih hds]
        rfl

theorem closed?_ends {text cs : List Char} (h : closed? text = some cs) :
    ['\x7d', '\x7d'] <:+ cs := by
  induction text generalizing cs with
  | nil => cases h
  | cons c rest ih =>
    rw [closed?_cons] at h
    split at h
    · cases h
      exact List.suffix_rfl
    · split at h
      · cases h
      · obtain ⟨ds, hds, rfl⟩ := Option.map_eq_some_iff.1 h
        exact (ih hds).trans (List.suffix_cons _ _)

/-- A closed text ends before its line does. -/
theorem closed?_inline {text cs : List Char} (h : closed? text = some cs) :
    ∀ c ∈ cs, Text.isLineEnd c = false := by
  induction text generalizing cs with
  | nil => cases h
  | cons c rest ih =>
    rw [closed?_cons] at h
    split at h
    · cases h
      exact List.forall_mem_cons.2 ⟨rfl, List.forall_mem_singleton.2 rfl⟩
    · split at h
      · cases h
      · next inline =>
        obtain ⟨ds, hds, rfl⟩ := Option.map_eq_some_iff.1 h
        exact List.forall_mem_cons.2 ⟨by simpa using inline, ih hds⟩

/-- A text is closed at its first two closing braces. -/
theorem length_closed?_le {start after cs : List Char}
    (h : closed? (start ++ '\x7d' :: '\x7d' :: after) = some cs) :
    cs.length ≤ start.length + 2 := by
  induction start generalizing cs with
  | nil =>
    cases h
    exact le_rfl
  | cons c start ih =>
    rw [List.cons_append, closed?_cons] at h
    split at h
    · cases h
      simp
    · split at h
      · cases h
      · obtain ⟨ds, hds, rfl⟩ := Option.map_eq_some_iff.1 h
        rw [List.length_cons, List.length_cons]
        have := ih hds
        omega

/-! ## Tokens -/

/-- A text that is one token. -/
def IsToken (cs : List Char) : Prop := tokenAt? cs = some cs

variable {t T part : List Char}

theorem tokenAt?_eq_some_iff {text cs : List Char} : tokenAt? text = some cs ↔
    ∃ rest ds, text = '\x7b' :: '\x7b' :: rest ∧ closed? rest = some ds ∧
      cs = '\x7b' :: '\x7b' :: ds := by
  constructor
  · intro h
    unfold tokenAt? at h
    split at h
    · obtain ⟨ds, hds, rfl⟩ := Option.map_eq_some_iff.1 h
      exact ⟨_, ds, rfl, hds, rfl⟩
    · cases h
  · rintro ⟨rest, ds, rfl, hds, rfl⟩
    exact Option.map_eq_some_iff.2 ⟨ds, hds, rfl⟩

theorem isToken_iff :
    IsToken t ↔ ∃ body, t = '\x7b' :: '\x7b' :: body ∧ closed? body = some body := by
  constructor
  · intro h
    obtain ⟨rest, body, ht, closed, ht'⟩ := tokenAt?_eq_some_iff.1 h
    obtain rfl : rest = body := by simpa using ht.symm.trans ht'
    exact ⟨rest, ht, closed⟩
  · rintro ⟨body, ht, closed⟩
    exact tokenAt?_eq_some_iff.2 ⟨body, body, ht, closed, ht⟩

theorem tokenAt?_eq_none_iff {text : List Char} : tokenAt? text = none ↔
    ∀ rest, text = '\x7b' :: '\x7b' :: rest → closed? rest = none := by
  constructor
  · rintro h rest rfl
    exact Option.map_eq_none_iff.1 h
  · intro h
    unfold tokenAt?
    split
    · exact Option.map_eq_none_iff.2 (h _ rfl)
    · rfl

theorem tokenAt?_self {text cs : List Char} (h : tokenAt? text = some cs) : IsToken cs := by
  obtain ⟨_, ds, -, hds, rfl⟩ := tokenAt?_eq_some_iff.1 h
  exact isToken_iff.2 ⟨ds, rfl, closed?_self hds⟩

namespace IsToken

/-- A token is found where it starts, whatever follows. -/
theorem tokenAt?_append (h : IsToken t) (after : List Char) : tokenAt? (t ++ after) = some t := by
  obtain ⟨body, rfl, closed⟩ := isToken_iff.1 h
  rw [List.cons_append, List.cons_append, tokenAt?, closed?_append closed]
  rfl

/-- The first closing braces of a text that starts with a token are those of the token. -/
theorem closed?_append (h : IsToken t) (after : List Char) : closed? (t ++ after) = some t := by
  obtain ⟨body, rfl, closed⟩ := isToken_iff.1 h
  rw [List.cons_append, List.cons_append, closed?_cons, closed?_cons, Plan.closed?_append closed]
  rfl

theorem opens (h : IsToken t) : ['\x7b', '\x7b'] <+: t := by
  obtain ⟨body, rfl, -⟩ := isToken_iff.1 h
  exact List.prefix_append ['\x7b', '\x7b'] body

theorem ends (h : IsToken t) : ['\x7d', '\x7d'] <:+ t := by
  obtain ⟨body, rfl, closed⟩ := isToken_iff.1 h
  exact (closed?_ends closed).trans (List.suffix_append ['\x7b', '\x7b'] body)

theorem inline (h : IsToken t) : ∀ c ∈ t, Text.isLineEnd c = false := by
  obtain ⟨body, rfl, closed⟩ := isToken_iff.1 h
  exact List.forall_mem_cons.2 ⟨rfl, List.forall_mem_cons.2 ⟨rfl, closed?_inline closed⟩⟩

theorem ne_nil (h : IsToken t) : t ≠ [] := by
  obtain ⟨body, rfl, -⟩ := isToken_iff.1 h
  exact List.cons_ne_nil _ _

/-- A token has its first two closing braces at its end. -/
theorem eq_of_closed_start (h : IsToken T) (starts : part <+: T)
    (closes : ['\x7d', '\x7d'] <:+ part) : part = T := by
  obtain ⟨body, rfl, closed⟩ := isToken_iff.1 h
  obtain ⟨start, rfl⟩ := closes
  rcases start with _ | ⟨a, _ | ⟨b, start⟩⟩
  · exact absurd (List.cons_prefix_cons.1 starts).1 (by decide)
  · exact absurd (List.cons_prefix_cons.1 (List.cons_prefix_cons.1 starts).2).1 (by decide)
  · obtain ⟨rfl, starts'⟩ := List.cons_prefix_cons.1 starts
    obtain ⟨rfl, after, hafter⟩ := List.cons_prefix_cons.1 starts'
    have hbody : body = start ++ '\x7d' :: '\x7d' :: after := by simp [← hafter]
    subst hbody
    have short := length_closed?_le closed
    have no_after : after = [] := by
      rw [← List.length_eq_zero_iff]
      simp only [List.length_append, List.length_cons] at short
      omega
    simp [no_after]

/-- Tokens do not overlap: the end of a token that is the start of one is that token. -/
theorem eq_of_overlap (hT : IsToken T) (ht : IsToken t) (filled : part ≠ []) (tail : part <:+ T)
    (starts : part <+: t) : part = t := by
  by_cases long : 2 ≤ part.length
  · exact ht.eq_of_closed_start starts (List.suffix_of_suffix_length_le hT.ends tail long)
  · -- A single character would be an opening brace and a closing one.
    obtain ⟨c, rfl⟩ : ∃ c, part = [c] := by
      rw [← List.length_eq_one_iff]
      have := List.length_pos_of_ne_nil filled
      omega
    have opening : [c] <+: ['\x7b', '\x7b'] :=
      List.prefix_of_prefix_length_le starts ht.opens (by simp)
    have closing : [c] <:+ ['\x7d', '\x7d'] :=
      List.suffix_of_suffix_length_le tail hT.ends (by simp)
    obtain ⟨rfl, -⟩ := List.cons_prefix_cons.1 opening
    exact absurd closing (by decide)

/-- A token within a token ends with it. -/
theorem suffix_of_within (ht : IsToken t) (hT : IsToken T) (within : t <:+: T) : t <:+ T := by
  obtain ⟨start, after, rfl⟩ := within
  have whole : start ++ t = start ++ t ++ after :=
    hT.eq_of_closed_start (List.prefix_append _ _) (ht.ends.trans (List.suffix_append _ _))
  exact ⟨start, whole⟩

theorem unbordered (h : IsToken t) : Text.Unbordered t :=
  fun _ filled tail starts => h.eq_of_overlap h filled tail starts

end IsToken

/-! ## Scanned pieces -/

/-- Pieces as a scan from left to right leaves them: no token starts at a character that stands on
its own, and every token is one. -/
def Scanned : List Piece → Prop
  | [] => True
  | .plain c :: ps => tokenAt? (c :: ps.flatMap Piece.chars) = none ∧ Scanned ps
  | .token cs :: ps => IsToken cs ∧ Scanned ps

theorem scanned_piecesFrom (skip : Nat) (text : List Char) : Scanned (piecesFrom skip text) := by
  fun_induction piecesFrom skip text with
  | case1 => trivial
  | case2 skip c rest ih => exact ih
  | case3 c rest cs h ih => exact ⟨tokenAt?_self h, ih⟩
  | case4 c rest h ih =>
    refine ⟨?_, ih⟩
    rw [flatMap_chars_piecesFrom]
    exact h

theorem scanned_pieces (text : List Char) : Scanned (pieces text) := scanned_piecesFrom 0 text

variable {ps qs : List Piece}

/-- The pieces after any others are scanned. -/
theorem Scanned.of_append_right (h : Scanned (qs ++ ps)) : Scanned ps := by
  induction qs with
  | nil => exact h
  | cons q qs ih => cases q <;> exact ih h.2

theorem tokenAt?_eq_none_of_starts {text longer : List Char} (h : text <+: longer)
    (none_found : tokenAt? longer = none) : tokenAt? text = none := by
  rw [Option.eq_none_iff_forall_ne_some]
  intro cs found
  obtain ⟨after, rfl⟩ := h
  obtain ⟨-, rest, rfl⟩ := tokenAt?_prefix found
  rw [List.append_assoc, (tokenAt?_self found).tokenAt?_append] at none_found
  cases none_found

/-- The pieces before any others are scanned. -/
theorem Scanned.of_append_left (h : Scanned (qs ++ ps)) : Scanned qs := by
  induction qs with
  | nil => trivial
  | cons q qs ih =>
    cases q with
    | plain c =>
      have longer : c :: qs.flatMap Piece.chars <+: c :: (qs ++ ps).flatMap Piece.chars := by
        rw [List.flatMap_append]
        exact List.prefix_append (c :: qs.flatMap Piece.chars) _
      exact ⟨tokenAt?_eq_none_of_starts longer h.1, ih h.2⟩
    | token cs => exact ⟨h.1, ih h.2⟩

theorem Scanned.of_within (h : Scanned ps) (within : qs <:+: ps) : Scanned qs := by
  obtain ⟨start, after, rfl⟩ := within
  exact h.of_append_left.of_append_right

theorem Scanned.isToken {cs : List Char} (h : Scanned ps) (mem : .token cs ∈ ps) : IsToken cs := by
  obtain ⟨start, after, rfl⟩ := List.append_of_mem mem
  exact h.of_append_right.1

/-! ## Texts that open a token -/

/-- A text that opens a token, alone or with a brace after it. -/
def Opens (text : List Char) : Prop := ['\x7b', '\x7b'] <:+: text ++ ['\x7b']

instance (text : List Char) : Decidable (Opens text) := inferInstanceAs (Decidable (_ <:+: _))

variable {text after : List Char}

theorem opens_of_within (ht : IsToken t) (within : t <:+: text) : Opens text :=
  (ht.opens.isInfix.trans within).trans (List.prefix_append _ _).isInfix

theorem opens_of_overlap (ht : IsToken t) (filled : part ≠ []) (tail : part <:+ text)
    (starts : part <+: t) : Opens text := by
  by_cases long : 2 ≤ part.length
  · have opens : ['\x7b', '\x7b'] <+: part :=
      List.prefix_of_prefix_length_le ht.opens starts long
    exact (opens.isInfix.trans tail.isInfix).trans (List.prefix_append _ _).isInfix
  · obtain ⟨c, rfl⟩ : ∃ c, part = [c] := by
      rw [← List.length_eq_one_iff]
      have := List.length_pos_of_ne_nil filled
      omega
    have opening : [c] <+: ['\x7b', '\x7b'] :=
      List.prefix_of_prefix_length_le starts ht.opens (by simp)
    obtain ⟨rfl, -⟩ := List.cons_prefix_cons.1 opening
    obtain ⟨start, rfl⟩ := tail
    exact ⟨start, [], by simp⟩

/-- An occurrence in two texts lies in one of them, or it starts in the first and goes on in the
second. -/
theorem infix_append_cases (h : t <:+: text ++ after) : t <:+: text ∨ t <:+: after ∨
    ∃ part, part ≠ [] ∧ part <:+ text ∧ part <+: t ∧ t <+: part ++ after := by
  rcases List.infix_append_iff.1 h with within | later | ⟨part, rest, rfl, tail, starts⟩
  · exact Or.inl within
  · exact Or.inr (Or.inl later)
  · by_cases empty : part = []
    · subst empty
      exact Or.inr (Or.inl starts.isInfix)
    · exact Or.inr (Or.inr ⟨part, empty, tail, List.prefix_append _ _,
        (List.prefix_append_right_inj part).2 starts⟩)

/-! ## Pieces drawn otherwise -/

section Drawn

variable {draw : Piece → List Char} (plain : ∀ c, draw (.plain c) = [c])

include plain

/-- A text that is not closed has no token before its line ends, so it is not closed either when
tokens are drawn otherwise. -/
theorem closed?_drawn (h : Scanned ps) (open_ : closed? (ps.flatMap Piece.chars) = none) :
    closed? (ps.flatMap draw) = none := by
  induction ps with
  | nil => rfl
  | cons p ps ih =>
    cases p with
    | token cs =>
      rw [List.flatMap_cons, Piece.chars, h.1.closed?_append] at open_
      cases open_
    | plain c =>
      rw [List.flatMap_cons, Piece.chars, List.singleton_append, closed?_cons] at open_
      rw [List.flatMap_cons, plain, List.singleton_append, closed?_cons]
      split at open_
      · cases open_
      · next apart =>
        split at open_
        · next ended =>
          have not_brace : c ≠ '\x7d' := by
            rintro rfl
            exact absurd ended (by decide)
          rw [if_neg fun closes => not_brace closes.1, if_pos ended]
        · next inline =>
          have open_rest := Option.map_eq_none_iff.1 open_
          have apart' : ¬ (c = '\x7d' ∧ (ps.flatMap draw).head? = some '\x7d') := by
            rintro ⟨hc, hnext⟩
            rcases ps with _ | ⟨_ | cs, ps⟩
            · cases hnext
            · rw [List.flatMap_cons, plain] at hnext
              exact apart ⟨hc, hnext⟩
            · rw [List.flatMap_cons, Piece.chars, h.2.1.closed?_append] at open_rest
              cases open_rest
          rw [if_neg apart', if_neg inline, ih h.2 open_rest]
          rfl

/-- No token starts at a character that stands on its own, also when tokens are drawn otherwise. -/
theorem tokenAt?_drawn {c : Char} (h : Scanned (.plain c :: ps)) :
    tokenAt? (c :: ps.flatMap draw) = none := by
  obtain ⟨unopened, h⟩ := h
  rw [tokenAt?_eq_none_iff] at unopened ⊢
  intro rest hrest
  obtain ⟨rfl, opening⟩ := List.cons.inj hrest
  rcases ps with _ | ⟨d | cs, ps⟩
  · cases opening
  · rw [List.flatMap_cons, plain, List.singleton_append] at opening
    obtain ⟨rfl, rfl⟩ := List.cons.inj opening
    exact closed?_drawn plain h.2 (unopened _ rfl)
  · -- A single brace does not stand before a token: the two would open one.
    obtain ⟨body, rfl, closed⟩ := isToken_iff.1 h.1
    have open_ : closed? ('\x7b' :: body ++ ps.flatMap Piece.chars) = none := unopened _ rfl
    rw [List.cons_append, closed?_cons, closed?_append closed] at open_
    cases open_

/-- Where no other text that is drawn for a token opens one, a token occurs only at the end of a
token. -/
theorem exists_token_of_occurs (h : Scanned ps) (ht : IsToken t)
    (inert : ∀ cs, .token cs ∈ ps → draw (.token cs) = cs ∨ ¬ Opens (draw (.token cs)))
    (occurs : t <:+: ps.flatMap draw) :
    ∃ cs, .token cs ∈ ps ∧ draw (.token cs) = cs ∧ t <:+ cs := by
  induction ps with
  | nil => exact absurd (List.infix_nil.1 occurs) ht.ne_nil
  | cons p ps ih =>
    have later : t <:+: ps.flatMap draw →
        ∃ cs, .token cs ∈ p :: ps ∧ draw (.token cs) = cs ∧ t <:+ cs := by
      intro occurs
      have h' : Scanned ([p] ++ ps) := h
      obtain ⟨cs, mem, drawn, tail⟩ :=
        ih h'.of_append_right (fun cs mem => inert cs (.tail _ mem)) occurs
      exact ⟨cs, .tail _ mem, drawn, tail⟩
    rw [List.flatMap_cons] at occurs
    rcases infix_append_cases occurs with within | after | ⟨part, filled, tail, starts, beyond⟩
    · cases p with
      | plain c =>
        rw [plain] at within
        exact absurd (ht.opens.isInfix.trans within).length_le (by simp)
      | token cs =>
        rcases inert cs List.mem_cons_self with drawn | closed
        · exact ⟨cs, List.mem_cons_self, drawn, ht.suffix_of_within h.1 (drawn ▸ within)⟩
        · exact absurd (opens_of_within ht within) closed
    · exact later after
    · cases p with
      | plain c =>
        rw [plain] at tail
        have whole : part = [c] := by simpa [filled] using List.suffix_cons_iff.1 tail
        rw [whole] at beyond
        have passed := tokenAt?_eq_none_of_starts beyond (tokenAt?_drawn plain h)
        rw [ht] at passed
        cases passed
      | token cs =>
        rcases inert cs List.mem_cons_self with drawn | closed
        · rw [drawn] at tail
          exact ⟨cs, List.mem_cons_self, drawn, h.1.eq_of_overlap ht filled tail starts ▸ tail⟩
        · exact absurd (opens_of_overlap ht filled tail starts) closed

end Drawn

end ClusterUpgrade.Plan
