import ClusterUpgrade.Proofs.Distinct
import ClusterUpgrade.Proofs.Token

/-!
# The scan for tokens

1. `Cuts` says what a scan of a text cuts out, by positions in the text alone: the piece at the
   leftmost opening braces that are closed on their line goes on to the first braces that close
   them, and the scan resumes right behind it. There is one such list of pieces (`Cuts.unique`).
2. The tokens of a text are those pieces: `closed?` finds the first closing braces
   (`exists_first_closesAt`), `tokenAt?` the piece at a position (`exists_first_spans`), and so the
   pieces of the text are those of the scan (`cuts_cutsFrom`).
3. Pieces do not overlap, and whatever starts like a token starts within a piece (`Cuts.covers`), so
   none is left between them.
-/

namespace ClusterUpgrade.Plan

/-! ## The scan -/

/-- Two opening braces at `start` have two closing braces behind them at `stop`, on one line. -/
structure Spans (text : List Char) (start stop : Nat) : Prop where
  opens : ['\x7b', '\x7b'] <+: text.drop start
  closes : ['\x7d', '\x7d'] <+: text.drop stop
  beyond : start + 2 ≤ stop
  inline : ∀ c ∈ text.extract (start + 2) stop, Text.isLineEnd c = false

/-- The places of the pieces that a scan from `start` on cuts out of a text: each from the leftmost
opening braces that are closed to the end of the first braces that close them. -/
inductive Cuts (text : List Char) : (start : Nat) → List (Nat × Nat) → Prop where
  | done {start : Nat} (none_left : ∀ i j, start ≤ i → ¬ Spans text i j) : Cuts text start []
  | piece {start i j : Nat} {rest : List (Nat × Nat)} (here : start ≤ i) (spans : Spans text i j)
      (leftmost : ∀ i' j', start ≤ i' → Spans text i' j' → i ≤ i')
      (shortest : ∀ j', Spans text i j' → j ≤ j') (resumed : Cuts text (j + 2) rest) :
      Cuts text start ((i, j + 2) :: rest)

variable {text cs : List Char} {c : Char} {start i j n : Nat} {cuts others : List (Nat × Nat)}

/-! ## Closing braces by their position -/

/-- Two closing braces stand at a position, on the line that the text starts with. -/
structure ClosesAt (text : List Char) (n : Nat) : Prop where
  closes : ['\x7d', '\x7d'] <+: text.drop n
  inline : ∀ c ∈ text.take n, Text.isLineEnd c = false

theorem closesAt_zero_iff :
    ClosesAt (c :: text) 0 ↔ c = '\x7d' ∧ text.head? = some '\x7d' := by
  constructor
  · rintro ⟨closes, -⟩
    obtain ⟨same, next⟩ := List.cons_prefix_cons.1 closes
    exact ⟨same.symm, List.singleton_prefix_iff_head?_eq_some.1 next⟩
  · rintro ⟨rfl, next⟩
    obtain ⟨after, rfl⟩ := List.head?_eq_some_iff.1 next
    exact ⟨List.prefix_append ['\x7d', '\x7d'] after, nofun⟩

theorem closesAt_succ_iff :
    ClosesAt (c :: text) (n + 1) ↔ Text.isLineEnd c = false ∧ ClosesAt text n := by
  constructor
  · rintro ⟨closes, inline⟩
    rw [List.take_succ_cons, List.forall_mem_cons] at inline
    exact ⟨inline.1, closes, inline.2⟩
  · rintro ⟨here, closes, inline⟩
    exact ⟨closes, List.forall_mem_cons.2 ⟨here, inline⟩⟩

theorem not_closesAt_of_closed? (h : closed? text = none) (n : Nat) : ¬ ClosesAt text n := by
  induction text generalizing n with
  | nil =>
    rintro ⟨closes, -⟩
    simpa using closes.length_le
  | cons c rest ih =>
    rw [closed?_cons] at h
    cases n with
    | zero =>
      intro here
      rw [if_pos (closesAt_zero_iff.1 here)] at h
      cases h
    | succ n =>
      intro later
      obtain ⟨inline, later⟩ := closesAt_succ_iff.1 later
      split_ifs at h with closes ended
      · simp [inline] at ended
      · exact ih (Option.map_eq_none_iff.1 h) n later

/-- A text is closed at the first position with closing braces. -/
theorem exists_first_closesAt (h : closed? text = some cs) :
    ∃ n, ClosesAt text n ∧ (∀ m, ClosesAt text m → n ≤ m) ∧ cs = text.take (n + 2) := by
  induction text generalizing cs with
  | nil => cases h
  | cons c rest ih =>
    rw [closed?_cons] at h
    split_ifs at h with closes ended
    · obtain rfl := Option.some.inj h
      obtain ⟨rfl, next⟩ := closes
      obtain ⟨after, rfl⟩ := List.head?_eq_some_iff.1 next
      exact ⟨0, closesAt_zero_iff.2 ⟨rfl, rfl⟩, fun _ _ => Nat.zero_le _, rfl⟩
    · obtain ⟨ds, hds, rfl⟩ := Option.map_eq_some_iff.1 h
      obtain ⟨n, found, first, rfl⟩ := ih hds
      refine ⟨n + 1, closesAt_succ_iff.2 ⟨by simpa using ended, found⟩, fun m at_m => ?_, rfl⟩
      cases m with
      | zero => exact absurd (closesAt_zero_iff.1 at_m) closes
      | succ m => exact Nat.succ_le_succ (first m (closesAt_succ_iff.1 at_m).2)

/-! ## Tokens by their position -/

theorem spans_iff : Spans text i j ↔ ['\x7b', '\x7b'] <+: text.drop i ∧
    ∃ n, j = i + 2 + n ∧ ClosesAt (text.drop (i + 2)) n := by
  constructor
  · rintro ⟨opens, closes, beyond, inline⟩
    obtain ⟨n, rfl⟩ := Nat.exists_eq_add_of_le beyond
    rw [List.extract_eq_take_drop, Nat.add_sub_cancel_left] at inline
    exact ⟨opens, n, rfl, by rwa [List.drop_drop], inline⟩
  · rintro ⟨opens, n, rfl, closes, inline⟩
    rw [List.drop_drop] at closes
    refine ⟨opens, closes, Nat.le_add_right _ _, ?_⟩
    rwa [List.extract_eq_take_drop, Nat.add_sub_cancel_left]

theorem Spans.length_extract (h : Spans text i j) :
    (text.extract i (j + 2)).length = j + 2 - i := by
  have closes := h.closes.length_le
  rw [List.length_drop, List.length_cons, List.length_singleton] at closes
  rw [List.extract_eq_take_drop, List.length_take, List.length_drop]
  omega

theorem not_spans_of_tokenAt? (h : tokenAt? (text.drop i) = none) (j : Nat) :
    ¬ Spans text i j := by
  intro spans
  obtain ⟨⟨rest, opens⟩, n, -, closes⟩ := spans_iff.1 spans
  rw [← List.drop_drop, ← opens] at closes
  exact not_closesAt_of_closed? (tokenAt?_eq_none_iff.1 h rest opens.symm) n closes

/-- The token at a position goes on to the first closing braces. -/
theorem exists_first_spans (h : tokenAt? (text.drop i) = some cs) :
    ∃ j, Spans text i j ∧ (∀ j', Spans text i j' → j ≤ j') ∧ cs = text.extract i (j + 2) := by
  obtain ⟨rest, ds, opens, closed, rfl⟩ := tokenAt?_eq_some_iff.1 h
  have behind : text.drop (i + 2) = rest := by rw [← List.drop_drop, opens]; rfl
  obtain ⟨n, found, first, rfl⟩ := exists_first_closesAt closed
  refine ⟨i + 2 + n, spans_iff.2 ⟨⟨rest, opens.symm⟩, n, rfl, behind ▸ found⟩, ?_, ?_⟩
  · intro j' spans
    obtain ⟨-, m, rfl, closes⟩ := spans_iff.1 spans
    exact Nat.add_le_add_left (first m (behind ▸ closes)) _
  · have length : i + 2 + n + 2 - i = n + 2 + 2 := by omega
    rw [List.extract_eq_take_drop, opens, length]
    rfl

/-! ## The pieces of a scan -/

/-- The places of tokens among pieces that start at a position. -/
def cutsFrom : (start : Nat) → List Piece → List (Nat × Nat)
  | _, [] => []
  | start, .plain _ :: ps => cutsFrom (start + 1) ps
  | start, .token cs :: ps => (start, start + cs.length) :: cutsFrom (start + cs.length) ps

theorem Cuts.of_succ (cut : Cuts text (n + 1) cuts) (none_here : ∀ j, ¬ Spans text n j) :
    Cuts text n cuts := by
  have later {i j : Nat} (from_n : n ≤ i) (spans : Spans text i j) : n + 1 ≤ i := by
    rcases Nat.eq_or_lt_of_le from_n with rfl | after
    · exact absurd spans (none_here j)
    · exact after
  cases cut with
  | done none_left => exact .done fun i j from_n spans => none_left i j (later from_n spans) spans
  | piece here spans leftmost shortest resumed =>
    exact .piece (Nat.le_of_succ_le here) spans
      (fun i' j' from_n other => leftmost i' j' (later from_n other) other) shortest resumed

theorem drop_behind {p : Piece} {ps : List Piece}
    (h : text.drop start = (p :: ps).flatMap Piece.chars) :
    text.drop (start + p.chars.length) = ps.flatMap Piece.chars := by
  rw [← List.drop_drop, h, List.flatMap_cons, List.drop_left]

/-- Scanned pieces are cut where their tokens are. -/
theorem cuts_cutsFrom {ps : List Piece} (scanned : Scanned ps)
    (h : text.drop start = ps.flatMap Piece.chars) : Cuts text start (cutsFrom start ps) := by
  induction ps generalizing start with
  | nil =>
    refine .done fun i j from_start spans => ?_
    have ended : text.drop i = [] :=
      List.drop_eq_nil_iff.2 ((List.drop_eq_nil_iff.1 h).trans from_start)
    simpa [ended] using spans.opens.length_le
  | cons p ps ih =>
    have behind := drop_behind h
    cases p with
    | plain c =>
      refine (ih scanned.2 behind).of_succ (not_spans_of_tokenAt? ?_)
      rw [h]
      exact scanned.1
    | token cs =>
      -- The token stands where the scan resumes, so no other starts before it.
      have found : tokenAt? (text.drop start) = some cs := by
        rw [h]
        exact scanned.1.tokenAt?_append _
      obtain ⟨j, spans, first, whole⟩ := exists_first_spans found
      have length : start + cs.length = j + 2 := by
        have beyond := spans.beyond
        rw [whole, spans.length_extract]
        omega
      have resumed := ih scanned.2 behind
      change Cuts text start ((start, start + cs.length) :: cutsFrom (start + cs.length) ps)
      rw [Piece.chars, length] at resumed
      rw [length]
      exact .piece le_rfl spans (fun i' _ here _ => here) first resumed

/-- What is cut out are the tokens. -/
theorem map_extract_cutsFrom {ps : List Piece} (h : text.drop start = ps.flatMap Piece.chars) :
    (cutsFrom start ps).map (fun p => text.extract p.1 p.2) = ps.filterMap Piece.token? := by
  induction ps generalizing start with
  | nil => rfl
  | cons p ps ih =>
    have behind := drop_behind h
    cases p with
    | plain c => exact ih behind
    | token cs =>
      have here : text.extract start (start + cs.length) = cs := by
        rw [List.extract_eq_take_drop, Nat.add_sub_cancel_left, h]
        exact List.take_left
      rw [cutsFrom, List.map_cons, here]
      exact congrArg (cs :: ·) (ih behind)

/-! ## What a scan leaves -/

theorem Cuts.unique (h : Cuts text start cuts) (h' : Cuts text start others) : cuts = others := by
  induction h generalizing others with
  | done none_left =>
    cases h' with
    | done => rfl
    | piece here spans => exact absurd spans (none_left _ _ here)
  | piece here spans leftmost shortest _ ih =>
    cases h' with
    | done none_left => exact absurd spans (none_left _ _ here)
    | piece here' spans' leftmost' shortest' resumed' =>
      obtain rfl := Nat.le_antisymm (leftmost _ _ here' spans') (leftmost' _ _ here spans)
      obtain rfl := Nat.le_antisymm (shortest _ spans') (shortest' _ spans)
      rw [ih resumed']

theorem Cuts.start_le (h : Cuts text start cuts) : ∀ p ∈ cuts, start ≤ p.1 := by
  induction h with
  | done => exact nofun
  | piece here spans _ _ _ ih =>
    refine List.forall_mem_cons.2 ⟨here, fun p mem => ?_⟩
    have beyond := spans.beyond
    have later := ih p mem
    omega

theorem Cuts.pairwise (h : Cuts text start cuts) : cuts.Pairwise fun p q => p.2 ≤ q.1 := by
  induction h with
  | done => exact .nil
  | piece _ _ _ _ resumed ih => exact .cons resumed.start_le ih

/-- Whatever starts like a token starts within a piece. -/
theorem Cuts.covers (h : Cuts text start cuts) (here : start ≤ i) (spans : Spans text i j) :
    ∃ p ∈ cuts, p.1 ≤ i ∧ i < p.2 := by
  induction h with
  | done none_left => exact absurd spans (none_left i j here)
  | @piece start i' j' rest _ _ leftmost _ _ ih =>
    by_cases within : i < j' + 2
    · exact ⟨_, List.mem_cons_self, leftmost i j here spans, within⟩
    · obtain ⟨p, mem, covers⟩ := ih (Nat.le_of_not_lt within)
      exact ⟨p, List.mem_cons_of_mem _ mem, covers⟩

/-- A span within a part of a text is one of the text. -/
theorem Spans.of_extract {a b : Nat} (h : Spans (text.extract a b) i j) :
    Spans text (a + i) (a + j) ∧ a + j + 2 ≤ b := by
  obtain ⟨opens, closes, beyond, inline⟩ := h
  rw [List.extract_eq_take_drop, List.drop_take, List.drop_drop, List.prefix_take_iff]
    at opens closes
  have inside : a + j + 2 ≤ b := by
    have := closes.2
    simp only [List.length_cons, List.length_nil] at this
    omega
  refine ⟨⟨opens.1, closes.1, by omega, ?_⟩, inside⟩
  have same : (text.extract a b).extract (i + 2) j = text.extract (a + i + 2) (a + j) := by
    have length : min (j - (i + 2)) (b - a - (i + 2)) = a + j - (a + i + 2) := by omega
    simp only [List.extract_eq_take_drop, List.drop_take, List.drop_drop, List.take_take, length,
      Nat.add_assoc]
  rwa [same] at inline

/-- Pieces leave nothing of a token behind, and have nothing but one token each. -/
structure CleanCuts (text : List Char) (cuts : List (Nat × Nat)) : Prop where
  /-- They do not overlap. -/
  apart : cuts.Pairwise fun p q => p.2 ≤ q.1
  /-- None goes beyond a line. -/
  inline : ∀ p ∈ cuts, ∀ c ∈ text.extract p.1 p.2, Text.isLineEnd c = false
  /-- None has closing braces before its end. -/
  closed_once : ∀ p ∈ cuts, ∀ part, part <+: text.extract p.1 p.2 →
    ['\x7d', '\x7d'] <:+ part → part = text.extract p.1 p.2
  /-- A text that shares nothing with them has no token. -/
  none_between : ∀ a b, (∀ p ∈ cuts, p.2 ≤ a ∨ b ≤ p.1) →
    ∀ i j, ¬ Spans (text.extract a b) i j

theorem Cuts.clean (h : Cuts text 0 cuts) (tokens : ∀ p ∈ cuts, IsToken (text.extract p.1 p.2)) :
    CleanCuts text cuts where
  apart := h.pairwise
  inline := fun p mem => (tokens p mem).inline
  closed_once := fun p mem _ starts closes => (tokens p mem).eq_of_closed_start starts closes
  none_between := by
    intro a b outside i j within
    -- What starts between the pieces would start within one of them.
    obtain ⟨spans, inside⟩ := within.of_extract
    obtain ⟨p, mem, before, after⟩ := h.covers (Nat.zero_le _) spans
    have beyond := spans.beyond
    rcases outside p mem with left | right <;> omega

/-- **Tokens are found by an exact scan.** The tokens of a text are, each once and by their first
occurrence, what the one scan from left to right cuts out of it. The pieces of this scan do not
overlap, none goes beyond a line or has closing braces before its end, and the text between them has
no token. -/
theorem tokens_of_scan (text : String) : ∃ cuts : List (Nat × Nat),
    (∀ others, Cuts text.toList 0 others ↔ others = cuts) ∧
    FirstOccurrences (cuts.map fun p => String.ofList (text.toList.extract p.1 p.2))
      (tokens text) ∧
    CleanCuts text.toList cuts := by
  have whole : text.toList.drop 0 = (pieces text.toList).flatMap Piece.chars :=
    (flatMap_chars_pieces _).symm
  have scanned := scanned_pieces text.toList
  have cut := cuts_cutsFrom scanned whole
  have found := map_extract_cutsFrom whole
  refine ⟨cutsFrom 0 (pieces text.toList), fun others => ⟨fun h => h.unique cut, fun h => h ▸ cut⟩,
    ?_, cut.clean fun p mem => ?_⟩
  · have drawn := congrArg (List.map String.ofList) found
    rw [List.map_map] at drawn
    rw [tokens, ← drawn]
    exact firstOccurrences_distinct _
  · have listed := List.mem_map_of_mem (f := fun p => text.toList.extract p.1 p.2) mem
    rw [found] at listed
    obtain ⟨_ | cs, inPieces, made⟩ := List.mem_filterMap.1 listed
    · cases made
    · obtain rfl := Option.some.inj made
      exact scanned.isToken inPieces

/-- Of three opening braces the first two open the token, and of three closing ones the first two
close it. -/
example : tokens "\x7b\x7b\x7ba\x7d\x7d\x7d" = ["\x7b\x7b\x7ba\x7d\x7d"] := by decide +kernel

end ClusterUpgrade.Plan
