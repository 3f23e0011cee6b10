import ClusterUpgrade.Plan.Placeholder
import ClusterUpgrade.Proofs.Token
import ClusterUpgrade.Proofs.Topology

/-!
# Tokens replaced one after the other

Tokens are replaced in the whole text, one after the other. This is not always the same as replacing
each where it stands (`substituted`): a token also counts where it shows up in a value that has been
put in, or at the end of a token that has not been replaced.

1. `replaceToken_partly_iff`: one token. It is replaced just where it stands exactly when none of
   the gaps between its places has it.
2. `stages_iff`: all of them, one after the other.
3. `Apart.undisturbed`: a condition on the tokens and their values alone.
4. `replaceTokens_at_once`: the main statement.
-/

namespace ClusterUpgrade.Plan

/-! ## Replaced at once -/

/-- A piece with its token replaced by what it stands for. -/
def Piece.replaced (value? : String → Option String) : Piece → List Char
  | plain c => [c]
  | token cs => ((value? (String.ofList cs)).map String.toList).getD cs

/-- A text with every token replaced where it stands. -/
def substituted (value? : String → Option String) (text : String) : String :=
  String.ofList ((pieces text.toList).flatMap (Piece.replaced value?))

/-- A piece with its token replaced if that is one of `done`. -/
def Piece.shown (value? : String → Option String) (done : List String) : Piece → List Char
  | plain c => [c]
  | token cs => if String.ofList cs ∈ done then (token cs).replaced value? else cs

/-- A text with the tokens of `done` replaced where they stand. -/
def partly (value? : String → Option String) (done : List String) (text : String) : List Char :=
  (pieces text.toList).flatMap (Piece.shown value? done)

/-- What stands between the places of a token when the tokens of `done` have been replaced. -/
def gaps (value? : String → Option String) (done : List String) (text t : String) :
    List (List Char) :=
  ((pieces text.toList).splitOn (.token t.toList)).map (·.flatMap (Piece.shown value? done))

/-- No token shows up between its places when its turn comes, unless it stands for itself. -/
def Undisturbed (value? : String → Option String) (order : List String) (text : String) : Prop :=
  ∀ done t, done ++ [t] <+: order → ∀ v, value? t = some v →
    v = t ∨ ∀ gap ∈ gaps value? done text t, ¬ t.toList <:+: gap

/-- Tokens that cannot get in each other's way. -/
structure Apart (value? : String → Option String) (order : List String) : Prop where
  /-- No value opens a token. -/
  closed : ∀ t ∈ order, ∀ v ∈ value? t, ¬ Opens v.toList
  /-- No token ends with an earlier one that stands for something. -/
  longer_first : order.Pairwise fun t u => t.toList <:+ u.toList → value? t = none
  /-- A token that ends with another that stands for something stands for something as well. -/
  resolved : ∀ t ∈ order, ∀ u ∈ order, t ≠ u → t.toList <:+ u.toList →
    (value? t).isSome → (value? u).isSome

/-! ## Gaps -/

section Lists

variable {α β : Type}

theorem flatMap_intercalate (f : α → List β) (x : α) : ∀ parts : List (List α),
    ([x].intercalate parts).flatMap f = (f x).intercalate (parts.map (·.flatMap f))
  | [] => rfl
  | [part] => by simp
  | part :: next :: parts => by
    rw [List.intercalate_cons_cons, List.flatMap_append, List.flatMap_append,
      flatMap_intercalate f x (next :: parts), List.flatMap_singleton]
    simp only [List.map_cons, List.intercalate_cons_cons]

/-- The parts between the places of an item do not have it. -/
theorem splitOn_spec [DecidableEq α] (x : α) (xs : List α) :
    ∀ part ∈ xs.splitOn x, x ∉ part ∧ part <:+: xs := by
  induction hlen : xs.length using Nat.strong_induction_on generalizing xs with
  | h length ih =>
    by_cases mem : x ∈ xs
    · obtain ⟨first, rest, rfl, absent⟩ := List.eq_append_cons_of_mem mem
      rw [List.splitOn_append_cons_self_of_not_mem absent, List.forall_mem_cons]
      refine ⟨⟨absent, (List.prefix_append _ _).isInfix⟩, fun part hpart => ?_⟩
      have shorter : rest.length < length := by
        rw [← hlen, List.length_append, List.length_cons]
        omega
      obtain ⟨absent', within⟩ := ih _ shorter rest rfl part hpart
      exact ⟨absent', within.trans ((List.suffix_cons x rest).trans
        (List.suffix_append first _)).isInfix⟩
    · rw [List.splitOn_eq_singleton mem, List.forall_mem_singleton]
      exact ⟨mem, List.infix_rfl⟩

end Lists

variable {value? : String → Option String} {done order : List String} {text t v : String}

theorem shown_of_not_mem (h : t ∉ done) :
    Piece.shown value? done (.token t.toList) = t.toList := by
  rw [Piece.shown, String.ofList_toList, if_neg h]

theorem shown_of_mem (h : t ∈ done) (hv : value? t = some v) :
    Piece.shown value? done (.token t.toList) = v.toList := by
  rw [Piece.shown, String.ofList_toList, if_pos h, Piece.replaced, String.ofList_toList, hv]
  rfl

/-- One more token makes no difference to the other pieces. -/
theorem shown_snoc {p : Piece} (h : p ≠ .token t.toList) :
    Piece.shown value? (done ++ [t]) p = Piece.shown value? done p := by
  cases p with
  | plain c => rfl
  | token cs =>
    have other : String.ofList cs ≠ t := by
      rintro rfl
      exact h (by rw [String.toList_ofList])
    simp only [Piece.shown, List.mem_append, List.mem_singleton, other, or_false]

theorem gaps_snoc : gaps value? (done ++ [t]) text t = gaps value? done text t := by
  refine List.map_congr_left fun part mem => List.flatMap_congr fun p hp => shown_snoc ?_
  rintro rfl
  exact (splitOn_spec _ _ part mem).1 hp

/-- A text is its gaps with what is drawn for the token between each two. -/
theorem partly_eq_intercalate (done : List String) (text t : String) : partly value? done text =
    (Piece.shown value? done (.token t.toList)).intercalate (gaps value? done text t) := by
  rw [gaps, ← flatMap_intercalate, List.intercalate_splitOn, partly]

/-! ## One token -/

/-- A token is replaced just where it stands exactly when it does not show up anywhere else, or
stands for itself or for nothing. -/
theorem replaceToken_partly_iff (ht : IsToken t.toList) (turn : t ∉ done) :
    replaceToken value? (partly value? done text) t = partly value? (done ++ [t]) text ↔
      ∀ v, value? t = some v → v = t ∨ ∀ gap ∈ gaps value? done text t, ¬ t.toList <:+: gap := by
  cases hv : value? t with
  | none =>
    have same : partly value? (done ++ [t]) text = partly value? done text := by
      refine List.flatMap_congr fun p _ => ?_
      by_cases hp : p = .token t.toList
      · rw [hp, shown_of_not_mem turn, Piece.shown, String.ofList_toList, if_pos (by simp),
          Piece.replaced, String.ofList_toList, hv]
        rfl
      · exact shown_snoc hp
    rw [replaceToken, hv, same]
    exact ⟨fun _ => nofun, fun _ => rfl⟩
  | some v =>
    have here : t ∈ done ++ [t] := List.mem_append_right _ List.mem_cons_self
    rw [replaceToken, hv, partly_eq_intercalate done text t,
      partly_eq_intercalate (done ++ [t]) text t, shown_of_not_mem turn, shown_of_mem here hv,
      gaps_snoc]
    simp only [ht.unbordered.replaceAll_intercalate ht.ne_nil,
      Text.intercalate_map_replaceAll_eq_iff ht.ne_nil, String.toList_inj, Option.some.injEq,
      forall_eq']

/-! ## All tokens -/

theorem mem_tokens_iff : t ∈ tokens text ↔ .token t.toList ∈ pieces text.toList := by
  rw [tokens, mem_distinct, List.mem_map]
  constructor
  · rintro ⟨cs, hcs, rfl⟩
    obtain ⟨p, hp, htoken⟩ := List.mem_filterMap.1 hcs
    cases p with
    | plain c => cases htoken
    | token ds =>
      cases htoken
      rwa [String.toList_ofList]
  · intro h
    exact ⟨t.toList, List.mem_filterMap.2 ⟨_, h, rfl⟩, String.ofList_toList⟩

theorem isToken_of_mem_tokens (h : t ∈ tokens text) : IsToken t.toList :=
  (scanned_pieces text.toList).isToken (mem_tokens_iff.1 h)

theorem partly_nil : partly value? [] text = text.toList := by
  have plain : ∀ p ∈ pieces text.toList, Piece.shown value? [] p = p.chars := by
    rintro (c | cs) _
    · rfl
    · rw [Piece.shown, if_neg List.not_mem_nil, Piece.chars]
  rw [partly, List.flatMap_congr plain, flatMap_chars_pieces]

/-- Every token in its turn: each stage has the tokens so far replaced where they stand exactly when
none of them is disturbed. -/
theorem stages_iff (perm : order.Perm (tokens text)) :
    (∀ done, done <+: order →
      done.foldl (replaceToken value?) text.toList = partly value? done text) ↔
        Undisturbed value? order text := by
  have turn : ∀ {done t}, done ++ [t] <+: order → IsToken t.toList ∧ t ∉ done := by
    intro done t h
    refine ⟨isToken_of_mem_tokens (perm.mem_iff.1 (h.mem (by simp))), fun mem => ?_⟩
    have distinct := h.sublist.nodup (perm.nodup_iff.2 (nodup_distinct _))
    exact (List.nodup_append.1 distinct).2.2 t mem t (by simp) rfl
  constructor
  · intro stages done t h
    obtain ⟨ht, fresh⟩ := turn h
    have before := stages done ((List.prefix_append _ _).trans h)
    have after := stages (done ++ [t]) h
    rw [List.foldl_append, List.foldl_cons, List.foldl_nil, before] at after
    exact (replaceToken_partly_iff ht fresh).1 after
  · intro undisturbed done h
    induction done using List.reverseRecOn with
    | nil => exact partly_nil.symm
    | append_singleton done t ih =>
      obtain ⟨ht, fresh⟩ := turn h
      rw [List.foldl_append, List.foldl_cons, List.foldl_nil, ih ((List.prefix_append _ _).trans h)]
      exact (replaceToken_partly_iff ht fresh).2 (undisturbed done t h)

/-- When every token has had its turn, the text is replaced as at once. -/
theorem ofList_partly (perm : order.Perm (tokens text)) :
    String.ofList (partly value? order text) = substituted value? text := by
  refine congrArg String.ofList (List.flatMap_congr fun p mem => ?_)
  cases p with
  | plain c => rfl
  | token cs =>
    have listed : String.ofList cs ∈ tokens text := mem_tokens_iff.2 (by rwa [String.toList_ofList])
    rw [Piece.shown, if_pos (perm.mem_iff.2 listed)]

theorem Undisturbed.replaced_eq (h : Undisturbed value? order text)
    (perm : order.Perm (tokens text)) :
    String.ofList (order.foldl (replaceToken value?) text.toList) = substituted value? text := by
  rw [(stages_iff perm).2 h order List.prefix_rfl, ofList_partly perm]

/-! ## Tokens apart -/

namespace Apart

variable (apart : Apart value? order)

include apart

/-- What is drawn for a token is the token itself or a value, which opens none. -/
theorem shown_eq_or (earlier : done ⊆ order) (cs : List Char) :
    Piece.shown value? done (.token cs) = cs ∨ ¬ Opens (Piece.shown value? done (.token cs)) := by
  rw [Piece.shown]
  split
  · next replaced =>
    rw [Piece.replaced]
    cases hv : value? (String.ofList cs) with
    | none => exact Or.inl rfl
    | some v => exact Or.inr (apart.closed _ (earlier replaced) v hv)
  · exact Or.inl rfl

/-- A token that ends with another that stands for something has had its turn before that. -/
theorem earlier_of_suffix {u : String} {rest : List String} (horder : done ++ [t] ++ rest = order)
    (hv : value? t = some v) (mem : u ∈ order) (other : t ≠ u) (tail : t.toList <:+ u.toList) :
    u ∈ done ∧ ∃ w, value? u = some w := by
  have here : t ∈ order := by simp [← horder]
  refine ⟨?_, Option.isSome_iff_exists.1 (apart.resolved t here u mem other tail (hv ▸ rfl))⟩
  rw [← horder, List.mem_append, List.mem_append, List.mem_singleton] at mem
  rcases mem with (earlier | rfl) | later
  · exact earlier
  · exact absurd rfl other
  · have first := apart.longer_first
    rw [← horder, List.append_assoc, List.pairwise_append] at first
    have unresolved := (List.pairwise_cons.1 first.2.1).1 u later tail
    rw [hv] at unresolved
    cases unresolved

/-- Tokens that are apart are not disturbed, in whatever order they have their turns. -/
theorem undisturbed (perm : order.Perm (tokens text)) : Undisturbed value? order text := by
  intro done t ⟨rest, horder⟩ v hv
  refine Or.inr fun gap mem occurs => ?_
  obtain ⟨part, hpart, rfl⟩ := List.mem_map.1 mem
  obtain ⟨absent, within⟩ := splitOn_spec _ _ part hpart
  have here : t ∈ order := by simp [← horder]
  have before : done ⊆ order := fun u hu => by simp [← horder, hu]
  obtain ⟨cs, found, drawn, tail⟩ := exists_token_of_occurs (fun _ => rfl)
    ((scanned_pieces _).of_within within) (isToken_of_mem_tokens (perm.mem_iff.1 here))
    (fun cs _ => apart.shown_eq_or before cs) occurs
  obtain ⟨u, rfl⟩ : ∃ u : String, cs = u.toList := ⟨String.ofList cs, String.toList_ofList.symm⟩
  have there : u ∈ tokens text := mem_tokens_iff.2 (within.subset found)
  have other : t ≠ u := by
    rintro rfl
    exact absent found
  -- The token in the gap has been replaced, but it is still drawn as itself, which opens a token.
  obtain ⟨earlier, w, hw⟩ :=
    apart.earlier_of_suffix horder hv (perm.mem_iff.2 there) other tail
  have closed := apart.closed u (perm.mem_iff.2 there) w hw
  rw [← shown_of_mem earlier hw, drawn] at closed
  exact closed (opens_of_within (isToken_of_mem_tokens there) List.infix_rfl)

end Apart

/-- **Tokens are replaced one after the other.** Each stage of this has the tokens so far replaced
where they stand, and nothing else, exactly when no token is disturbed; then the result is the text
with all its tokens replaced at once. Tokens that are apart are not disturbed, and the order of
their turns does not matter. -/
theorem replaceTokens_at_once (run : UpgradeRun) (site : Site) (scope : Option TextScope)
    (text : String) :
    let value? := tokenValue? run site scope
    ((∀ done, done <+: tokens text →
      done.foldl (replaceToken value?) text.toList = partly value? done text) ↔
        Undisturbed value? (tokens text) text) ∧
    (Undisturbed value? (tokens text) text →
      replaceTokens run site scope text = substituted value? text) ∧
    ∀ order, order.Perm (tokens text) → Apart value? order →
      String.ofList (order.foldl (replaceToken value?) text.toList) = substituted value? text := by
  intro value?
  exact ⟨stages_iff (.refl _), fun undisturbed => undisturbed.replaced_eq (.refl _),
    fun order perm apart => (apart.undisturbed perm).replaced_eq perm⟩

/-- A run of one service. -/
def zookeeperRun : UpgradeRun :=
  .ofServices .upgrade .rolling .complete ⟨"2.3.0.0", ⟨"HDP", "2.3"⟩⟩ .empty .empty ["ZOOKEEPER"]

/-- A text with two tokens that stand for something and one that does not. -/
def tickTimeText : String :=
  "Moving to " ++ braced "version" ++ ", tick time " ++ braced "zoo.cfg/tickTime" ++ ", " ++
    braced "unknown"

theorem replaceTokens_at_once_tickTime :
    let value? := tokenValue? zookeeperRun Topology.sharedSite.site none
    let replaced := "Moving to 2.3.0.0, tick time 2000, " ++ braced "unknown"
    Undisturbed value? (tokens tickTimeText) tickTimeText ∧
      replaceTokens zookeeperRun Topology.sharedSite.site none tickTimeText = replaced ∧
      Apart value? (tokens tickTimeText).reverse ∧
      String.ofList ((tokens tickTimeText).reverse.foldl (replaceToken value?)
        tickTimeText.toList) = replaced := by
  intro value? replaced
  have apart : Apart value? (tokens tickTimeText) :=
    ⟨by decide +kernel, by decide +kernel, by decide +kernel⟩
  have apart' : Apart value? (tokens tickTimeText).reverse :=
    ⟨by decide +kernel, by decide +kernel, by decide +kernel⟩
  have undisturbed := apart.undisturbed (.refl _)
  have result : substituted value? tickTimeText = replaced := by decide +kernel
  obtain ⟨-, at_once, any_order⟩ :=
    replaceTokens_at_once zookeeperRun Topology.sharedSite.site none tickTimeText
  exact ⟨undisturbed, (at_once undisturbed).trans result, apart',
    (any_order _ (List.reverse_perm _) apart').trans result⟩

/-- A text whose last token stands for nothing and ends with one that stands for the version. -/
def unresolvedText : String := braced "version" ++ " " ++ braced "x\x7b\x7bversion"

/-- A topology with a property that looks like a token. -/
def quotingSite : Topology := { Topology.sharedSite with
  configurations := [⟨"zoo.cfg", "ZOOKEEPER", "version1", .ofList [("note", braced "version")]⟩] }

/-- A text with that property before the token that it looks like. -/
def quotingText : String := braced "zoo.cfg/note" ++ " " ++ braced "version"

/-- A token that stands for nothing is changed, and so is a value that looks like a token. -/
theorem tokens_disturbed :
    replaceTokens zookeeperRun quotingSite.site none unresolvedText ≠
        substituted (tokenValue? zookeeperRun quotingSite.site none) unresolvedText ∧
      replaceTokens zookeeperRun quotingSite.site none quotingText ≠
        substituted (tokenValue? zookeeperRun quotingSite.site none) quotingText := by
  decide +kernel

end ClusterUpgrade.Plan
