import ClusterUpgrade.Log.Redaction
import Mathlib.Data.List.Infix

/-!
# Where the patterns of a log match

1. `maskFrom_of_absent`, `maskFrom_of_found`: a text that a pattern matches nowhere stays, and of
   one that it matches in a single place the match is masked and nothing else.
2. `EndedBy.absent_append`: a character that no match goes on to divides a text into parts that are
   matched on their own; `endedBy_bearer` and `endedBy_webToken` tell which characters do.
3. `credentials_append_slashes`: two slashes end the credentials that start before them.
4. `bearer_eq_none_of_no_blank`, `webToken_eq_none_of_short`, `webToken_eq_none_of_ne`: what a
   password cannot match.
-/

namespace ClusterUpgrade.Log

open Text (afterPiece?)

/-! ## Texts that are matched nowhere, and in one place -/

/-- A pattern matches nowhere in a text. -/
def Absent (p : Pattern) (s : List Char) : Prop := ∀ t, t <:+ s → p t = none

variable {p : Pattern} {s : List Char}

instance : Decidable (Absent p s) :=
  decidable_of_iff (∀ t ∈ s.tails, p t = none) (forall_congr' fun t => by rw [List.mem_tails])

theorem absent_nil : Absent p [] ↔ p [] = none := by
  simp only [Absent, List.suffix_nil, forall_eq]

theorem absent_cons {c : Char} : Absent p (c :: s) ↔ p (c :: s) = none ∧ Absent p s := by
  simp only [Absent, List.suffix_cons_iff, or_imp, forall_and, forall_eq]

theorem maskFrom_of_absent (h : Absent p s) : maskFrom p 0 s = s := by
  induction s with
  | nil => rfl
  | cons c s ih =>
    obtain ⟨none_here, rest⟩ := absent_cons.1 h
    rw [maskFrom, none_here]
    exact congrArg (c :: ·) (ih rest)

theorem maskFrom_length_append (found after : List Char) :
    maskFrom p found.length (found ++ after) = maskFrom p 0 after := by
  induction found with
  | nil => rfl
  | cons c found ih => exact ih

/-- What follows the only match of a text is matched nowhere. -/
theorem absent_of_found {before found after : List Char} (filled : found ≠ [])
    (once : ∀ t, t <:+ before ++ (found ++ after) → p t ≠ none → t = found ++ after) :
    Absent p after := by
  intro t ht
  by_contra matched
  have at_found : t = found ++ after :=
    once t (ht.trans ((List.suffix_append _ _).trans (List.suffix_append _ _))) matched
  have longer := ht.length_le
  rw [at_found, List.length_append] at longer
  have := List.length_pos_of_ne_nil filled
  omega

/-- The only match of a text is masked, and the rest stays. -/
theorem maskFrom_of_found {before found after : List Char} (filled : found ≠ [])
    (match_here : p (found ++ after) = some found.length)
    (once : ∀ t, t <:+ before ++ (found ++ after) → p t ≠ none → t = found ++ after) :
    maskFrom p 0 (before ++ (found ++ after)) = before ++ (maskedChars found ++ after) := by
  induction before with
  | nil =>
    obtain ⟨c, rest, rfl⟩ := List.exists_cons_of_ne_nil filled
    have untouched := maskFrom_of_absent (absent_of_found filled once)
    rw [List.nil_append, List.nil_append, List.cons_append, maskFrom, ← List.cons_append,
      match_here]
    dsimp only
    rw [List.take_left, List.length_cons, Nat.add_sub_cancel, maskFrom_length_append, untouched]
  | cons c before ih =>
    have none_here : p (c :: (before ++ (found ++ after))) = none := by
      by_contra matched
      have := congrArg List.length (once _ List.suffix_rfl matched)
      simp only [List.length_cons, List.length_append] at this
      omega
    have rest := ih fun t ht => once t (ht.trans (List.suffix_cons c _))
    rw [List.cons_append, maskFrom, none_here]
    exact congrArg (c :: ·) rest

/-! ## Characters that end a match -/

/-- No match of the pattern goes on to the character. -/
def EndedBy (p : Pattern) (stop : Char) : Prop := ∀ s rest, p (s ++ stop :: rest) = p s

/-- What is before such a character and what is after it are matched on their own. -/
theorem EndedBy.absent_append {stop : Char} (h : EndedBy p stop) (rest : List Char) :
    Absent p (s ++ stop :: rest) ↔ Absent p s ∧ Absent p rest := by
  induction s with
  | nil => rw [List.nil_append, absent_cons, absent_nil, ← h [] rest, List.nil_append]
  | cons c s ih =>
    rw [List.cons_append, absent_cons, ih, ← List.cons_append, h, absent_cons, and_assoc]

section Stop

variable {stop : Char} (rest : List Char)

theorem takeWhile_append_stop {q : Char → Bool} (h : q stop = false) (s : List Char) :
    (s ++ stop :: rest).takeWhile q = s.takeWhile q := by
  rw [List.takeWhile_append, List.takeWhile_cons_of_neg (Bool.eq_false_iff.1 h)]
  split
  · next whole => rw [List.append_nil, (List.takeWhile_prefix q).eq_of_length whole]
  · rfl

theorem dropWhile_append_stop {q : Char → Bool} (h : q stop = false) (s : List Char) :
    (s ++ stop :: rest).dropWhile q = s.dropWhile q ++ stop :: rest := by
  rw [List.dropWhile_append, List.dropWhile_cons_of_neg (Bool.eq_false_iff.1 h)]
  split
  · next none_left => rw [List.isEmpty_iff.1 none_left, List.nil_append]
  · rfl

theorem afterPiece?_append_stop {piece : List Char} (h : stop ∉ piece) (s : List Char) :
    afterPiece? piece (s ++ stop :: rest) = (afterPiece? piece s).map (· ++ stop :: rest) := by
  induction piece generalizing s with
  | nil => rfl
  | cons c piece ih =>
    obtain ⟨other, h⟩ := List.ne_and_not_mem_of_not_mem_cons h
    cases s with
    | nil => exact if_neg (Ne.symm other)
    | cons d s =>
      rw [List.cons_append, afterPiece?, afterPiece?, ih h]
      split <;> rfl

theorem afterWord?_append_stop {word : List Char} (h : Text.lowerLetter stop ∉ word)
    (s : List Char) :
    afterWord? word (s ++ stop :: rest) = (afterWord? word s).map (· ++ stop :: rest) := by
  induction word generalizing s with
  | nil => rfl
  | cons c word ih =>
    obtain ⟨other, h⟩ := List.ne_and_not_mem_of_not_mem_cons h
    cases s with
    | nil => exact if_neg (Ne.symm other)
    | cons d s =>
      rw [List.cons_append, afterWord?, afterWord?, ih h]
      split <;> rfl

end Stop

theorem endedBy_bearer {stop : Char} (word : Text.lowerLetter stop ∉ "bearer".toList)
    (blank : Text.isBlank stop = false) (run : isBearerChar stop = false) :
    EndedBy bearer stop := by
  intro s rest
  rw [bearer, bearer, afterWord?_append_stop rest word]
  cases afterWord? "bearer".toList s with
  | none => rfl
  | some after =>
    simp only [Option.map_some, Option.bind_eq_bind, Option.bind_some,
      takeWhile_append_stop rest blank, dropWhile_append_stop rest blank,
      takeWhile_append_stop rest run]

theorem endedBy_webToken {stop : Char} (first : stop ∉ "eyJ".toList)
    (second : stop ∉ ".eyJ".toList) (third : stop ∉ ".".toList) (run : isTokenChar stop = false) :
    EndedBy webToken stop := by
  intro s rest
  rw [webToken, webToken, afterPiece?_append_stop rest first]
  cases afterPiece? "eyJ".toList s with
  | none => rfl
  | some head =>
    simp only [Option.map_some, Option.bind_eq_bind, Option.bind_some,
      takeWhile_append_stop rest run, dropWhile_append_stop rest run,
      afterPiece?_append_stop rest second]
    cases afterPiece? ".eyJ".toList (head.dropWhile isTokenChar) with
    | none => rfl
    | some body =>
      simp only [Option.map_some, Option.bind_some, takeWhile_append_stop rest run,
        dropWhile_append_stop rest run, afterPiece?_append_stop rest third]
      cases afterPiece? ".".toList (body.dropWhile isTokenChar) with
      | none => rfl
      | some tail =>
        simp only [Option.map_some, Option.bind_some, takeWhile_append_stop rest run]

/-- A piece is looked for in as many characters as it has. -/
theorem afterPiece?_append_of_length {piece : List Char} (h : piece.length ≤ s.length)
    (rest : List Char) : afterPiece? piece (s ++ rest) = (afterPiece? piece s).map (· ++ rest) := by
  induction piece generalizing s with
  | nil => rfl
  | cons c piece ih =>
    cases s with
    | nil => cases h
    | cons d s =>
      rw [List.cons_append, afterPiece?, afterPiece?, ih (Nat.le_of_succ_le_succ h)]
      split <;> rfl

theorem credentials_eq_none_of_ne {c : Char} (h : '/' ≠ c) (s : List Char) :
    credentials (c :: s) = none := by
  have missed : afterPiece? "//".toList (c :: s) = none := if_neg h
  rw [credentials, missed]
  rfl

/-- One slash starts no credentials. -/
theorem credentials_slash_eq_none {c : Char} (h : '/' ≠ c) (s : List Char) :
    credentials ('/' :: c :: s) = none := by
  have missed : afterPiece? "//".toList ('/' :: c :: s) = none := (if_pos rfl).trans (if_neg h)
  rw [credentials, missed]
  rfl

/-- Credentials that start before two slashes do not go on to them. -/
theorem credentials_append_slashes (filled : s ≠ []) (rest : List Char) :
    credentials (s ++ '/' :: '/' :: rest) = credentials s := by
  by_cases long : 2 ≤ s.length
  · have user : isUserChar '/' = false := by decide
    have password : isPasswordChar '/' = false := by decide
    have colon : '/' ∉ ":".toList := by decide
    have at_sign : '/' ∉ "@".toList := by decide
    have two : "//".toList.length ≤ s.length := long
    rw [credentials, credentials, afterPiece?_append_of_length two]
    cases afterPiece? "//".toList s with
    | none => rfl
    | some address =>
      simp only [Option.map_some, Option.bind_eq_bind, Option.bind_some,
        takeWhile_append_stop _ user, dropWhile_append_stop _ user,
        afterPiece?_append_stop _ colon]
      cases afterPiece? ":".toList (address.dropWhile isUserChar) with
      | none => rfl
      | some secret =>
        simp only [Option.map_some, Option.bind_some, takeWhile_append_stop _ password,
          dropWhile_append_stop _ password, afterPiece?_append_stop _ at_sign, Option.bind_map]
        rfl
  · obtain ⟨c, rfl⟩ : ∃ c, s = [c] := by
      have := List.length_pos_of_ne_nil filled
      exact List.length_eq_one_iff.1 (by omega)
    by_cases slash : '/' = c
    · -- The match would start at the slash before the two, with no user name after the first.
      subst slash
      rfl
    · exact (credentials_eq_none_of_ne slash _).trans (credentials_eq_none_of_ne slash _).symm

theorem credentials_absent_cons {c : Char} (h : '/' ≠ c) (clear : Absent credentials s) :
    Absent credentials (c :: s) := by
  exact absent_cons.2 ⟨credentials_eq_none_of_ne h s, clear⟩

theorem credentials_absent_append {t : List Char} (h : ∀ c ∈ s, '/' ≠ c)
    (clear : Absent credentials t) : Absent credentials (s ++ t) := by
  induction s with
  | nil => exact clear
  | cons c s ih =>
    obtain ⟨first, rest⟩ := List.forall_mem_cons.1 h
    exact credentials_absent_cons first (ih rest)

/-! ## What is matched in a password -/

theorem suffix_of_afterWord? {word rest : List Char} (h : afterWord? word s = some rest) :
    rest <:+ s := by
  induction word generalizing s with
  | nil =>
    cases h
    exact List.suffix_rfl
  | cons c word ih =>
    cases s with
    | nil => cases h
    | cons d s =>
      rw [afterWord?] at h
      split at h
      · exact (ih h).trans (List.suffix_cons d s)
      · cases h

theorem bearer_eq_none_of_no_blank (h : ∀ c ∈ s, Text.isBlank c = false) : bearer s = none := by
  rw [bearer]
  cases hrest : afterWord? "bearer".toList s with
  | none => rfl
  | some rest =>
    have no_blanks : rest.takeWhile Text.isBlank = [] := by
      cases rest with
      | nil => rfl
      | cons c rest =>
        have first := h c ((suffix_of_afterWord? hrest).mem List.mem_cons_self)
        exact List.takeWhile_cons_of_neg (Bool.eq_false_iff.1 first)
    rw [Option.bind_eq_bind, Option.bind_some, no_blanks]
    rfl

/-- A web token has eight characters of its own. -/
theorem webToken_eq_none_of_short (h : s.length < 8) : webToken s = none := by
  by_contra matched
  simp only [webToken, Option.bind_eq_bind, ← Option.isSome_iff_ne_none, Option.isSome_iff_exists,
    Option.bind_eq_some_iff, Text.afterPiece?_eq_some_iff] at matched
  obtain ⟨-, head, rfl, body, hbody, tail, htail, -⟩ := matched
  have head_length := (List.dropWhile_suffix isTokenChar (l := head)).length_le
  have body_length := (List.dropWhile_suffix isTokenChar (l := body)).length_le
  rw [hbody] at head_length
  rw [htail] at body_length
  simp at h head_length body_length
  omega

theorem webToken_eq_none_of_ne {c : Char} (h : 'e' ≠ c) (s : List Char) :
    webToken (c :: s) = none := by
  have missed : afterPiece? "eyJ".toList (c :: s) = none := if_neg h
  rw [webToken, missed]
  rfl

end ClusterUpgrade.Log
