import ClusterUpgrade.Proofs.Redaction.Patterns
import ClusterUpgrade.Proofs.Units

/-!
# What a log shows of a password in a URL

A mask keeps the ends of a whole match, `//user:password@`, and not those of the password. So what
is hidden depends on the lengths of both. In a text that has nothing else to mask:

1. `Address.alone_iff`: whether something else is matched depends on the password only as far as
   the password itself holds a web token.
2. `Address.maskedPatterns_text`: the credentials are masked and the rest stays.
3. `Address.maskedChars_found_of_short`: a password of up to three units is shown as it is, unless
   the credentials have fewer than ten.
4. `Address.other_password_iff`: the log leaves open which password it was exactly when the password
   has at least four units or the credentials have fewer than ten.
-/

namespace ClusterUpgrade.Log

open Text (units width unitsOf takeUnits dropUnits afterPiece?)

/-! ## Texts with credentials -/

/-- A password that a URL can have. -/
@[ext]
structure Password where
  text : String
  filled : text ≠ ""
  allowed : ∀ c ∈ text.toList, isPasswordChar c = true

/-- A text with a URL that has credentials, but for the password. -/
structure Address where
  before : String
  user : String
  after : String
  filled : user ≠ ""
  allowed : ∀ c ∈ user.toList, isUserChar c = true

/-- How many units a password takes. -/
def Password.units (secret : Password) : Nat := Text.units secret.text.toList

theorem Password.toList_ne_nil (secret : Password) : secret.text.toList ≠ [] :=
  mt String.toList_eq_nil_iff.1 secret.filled

theorem Password.ne_slash (secret : Password) : ∀ c ∈ secret.text.toList, '/' ≠ c := by
  rintro c hc rfl
  exact absurd (secret.allowed _ hc) (by decide)

theorem Password.bearer_absent (secret : Password) : Absent bearer secret.text.toList := by
  intro t ht
  refine bearer_eq_none_of_no_blank fun c hc => ?_
  have allowed := secret.allowed c (ht.mem hc)
  simp only [isPasswordChar, Bool.not_eq_true', Bool.or_eq_false_iff] at allowed
  exact allowed.2

theorem Password.webToken_absent {secret : Password} (short : secret.units ≤ 3) :
    Absent webToken secret.text.toList := by
  intro t ht
  have length := (ht.length_le).trans (Text.length_le_units _)
  exact webToken_eq_none_of_short (length.trans short |>.trans_lt (by decide))

namespace Address

variable (address : Address) (secret : Password)

theorem user_ne_nil : address.user.toList ≠ [] := mt String.toList_eq_nil_iff.1 address.filled

theorem user_ne_slash : ∀ c ∈ address.user.toList, '/' ≠ c := by
  rintro c hc rfl
  exact absurd (address.allowed _ hc) (by decide)

/-- The text with a password. -/
def text : String :=
  address.before ++ "//" ++ address.user ++ ":" ++ secret.text ++ "@" ++ address.after

/-- The credentials of the text, up to the password. -/
def lead : List Char := '/' :: '/' :: (address.user.toList ++ [':'])

/-- The credentials of the text. -/
def found : List Char := address.lead ++ (secret.text.toList ++ ['@'])

theorem found_ne_nil : address.found secret ≠ [] := List.cons_ne_nil _ _

theorem toList_text : (address.text secret).toList =
    address.before.toList ++ (address.found secret ++ address.after.toList) := by
  simp [text, found, lead, String.toList_append]

theorem toList_text_eq_slashes : (address.text secret).toList =
    address.before.toList ++ '/' :: ([] ++ '/' :: (address.user.toList ++
      ':' :: (secret.text.toList ++ '@' :: address.after.toList))) := by
  simp [text, String.toList_append]

theorem units_lead : units address.lead = units address.user.toList + 3 := by
  simp [lead, width]
  omega

theorem units_found :
    units (address.found secret) = units address.user.toList + secret.units + 4 := by
  simp [found, units_lead, Password.units, width]
  omega

theorem user_units_pos : 0 < units address.user.toList := by
  exact (List.length_pos_of_ne_nil address.user_ne_nil).trans_le (Text.length_le_units _)

/-- The credentials are what the patterns match in the text, and all that they match. -/
structure Alone : Prop where
  no_bearer : Absent bearer (address.text secret).toList
  no_token : Absent webToken (address.text secret).toList
  once : ∀ t, t <:+ (address.text secret).toList → credentials t ≠ none →
    t = address.found secret ++ address.after.toList

theorem credentials_found :
    credentials (address.found secret ++ address.after.toList) =
      some (address.found secret).length := by
  have no_colon : isUserChar ':' = false := by decide
  have no_at_sign : isPasswordChar '@' = false := by decide
  have shape : address.found secret ++ address.after.toList =
      "//".toList ++ (address.user.toList ++
        ':' :: (secret.text.toList ++ '@' :: address.after.toList)) := by
    simp [found, lead]
  have slashes := Text.afterPiece?_eq_some_iff.2 shape
  have colon (rest : List Char) : afterPiece? ":".toList (':' :: rest) = some rest := rfl
  have at_sign (rest : List Char) : afterPiece? "@".toList ('@' :: rest) = some rest := rfl
  rw [credentials, slashes]
  simp only [Option.bind_eq_bind, Option.bind_some, List.takeWhile_append_of_pos address.allowed,
    List.dropWhile_append_of_pos address.allowed, List.takeWhile_append_of_pos secret.allowed,
    List.dropWhile_append_of_pos secret.allowed, List.takeWhile_cons, List.dropWhile_cons, no_colon,
    no_at_sign, colon, at_sign, Bool.false_eq_true, if_false, List.append_nil, List.isEmpty_iff,
    address.user_ne_nil, secret.toList_ne_nil, or_self]
  simp [found, lead]
  omega

/-- Nothing is matched from within the credentials, where no two slashes stand together. -/
theorem absent_within (clear : Absent credentials address.after.toList) :
    Absent credentials (address.found secret ++ address.after.toList).tail := by
  have from_at_sign := credentials_absent_cons (by decide : '/' ≠ '@') clear
  have from_password := credentials_absent_append secret.ne_slash from_at_sign
  have from_colon := credentials_absent_cons (by decide : '/' ≠ ':') from_password
  have from_user := credentials_absent_append address.user_ne_slash from_colon
  have shape : (address.found secret ++ address.after.toList).tail = '/' ::
      (address.user.toList ++ ':' :: (secret.text.toList ++ '@' :: address.after.toList)) := by
    simp [found, lead]
  rw [shape]
  refine absent_cons.2 ⟨?_, from_user⟩
  obtain ⟨c, rest, hc⟩ := List.exists_cons_of_ne_nil address.user_ne_nil
  rw [hc]
  exact credentials_slash_eq_none (address.user_ne_slash c (hc ▸ List.mem_cons_self)) _

theorem once_iff : (∀ t, t <:+ (address.text secret).toList → credentials t ≠ none →
      t = address.found secret ++ address.after.toList) ↔
    Absent credentials address.before.toList ∧ Absent credentials address.after.toList := by
  rw [toList_text]
  constructor
  · intro once
    refine ⟨fun t ht => ?_, absent_of_found (address.found_ne_nil secret) once⟩
    by_contra matched
    have filled : t ≠ [] := by
      rintro rfl
      exact matched rfl
    obtain ⟨u, hu⟩ := ht
    have matched_whole : credentials (t ++ (address.found secret ++ address.after.toList)) ≠ none :=
      (credentials_append_slashes filled _).trans_ne matched
    have at_found := once _ ⟨u, by rw [← List.append_assoc, hu]⟩ matched_whole
    exact filled (List.append_left_eq_self.1 at_found)
  · rintro ⟨before, after⟩ t ht matched
    rcases List.suffix_or_suffix_of_suffix ht (List.suffix_append _ _) with within | ⟨u, rfl⟩
    · rcases List.suffix_cons_iff.1 within with whole | inside
      · exact whole
      · exact absurd (address.absent_within secret after t inside) matched
    · obtain ⟨v, hv⟩ := ht
      rw [← List.append_assoc] at hv
      have hu : u <:+ address.before.toList := ⟨v, List.append_cancel_right hv⟩
      by_contra other
      have filled : u ≠ [] := by
        rintro rfl
        exact other rfl
      exact matched ((credentials_append_slashes filled _).trans (before u hu))

/-- A pattern that goes on neither to a slash nor to a colon or an at sign is matched in the parts
of the text alone. -/
theorem absent_text_iff {p : Pattern} (slash : EndedBy p '/') (colon : EndedBy p ':')
    (at_sign : EndedBy p '@') (nowhere : p [] = none) : Absent p (address.text secret).toList ↔
      Absent p address.before.toList ∧ Absent p address.user.toList ∧
        Absent p secret.text.toList ∧ Absent p address.after.toList := by
  have none_in_nil : Absent p [] := absent_nil.2 nowhere
  simp only [toList_text_eq_slashes, slash.absent_append, colon.absent_append,
    at_sign.absent_append, none_in_nil, true_and]

/-- What else is matched in the text depends on the password by the tokens in it only. -/
theorem alone_iff : address.Alone secret ↔
    (Absent bearer address.before.toList ∧ Absent bearer address.user.toList ∧
      Absent bearer address.after.toList) ∧
    (Absent webToken address.before.toList ∧ Absent webToken address.user.toList ∧
      Absent webToken secret.text.toList ∧ Absent webToken address.after.toList) ∧
    (Absent credentials address.before.toList ∧ Absent credentials address.after.toList) := by
  have bearer_iff := address.absent_text_iff secret
    (endedBy_bearer (by decide) (by decide) (by decide))
    (endedBy_bearer (by decide) (by decide) (by decide))
    (endedBy_bearer (by decide) (by decide) (by decide)) rfl
  have token_iff := address.absent_text_iff secret
    (endedBy_webToken (by decide) (by decide) (by decide) (by decide))
    (endedBy_webToken (by decide) (by decide) (by decide) (by decide))
    (endedBy_webToken (by decide) (by decide) (by decide) (by decide)) rfl
  have once_iff := address.once_iff secret
  constructor
  · intro h
    obtain ⟨before, user, -, after⟩ := bearer_iff.1 h.no_bearer
    exact ⟨⟨before, user, after⟩, token_iff.1 h.no_token, once_iff.1 h.once⟩
  · rintro ⟨⟨before, user, after⟩, tokens, others⟩
    have bearers := bearer_iff.2 ⟨before, user, secret.bearer_absent, after⟩
    exact ⟨bearers, token_iff.2 tokens, once_iff.2 others⟩

instance : Decidable (address.Alone secret) := decidable_of_iff' _ (address.alone_iff secret)

variable {address secret}

theorem Alone.of_token_absent {other : Password} (alone : address.Alone secret)
    (clear : Absent webToken other.text.toList) : address.Alone other := by
  obtain ⟨bearers, ⟨before, user, -, after⟩, once⟩ := (address.alone_iff secret).1 alone
  exact (address.alone_iff other).2 ⟨bearers, ⟨before, user, clear, after⟩, once⟩

/-! ### What is shown -/

theorem maskedPatterns_text (alone : address.Alone secret) :
    maskedPatterns (address.text secret) = String.ofList (address.before.toList ++
      (maskedChars (address.found secret) ++ address.after.toList)) := by
  have once := alone.once
  rw [toList_text] at once
  rw [maskedPatterns, maskFrom_of_absent alone.no_bearer, maskFrom_of_absent alone.no_token,
    toList_text, maskFrom_of_found (address.found_ne_nil secret) (address.credentials_found secret)
      once]

theorem maskedPatterns_text_eq_iff {other : Password} (alone : address.Alone secret)
    (alone' : address.Alone other) :
    maskedPatterns (address.text other) = maskedPatterns (address.text secret) ↔
      maskedChars (address.found other) = maskedChars (address.found secret) := by
  rw [maskedPatterns_text alone, maskedPatterns_text alone', String.ofList_inj,
    List.append_cancel_left_eq, List.append_cancel_right_eq]

theorem maskedChars_found_of_few (few : units address.user.toList + secret.units < 6) :
    maskedChars (address.found secret) = redactedMark.toList := by
  rw [maskedChars, units_found, if_pos (by omega)]

theorem maskedChars_found_of_many (many : 6 ≤ units address.user.toList + secret.units) :
    maskedChars (address.found secret) = takeUnits 4 address.lead ++ "...".toList ++
      dropUnits (units address.user.toList + secret.units) (address.found secret) := by
  have lead : 4 ≤ units address.lead := by
    have := address.user_units_pos
    rw [units_lead]
    omega
  rw [maskedChars, units_found, if_neg (by omega), Nat.add_sub_cancel, found,
    Text.takeUnits_append lead]

/-- A mask that keeps four units at the end, one of them for `@`, keeps a password of three. -/
theorem maskedChars_found_of_short (short : secret.units ≤ 3)
    (many : 6 ≤ units address.user.toList + secret.units) :
    maskedChars (address.found secret) = takeUnits 4 address.lead ++ "...".toList ++
      (dropUnits (units address.user.toList + secret.units) address.lead ++
        (secret.text.toList ++ ['@'])) := by
  have within : units address.user.toList + secret.units ≤ units address.lead := by
    rw [units_lead]
    omega
  rw [maskedChars_found_of_many many, found, Text.dropUnits_append within]

end Address

/-! ## Another password -/

theorem isPasswordChar_of_wide {c : Char} (wide : 0x10000 ≤ c.toNat) : isPasswordChar c = true := by
  have narrow_blanks : (Text.blanks.all fun b => b.toNat < 0x10000) = true := by decide
  have blank : Text.isBlank c = false := by
    rw [Text.isBlank, List.contains_eq_mem, decide_eq_false_iff_not]
    intro h
    have narrow := of_decide_eq_true (List.all_eq_true.1 narrow_blanks c h)
    omega
  have slash : c ≠ '/' := by
    rintro rfl
    exact absurd wide (by decide)
  have at_sign : c ≠ '@' := by
    rintro rfl
    exact absurd wide (by decide)
  simp [isPasswordChar, blank, slash, at_sign]

/-- A character that may take the place of one at the start of a password: it differs in the first
unit only, and starts no web token. -/
theorem exists_other_char (c : Char) : ∃ d, d ≠ c ∧ isPasswordChar d = true ∧ width d = width c ∧
    (unitsOf d).tail = (unitsOf c).tail ∧ 'e' ≠ d := by
  by_cases narrow : c.toNat < 0x10000
  · have of_narrow (d : Char) (hd : d.toNat < 0x10000) :
        width d = width c ∧ (unitsOf d).tail = (unitsOf c).tail := by
      simp only [width, unitsOf, if_pos narrow, if_pos hd, List.tail_cons, and_self]
    obtain ⟨d, ne, allowed, no_token, hd⟩ :
        ∃ d, d ≠ c ∧ isPasswordChar d = true ∧ 'e' ≠ d ∧ d.toNat < 0x10000 := by
      by_cases mark : c = '!'
      · exact ⟨'#', by rw [mark]; decide, by decide, by decide, by decide⟩
      · exact ⟨'!', Ne.symm mark, by decide, by decide, by decide⟩
    exact ⟨d, ne, allowed, (of_narrow d hd).1, (of_narrow d hd).2, no_token⟩
  · -- The character with the next high surrogate, or with the one before, has the same low one.
    have valid := Text.toNat_valid c
    obtain ⟨n, ne, low, high, same⟩ : ∃ n, n ≠ c.toNat ∧ 0x10000 ≤ n ∧ n < 0x110000 ∧
        (n - 0x10000) % 0x400 = (c.toNat - 0x10000) % 0x400 := by
      by_cases last : c.toNat + 0x400 < 0x110000
      · exact ⟨c.toNat + 0x400, by omega, by omega, last, by omega⟩
      · exact ⟨c.toNat - 0x400, by omega, by omega, by omega, by omega⟩
    have code : (Char.ofNat n).toNat = n := by
      have scalar : n.isValidChar := Or.inr ⟨by omega, high⟩
      rw [Char.ofNat, dif_pos scalar]
      rfl
    refine ⟨Char.ofNat n, ?_, isPasswordChar_of_wide (code.symm ▸ low), ?_, ?_, ?_⟩
    · exact fun h => ne (code.symm.trans (congrArg Char.toNat h))
    · simp only [width, code, if_neg narrow, if_neg (Nat.not_lt.2 low)]
    · simp only [unitsOf, code, if_neg narrow, if_neg (Nat.not_lt.2 low), List.tail_cons, same]
    · exact fun h => absurd (code.symm.trans (congrArg Char.toNat h).symm) (by
        have : 'e'.toNat = 101 := rfl
        omega)

/-- Passwords of one length that differ in their first unit only. -/
theorem Password.exists_other (secret : Password) : ∃ (other : Password) (c d : Char)
    (rest : List Char), secret.text.toList = c :: rest ∧ other.text.toList = d :: rest ∧ d ≠ c ∧
      width d = width c ∧ (unitsOf d).tail = (unitsOf c).tail ∧ 'e' ≠ d := by
  obtain ⟨c, rest, hc⟩ := List.exists_cons_of_ne_nil secret.toList_ne_nil
  obtain ⟨d, ne, allowed, same⟩ := exists_other_char c
  have rest_allowed : ∀ e ∈ rest, isPasswordChar e = true := fun e he =>
    secret.allowed e (hc ▸ List.mem_cons_of_mem c he)
  have filled : String.ofList (d :: rest) ≠ "" := by
    rw [Ne, ← String.toList_eq_nil_iff, String.toList_ofList]
    exact List.cons_ne_nil d rest
  have all_allowed : ∀ e ∈ (String.ofList (d :: rest)).toList, isPasswordChar e = true := by
    rw [String.toList_ofList]
    exact List.forall_mem_cons.2 ⟨allowed, rest_allowed⟩
  exact ⟨⟨String.ofList (d :: rest), filled, all_allowed⟩, c, d, rest, hc, String.toList_ofList,
    ne, same⟩

namespace Address

variable {address : Address} {secret : Password}

/-- A password that is shown as it is can be no other. -/
theorem eq_of_shown (alone : address.Alone secret) (short : secret.units ≤ 3)
    (many : 6 ≤ units address.user.toList + secret.units) {other : Password}
    (same_units : other.units = secret.units)
    (same_text : maskedPatterns (address.text other) = maskedPatterns (address.text secret)) :
    other = secret := by
  have alone' := alone.of_token_absent (Password.webToken_absent (same_units.trans_le short))
  rw [maskedPatterns_text_eq_iff alone alone', maskedChars_found_of_short short many,
    maskedChars_found_of_short (same_units.trans_le short) (same_units ▸ many), same_units,
    List.append_cancel_left_eq, List.append_cancel_left_eq, List.append_cancel_right_eq]
    at same_text
  exact Password.ext (String.toList_inj.1 same_text)

/-- A password whose first unit is hidden may have another one there. -/
theorem exists_other (alone : address.Alone secret)
    (hidden : 4 ≤ secret.units ∨ units address.user.toList + secret.units < 6) :
    ∃ other : Password, other ≠ secret ∧ other.units = secret.units ∧
      maskedPatterns (address.text other) = maskedPatterns (address.text secret) := by
  obtain ⟨other, c, d, rest, hsecret, hother, ne, same_width, tails, no_token⟩ :=
    secret.exists_other
  have same_units : other.units = secret.units := by
    rw [Password.units, Password.units, hother, hsecret, Text.units_cons, Text.units_cons,
      same_width]
  have clear : Absent webToken other.text.toList := by
    have tokens := ((address.alone_iff secret).1 alone).2.1.2.2.1
    rw [hsecret] at tokens
    rw [hother]
    exact absent_cons.2 ⟨webToken_eq_none_of_ne no_token rest, (absent_cons.1 tokens).2⟩
  refine ⟨other, ?_, same_units, ?_⟩
  · rintro rfl
    rw [hsecret, List.cons.injEq] at hother
    exact ne hother.1.symm
  rw [maskedPatterns_text_eq_iff alone (alone.of_token_absent clear)]
  by_cases few : units address.user.toList + secret.units < 6
  · rw [maskedChars_found_of_few few, maskedChars_found_of_few (same_units ▸ few)]
  · -- The last four units start after the first one of the password.
    have past : units address.lead < units address.user.toList + secret.units := by
      rw [units_lead]
      omega
    rw [maskedChars_found_of_many (by omega), maskedChars_found_of_many (by omega), same_units,
      found, found, hsecret, hother, List.cons_append, List.cons_append,
      Text.dropUnits_append_cons past tails]

/-- **What a log tells of a password in a URL.** In a text where nothing else is masked, another
password of the same length shows in the same way if and only if the password has at least four
units or the credentials have fewer than ten: otherwise the password is shown as it is. -/
theorem other_password_iff (alone : address.Alone secret) :
    (∃ other : Password, other ≠ secret ∧ other.units = secret.units ∧
      maskedPatterns (address.text other) = maskedPatterns (address.text secret)) ↔
    4 ≤ secret.units ∨ units address.user.toList + secret.units < 6 := by
  constructor
  · rintro ⟨other, ne, same_units, same_text⟩
    by_contra shown
    obtain ⟨short, many⟩ := not_or.1 shown
    exact ne (eq_of_shown alone (by omega) (by omega) same_units same_text)
  · exact exists_other alone

/-- The address of a database. -/
def database : Address :=
  ⟨"jdbc:mysql:", "root", "db1:3306/hive", by decide, List.all_eq_true.1 (by decide)⟩

/-- A password of eleven units. -/
def testSecret : Password := ⟨"test-secret", by decide, List.all_eq_true.1 (by decide)⟩

/-- A password of three units. -/
def abc : Password := ⟨"abc", by decide, List.all_eq_true.1 (by decide)⟩

/-- Nobody can tell from the log which password of eleven units it was. -/
theorem other_password_testSecret :
    database.Alone testSecret ∧
    ∃ other : Password, other ≠ testSecret ∧ other.units = testSecret.units ∧
      maskedPatterns (database.text other) = maskedPatterns (database.text testSecret) := by
  have alone : database.Alone testSecret := by decide +kernel
  exact ⟨alone, (other_password_iff alone).2 (Or.inl (by decide +kernel))⟩

/-- A password of three units is read off the log. -/
theorem password_shown :
    database.Alone abc ∧
    maskedPatterns (database.text abc) = "jdbc:mysql://ro...abc@db1:3306/hive" ∧
    ¬ ∃ other : Password, other ≠ abc ∧ other.units = abc.units ∧
      maskedPatterns (database.text other) = maskedPatterns (database.text abc) := by
  have alone : database.Alone abc := by decide +kernel
  refine ⟨alone, by decide +kernel, ?_⟩
  rintro ⟨other, ne, same_units, same_text⟩
  exact ne (eq_of_shown alone (by decide +kernel) (by decide +kernel) same_units same_text)

end Address

end ClusterUpgrade.Log
