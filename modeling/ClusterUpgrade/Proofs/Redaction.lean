import ClusterUpgrade.Log.Layout
import ClusterUpgrade.Proofs.Record
import ClusterUpgrade.Proofs.Units
import Mathlib.Data.List.DropRight
import Mathlib.Data.List.Forall2

/-!
# What a log shows of secrets

Contexts that differ under sensitive keys only are written alike, as long as the values there are
masked alike: both by the mask alone, or by the same ends (`MaskedAlike`).

1. `MaskedAlike.maskedValue_eq`: what a sensitive key shows of a value.
2. `Alike.redacted_eq`, with its forms for items and fields: what any value shows, at any depth.
3. `AlikeContexts.overlay`, `AlikeContexts.nested`: contexts that are put into each other stay
   alike.
4. `same_lines_of_alike`: no line of a log tells the contexts apart.
-/

namespace ClusterUpgrade.Log

/-! ## Values that are masked alike -/

/-- Whether the value of a sensitive key shows as the mark alone: it is a text of fewer than ten
units, or neither a text nor null. -/
def isMarked : Document → Bool
  | .text s => Text.units s.toList < 10
  | .null => false
  | _ => true

/-- The units of a text. -/
def unitsOfText (s : String) : List Nat := s.toList.flatMap Text.unitsOf

/-- Values that a sensitive key may have in two logs. -/
inductive MaskedAlike : Document → Document → Prop
  | same (d : Document) : MaskedAlike d d
  | marked {d e : Document} : isMarked d = true → isMarked e = true → MaskedAlike d e
  | ends {s t : String} : 10 ≤ (unitsOfText s).length → 10 ≤ (unitsOfText t).length →
      (unitsOfText s).take 4 = (unitsOfText t).take 4 →
      (unitsOfText s).rtake 4 = (unitsOfText t).rtake 4 → MaskedAlike (.text s) (.text t)

theorem maskedValue_of_isMarked {d : Document} (h : isMarked d = true) :
    maskedValue d = .text redactedMark := by
  cases d with
  | text s =>
    have short : Text.units s.toList < 10 := of_decide_eq_true h
    rw [maskedValue, masked, maskedChars, if_pos short, String.ofList_toList, ite_self]
  | null => cases h
  | _ => rfl

/-- A long text shows its first and its last four units. -/
theorem maskedValue_of_long {s : String} (h : 10 ≤ (unitsOfText s).length) :
    maskedValue (.text s) = .text (String.ofList
      (Text.ofCodes ((unitsOfText s).take 4) ++ "...".toList ++
        Text.ofCodes ((unitsOfText s).rtake 4))) := by
  have length : (unitsOfText s).length = Text.units s.toList := Text.length_flatMap_unitsOf _
  have filled : s ≠ "" := by
    rintro rfl
    exact absurd h (by decide)
  have long : ¬ Text.units s.toList < 10 := by omega
  rw [maskedValue, if_neg filled, masked, maskedChars, if_neg long, Text.takeUnits_eq_ofCodes,
    Text.dropUnits_eq_ofCodes, List.rtake, length]
  rfl

theorem MaskedAlike.maskedValue_eq {d e : Document} (h : MaskedAlike d e) :
    maskedValue d = maskedValue e := by
  cases h with
  | same => rfl
  | marked hd he => rw [maskedValue_of_isMarked hd, maskedValue_of_isMarked he]
  | ends hs ht first last =>
    rw [maskedValue_of_long hs, maskedValue_of_long ht, first, last]

/-! ## Values that differ in secrets only -/

mutual

/-- Values of one shape that differ under sensitive keys only. -/
inductive Alike : Document → Document → Prop
  | same (d : Document) : Alike d d
  | list {a b : List Document} : AlikeItems a b → Alike (.list a) (.list b)
  | record {a b : List (String × Document)} : AlikeFields a b → Alike (.record a) (.record b)

/-- Items that differ under sensitive keys only. -/
inductive AlikeItems : List Document → List Document → Prop
  | nil : AlikeItems [] []
  | cons {d e : Document} {a b : List Document} :
      Alike d e → AlikeItems a b → AlikeItems (d :: a) (e :: b)

/-- Values that a key may have in two logs. -/
inductive AlikeUnder : String → Document → Document → Prop
  | sensitive {key : String} {d e : Document} :
      isSensitive key = true → MaskedAlike d e → AlikeUnder key d e
  | plain {key : String} {d e : Document} :
      isSensitive key = false → Alike d e → AlikeUnder key d e

/-- Fields that differ under sensitive keys only. -/
inductive AlikeFields : List (String × Document) → List (String × Document) → Prop
  | nil : AlikeFields [] []
  | cons {key : String} {d e : Document} {a b : List (String × Document)} :
      AlikeUnder key d e → AlikeFields a b → AlikeFields ((key, d) :: a) ((key, e) :: b)

end

mutual

/-- A log shows of a value nothing that its secrets decide, at any depth. -/
theorem Alike.redacted_eq : {d e : Document} → Alike d e → (depth : Nat) →
    redacted depth d = redacted depth e
  | _, _, .same _, _ => rfl
  | _, _, .list items, depth => by
    rw [redacted, redacted, items.redactedItems_eq (depth + 1)]
  | _, _, .record fields, depth => by
    rw [redacted, redacted, fields.redactedFields_eq depth]

theorem AlikeItems.redactedItems_eq : {a b : List Document} → AlikeItems a b → (depth : Nat) →
    redactedItems depth a = redactedItems depth b
  | _, _, .nil, _ => rfl
  | _, _, .cons first rest, depth => by
    rw [redactedItems, redactedItems, first.redacted_eq depth, rest.redactedItems_eq depth]

theorem AlikeUnder.shown_eq : {key : String} → {d e : Document} → AlikeUnder key d e →
    (depth : Nat) → (if isSensitive key then maskedValue d else redacted depth d) =
      if isSensitive key then maskedValue e else redacted depth e
  | _, _, _, .sensitive hkey masked, _ => by rw [if_pos hkey, if_pos hkey, masked.maskedValue_eq]
  | _, _, _, .plain hkey alike, depth => by
    have plain := Bool.eq_false_iff.1 hkey
    rw [if_neg plain, if_neg plain, alike.redacted_eq depth]

theorem AlikeFields.redactedFields_eq : {a b : List (String × Document)} → AlikeFields a b →
    (depth : Nat) → redactedFields depth a = redactedFields depth b
  | _, _, .nil, _ => rfl
  | _, _, .cons first rest, depth => by
    rw [redactedFields, redactedFields, first.shown_eq (depth + 1), rest.redactedFields_eq depth]

end

/-! ## Contexts -/

namespace AlikeFields

theorem keys_eq : {a b : List (String × Document)} → AlikeFields a b →
    a.map Prod.fst = b.map Prod.fst
  | _, _, .nil => rfl
  | _, _, .cons _ rest => by rw [List.map_cons, List.map_cons, keys_eq rest]

variable {a b : List (String × Document)}

theorem place {key : String} {d e : Document} (h : AlikeFields a b) (value : AlikeUnder key d e) :
    AlikeFields (placeEntry key d a) (placeEntry key e b) := by
  induction a generalizing b with
  | nil =>
    cases h
    exact .cons value .nil
  | cons f a ih =>
    cases h with
    | cons first rest =>
      unfold placeEntry
      split
      · exact .cons value (.cons first rest)
      · exact .cons first (ih rest)

theorem overwrite {key : String} {d e : Document} (h : AlikeFields a b)
    (value : AlikeUnder key d e) :
    AlikeFields (a.map fun f => if f.1 = key then (key, d) else f)
      (b.map fun f => if f.1 = key then (key, e) else f) := by
  induction a generalizing b with
  | nil =>
    cases h
    exact .nil
  | cons f a ih =>
    cases h with
    | cons first rest =>
      rw [List.map_cons, List.map_cons]
      dsimp only
      split
      · exact .cons value (ih rest)
      · exact .cons first (ih rest)

theorem put {key : String} {d e : Document} (h : AlikeFields a b) (value : AlikeUnder key d e) :
    AlikeFields (putEntry a key d) (putEntry b key e) := by
  rw [putEntry, putEntry, h.keys_eq]
  split
  · exact h.overwrite value
  · exact h.place value

end AlikeFields

/-- Contexts that differ under sensitive keys only. -/
def AlikeContexts (r s : Record Document) : Prop := AlikeFields r.entries s.entries

namespace AlikeContexts

theorem foldl_insert : {a b : List (String × Document)} → AlikeFields a b →
    {r s : Record Document} → AlikeContexts r s →
      AlikeContexts (a.foldl (fun r e => r.insert e.1 e.2) r)
        (b.foldl (fun r e => r.insert e.1 e.2) s)
  | _, _, .nil, _, _, start => start
  | _, _, .cons first rest, _, _, start => foldl_insert rest (AlikeFields.put start first)

theorem overlay {r s own own' : Record Document} (outer : AlikeContexts r s)
    (inner : AlikeContexts own own') : AlikeContexts (r.overlay own) (s.overlay own') :=
  foldl_insert inner outer

/-- Loggers that are nested in each other. -/
theorem nested {inner inner' : List (Record Document)} (h : List.Forall₂ AlikeContexts inner inner')
    {base base' : Record Document} (start : AlikeContexts base base') :
    AlikeContexts (inner.foldl Record.overlay base) (inner'.foldl Record.overlay base') := by
  induction h generalizing base base' with
  | nil => exact start
  | cons first _ ih => exact ih (start.overlay first)

theorem isEmpty_eq {r s : Record Document} (h : AlikeContexts r s) :
    r.entries.isEmpty = s.entries.isEmpty := by
  have keys : r.entries.map Prod.fst = s.entries.map Prod.fst := AlikeFields.keys_eq h
  rw [← List.isEmpty_map (f := Prod.fst), keys, List.isEmpty_map]

end AlikeContexts

/-- A layout writes events alike when their contexts are. -/
theorem Layout.write_eq {r s : Record Document} (h : AlikeContexts r s) (layout : Layout)
    (stamp : String) (level : Level) (message : String) (fault : Option Fault) :
    layout.write stamp ⟨level, message, r, fault⟩ =
      layout.write stamp ⟨level, message, s, fault⟩ := by
  have fields : Layout.contextFields ⟨level, message, r, fault⟩ =
      Layout.contextFields ⟨level, message, s, fault⟩ := h.redactedFields_eq 0
  have document : Layout.contextDocument? ⟨level, message, r, fault⟩ =
      Layout.contextDocument? ⟨level, message, s, fault⟩ := by
    rw [Layout.contextDocument?, Layout.contextDocument?, fields, h.isEmpty_eq]
  rw [Layout.write, Layout.write, Layout.eventDocument, Layout.eventDocument, document, fields]

/-- **Secrets do not show.** Logs whose contexts, their own and those of all loggers around, differ
under sensitive keys only, by values that are masked alike, redact to the same fields and are
written in the same words. -/
theorem same_lines_of_alike {base base' own own' : Record Document}
    {inner inner' : List (Record Document)} (hbase : AlikeContexts base base')
    (hinner : List.Forall₂ AlikeContexts inner inner') (hown : AlikeContexts own own') :
    redactedFields 0 own.entries = redactedFields 0 own'.entries ∧
    redactedFields 0 ((inner.foldl Record.overlay base).overlay own).entries =
      redactedFields 0 ((inner'.foldl Record.overlay base').overlay own').entries ∧
    ∀ (layout : Layout) (stamp : String) (level : Level) (message : String) (fault : Option Fault),
      layout.write stamp
          (Event.within (inner.foldl Record.overlay base) ⟨level, message, own, fault⟩) =
        layout.write stamp
          (Event.within (inner'.foldl Record.overlay base') ⟨level, message, own', fault⟩) := by
  have whole : AlikeContexts ((inner.foldl Record.overlay base).overlay own)
      ((inner'.foldl Record.overlay base').overlay own') :=
    (AlikeContexts.nested hinner hbase).overlay hown
  refine ⟨hown.redactedFields_eq 0, whole.redactedFields_eq 0, ?_⟩
  intro layout stamp level message fault
  exact Layout.write_eq whole layout stamp level message fault

/-- The context of a connection: its password, tokens that it holds, and what is no secret. -/
def connection (password : String) (token : Document) : Record Document :=
  Record.ofList [("hive.metastore.password", .text password),
    ("sessions", .list [.record [("token", token), ("user", .text "hive")]]),
    ("port", .text "9083")]

theorem alikeContexts_connection {password password' : String} {token token' : Document}
    (hpassword : MaskedAlike (.text password) (.text password'))
    (htoken : MaskedAlike token token') :
    AlikeContexts (connection password token) (connection password' token') := by
  have inOrder : Record.KeysInOrder ["hive.metastore.password", "sessions", "port"] := by
    decide +kernel
  have entries (p : String) (t : Document) : (connection p t).entries =
      [("hive.metastore.password", .text p),
        ("sessions", .list [.record [("token", t), ("user", .text "hive")]]),
        ("port", .text "9083")] := Record.entries_ofList inOrder
  rw [AlikeContexts, entries, entries]
  have session : Alike (.record [("token", token), ("user", .text "hive")])
      (.record [("token", token'), ("user", .text "hive")]) :=
    .record (.cons (.sensitive (by decide +kernel) htoken)
      (.cons (.plain (by decide +kernel) (.same _)) .nil))
  exact .cons (.sensitive (by decide +kernel) hpassword)
    (.cons (.plain (by decide +kernel) (.list (.cons session .nil)))
      (.cons (.plain (by decide +kernel) (.same _)) .nil))

/-- A log of one connection inside another: the outer passwords agree in their ends, the inner ones
are both short, and of the tokens one is a number. -/
theorem same_lines_of_connections :
    AlikeContexts (connection "test-secret" .null) (connection "testXXXXXXcret" .null) ∧
    List.Forall₂ AlikeContexts [connection "abc" (.text "")] [connection "" (.ofInt 5)] ∧
    AlikeContexts (connection "hunter2" (.list [])) (connection "short" (.boolean true)) ∧
    ∀ layout stamp,
      Layout.write layout stamp (Event.within
          ([connection "abc" (.text "")].foldl Record.overlay (connection "test-secret" .null))
          ⟨.error, "failed", connection "hunter2" (.list []), some ⟨"Error", "boom", none⟩⟩) =
        Layout.write layout stamp (Event.within
          ([connection "" (.ofInt 5)].foldl Record.overlay (connection "testXXXXXXcret" .null))
          ⟨.error, "failed", connection "short" (.boolean true),
            some ⟨"Error", "boom", none⟩⟩) := by
  have outer : AlikeContexts (connection "test-secret" .null) (connection "testXXXXXXcret" .null) :=
    alikeContexts_connection (.ends (by decide +kernel) (by decide +kernel) (by decide +kernel)
      (by decide +kernel)) (.same _)
  have middle : AlikeContexts (connection "abc" (.text "")) (connection "" (.ofInt 5)) :=
    alikeContexts_connection (.marked (by decide +kernel) (by decide +kernel))
      (.marked (by decide +kernel) rfl)
  have own : AlikeContexts (connection "hunter2" (.list [])) (connection "short" (.boolean true)) :=
    alikeContexts_connection (.marked (by decide +kernel) (by decide +kernel))
      (.marked rfl rfl)
  have nested := List.Forall₂.cons middle List.Forall₂.nil
  exact ⟨outer, nested, own, fun layout stamp =>
    (same_lines_of_alike outer nested own).2.2 layout stamp _ _ _⟩

end ClusterUpgrade.Log
