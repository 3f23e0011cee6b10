import ClusterUpgrade.Issue.Checked
import Mathlib.Data.List.Infix

/-!
# Where checks report

Every issue says where it is. An issue is about a field (`Issue.About`) if it lies at the field or
inside of it, or says that the field is missing. A check of a field finds errors about just that
field (`Issue.ErrorAbout`, `Checked.Only`), so what is found in one field is never taken for
something about another (`Issue.About.unique`).
-/

namespace ClusterUpgrade

/-! ## Places -/

namespace Location

variable {l p : Location}

theorem segment_unique {a b : Segment} (ha : l ++ [a] <+: p) (hb : l ++ [b] <+: p) :
    a = b := by
  have same : l ++ [a] = l ++ [b] :=
    (List.prefix_of_prefix_length_le ha hb (by simp)).eq_of_length (by simp)
  exact List.singleton_inj.1 (List.append_cancel_left same)

theorem field_unique {a b : String} (ha : l.field a <+: p) (hb : l.field b <+: p) :
    a = b :=
  Segment.field.inj (segment_unique ha hb)

theorem index_unique {m n : Nat} (hm : l.index m <+: p) (hn : l.index n <+: p) : m = n :=
  Segment.index.inj (segment_unique hm hn)

theorem prefix_field (l : Location) (field : String) : l <+: l.field field :=
  List.prefix_append l [.field field]

theorem prefix_index (l : Location) (n : Nat) : l <+: l.index n :=
  List.prefix_append l [.index n]

theorem field_longer (l : Location) (field : String) : ¬ l.field field <+: l := by
  intro h
  have length := h.length_le
  rw [Location.field, List.length_append, List.length_singleton] at length
  omega

end Location

/-! ## Issues about a field -/

namespace Issue

variable {i : Issue} {place : Location} {field a b : String}

/-- The issue lies at a place or inside of it. -/
def In (i : Issue) (place : Location) : Prop := place <+: i.place

/-- The issue is about a field of the record at a place. -/
def About (i : Issue) (place : Location) (field : String) : Prop :=
  i.In (place.field field) ∨ i = .missingField place field

/-- The issue is about a field itself, and not about anything inside of it. -/
def At (i : Issue) (place : Location) (field : String) : Prop :=
  i.place = place.field field ∨ i = .missingField place field

/-- An error at a place or inside of it. -/
structure ErrorIn (i : Issue) (place : Location) : Prop where
  error : i.isError = true
  inside : i.In place

/-- An error about a field of the record at a place. -/
structure ErrorAbout (i : Issue) (place : Location) (field : String) : Prop where
  error : i.isError = true
  about : i.About place field

theorem At.about (h : i.At place field) : i.About place field := by
  refine h.imp_left fun here => ?_
  rw [In, here]

theorem In.of_field (h : i.In (place.field field)) : i.In place :=
  (place.prefix_field field).trans h

theorem In.of_index {n : Nat} (h : i.In (place.index n)) : i.In place :=
  (place.prefix_index n).trans h

theorem In.self (i : Issue) : i.In i.place := List.prefix_rfl

theorem About.inside (h : i.About place field) : i.In place := by
  rcases h with at_field | rfl
  · exact at_field.of_field
  · exact In.self _

theorem About.unique (ha : i.About place a) (hb : i.About place b) : a = b := by
  rcases ha with ha | rfl
  · rcases hb with hb | rfl
    · exact Location.field_unique ha hb
    · exact absurd ha (place.field_longer a)
  · rcases hb with hb | hb
    · exact absurd hb (place.field_longer b)
    · exact (missingField.inj hb).2

theorem about_missing (place : Location) (field : String) :
    (missingField (Checked.missingPlace place field) field).About place field := by
  unfold Checked.missingPlace
  split
  · next whole =>
    obtain rfl := List.isEmpty_iff.1 whole
    exact .inl (In.self _)
  · exact .inr rfl

theorem ErrorIn.of_field (h : i.ErrorIn (place.field field)) : i.ErrorIn place :=
  ⟨h.error, h.inside.of_field⟩

theorem ErrorIn.of_index {n : Nat} (h : i.ErrorIn (place.index n)) : i.ErrorIn place :=
  ⟨h.error, h.inside.of_index⟩

theorem ErrorIn.about (h : i.ErrorIn (place.field field)) : i.ErrorAbout place field :=
  ⟨h.error, .inl h.inside⟩

theorem ErrorAbout.inside (h : i.ErrorAbout place field) : i.ErrorIn place :=
  ⟨h.error, h.about.inside⟩

end Issue

/-! ## What a check finds -/

namespace Checked

variable {α β : Type} {c : Checked α} {P Q : Issue → Prop}

/-- A check finds issues of one sort only. -/
def Only (c : Checked α) (P : Issue → Prop) : Prop := ∀ i ∈ c.issues, P i

/-- A check finds an error about a field. -/
def Finds (c : Checked α) (place : Location) (field : String) : Prop :=
  ∃ i ∈ c.issues, i.isError = true ∧ i.At place field

theorem Only.imp (h : c.Only P) (imp : ∀ i, P i → Q i) : c.Only Q := fun i mem => imp i (h i mem)

theorem Only.inside {place : Location} {field : String} (h : c.Only (·.ErrorAbout place field)) :
    c.Only (·.ErrorIn place) := h.imp fun _ => Issue.ErrorAbout.inside

theorem only_pure (a : α) : (pure a : Checked α).Only P := nofun

theorem only_reported {i : Issue} (h : P i) (a : α) : (reported i a).Only P := by
  intro j mem
  obtain rfl := List.mem_singleton.1 mem
  exact h

theorem Only.bind {f : α → Checked β} (hc : c.Only P) (hf : ∀ a, (f a).Only P) :
    (c >>= f).Only P := by
  intro i mem
  rcases List.mem_append.1 mem with first | next
  · exact hc i first
  · exact hf _ i next

theorem Only.map (f : α → β) (hc : c.Only P) : (f <$> c).Only P := hc.bind fun a => only_pure (f a)

theorem only_all {f : α → Checked β} {as : List α} (h : ∀ a ∈ as, (f a).Only P) :
    (all f as).Only P := by
  intro i mem
  rw [issues_all] at mem
  obtain ⟨a, ha, hi⟩ := List.mem_flatMap.1 mem
  exact h a ha i hi

section Fields

variable {d : Document} {value : Option Document} {field : String} {place : Location}

theorem requireText_about : (requireText d field place).Only (·.ErrorAbout place field) := by
  unfold requireText
  split
  · exact only_reported ⟨rfl, Issue.about_missing place field⟩ _
  · split
    · exact only_reported ⟨rfl, Issue.about_missing place field⟩ _
    · exact only_pure _
  · exact only_reported ⟨rfl, .inl (Issue.In.self _)⟩ _

theorem optionalText_about : (optionalText d field place).Only (·.ErrorAbout place field) := by
  unfold optionalText
  split
  · exact only_pure _
  · exact only_pure _
  · exact only_reported ⟨rfl, .inl (Issue.In.self _)⟩ _

theorem optionalBoolean_about {fallback : Bool} :
    (optionalBoolean d field place fallback).Only (·.ErrorAbout place field) := by
  unfold optionalBoolean
  split
  · exact only_pure _
  · exact only_pure _
  · exact only_reported ⟨rfl, .inl (Issue.In.self _)⟩ _

theorem requireWord_about {α : Type} [Named α] :
    (requireWord α d field place).Only (·.ErrorAbout place field) := by
  unfold requireWord
  split
  · exact only_reported ⟨rfl, Issue.about_missing place field⟩ _
  · split
    · exact only_pure _
    · exact only_reported ⟨rfl, .inl (Issue.In.self _)⟩ _

theorem wordOr_about {α : Type} [Named α] {fallback : α} :
    (wordOr α d field place fallback).Only (·.ErrorAbout place field) := by
  unfold wordOr
  split
  · exact requireWord_about
  · exact only_pure _

theorem itemsOf_inside : (itemsOf value place).Only (·.ErrorIn place) := by
  unfold itemsOf
  split
  · exact only_pure _
  · exact only_pure _
  · exact only_reported ⟨rfl, Issue.In.self _⟩ _

theorem fieldsOf_inside : (fieldsOf value place).Only (·.ErrorIn place) := by
  unfold fieldsOf
  split
  · exact only_pure _
  · exact only_pure _
  · exact only_reported ⟨rfl, Issue.In.self _⟩ _

end Fields

end Checked

end ClusterUpgrade
