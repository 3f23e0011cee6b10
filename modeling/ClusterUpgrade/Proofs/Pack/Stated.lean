import ClusterUpgrade.Plan.Condition
import ClusterUpgrade.Proofs.Pack.Declared

/-!
# Values that conditions compare with

Four of the six comparisons are with a value, and where a condition does not state it the empty text
stands in (`Condition.holds`). A condition is complete exactly when no other text in that place
would ever make a difference (`Condition.complete_iff`). The check of a pack asks for no value, so
the conditions of an accepted pack are complete exactly when its document states the values
(`Pack.states_values_iff`).
-/

namespace ClusterUpgrade

/-! ## Complete conditions -/

/-- Whether a comparison is with a value. -/
def Comparison.needsValue : Comparison → Bool
  | .present | .notPresent => false
  | .equals | .notEquals | .contains | .notContains => true

/-- A store whose only configuration has one property, which is empty. -/
def Store.blank (configType property : String) : Store where
  clusterName := "blank"
  securityType := .none
  desiredStack := ⟨"HDP", "2.2"⟩
  services := []
  revisions := [
    { type := configType, service := configType, stack := "HDP-2.2", tag := "version1"
      version := Number.ofNat 1, properties := Record.empty.insert property ""
      actor := none, comment := none }]
  current := Record.empty.insert configType (Number.ofNat 1)
  defaults := Record.empty
  componentRepositories := Record.empty

namespace Condition

/-- A condition has the value that it compares with, if it compares with one. -/
def Complete : Condition → Prop
  | security _ => True
  | config _ _ comparison value => comparison.needsValue = true → value.isSome = true

/-- Whether the condition holds in a cluster, where a text stands in for a value that it does not
state. -/
def holdsWith (fallback : String) (s : Store) : Condition → Bool
  | security mode => s.securityType = mode
  | config configType property comparison value =>
    if findsInherited s configType property then
      comparison = .present ∨ comparison = .notEquals
    else compares comparison (value.getD fallback) (actual? s configType property)

/-- The document of a condition states the value that the condition compares with. -/
def StatesValue (v : Document) : Prop :=
  v.field? "type" = some (.text "config") → ∀ comparison : Comparison,
    v.HasWord "comparison" comparison → comparison.needsValue = true →
      (v.field? "value").isSome = true

variable {c : Condition}

theorem currentConfig?_blank (configType property : String) :
    (Store.blank configType property).currentConfig? configType =
      some ⟨configType, "version1", Record.empty.insert property ""⟩ := by
  have first : (Number.ofNat 1).same (Number.ofNat 1) = true := by decide
  simp [Store.currentConfig?, Store.currentRevision?, Store.revision?, Store.blank, first]

theorem actual?_blank (configType property : String) :
    actual? (Store.blank configType property) configType property = some "" := by
  simp [actual?, currentConfig?_blank]

/-- A property that is set is found as it is set, whatever its name. -/
theorem findsInherited_blank (configType property : String) :
    findsInherited (Store.blank configType property) configType property = false := by
  simp [findsInherited, currentConfig?_blank, Record.has]

theorem compares_of_not_needsValue {comparison : Comparison} (without : comparison.needsValue = false)
    (a b : String) (actual : Option String) :
    compares comparison a actual = compares comparison b actual := by
  cases comparison with
  | present | notPresent => rfl
  | equals | notEquals | contains | notContains => cases without

/-- An empty property is told from a text that is not empty. -/
theorem compares_of_needsValue {comparison : Comparison} (needed : comparison.needsValue = true) :
    compares comparison "value" (some "") ≠ compares comparison "" (some "") := by
  cases comparison with
  | present | notPresent => cases needed
  | equals | notEquals | contains | notContains => decide

/-- A condition is complete exactly when it never matters what stands in for its value. -/
theorem complete_iff : c.Complete ↔ ∀ fallback s, c.holdsWith fallback s = c.holds s := by
  cases c with
  | security mode => exact iff_of_true trivial fun _ _ => rfl
  | config configType property comparison value =>
    cases value with
    | some value => exact iff_of_true (fun _ => rfl) fun _ _ => rfl
    | none =>
      constructor
      · intro complete fallback s
        have without : comparison.needsValue = false :=
          Bool.eq_false_iff.2 fun needed => Bool.false_ne_true (complete needed)
        rw [holdsWith, holds, compares_of_not_needsValue without]
      · intro same needed
        have told := same "value" (Store.blank configType property)
        simp only [holdsWith, holds, findsInherited_blank, Bool.false_eq_true, if_false,
          actual?_blank] at told
        exact absurd told (compares_of_needsValue needed)

theorem complete_iff_of_declared {v : Document} (declared : c.DeclaredIn v) :
    c.Complete ↔ StatesValue v := by
  cases c with
  | security mode =>
    have other : v.field? "type" ≠ some (.text "config") := by
      rw [declared.1]
      simp
    exact iff_of_true trivial fun config => absurd config other
  | config configType property comparison value =>
    obtain ⟨config, -, -, word, stated⟩ := declared
    rw [Complete, StatesValue, stated, Option.isSome_map]
    constructor
    · intro complete _ comparison' word' needed
      rw [Document.HasWord, word, Option.some.injEq, Document.text.injEq] at word'
      have same : some comparison = some comparison' := by
        rw [← LawfulNamed.ofName?_name comparison, word', LawfulNamed.ofName?_name]
      exact complete (Option.some.inj same ▸ needed)
    · intro states needed
      exact states config comparison word needed

end Condition

/-! ## Conditions of packs -/

namespace Pack

/-- Where a document has the condition of a grouping. -/
def conditionPlace (direction : Direction) (i : Nat) : Location :=
  (((Location.top "groups").field direction.field).index i).field "condition"

theorem find?_conditionPlace (d : Document) (direction : Direction) (i : Nat) :
    (conditionPlace direction i).find? d =
      ((d.field? "groups").bind (·.field? direction.field)).bind fun v =>
        Location.find? v [.index i, .field "condition"] := by
  rw [Option.bind_assoc]
  rfl

/-- Every condition of a pack has the value that it compares with, in both directions. -/
def Complete (p : Pack) : Prop :=
  ∀ direction, ∀ g ∈ p.groupings direction, ∀ c ∈ g.condition, c.Complete

theorem forall_mem_iff_of_forall₂ {α β : Type} {R : α → β → Prop} {P : α → Prop} {Q : β → Prop}
    {as : List α} {bs : List β} (h : List.Forall₂ R as bs) (each : ∀ a b, R a b → (P a ↔ Q b)) :
    (∀ a ∈ as, P a) ↔ ∀ b ∈ bs, Q b := by
  induction h with
  | nil => simp
  | cons related _ ih => rw [List.forall_mem_cons, List.forall_mem_cons, each _ _ related, ih]

/-- The conditions of a direction are complete when the entries state their values. -/
theorem complete_iff_of_declaredAll {v : Document} {gs : List Grouping}
    (declared : Grouping.DeclaredAll v gs) :
    (∀ g ∈ gs, ∀ c ∈ g.condition, c.Complete) ↔
      ∀ i w, Location.find? v [.index i, .field "condition"] = some w → Condition.StatesValue w := by
  obtain ⟨⟨items, rfl, related⟩, -⟩ := declared
  have each (e : Document) (g : Grouping) (h : g.DeclaredIn e) :
      (∀ w, e.field? "condition" = some w → Condition.StatesValue w) ↔
        ∀ c ∈ g.condition, c.Complete := by
    have read := h.condition
    cases stated : e.field? "condition" with
    | none =>
      rw [stated, Document.reads_none] at read
      simp [read]
    | some w =>
      rw [stated, Document.reads_some] at read
      obtain ⟨c, found, declared⟩ := read
      simp [found, Condition.complete_iff_of_declared declared]
  rw [← forall_mem_iff_of_forall₂ related each]
  have entry (i : Nat) (w : Document) :
      Location.find? (.list items) [.index i, .field "condition"] = some w ↔
        ∃ e, items[i]? = some e ∧ e.field? "condition" = some w := by
    simp [Location.find?, Option.bind_eq_some_iff]
  simp only [entry]
  constructor
  · rintro all i w ⟨e, there, stated⟩
    exact all e (List.mem_of_getElem? there) w stated
  · intro all e mem w stated
    obtain ⟨i, there⟩ := List.mem_iff_getElem?.1 mem
    exact all i w ⟨e, there, stated⟩

/-- A pack without groupings for a downgrade has those of the upgrade, so only what is declared
counts. -/
theorem complete_iff_declared {p : Pack} : p.Complete ↔
    (∀ g ∈ p.upgrade, ∀ c ∈ g.condition, c.Complete) ∧
      ∀ g ∈ p.downgrade.getD [], ∀ c ∈ g.condition, c.Complete := by
  constructor
  · intro complete
    refine ⟨complete .upgrade, fun g mem => complete .downgrade g ?_⟩
    rw [groupings]
    cases declared : p.downgrade with
    | none => simp [declared] at mem
    | some gs => simpa [declared] using mem
  · rintro ⟨up, down⟩ direction
    cases direction with
    | upgrade => exact up
    | downgrade =>
      rw [groupings]
      cases declared : p.downgrade with
      | none => exact up
      | some gs => simpa [declared] using down

/-- **Accepted conditions.** The conditions of an accepted pack have the values that they compare
with, in both directions, exactly when the document states them. That is exactly when no condition
is ever decided by the empty text that stands in for a value. -/
theorem states_values_iff {d : Document} {p : Pack} (accepted : (check d).value = some p) :
    (p.Complete ↔ ∀ direction i v, (conditionPlace direction i).find? d = some v →
      Condition.StatesValue v) ∧
    (p.Complete ↔ ∀ direction, ∀ g ∈ p.groupings direction, ∀ c ∈ g.condition, ∀ fallback s,
      c.holdsWith fallback s = c.holds s) := by
  constructor
  · have declared := check_value_iff.1 accepted
    obtain ⟨v, written, all⟩ := declared.upgrade
    have up : (∀ g ∈ p.upgrade, ∀ c ∈ g.condition, c.Complete) ↔ ∀ i v,
        (conditionPlace .upgrade i).find? d = some v → Condition.StatesValue v := by
      refine (complete_iff_of_declaredAll all).trans ?_
      simp [find?_conditionPlace, Direction.field, written]
    have down : (∀ g ∈ p.downgrade.getD [], ∀ c ∈ g.condition, c.Complete) ↔ ∀ i v,
        (conditionPlace .downgrade i).find? d = some v → Condition.StatesValue v := by
      have read := declared.downgrade
      simp only [find?_conditionPlace, Direction.field]
      cases written : (d.field? "groups").bind (·.field? "downgrade") with
      | none =>
        rw [written, Document.reads_none] at read
        simp [read]
      | some v =>
        rw [written, Document.reads_some] at read
        obtain ⟨gs, found, all⟩ := read
        rw [found]
        exact complete_iff_of_declaredAll all
    rw [complete_iff_declared, up, down]
    constructor
    · rintro ⟨up, down⟩ direction
      cases direction with
      | upgrade => exact up
      | downgrade => exact down
    · intro all
      exact ⟨all .upgrade, all .downgrade⟩
  · exact forall_congr' fun direction => forall_congr' fun g => forall_congr' fun mem =>
      forall_congr' fun c => forall_congr' fun has => Condition.complete_iff

/-! ## A condition on a port -/

/-- The condition that ZooKeeper listens on a port. -/
def portCondition (value : Option String) : Condition :=
  .config "zoo.cfg" "clientPort" .equals value

/-- The document of a pack whose only grouping depends on that port. -/
def portDocument (value : Option String) : Document :=
  .record [("name", .text "zookeeper"), ("type", .text "ROLLING"),
    ("targetStack", .text "HDP-2.3"),
    ("groups", .record [("upgrade", .list [.record [("name", .text "SERVERS"),
      ("condition", (portCondition value).document)]])])]

/-- The pack that it declares. -/
def portPack (value : Option String) : Pack where
  name := "zookeeper"
  orchestration := .rolling
  targetStack := "HDP-2.3"
  upgrade := [
    { name := "SERVERS", title := "SERVERS", scope := .complete
      condition := some (portCondition value)
      skippable := false, allowRetry := true, supportsAutoSkip := true, performServiceCheck := true
      services := [], kind := .standard }]
  downgrade := none
  processing := .empty

theorem complete_portPack_iff {value : Option String} :
    (portPack value).Complete ↔ value.isSome = true := by
  simp [complete_iff_declared, portPack, portCondition, Condition.Complete, Comparison.needsValue]

theorem states_values_port :
    (check (portDocument (some "2181"))).value = some (portPack (some "2181")) ∧
    (∀ direction i v, (conditionPlace direction i).find? (portDocument (some "2181")) = some v →
      Condition.StatesValue v) ∧
    ∀ direction, ∀ g ∈ (portPack (some "2181")).groupings direction, ∀ c ∈ g.condition,
      ∀ fallback s, c.holdsWith fallback s = c.holds s := by
  have accepted : (check (portDocument (some "2181"))).value = some (portPack (some "2181")) := by
    decide +kernel
  have complete : (portPack (some "2181")).Complete := complete_portPack_iff.2 rfl
  obtain ⟨stated, decided⟩ := states_values_iff accepted
  exact ⟨accepted, stated.1 complete, decided.1 complete⟩

/-- A pack is accepted whose condition does not state the port. It holds where the port is empty. -/
theorem accepted_without_value :
    (check (portDocument none)).value = some (portPack none) ∧ ¬ (portPack none).Complete ∧
    (portCondition none).holds (Store.blank "zoo.cfg" "clientPort") = true ∧
    (portCondition none).holdsWith "2181" (Store.blank "zoo.cfg" "clientPort") = false := by
  have empty : Condition.actual? (Store.blank "zoo.cfg" "clientPort") "zoo.cfg" "clientPort" =
      some "" := Condition.actual?_blank _ _
  refine ⟨by decide +kernel, ?_, ?_, ?_⟩
  · rw [complete_portPack_iff]
    exact Bool.false_ne_true
  · rw [portCondition, Condition.holds, empty]
    decide
  · rw [portCondition, Condition.holdsWith, empty]
    decide

end Pack

end ClusterUpgrade
