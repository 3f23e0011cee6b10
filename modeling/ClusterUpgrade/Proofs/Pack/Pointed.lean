import ClusterUpgrade.Proofs.Pack.Reported
import ClusterUpgrade.Proofs.Sifted

/-!
# Where warnings point

Errors name places of the document. Warnings number the groupings and the services that the check
has kept, so once something before is left out they name another place.

1. `sifted_checkServices`, `sifted_checkEntries`: which entries of a document are kept, as relations
   of the document (`OrdersAt`, `StandsAt`), and how they are numbered then.
2. `unprocessed_mem_check_iff`: the warnings of a rolling document, valid or not, are those of the
   groupings that are kept.
3. `unprocessed_mem_iff`, `allBefore_of_declared`: so a warning stands for an item that orders a
   service, and nothing of an accepted document is left out.
4. `warned_places`: a warning names the place of its item exactly when nothing before is left out.
-/

namespace ClusterUpgrade

namespace Document

/-- The items of a list, where there is one. -/
def listed : Option Document → List Document
  | some (.list items) => items
  | _ => []

theorem HasText.unique {d : Document} {field a b : String} (ha : d.HasText field a)
    (hb : d.HasText field b) : a = b :=
  text.inj (Option.some.inj (ha.1.symm.trans hb.1))

end Document

namespace Location

theorem find?_append (d : Document) (l l' : Location) :
    find? d (l ++ l') = (find? d l).bind (find? · l') := by
  induction l generalizing d with
  | nil => rfl
  | cons step rest ih =>
    cases step with
    | field name => simp only [List.cons_append, find?, ih, Option.bind_assoc]
    | index n =>
      cases d with
      | list items => simp only [List.cons_append, find?, ih, Option.bind_assoc]
      | null | boolean _ | number _ | text _ | record _ => rfl

theorem find?_field (d : Document) (name : String) : find? d [.field name] = d.field? name :=
  Option.bind_fun_some _

end Location

namespace Pack

open Checked Document

/-! ## Services that are kept -/

/-- The item at a position orders a service. -/
def OrdersAt (items : List Document) (n : Nat) : Prop :=
  ∃ item, items[n]? = some item ∧ ∃ s : OrderedService, s.DeclaredIn item

section Services

variable {d : Document} {place : Location}

theorem texts_of_value {field : String} {texts : List String}
    (h : (checkTexts d field place).value = some texts) : d.Lists field texts := by
  unfold checkTexts at h
  unfold Document.Lists
  cases found : d.field? field with
  | none =>
    rw [found] at h
    exact (Option.some.inj h).symm
  | some v =>
    rw [found] at h
    cases v with
    | null => exact (Option.some.inj h).symm
    | boolean _ | number _ | text _ | list _ | record _ =>
      dsimp only at h ⊢
      split at h
      · next texts' given =>
        obtain rfl := Option.some.inj h
        exact texts?_eq_some_iff.1 given
      · cases h

theorem checkService_value_iff {entry : Document × Nat} {s : OrderedService} :
    (checkService place entry).value = some s ↔ s.DeclaredIn entry.1 := by
  constructor
  · intro h
    obtain ⟨d, n⟩ := entry
    cases d with
    | record fields =>
      simp only [checkService, value_bind, value_pure] at h
      split at h
      · next named listed =>
        obtain rfl := Option.some.inj h
        exact ⟨hasText_of_value named, texts_of_value listed⟩
      · cases h
    | null | boolean _ | number _ | text _ | list _ => cases h
  · intro declared
    rw [(checkService_gives entry).complete (some s) ⟨s, rfl, declared⟩]

theorem value_itemsOf (value : Option Document) :
    (itemsOf value place).value = (listed value).zipIdx := by
  cases value with
  | none => rfl
  | some v => cases v <;> rfl

/-- The items of a list that order a service are kept. -/
theorem sifted_checkServices (value : Option Document) (place : Location) :
    Sifted (OrdersAt (listed value))
      (fun n s => ∃ item, (listed value)[n]? = some item ∧ s.DeclaredIn item)
      (checkServices value place).value := by
  have kept := Sifted.filterMap (fun e => (checkService place e).value) (listed value).zipIdx
  have values : (checkServices value place).value =
      (listed value).zipIdx.filterMap fun e => (checkService place e).value := by
    simp only [checkServices, value_bind, value_all, value_pure, value_itemsOf,
      List.filterMap_map, Function.comp_def, id]
  rw [values]
  refine kept.congr (fun n => ?_) fun n s => ?_
  · simp [OrdersAt, Option.isSome_iff_exists, checkService_value_iff, List.getElem?_zipIdx]
  · simp [checkService_value_iff, List.getElem?_zipIdx]

end Services

/-! ## Entries that are kept -/

/-- An entry makes a grouping of a name: its name, its kind and its scope are sound, and so is the
function that its kind calls for. -/
structure Usable (e : Document) (name : String) : Prop where
  headed : Headed e
  named : e.HasText "name" name
  function : e.field? "kind" = some (.text "function") → ∃ f : FunctionName,
    e.HasWord "function" f

/-- The entry at a position makes a grouping, and no entry before it makes one of its name. -/
def StandsAt (es : List Document) (m : Nat) : Prop :=
  ∃ e name, es[m]? = some e ∧ Usable e name ∧ ∀ earlier ∈ es.take m, ¬ Usable earlier name

/-- A grouping is made of an entry. -/
structure MadeOf (e : Document) (g : Grouping) : Prop where
  usable : Usable e g.name
  checks_iff : g.kind = .serviceCheck ↔ e.field? "kind" = some (.text "service-check")
  services : Sifted (OrdersAt (listed (e.field? "services")))
    (fun n s => ∃ item, (listed (e.field? "services"))[n]? = some item ∧ s.DeclaredIn item)
    g.services

section Entries

variable {e : Document} {place : Location} {g : Grouping} {name : String}

/-- The word of a kind that is not the default is written. -/
theorem kind_written_iff {word w : String}
    (read : Reads (e.field? "kind") (fun v w => v = .text w) "default" word) (other : w ≠ "default") :
    e.field? "kind" = some (.text w) ↔ word = w := by
  cases stated : e.field? "kind" with
  | none =>
    rw [stated, reads_none] at read
    simp [read, other.symm]
  | some v =>
    rw [stated, reads_some] at read
    simp [read]

/-- What a grouping is made of, by its kind. -/
theorem kind_cases {word : String} {kind : GroupingKind}
    (read : Reads (e.field? "kind") (fun v w => v = .text w) "default" word)
    (h : (checkKind e place word).value = some kind) :
    (kind = .serviceCheck ↔ e.field? "kind" = some (.text "service-check")) ∧
      (e.field? "kind" = some (.text "function") → ∃ f : FunctionName, e.HasWord "function" f) := by
  rw [kind_written_iff read (by decide), kind_written_iff read (by decide)]
  unfold checkKind at h
  split at h
  · next function =>
    obtain ⟨f, found, rfl⟩ := Option.map_eq_some_iff.1 h
    exact ⟨by simp [function], fun _ => ⟨f, word_of_value found⟩⟩
  · next other =>
    obtain rfl := Option.some.inj h
    exact ⟨by simp, fun function => absurd function other⟩

theorem madeOf_of_value (h : (checkGrouping e place).value = some g) : MadeOf e g := by
  cases e with
  | record fields =>
    simp only [checkGrouping, value_bind] at h
    split at h
    · next name word scope hname hword hscope =>
      have kind := kind_of_value hword
      simp only [value_bind, value_pure] at h
      obtain ⟨k, hk, rfl⟩ := Option.map_eq_some_iff.1 h
      obtain ⟨checks, function⟩ := kind_cases kind.2 hk
      have headed : Headed (.record fields) :=
        ⟨⟨_, hasText_of_value hname⟩, ⟨_, kind⟩, ⟨_, scope_of_value hscope⟩⟩
      exact ⟨⟨headed, hasText_of_value hname, function⟩, checks, sifted_checkServices _ _⟩
    · cases h
  | null | boolean _ | number _ | text _ | list _ => cases h

theorem exists_of_usable (usable : Usable e name) (place : Location) :
    ∃ g, (checkGrouping e place).value = some g ∧ g.name = name := by
  obtain ⟨headed, named, function⟩ := usable
  obtain ⟨name', word, scope, hname, hword, given, given', given''⟩ := headed.checks place
  obtain rfl := named.unique hname
  have kind : ∃ k, (checkKind e place word).value = some k := by
    unfold checkKind
    split
    · next called =>
      obtain ⟨f, hf⟩ := function ((kind_written_iff hword (by decide)).2 called)
      rw [requireWord_gives.complete (some f) ⟨f, rfl, hf⟩]
      exact ⟨_, rfl⟩
    · exact ⟨_, rfl⟩
  obtain ⟨k, hk⟩ := kind
  cases e with
  | record fields =>
    simp only [checkGrouping, value_bind, given, given', given'', value_pure, hk]
    exact ⟨_, rfl, rfl⟩
  | null | boolean _ | number _ | text _ | list _ => cases hname.1

theorem usable_iff (e : Document) (place : Location) (name : String) :
    Usable e name ↔ ∃ g, (checkGrouping e place).value = some g ∧ g.name = name := by
  constructor
  · intro usable
    exact exists_of_usable usable place
  · rintro ⟨g, made, rfl⟩
    exact (madeOf_of_value made).usable

/-- The entry at a position makes a grouping whose name is not taken, neither before the entries
nor by one of them before it. -/
def StandsAfter (taken : List (String × Location)) (es : List Document) (m : Nat) : Prop :=
  ∃ e name, es[m]? = some e ∧ Usable e name ∧ taken.lookup name = none ∧
    ∀ earlier ∈ es.take m, ¬ Usable earlier name

theorem standsAfter_nil_iff {es : List Document} {m : Nat} :
    StandsAfter [] es m ↔ StandsAt es m := by
  simp [StandsAfter, StandsAt]

/-- What is left after an entry depends on the names that are taken then. -/
theorem standsAfter_succ_iff {taken taken' : List (String × Location)} {es : List Document} {m : Nat}
    (same : ∀ name, taken'.lookup name = none ↔ taken.lookup name = none ∧ ¬ Usable e name) :
    StandsAfter taken (e :: es) (m + 1) ↔ StandsAfter taken' es m := by
  simp only [StandsAfter, List.getElem?_cons_succ, List.take_succ_cons, List.forall_mem_cons, same,
    and_assoc]

/-- An entry without a free name is left out. -/
theorem sifted_skip {taken : List (String × Location)} {es : List Document} {gs : List Grouping}
    (unfit : ∀ name, taken.lookup name = none → ¬ Usable e name)
    (rest : Sifted (StandsAfter taken es) (fun m g => ∃ e, es[m]? = some e ∧ MadeOf e g) gs) :
    Sifted (StandsAfter taken (e :: es)) (fun m g => ∃ e', (e :: es)[m]? = some e' ∧ MadeOf e' g)
      gs := by
  refine .skip ?_ (rest.congr (fun m => ?_) fun _ _ => id)
  · rintro ⟨_, name, ⟨⟩, usable, free, -⟩
    exact unfit name free usable
  · exact (standsAfter_succ_iff fun name => (and_iff_left_of_imp (unfit name)).symm).symm

/-- The entries that stand are kept. -/
theorem sifted_checkEntries (place : Location) (taken : List (String × Location))
    (es : List Document) (first : Nat) :
    Sifted (StandsAfter taken es) (fun m g => ∃ e, es[m]? = some e ∧ MadeOf e g)
      (checkEntries place taken (es.zipIdx first)).value := by
  induction es generalizing taken first with
  | nil => exact .nil (by simp [StandsAfter])
  | cons e rest ih =>
    rw [List.zipIdx_cons, checkEntries, value_bind]
    have makes (name : String) := usable_iff e (place.index first) name
    cases found : (checkGrouping e (place.index first)).value with
    | none => exact sifted_skip (fun name _ => by simp [makes, found]) (ih taken (first + 1))
    | some g =>
      have named (name : String) : Usable e name ↔ g.name = name := by simp [makes, found]
      dsimp only
      cases used : taken.lookup g.name with
      | some earlier =>
        refine sifted_skip (fun name free usable => ?_) (ih taken (first + 1))
        rw [← (named name).1 usable, used] at free
        cases free
      | none =>
        refine .keep ⟨e, g.name, rfl, (named _).2 rfl, used, by simp⟩
          ⟨e, rfl, madeOf_of_value found⟩ ((ih _ (first + 1)).congr (fun m => ?_) fun _ _ => id)
        refine (standsAfter_succ_iff fun name => ?_).symm
        rw [lookup_cons_eq_none_iff, named, and_comm, ne_comm]

end Entries

/-! ## Entries of a document -/

/-- The entries of a direction. -/
def entries (d : Document) (direction : Direction) : List Document :=
  listed ((d.field? "groups").bind (·.field? direction.field))

/-- The groupings of a direction that the check keeps. -/
def kept (d : Document) (direction : Direction) : List Grouping :=
  let groupings := (checkGroups (d.field? "groups")).value
  match direction with
  | .upgrade => groupings.1
  | .downgrade => groupings.2.getD []

/-- What the check makes of the processing. -/
def processed (d : Document) (service : String) : Bool :=
  isProcessed (checkProcessing (d.field? "processing")).value
    (shownThrough (d.field? "processing")) service

section Document

variable {d : Document}

theorem sifted_checkGroupings (v : Document) (place : Location) :
    Sifted (StandsAt (listed (some v))) (fun m g => ∃ e, (listed (some v))[m]? = some e ∧ MadeOf e g)
      (checkGroupings v place).value := by
  cases v with
  | list items =>
    exact (sifted_checkEntries place [] items 0).congr (fun _ => standsAfter_nil_iff)
      fun _ _ => id
  | null | boolean _ | number _ | text _ | record _ => exact .nil (by simp [StandsAt, listed])

theorem sifted_kept (d : Document) (direction : Direction) :
    Sifted (StandsAt (entries d direction))
      (fun m g => ∃ e, (entries d direction)[m]? = some e ∧ MadeOf e g) (kept d direction) := by
  have empty : Sifted (StandsAt []) (fun m g => ∃ e, [][m]? = some e ∧ MadeOf e g) [] :=
    .nil (by simp [StandsAt])
  unfold entries kept
  cases d.field? "groups" with
  | none => cases direction <;> exact empty
  | some groups =>
    cases groups with
    | record fields =>
      cases direction with
      | upgrade =>
        simp only [Option.bind_some, Direction.field, checkGroups, value_bind, value_pure]
        cases (Document.record fields).field? "upgrade" with
        | none => exact empty
        | some v => exact sifted_checkGroupings v _
      | downgrade =>
        simp only [Option.bind_some, Direction.field, checkGroups, value_bind, value_pure]
        cases (Document.record fields).field? "downgrade" with
        | none => exact empty
        | some v => exact sifted_checkGroupings v _
    | null | boolean _ | number _ | text _ | list _ => cases direction <;> exact empty

/-- The warnings of a rolling document are those of the groupings that are kept. -/
theorem unprocessed_mem_check_iff (rolling : d.HasWord "type" Orchestration.rolling)
    {place : Location} {service : String} :
    .unprocessedService place service ∈ (check d).issues ↔ ∃ direction : Direction,
      .unprocessedService place service ∈ unprocessedIn
        (checkProcessing (d.field? "processing")).value (shownThrough (d.field? "processing"))
        direction.field (kept d direction) := by
  have no_error {α : Type} {c : Checked α} {P : Issue → Prop} (only : c.Only P)
      (error : ∀ i, P i → i.isError = true) : .unprocessedService place service ∉ c.issues :=
    fun mem => Bool.false_ne_true (error _ (only _ mem))
  cases d with
  | record fields =>
    have type : (requireWord Orchestration (.record fields) "type" []).value = some .rolling := by
      rw [requireWord_gives.complete (some .rolling) ⟨_, rfl, rolling⟩]
    simp only [check, checkFields, issues_bind, value_bind, type, if_true, issues_pure,
      List.append_nil, List.mem_append, no_error requireText_about fun _ h => h.error,
      no_error requireWord_about fun _ h => h.error,
      no_error checkTargetStack_about fun _ h => h.error,
      no_error checkProcessing_inside fun _ h => h.error,
      no_error checkGroups_inside fun _ h => h.error, false_or]
    constructor
    · rintro (up | down)
      · exact ⟨.upgrade, up⟩
      · exact ⟨.downgrade, down⟩
    · rintro ⟨direction, mem⟩
      cases direction with
      | upgrade => exact .inl mem
      | downgrade => exact .inr mem
  | null | boolean _ | number _ | text _ | list _ => cases rolling

end Document

/-! ## Places of warnings -/

/-- The items of the services of an entry. -/
def ordersOf (d : Document) (direction : Direction) (m : Nat) : List Document :=
  listed ((entries d direction)[m]?.bind (·.field? "services"))

theorem ordersOf_of_entry {d e : Document} {direction : Direction} {m : Nat}
    (there : (entries d direction)[m]? = some e) :
    ordersOf d direction m = listed (e.field? "services") := by
  rw [ordersOf, there, Option.bind_some]

/-- An entry of a direction stands, is no service check, and has an item that orders a service
without processing. -/
structure OrdersBare (d : Document) (direction : Direction) (m n : Nat) (service : String) :
    Prop where
  stands : StandsAt (entries d direction) m
  standard : ∀ e, (entries d direction)[m]? = some e →
    e.field? "kind" ≠ some (.text "service-check")
  ordered : ∃ item s, (ordersOf d direction m)[n]? = some item ∧ OrderedService.DeclaredIn item s ∧
    s.serviceName = service
  bare : processed d service = false

/-- The place that a warning has for an item of an entry. -/
noncomputable def warnedPlace (d : Document) (direction : Direction) (m n : Nat) : Location :=
  servicePlace direction.field (rank (StandsAt (entries d direction)) m)
    (rank (OrdersAt (ordersOf d direction m)) n)

/-- Nothing is left out before an item of an entry: neither entries before that entry nor items
before that item. -/
def AllBefore (d : Document) (direction : Direction) (m n : Nat) : Prop :=
  (∀ k < m, StandsAt (entries d direction) k) ∧ ∀ k < n, OrdersAt (ordersOf d direction m) k

/-- The document orders a service at a place. -/
def NamedAt (d : Document) (place : Location) (service : String) : Prop :=
  (place.field "serviceName").find? d = some (.text service)

section Places

variable {d : Document} {direction : Direction} {m n : Nat} {place : Location} {service : String}

theorem warnedPlace_eq_iff :
    warnedPlace d direction m n = servicePlace direction.field m n ↔ AllBefore d direction m n := by
  rw [AllBefore, ← rank_eq_iff, ← rank_eq_iff]
  constructor
  · intro same
    exact (servicePlace_inj same).2
  · rintro ⟨hm, hn⟩
    rw [warnedPlace, hm, hn]

theorem getElem?_listed (value : Option Document) (n : Nat) :
    (listed value)[n]? = value.bind (Location.find? · [.index n]) := by
  cases value with
  | none => rfl
  | some v =>
    cases v with
    | list items => simp [listed, Location.find?]
    | null | boolean _ | number _ | text _ | record _ => rfl

/-- What a document has at the place of an item. -/
theorem find?_servicePlace (d : Document) (direction : Direction) (m n : Nat) :
    (servicePlace direction.field m n).find? d = (ordersOf d direction m)[n]? := by
  have there : servicePlace direction.field m n =
      [.field "groups"] ++ ([.field direction.field] ++ ([.index m] ++
        ([.field "services"] ++ [.index n]))) := rfl
  simp only [there, Location.find?_append, ordersOf, entries, getElem?_listed, Location.find?_field,
    Option.bind_assoc]

example : (servicePlace "upgrade" 0 1).text = "groups.upgrade[0].services[1]" := by decide

theorem namedAt_servicePlace_iff : NamedAt d (servicePlace direction.field m n) service ↔
    ∃ item, (ordersOf d direction m)[n]? = some item ∧
      item.field? "serviceName" = some (.text service) := by
  simp only [NamedAt, Location.field, Location.find?_append, find?_servicePlace,
    Location.find?_field, Option.bind_eq_some_iff]

theorem OrdersBare.namedAt (h : OrdersBare d direction m n service) :
    NamedAt d (servicePlace direction.field m n) service := by
  obtain ⟨item, s, there, declared, rfl⟩ := h.ordered
  exact namedAt_servicePlace_iff.2 ⟨item, there, declared.1.1⟩

/-- What is warned of, in terms of the document. -/
theorem unprocessed_mem_iff (rolling : d.HasWord "type" Orchestration.rolling) :
    .unprocessedService place service ∈ (check d).issues ↔ ∃ direction m n,
      OrdersBare d direction m n service ∧ place = warnedPlace d direction m n := by
  rw [unprocessed_mem_check_iff rolling]
  refine exists_congr fun direction => ?_
  rw [mem_unprocessedIn_iff]
  have stand := sifted_kept d direction
  constructor
  · rintro ⟨i, g, j, s, hg, kind, hs, bare, same⟩
    obtain ⟨rfl, rfl⟩ := Issue.unprocessedService.inj same
    obtain ⟨m, stands, ⟨e, he, made⟩, rfl⟩ := stand.origin hg
    obtain ⟨n, -, ⟨item, hitem, declared⟩, rfl⟩ := made.services.origin hs
    have orders := ordersOf_of_entry he
    refine ⟨m, n, ⟨stands, ?_, ⟨item, s, orders ▸ hitem, declared, rfl⟩, bare⟩, ?_⟩
    · intro e' he' stated
      obtain rfl := Option.some.inj (he.symm.trans he')
      exact kind (made.checks_iff.2 stated)
    · rw [warnedPlace, orders]
  · rintro ⟨m, n, h, rfl⟩
    obtain ⟨g, ⟨e, he, made⟩, hg⟩ := stand.kept h.stands
    obtain ⟨item, s, hitem, declared, rfl⟩ := h.ordered
    have orders := ordersOf_of_entry he
    rw [orders] at hitem
    obtain ⟨s', ⟨item', hitem', declared'⟩, hs⟩ := made.services.kept ⟨item, hitem, s, declared⟩
    obtain rfl := Option.some.inj (hitem.symm.trans hitem')
    have named : s.serviceName = s'.serviceName := declared.1.unique declared'.1
    refine ⟨_, g, _, s', hg, fun checks => h.standard e he (made.checks_iff.1 checks), hs, ?_, ?_⟩
    · rw [← named]
      exact h.bare
    · rw [warnedPlace, orders, named]

end Places

/-! ## Accepted documents -/

section Accepted

variable {d : Document} {p : Pack}

theorem forall₂_listed {α : Type} {R : Document → α → Prop} {value : Option Document}
    {as : List α} (read : Reads value (ListOf R) [] as) : List.Forall₂ R (listed value) as := by
  cases value with
  | none =>
    obtain rfl : as = [] := read
    exact .nil
  | some v =>
    obtain ⟨items, rfl, related⟩ := read
    exact related

theorem kept_of_declared (declared : DeclaredIn d p) (direction : Direction) :
    List.Forall₂ (fun e g => g.DeclaredIn e) (entries d direction) (kept d direction) := by
  have value : (checkGroups (d.field? "groups")).value = (p.upgrade, p.downgrade) := by
    rw [checkGroups_accepts.complete (p.upgrade, p.downgrade)
      ⟨declared.upgrade, declared.downgrade⟩]
  cases direction with
  | upgrade =>
    obtain ⟨v, written, related, -⟩ := declared.upgrade
    simp only [entries, kept, Direction.field, value, written]
    exact @forall₂_listed _ _ (some v) _ related
  | downgrade =>
    have read := declared.downgrade
    simp only [entries, kept, Direction.field, value]
    cases written : (d.field? "groups").bind (·.field? "downgrade") with
    | none =>
      rw [written, reads_none] at read
      rw [read]
      exact .nil
    | some v =>
      rw [written, reads_some] at read
      obtain ⟨gs, found, related, -⟩ := read
      rw [found]
      exact @forall₂_listed _ _ (some v) _ related

/-- Nothing of an accepted document is left out. -/
theorem allBefore_of_declared (declared : DeclaredIn d p) {direction : Direction} {m n : Nat}
    {service : String} (h : OrdersBare d direction m n service) : AllBefore d direction m n := by
  have related := kept_of_declared declared direction
  have stand := sifted_kept d direction
  have few (k : Nat) : StandsAt (entries d direction) k → k < (kept d direction).length := by
    rintro ⟨e, _, there, -⟩
    exact related.length_eq ▸ (List.getElem?_eq_some_iff.1 there).1
  have all (k : Nat) (before : k < m) : StandsAt (entries d direction) k :=
    stand.all few (before.trans (few m h.stands))
  refine ⟨all, fun k before => ?_⟩
  -- So the entry has kept its position, and the grouping that is there is the one it declares.
  obtain ⟨g, ⟨e, he, made⟩, hg⟩ := stand.kept h.stands
  rw [rank_eq_iff.2 all] at hg
  obtain ⟨shorter, rfl⟩ := List.getElem?_eq_some_iff.1 he
  obtain ⟨shorter', rfl⟩ := List.getElem?_eq_some_iff.1 hg
  have items := forall₂_listed (related.get shorter shorter').services
  obtain ⟨item, _, there, -⟩ := h.ordered
  rw [ordersOf_of_entry he] at there ⊢
  refine made.services.all ?_ (before.trans (items.length_eq ▸ (List.getElem?_eq_some_iff.1 there).1))
  rintro j ⟨_, there', -⟩
  exact items.length_eq ▸ (List.getElem?_eq_some_iff.1 there').1

end Accepted

section Main

variable {d : Document}

/-- **Places of warnings.** Every warning of a rolling document, valid or not, stands for an item
that orders a service without processing, and every such item has its warning. The document names
the service at the place of that item. The warning has that place exactly when nothing before is
left out, as in every accepted document. So all warnings point at their service exactly when for
each of them nothing before is left out, or the item at the place that it has orders the same
service. -/
theorem warned_places (rolling : d.HasWord "type" Orchestration.rolling) :
    (∀ place service, .unprocessedService place service ∈ (check d).issues ↔
      ∃ direction m n, OrdersBare d direction m n service ∧
        place = warnedPlace d direction m n) ∧
    (∀ direction m n service, OrdersBare d direction m n service →
      NamedAt d (servicePlace direction.field m n) service ∧
      (warnedPlace d direction m n = servicePlace direction.field m n ↔
        AllBefore d direction m n) ∧
      ((check d).value.isSome → AllBefore d direction m n)) ∧
    ((∀ place service, .unprocessedService place service ∈ (check d).issues →
        NamedAt d place service) ↔
      ∀ direction m n service, OrdersBare d direction m n service →
        AllBefore d direction m n ∨ NamedAt d (warnedPlace d direction m n) service) := by
  have warned (place : Location) (service : String) :
      .unprocessedService place service ∈ (check d).issues ↔ ∃ direction m n,
        OrdersBare d direction m n service ∧ place = warnedPlace d direction m n :=
    unprocessed_mem_iff rolling
  refine ⟨warned, fun direction m n service h => ⟨h.namedAt, warnedPlace_eq_iff, ?_⟩, ?_⟩
  · intro accepted
    obtain ⟨p, given⟩ := Option.isSome_iff_exists.1 accepted
    exact allBefore_of_declared (check_value_iff.1 given) h
  · constructor
    · intro right direction m n service h
      exact .inr (right _ _ ((warned _ _).2 ⟨direction, m, n, h, rfl⟩))
    · intro right place service mem
      obtain ⟨direction, m, n, h, rfl⟩ := (warned _ _).1 mem
      rcases right direction m n service h with all | moved
      · rw [warnedPlace_eq_iff.2 all]
        exact h.namedAt
      · exact moved

end Main

/-! ## An entry without a name -/

/-- An entry that orders a service, under a name if it has one. -/
def orderingEntry (name : Option String) (service : String) : Document :=
  .ofOptional [("name", name.map .text),
    ("services", some (.list [.record [("serviceName", .text service)]]))]

/-- The document of a rolling pack that orders HDFS, in an entry without a name, and then ZooKeeper.
It has no processing. -/
def afterNameless : Document :=
  .record [("name", .text "zookeeper"), ("type", .text "ROLLING"),
    ("targetStack", .text "HDP-2.3"),
    ("groups", .record [("upgrade", .list
      [orderingEntry none "HDFS", orderingEntry (some "SERVERS") "ZOOKEEPER"])])]

theorem not_usable_nameless {service name : String} :
    ¬ Usable (orderingEntry none service) name := by
  rintro ⟨-, ⟨there, -⟩, -⟩
  cases there

theorem not_standsAt_nameless : ¬ StandsAt (entries afterNameless .upgrade) 0 := by
  rintro ⟨e, name, there, usable, -⟩
  obtain rfl := Option.some.inj there
  exact not_usable_nameless usable

theorem ordersBare_afterNameless : OrdersBare afterNameless .upgrade 1 0 "ZOOKEEPER" where
  stands := by
    have named : (orderingEntry (some "SERVERS") "ZOOKEEPER").HasText "name" "SERVERS" :=
      ⟨rfl, by decide⟩
    have headed : Headed (orderingEntry (some "SERVERS") "ZOOKEEPER") :=
      ⟨⟨"SERVERS", named⟩, ⟨"default", by decide, rfl⟩, ⟨.complete, rfl⟩⟩
    refine ⟨_, "SERVERS", rfl, ⟨headed, named, nofun⟩, ?_⟩
    rintro earlier mem
    obtain rfl := List.mem_singleton.1 mem
    exact not_usable_nameless
  standard := by
    rintro e there
    obtain rfl := Option.some.inj there
    nofun
  ordered := ⟨_, ⟨"ZOOKEEPER", []⟩, rfl, ⟨⟨rfl, by decide⟩, rfl⟩, rfl⟩
  bare := by decide

theorem warnedPlace_afterNameless :
    warnedPlace afterNameless .upgrade 1 0 = servicePlace "upgrade" 0 0 := by
  rw [warnedPlace, rank_succ_of_neg not_standsAt_nameless, rank_zero, rank_zero]
  rfl

theorem warned_places_afterNameless :
    afterNameless.HasWord "type" Orchestration.rolling ∧
    .unprocessedService (servicePlace "upgrade" 0 0) "ZOOKEEPER" ∈ (check afterNameless).issues ∧
    NamedAt afterNameless (servicePlace "upgrade" 1 0) "ZOOKEEPER" ∧
    ¬ AllBefore afterNameless .upgrade 1 0 := by
  have rolling : afterNameless.HasWord "type" Orchestration.rolling := rfl
  obtain ⟨warned, places, -⟩ := warned_places rolling
  obtain ⟨named, same, -⟩ := places _ _ _ _ ordersBare_afterNameless
  refine ⟨rolling, ?_, named, ?_⟩
  · exact (warned _ _).2 ⟨_, _, _, ordersBare_afterNameless, warnedPlace_afterNameless.symm⟩
  · rw [← same, warnedPlace_afterNameless]
    exact fun moved => absurd (servicePlace_inj moved).2.1 (by decide)

/-- The warning about ZooKeeper names a place where the document orders HDFS. -/
theorem warned_at_other_service : afterNameless.HasWord "type" Orchestration.rolling ∧
    .unprocessedService (servicePlace "upgrade" 0 0) "ZOOKEEPER" ∈ (check afterNameless).issues ∧
    NamedAt afterNameless (servicePlace "upgrade" 0 0) "HDFS" ∧
    ¬ NamedAt afterNameless (servicePlace "upgrade" 0 0) "ZOOKEEPER" := by
  have rolling : afterNameless.HasWord "type" Orchestration.rolling := rfl
  refine ⟨rolling, ?_, rfl, ?_⟩
  · exact (unprocessed_mem_iff rolling).2
      ⟨_, _, _, ordersBare_afterNameless, warnedPlace_afterNameless.symm⟩
  · intro named
    have same : some (Document.text "HDFS") = some (.text "ZOOKEEPER") := named
    simp at same

end Pack

end ClusterUpgrade
