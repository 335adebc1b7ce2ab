import DocQuery.Proofs.Bag.Conversion
import DocQuery.Proofs.Json.Bag
/-!
# Where the nodes of a bag stand in its JSON

Every node of a bag that is read from JSON is read from a value inside of it
(`FilterBag.nodes_of_ofJson?`), with the properties that are given there. So every comparison of a
filter that is read from a text has its own object or list in the text.
-/
namespace DocQuery

namespace Json

/-- The value is `j` or stands in `j`, however deep. -/
inductive Within : Json → Json → Prop where
  | self {j : Json} : Within j j
  | item {m k : Json} {items : List Json} (here : k ∈ items) (below : Within m k) :
    Within m (.array items)
  | member {m k : Json} {name : String} {members : List (String × Json)}
    (here : (name, k) ∈ members) (below : Within m k) : Within m (.object members)

theorem Within.trans {l m j : Json} (inner : l.Within m) (outer : m.Within j) : l.Within j := by
  induction outer with
  | self => exact inner
  | item here _ ih => exact .item here ih
  | member here _ ih => exact .member here ih

theorem Gives.within {name : String} {place : Nat} {j v : Json} (h : j.Gives name place v) :
    v.Within j := by
  cases j with
  | object members => exact .member h .self
  | array items => exact .item (List.mem_of_getElem? h) .self
  | _ => cases h

theorem exists_of_mem_mapM {α β : Type} {f : α → Option β} {as : List α} {bs : List β}
    (h : as.mapM f = some bs) {b : β} (member : b ∈ bs) : ∃ a ∈ as, f a = some b := by
  induction as generalizing bs with
  | nil =>
    cases h
    cases member
  | cons a rest ih =>
    simp only [List.mapM_cons, Option.pure_def, Option.bind_eq_bind, Option.bind_eq_some_iff,
      Option.some.injEq] at h
    obtain ⟨c, first, others, following, rfl⟩ := h
    rcases List.mem_cons.mp member with rfl | later
    · exact ⟨a, List.mem_cons_self, first⟩
    · obtain ⟨d, inside, read⟩ := ih following later
      exact ⟨d, List.mem_cons_of_mem a inside, read⟩

theorem exists_of_nullable {α : Type} {read : Json → Option α} {found : Option Json} {a : α}
    (h : nullable read found = some (some a)) : ∃ k, found = some k ∧ read k = some a := by
  cases found with
  | none => cases h
  | some k =>
    cases k with
    | null => cases h
    | _ =>
      obtain ⟨_, read, same⟩ := Option.map_eq_some_iff.mp h
      cases same
      exact ⟨_, rfl, read⟩

/-- The elements of a list that may be missing are read from values inside of it. -/
theorem within_of_mem_list {α : Type} {budget : Nat} {read : Json → Option α} {found : Option Json}
    {as : List α} (h : orDefault [] (list? budget read) found = some as) {a : α} (member : a ∈ as) :
    ∃ k m, found = some k ∧ m.Within k ∧ read m = some a := by
  cases found with
  | none =>
    cases h
    cases member
  | some k =>
    cases k with
    | array items =>
      have walked : (if budget = 0 then none else items.mapM read) = some as := h
      split at walked
      · cases walked
      · obtain ⟨m, inside, element⟩ := exists_of_mem_mapM walked member
        exact ⟨_, m, rfl, .item inside .self, element⟩
    | _ => cases h

end Json

/-- The value of a node is the one that it is given, and its children stand inside of it. -/
theorem ConditionBag.ofJson?_gives {budget : Nat} {j : Json} {b : ConditionBag}
    (h : ofJson? (budget + 1) j = some b) :
    (∀ v, j.Gives "value" 3 v → Json.nullable (Value.ofJson? budget) (some v) = some b.value) ∧
    ∀ d ∈ b.groupConditions, ∃ m, m.Within j ∧ ofJson? (budget - 1) m = some d := by
  simp only [ofJson?, Option.bind_eq_bind, Option.bind_eq_some_iff] at h
  obtain ⟨values, found, h⟩ := h
  split at h
  next parameter fieldType compare value op group =>
    simp only [Option.bind_eq_some_iff] at h
    obtain ⟨_, _, _, _, _, _, given, readValue, _, _, h⟩ := h
    have itsValue : ∀ v, j.Gives "value" 3 v →
        Json.nullable (Value.ofJson? budget) (some v) = some given := by
      intro v gives
      rw [← (Json.bag?_found (i := 3) found rfl rfl v).mpr gives]
      exact readValue
    cases budget with
    | zero =>
      simp only [Option.bind_some, Option.bind_none] at h
      split at h
      · cases h
        exact ⟨itsValue, List.forall_mem_nil _⟩
      · cases h
    | succ below =>
      obtain ⟨children, readChildren, made⟩ := Option.bind_eq_some_iff.mp h
      cases made
      refine ⟨itsValue, fun d member => ?_⟩
      obtain ⟨k, m, rfl, inside, read⟩ := Json.within_of_mem_list readChildren member
      have gives := (Json.bag?_found (i := 5) found rfl rfl k).mp rfl
      exact ⟨m, inside.trans gives.within, read⟩
  next => cases h

/-- Each node below the root is read from a value inside the one from which the bag is read. -/
theorem ConditionBag.nodes_of_ofJson? {b : ConditionBag} {budget : Nat} {j : Json}
    (h : ofJson? budget j = some b) :
    ∀ n ∈ b.nodes, ∃ m below, m.Within j ∧ ofJson? below m = some n := by
  induction b using treeInduction generalizing budget j with
  | node b ih =>
    intro n member
    rcases mem_nodes.mp member with rfl | ⟨d, child, inside⟩
    · exact ⟨j, budget, .self, h⟩
    · cases budget with
      | zero => cases h
      | succ budget =>
        obtain ⟨k, outer, read⟩ := (ofJson?_gives h).2 d child
        obtain ⟨m, below, inner, node⟩ := ih d child read n inside
        exact ⟨m, below, inner.trans outer, node⟩

theorem FilterBag.nodes_of_ofJson? {b : FilterBag} {budget : Nat} {j : Json}
    (h : ofJson? budget j = some b) :
    ∀ n ∈ b.nodes, ∃ m below, m.Within j ∧ ConditionBag.ofJson? below m = some n := by
  intro n member
  obtain ⟨d, top, inside⟩ := mem_nodes.mp member
  suffices stands : ∃ k below, k.Within j ∧ ConditionBag.ofJson? below k = some d by
    obtain ⟨k, level, outer, read⟩ := stands
    obtain ⟨m, below, inner, node⟩ := ConditionBag.nodes_of_ofJson? read n inside
    exact ⟨m, below, inner.trans outer, node⟩
  cases budget with
  | zero => cases h
  | succ budget =>
    simp only [ofJson?, Option.bind_eq_bind, Option.bind_eq_some_iff] at h
    obtain ⟨values, found, h⟩ := h
    split at h
    next condition op group =>
      simp only [Option.bind_eq_some_iff, Option.some.injEq] at h
      obtain ⟨own, readOwn, _, _, children, readChildren, rfl⟩ := h
      rcases List.mem_append.mp top with single | child
      · obtain rfl : own = some d := Option.mem_toList.mp single
        obtain ⟨k, rfl, read⟩ := Json.exists_of_nullable readOwn
        have gives := (Json.bag?_found (i := 0) found rfl rfl k).mp rfl
        exact ⟨k, _, gives.within, read⟩
      · obtain ⟨k, m, rfl, inside, read⟩ := Json.within_of_mem_list readChildren child
        have gives := (Json.bag?_found (i := 2) found rfl rfl k).mp rfl
        exact ⟨m, _, inside.trans gives.within, read⟩
    next => cases h

/-- Every comparison of a filter that is read from a text is a node of the JSON in the text. -/
theorem Filter.leaves_of_ofText {t : String} {f : Filter} (h : ofText t = .ok f) :
    ∃ j, Json.read? t = some j ∧ ∀ q ∈ f.leaves, ∃ m budget n, m.Within j ∧
      ConditionBag.ofJson? budget m = some n ∧ n.predicate = q := by
  obtain ⟨b, read, converted⟩ := bind_eq_ok_iff.mp h
  obtain ⟨j, parsed, shaped⟩ := readText?_eq_ok_iff.mp read
  refine ⟨j, parsed, fun q member => ?_⟩
  have named : q ∈ b.named := (b.leaves_sublist_named f converted).subset member
  obtain ⟨n, node, compares⟩ := List.mem_filterMap.mp named
  obtain ⟨m, budget, inside, found⟩ := FilterBag.nodes_of_ofJson? shaped n node
  have same : n.predicate = q := by
    unfold ConditionBag.predicate? at compares
    split at compares
    · cases compares
    · exact Option.some.inj compares
  exact ⟨m, budget, n, inside, found, same⟩

end DocQuery
