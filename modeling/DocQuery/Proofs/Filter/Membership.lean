import DocQuery.Proofs.Bag.Nodes
import DocQuery.Proofs.Bag.RoundTrip
import DocQuery.Proofs.Filter.Rendering
import DocQuery.Proofs.Json.Line
import DocQuery.Proofs.Value.Alike
/-!
# Conditions on membership

Behind `$in` and `$nin` the values stand as a list that is JSON, with no literal of the query
language in it and nothing quoted twice. `membership_lists_values` says that this list is the list
of the values, whichever way the condition was made.
-/
namespace DocQuery

/-- The condition on membership in a list that is written as given. -/
def membershipText (parameter token list : String) : String :=
  "\x7b " ++ quoted parameter ++ " : \x7b " ++ token ++ ": " ++ list ++ " \x7d \x7d"

theorem Predicate.body_of_set {p : Predicate} {token : String}
    (set : p.comparison.token = .set token) : p.body = token ++ ": " ++ p.value.text := by
  rw [body, set]

theorem Filter.compile_of_set {p : Predicate} {token : String} (named : p.parameter ≠ "")
    (set : p.comparison.token = .set token) :
    (Filter.single (.leaf p)).compile =
      .ok (membershipText p.parameter token p.value.text) := by
  rw [compile_of_body named (p.body_of_set set)]
  rfl

/-- A bag with one comparison at its root, which holds a list. -/
def FilterBag.ofList (p : Predicate) (op root : Connective) : FilterBag where
  condition := some ⟨p.parameter, p.fieldType, p.comparison, some p.value, op, []⟩
  groupOperator := root

theorem FilterBag.filter_ofList {p : Predicate} (named : p.parameter ≠ "") (op root : Connective) :
    (ofList p op root).filter = .ok (.single (.leaf p)) := by
  have leaf : ConditionBag.condition
      ⟨p.parameter, p.fieldType, p.comparison, some p.value, op, []⟩ = .ok (.leaf p) :=
    (ConditionBag.condition_eq_ok_iff _ _).mpr (Or.inl ⟨named, by simp, rfl⟩)
  exact (filter_eq_ok_iff _ _).mpr (Or.inl ⟨_, _, rfl, by simp [ofList], leaf, rfl⟩)

/-- A node that is given a plain list has a list that is like it. -/
theorem ConditionBag.value_of_gives {budget : Nat} {m : Json} {n : ConditionBag}
    (h : ofJson? budget m = some n) {items : List Value} (plain : Value.itemsArePlain items = true)
    (gives : m.Gives "value" 3 (Value.array items).storedJson) :
    ∃ ws, n.predicate.value = .array ws ∧ List.Forall₂ Value.Alike items ws := by
  cases budget with
  | zero => cases h
  | succ budget =>
    obtain ⟨w, read, value⟩ := Option.map_eq_some_iff.mp ((ofJson?_gives h).1 _ gives)
    have alike : Value.Alike (.array items) w :=
      Value.alike_of_read (show (Value.array items).isPlain = true from plain) read
    cases alike with
    | integer left _ => cases left
    | @array _ ws each =>
      refine ⟨ws, ?_, each⟩
      rw [predicate, ← value]
      rfl

/-- Whatever the name and whatever plain values, there is one text for the list. It stands behind
`$in` and behind `$nin`, and it is JSON without control characters; where readers may go down its
levels it is read as a list of the same length with equal elements in the same order. The same text
stands behind the operator of every comparison whose list is like this one, so also of every
comparison in a filter from JSON whose node is given this list. With a single such node at its root
the JSON compiles to the same text as the condition itself, whatever type of field the node tells
and in whatever way the bag is written. -/
theorem membership_lists_values {parameter : String} {items : List Value} (named : parameter ≠ "")
    (plain : Value.itemsArePlain items = true) :
    ∃ list : String,
      (Filter.single (.oneOf parameter items)).compile =
        .ok (membershipText parameter "$in" list) ∧
      (Filter.single (.noneOf parameter items)).compile =
        .ok (membershipText parameter "$nin" list) ∧
      (∀ c ∈ list.toList, 0x20 ≤ c.toNat) ∧
      Json.read? list = some (Value.array items).storedJson ∧
      ((Value.array items).relaxedJson.depth ≤ maxLevels →
        ∃ ws, readText? Value.ofJson? list = .ok (.array ws) ∧
          List.Forall₂ Value.Alike items ws) ∧
      (∀ (p : Predicate) (token : String) (ws : List Value), p.comparison.token = .set token →
        p.value = .array ws → List.Forall₂ Value.Alike items ws →
          p.body = token ++ ": " ++ list) ∧
      (∀ (t : String) (f : Filter), Filter.ofText t = .ok f →
        ∃ j, Json.read? t = some j ∧ ∀ q ∈ f.leaves, ∃ m budget n, m.Within j ∧
          ConditionBag.ofJson? budget m = some n ∧ n.predicate = q ∧
          ∀ token, q.comparison.token = .set token →
            m.Gives "value" 3 (Value.array items).storedJson → q.body = token ++ ": " ++ list) ∧
      ∀ (fieldType : FieldType) (comparison : Comparison) (token : String) (op root : Connective),
        comparison.token = .set token →
        let b := FilterBag.ofList ⟨parameter, fieldType, comparison, .array items⟩ op root
        b.toJson.depth ≤ maxLevels → ∀ j t, b.Written j → Json.read? t = some j →
          (Filter.ofText t >>= Filter.compile) = .ok (membershipText parameter token list) := by
  have alikeBody {p : Predicate} {token : String} {ws : List Value}
      (set : p.comparison.token = .set token) (value : p.value = .array ws)
      (alike : List.Forall₂ Value.Alike items ws) :
      p.body = token ++ ": " ++ (Value.array items).text := by
    rw [p.body_of_set set, value, Value.text_array_of_alike alike]
  refine ⟨(Value.array items).text, Filter.compile_of_set named rfl, Filter.compile_of_set named rfl,
    Json.printed_text (Value.array items).relaxedJson, Value.read?_text_array plain,
    Value.readText?_text_array plain, fun p token ws => alikeBody, ?_, ?_⟩
  · intro t f h
    obtain ⟨j, parsed, leaves⟩ := Filter.leaves_of_ofText h
    refine ⟨j, parsed, fun q member => ?_⟩
    obtain ⟨m, budget, n, inside, read, rfl⟩ := leaves q member
    refine ⟨m, budget, n, inside, read, rfl, fun token set gives => ?_⟩
    obtain ⟨ws, value, alike⟩ := ConditionBag.value_of_gives read plain gives
    exact alikeBody set value alike
  · intro fieldType comparison token op root set b shallow j t written read
    have values : b.isPlain = true := by
      simp [b, FilterBag.ofList, FilterBag.isPlain, ConditionBag.isPlain, Value.isPlain, plain,
        ConditionBag.allArePlain]
    have converted : b.filter = .ok _ := FilterBag.filter_ofList named op root
    rw [Filter.ofText_of_written values shallow written read, converted]
    exact (Filter.compile_resized _).trans (Filter.compile_of_set named set)

/-- A text that would end the list if it stood there bare, a long integer that is read as a short
one, and a list within the list. -/
theorem membership_lists_nested_values :
    let items : List Value := [.string "]\"\n", .int64 5, .array [.null, .bool true]]
    let b := FilterBag.ofList ⟨"tags", .string, .isIn, .array items⟩ .and .none
    ("tags" ≠ "" ∧ Value.itemsArePlain items = true) ∧
    ∃ list ws, readText? Value.ofJson? list = .ok (.array ws) ∧
      List.Forall₂ Value.Alike items ws ∧
      (Filter.single (.oneOf "tags" items)).compile = .ok (membershipText "tags" "$in" list) ∧
      (Filter.ofText b.toJson.text >>= Filter.compile) =
        .ok (membershipText "tags" "$in" list) := by
  intro items b
  have named : "tags" ≠ "" := by decide
  have plain : Value.itemsArePlain items = true := rfl
  obtain ⟨list, isIn, _, _, _, readsBack, _, _, fromBag⟩ := membership_lists_values named plain
  obtain ⟨ws, read, alike⟩ := readsBack (by decide)
  have text : Json.read? b.toJson.text = some b.toJson := by
    rw [Json.read?_text, FilterBag.reread_written b.written_toJson rfl]
  exact ⟨⟨named, plain⟩, list, ws, read, alike, isIn,
    fromBag .string .isIn "$in" .and .none rfl (by decide) _ _ b.written_toJson text⟩

end DocQuery
