import DocQuery.Proofs.Json.Reading
import DocQuery.Filter.Compile
import DocQuery.Value.OfJson
/-!
# Integers in the width of a reader

JSON tells how great an integer is and not how wide it was. A reader gives it the width that it
finds fit (`Value.resized`). Values that are made of null, truth values, integers, texts and lists
are read back like this (`Value.ofJson?_storedJson`), and in a query no width can be seen: texts and
literals stay the same.
-/
namespace DocQuery

namespace Value

/-- An integer in the width in which it is read. -/
def ofInt (i : Int) : Value :=
  if 0 ≤ i ∧ i ≤ int32Range.2 then .int32 (Int32.ofInt i) else .int64 (Int64.ofInt i)

mutual

/-- The value with all integers in the width in which they are read. -/
def resized : Value → Value
  | .int32 n => ofInt n.toInt
  | .int64 n => ofInt n.toInt
  | .array items => .array (resizedItems items)
  | v => v

def resizedItems : List Value → List Value
  | [] => []
  | v :: rest => resized v :: resizedItems rest

end

mutual

/-- The value is made of null, truth values, integers, texts and lists of such values. -/
def isPlain : Value → Bool
  | .null => true
  | .bool _ => true
  | .int32 _ => true
  | .int64 _ => true
  | .string _ => true
  | .array items => itemsArePlain items
  | _ => false

def itemsArePlain : List Value → Bool
  | [] => true
  | v :: rest => isPlain v && itemsArePlain rest

end

/-- Either width tells the same integer. -/
theorem ofInt_cases {i : Int} (low : -9223372036854775808 ≤ i) (high : i ≤ 9223372036854775807) :
    (∃ n : Int32, ofInt i = .int32 n ∧ n.toInt = i) ∨
    ∃ n : Int64, ofInt i = .int64 n ∧ n.toInt = i := by
  unfold ofInt
  by_cases narrow : 0 ≤ i ∧ i ≤ int32Range.2
  · have bound : i ≤ 2147483647 := narrow.2
    rw [if_pos narrow]
    exact Or.inl ⟨_, rfl, Int32.toInt_ofInt_of_le (by omega) (by omega)⟩
  · rw [if_neg narrow]
    exact Or.inr ⟨_, rfl, Int64.toInt_ofInt_of_le (by omega) (by omega)⟩

theorem ofInt?_eq {i : Int} (low : -9223372036854775808 ≤ i) (high : i ≤ 9223372036854775807) :
    ofInt? i = some (ofInt i) := by
  have inside : inRange int64Range i = true := by
    simp only [inRange, int64Range, Bool.and_eq_true]
    exact ⟨decide_eq_true low, decide_eq_true high⟩
  unfold ofInt? ofInt
  by_cases narrow : 0 ≤ i ∧ i ≤ int32Range.2
  · simp [narrow]
  · rw [if_neg (by simpa using narrow), if_pos inside, if_neg narrow]

/-- An integer of either width, taken as sixty-four bits. -/
theorem int32_bounds (n : Int32) :
    -9223372036854775808 ≤ n.toInt ∧ n.toInt ≤ 9223372036854775807 := by
  have low := n.le_toInt
  have high := n.toInt_lt
  omega

theorem int64_bounds (n : Int64) :
    -9223372036854775808 ≤ n.toInt ∧ n.toInt ≤ 9223372036854775807 := by
  have low := n.le_toInt
  have high := n.toInt_lt
  omega

section

variable {i : Int} (low : -9223372036854775808 ≤ i) (high : i ≤ 9223372036854775807)
include low high

theorem toJson_ofInt (style : JsonStyle) : (ofInt i).toJson style = .int i := by
  rcases ofInt_cases low high with ⟨n, shape, value⟩ | ⟨n, shape, value⟩
  · rw [shape, toJson, value]
  · rw [shape, toJson, value]

theorem text_ofInt : (ofInt i).text = Decimal.intText i := by
  rcases ofInt_cases low high with ⟨n, shape, value⟩ | ⟨n, shape, value⟩
  · rw [shape, text, value]
  · rw [shape, text, value]

theorem literal_ofInt (parameter : String) (fieldType : FieldType) (comparison : Comparison) :
    Predicate.literal ⟨parameter, fieldType, comparison, ofInt i⟩ =
      if fieldType = .string then quoted (Decimal.intText i) else Decimal.intText i := by
  rcases ofInt_cases low high with ⟨n, shape, value⟩ | ⟨n, shape, value⟩
  · rw [shape, ← value]
    cases fieldType <;> rfl
  · rw [shape, ← value]
    cases fieldType <;> rfl

end

mutual

/-- As JSON the width cannot be seen. -/
theorem toJson_resized (style : JsonStyle) : ∀ v : Value, v.resized.toJson style = v.toJson style
  | .int32 n => toJson_ofInt (int32_bounds n).1 (int32_bounds n).2 style
  | .int64 n => toJson_ofInt (int64_bounds n).1 (int64_bounds n).2 style
  | .array items => congrArg Json.array (itemsToJson_resized style items)
  | .null | .undefined | .minKey | .maxKey | .bool _ | .double _ | .decimal _ | .string _
  | .symbol _ | .code _ | .scopedCode _ _ | .document _ | .date _ | .objectId _ | .binary _ _
  | .regex _ _ | .timestamp _ _ | .pointer _ _ => rfl

theorem itemsToJson_resized (style : JsonStyle) : ∀ items : List Value,
    itemsToJson style (resizedItems items) = itemsToJson style items
  | [] => rfl
  | v :: rest => by
    rw [resizedItems, itemsToJson, itemsToJson, toJson_resized style v,
      itemsToJson_resized style rest]

end

theorem text_resized (v : Value) : v.resized.text = v.text := by
  cases v with
  | int32 n => exact text_ofInt (int32_bounds n).1 (int32_bounds n).2
  | int64 n => exact text_ofInt (int64_bounds n).1 (int64_bounds n).2
  | array items =>
    have same := toJson_resized .relaxed (.array items)
    show (Value.toJson .relaxed _).sorted.text = (Value.toJson .relaxed _).sorted.text
    rw [same]
  | _ => rfl

end Value

namespace Predicate

/-- The predicate with a value in the width in which it is read. -/
def resized (p : Predicate) : Predicate :=
  { p with value := p.value.resized }

theorem literal_resized (p : Predicate) : p.resized.literal = p.literal := by
  obtain ⟨parameter, fieldType, comparison, value⟩ := p
  cases value with
  | int32 n =>
    refine (Value.literal_ofInt (Value.int32_bounds n).1 (Value.int32_bounds n).2 _ _ _).trans ?_
    cases fieldType <;> rfl
  | int64 n =>
    refine (Value.literal_ofInt (Value.int64_bounds n).1 (Value.int64_bounds n).2 _ _ _).trans ?_
    cases fieldType <;> rfl
  | array items =>
    have same : (Value.array items).resized.text = (Value.array items).text :=
      Value.text_resized (.array items)
    have quotedText (v : Value) (h : ∃ items, v = .array items) :
        literal ⟨parameter, fieldType, comparison, v⟩ = quoted v.text := by
      obtain ⟨items, rfl⟩ := h
      cases fieldType <;> rfl
    exact (quotedText _ ⟨_, rfl⟩).trans ((congrArg quoted same).trans (quotedText _ ⟨_, rfl⟩).symm)
  | _ => rfl

theorem render_resized (p : Predicate) : p.resized.render = p.render := by
  have literal := p.literal_resized
  have text : p.resized.value.text = p.value.text := p.value.text_resized
  have body : p.resized.body = p.body := by
    unfold body
    rw [literal, text]
    rfl
  unfold render
  rw [body]
  rfl

end Predicate

namespace Value

mutual

/-- Plain values are read back from what is stored of them, in their new width. -/
theorem ofJson?_storedJson : ∀ (v : Value) (budget : Nat), v.isPlain = true →
    v.storedJson.depth ≤ budget → ofJson? budget v.storedJson = some v.resized
  | .null, budget, _, _ => by cases budget <;> rfl
  | .bool _, budget, _, _ => by cases budget <;> rfl
  | .string _, budget, _, _ => by cases budget <;> rfl
  | .int32 n, budget, _, _ => by
    have read := ofInt?_eq (int32_bounds n).1 (int32_bounds n).2
    cases budget <;> exact read
  | .int64 n, budget, _, _ => by
    have read := ofInt?_eq (int64_bounds n).1 (int64_bounds n).2
    cases budget <;> exact read
  | .array items, 0, _, shallow => absurd shallow (Nat.not_succ_le_zero _)
  | .array items, budget + 1, plain, shallow => by
    have inside : Json.itemsDepth (itemsToJson .stored items) ≤ budget :=
      Nat.le_of_succ_le_succ shallow
    have read := mapM_ofJson?_storedJson items budget plain inside
    show ((itemsToJson .stored items).mapM (ofJson? budget)).map Value.array = _
    rw [read]
    rfl

theorem mapM_ofJson?_storedJson : ∀ (items : List Value) (budget : Nat),
    itemsArePlain items = true → Json.itemsDepth (itemsToJson .stored items) ≤ budget →
      (itemsToJson .stored items).mapM (ofJson? budget) = some (resizedItems items)
  | [], _, _, _ => rfl
  | v :: rest, budget, plain, shallow => by
    obtain ⟨first, others⟩ := Bool.and_eq_true_iff.mp plain
    have bound : max v.storedJson.depth (Json.itemsDepth (itemsToJson .stored rest)) ≤ budget :=
      shallow
    have read := ofJson?_storedJson v budget first (by omega)
    have behind := mapM_ofJson?_storedJson rest budget others (by omega)
    rw [itemsToJson, List.mapM_cons, behind]
    show (ofJson? budget v.storedJson).bind _ = _
    rw [read]
    rfl

end

mutual

/-- What is stored of a plain value is read from its text as it is. -/
theorem reread_storedJson : ∀ v : Value, v.isPlain = true → v.storedJson.reread = v.storedJson
  | .null, _ => rfl
  | .bool _, _ => rfl
  | .string _, _ => rfl
  | .int32 n, _ => by
    have bounds := int32_bounds n
    exact Json.reread_int bounds.1 (by omega)
  | .int64 n, _ => by
    have bounds := int64_bounds n
    exact Json.reread_int bounds.1 (by omega)
  | .array items, plain => Json.reread_array (reread_itemsToJson items plain)

theorem reread_itemsToJson : ∀ items : List Value, itemsArePlain items = true →
    ∀ j ∈ itemsToJson .stored items, j.reread = j
  | [], _ => List.forall_mem_nil _
  | v :: rest, plain => by
    obtain ⟨first, others⟩ := Bool.and_eq_true_iff.mp plain
    exact List.forall_mem_cons.mpr ⟨reread_storedJson v first, reread_itemsToJson rest others⟩

end

end Value
end DocQuery
