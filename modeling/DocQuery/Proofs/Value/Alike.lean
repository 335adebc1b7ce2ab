import DocQuery.Bag.Reader
import DocQuery.Proofs.Value.Resized
/-!
# Values up to the width of integers

Two values are alike if they differ in the widths of integers at most. What is stored of a plain
value is read as a value that is like it and as nothing else (`alike_of_read`), values that are
alike have one text, and for lists of plain values this text is itself read back as a list that is
like the first (`readText?_text_array`).
-/
namespace DocQuery.Value

def int? : Value → Option Int
  | .int32 n => some n.toInt
  | .int64 n => some n.toInt
  | _ => none

/-- Made of equal texts, truth values, nulls and integers of equal value, in lists of the same
shape. -/
inductive Alike : Value → Value → Prop where
  | null : Alike .null .null
  | bool (b : Bool) : Alike (.bool b) (.bool b)
  | string (s : String) : Alike (.string s) (.string s)
  | integer {v w : Value} {i : Int} (left : v.int? = some i) (right : w.int? = some i) : Alike v w
  | array {vs ws : List Value} (each : List.Forall₂ Alike vs ws) : Alike (.array vs) (.array ws)

theorem int?_ofInt {i : Int} (low : -9223372036854775808 ≤ i) (high : i ≤ 9223372036854775807) :
    (ofInt i).int? = some i := by
  rcases ofInt_cases low high with ⟨n, shape, value⟩ | ⟨n, shape, value⟩
  · rw [shape, int?, value]
  · rw [shape, int?, value]

mutual

theorem alike_resized : ∀ v : Value, v.isPlain = true → Alike v v.resized
  | .null, _ => .null
  | .bool b, _ => .bool b
  | .string s, _ => .string s
  | .int32 n, _ => .integer rfl (int?_ofInt (int32_bounds n).1 (int32_bounds n).2)
  | .int64 n, _ => .integer rfl (int?_ofInt (int64_bounds n).1 (int64_bounds n).2)
  | .array items, plain => .array (alike_resizedItems items plain)

theorem alike_resizedItems : ∀ items : List Value, itemsArePlain items = true →
    List.Forall₂ Alike items (resizedItems items)
  | [], _ => .nil
  | v :: rest, plain => by
    obtain ⟨first, others⟩ := Bool.and_eq_true_iff.mp plain
    exact .cons (alike_resized v first) (alike_resizedItems rest others)

end

theorem toJson_of_int? {v : Value} {i : Int} (style : JsonStyle) (h : v.int? = some i) :
    v.toJson style = .int i := by
  cases v with
  | int32 n =>
    cases h
    rfl
  | int64 n =>
    cases h
    rfl
  | _ => cases h

mutual

/-- As JSON no width can be seen. -/
theorem Alike.toJson (style : JsonStyle) : ∀ {v w : Value}, Alike v w →
    w.toJson style = v.toJson style
  | _, _, .null | _, _, .bool _ | _, _, .string _ => rfl
  | _, _, .integer left right =>
    (toJson_of_int? style right).trans (toJson_of_int? style left).symm
  | _, _, .array each => congrArg Json.array (itemsToJson_of_alike style each)

theorem itemsToJson_of_alike (style : JsonStyle) : ∀ {vs ws : List Value}, List.Forall₂ Alike vs ws →
    itemsToJson style ws = itemsToJson style vs
  | _, _, .nil => rfl
  | _, _, .cons first others => by
    rw [itemsToJson, itemsToJson, first.toJson style, itemsToJson_of_alike style others]

end

theorem text_array (items : List Value) :
    (Value.array items).text = (Value.array items).relaxedJson.text := rfl

theorem text_array_of_alike {vs ws : List Value} (h : List.Forall₂ Alike vs ws) :
    (Value.array ws).text = (Value.array vs).text := by
  have same := (Alike.array h).toJson .relaxed
  rw [text_array, text_array, relaxedJson, relaxedJson, same]

mutual

/-- Of plain values both styles make the same JSON, in which no order of members is to be chosen. -/
theorem relaxedJson_of_plain : ∀ v : Value, v.isPlain = true → v.relaxedJson = v.storedJson
  | .null, _ | .bool _, _ | .string _, _ | .int32 _, _ | .int64 _, _ => rfl
  | .array items, plain => congrArg Json.array (sortedItems_of_plain items plain)

theorem sortedItems_of_plain : ∀ items : List Value, itemsArePlain items = true →
    Json.sortedItems (itemsToJson .relaxed items) = itemsToJson .stored items
  | [], _ => rfl
  | v :: rest, plain => by
    obtain ⟨first, others⟩ := Bool.and_eq_true_iff.mp plain
    have head : (v.toJson .relaxed).sorted = v.toJson .stored := relaxedJson_of_plain v first
    rw [itemsToJson, itemsToJson, Json.sortedItems, head, sortedItems_of_plain rest others]

end

mutual

/-- What is read has no more levels than may be read. -/
theorem depth_of_read : ∀ (v w : Value) (budget : Nat), v.isPlain = true →
    ofJson? budget v.storedJson = some w → v.storedJson.depth ≤ budget
  | .null, _, budget, _, _ | .bool _, _, budget, _, _ | .string _, _, budget, _, _
  | .int32 _, _, budget, _, _ | .int64 _, _, budget, _, _ => Nat.zero_le budget
  | .array items, _, 0, _, read => by cases read
  | .array items, _, budget + 1, plain, read => by
    obtain ⟨ws, each, _⟩ := Option.map_eq_some_iff.mp read
    exact Nat.succ_le_succ (itemsDepth_of_read items ws budget plain each)

theorem itemsDepth_of_read : ∀ (vs ws : List Value) (budget : Nat), itemsArePlain vs = true →
    (itemsToJson .stored vs).mapM (ofJson? budget) = some ws →
      Json.itemsDepth (itemsToJson .stored vs) ≤ budget
  | [], _, budget, _, _ => Nat.zero_le budget
  | v :: rest, ws, budget, plain, read => by
    obtain ⟨first, others⟩ := Bool.and_eq_true_iff.mp plain
    rw [itemsToJson] at read ⊢
    simp only [List.mapM_cons, Option.pure_def, Option.bind_eq_bind, Option.bind_eq_some_iff] at read
    obtain ⟨u, readFirst, us, readOthers, _⟩ := read
    have head := depth_of_read v u budget first readFirst
    have tail := itemsDepth_of_read rest us budget others readOthers
    exact Nat.max_le.mpr ⟨head, tail⟩

end

/-- What is stored of a plain value is read as a value that is like it, if it is read at all. -/
theorem alike_of_read {v w : Value} {budget : Nat} (plain : v.isPlain = true)
    (read : ofJson? budget v.storedJson = some w) : Alike v w := by
  have found := ofJson?_storedJson v budget plain (depth_of_read v w budget plain read)
  obtain rfl := Option.some.inj (read.symm.trans found)
  exact alike_resized v plain

theorem read?_text_array {items : List Value} (plain : itemsArePlain items = true) :
    Json.read? (Value.array items).text = some (Value.array items).storedJson := by
  rw [text_array, relaxedJson_of_plain (.array items) plain, Json.read?_text,
    reread_storedJson (.array items) plain]

/-- The text of a list of plain values is read back as a list that is like it. -/
theorem readText?_text_array {items : List Value} (plain : itemsArePlain items = true)
    (shallow : (Value.array items).relaxedJson.depth ≤ maxLevels) :
    ∃ ws, readText? ofJson? (Value.array items).text = .ok (.array ws) ∧
      List.Forall₂ Alike items ws := by
  have stored := relaxedJson_of_plain (.array items) plain
  have value := ofJson?_storedJson (.array items) maxLevels plain (stored ▸ shallow)
  exact ⟨resizedItems items, readText?_eq_ok_iff.mpr ⟨_, read?_text_array plain, value⟩,
    alike_resizedItems items plain⟩

end DocQuery.Value
