import DocQuery.Proofs.Bag.Written
/-!
# Bags through JSON

A bag that is written as JSON and read again means what it meant: whatever defaults are left out and
in whatever order the members stand, the text compiles as the bag does, or fails as the bag does
(`FilterBag.compile_of_written`). What is read has other widths of integers, and nothing of a query
shows them.
-/
namespace DocQuery

mutual

/-- The condition with its values as they are read. -/
def Condition.resized : Condition → Condition
  | .leaf p => .leaf p.resized
  | .group op children => .group op (Condition.allResized children)

def Condition.allResized : List Condition → List Condition
  | [] => []
  | c :: rest => Condition.resized c :: Condition.allResized rest

end

/-- The filter with its values as they are read. -/
def Filter.resized : Filter → Filter
  | .single c => .single c.resized
  | .group op conditions => .group op (Condition.allResized conditions)

theorem Condition.isEmpty_allResized (cs : List Condition) :
    (allResized cs).isEmpty = cs.isEmpty := by
  cases cs <;> rfl

theorem ConditionBag.isGroup_allResized (op : Connective) (bs : List ConditionBag) :
    isGroup op (allResized bs) = isGroup op bs := by
  cases bs <;> rfl

namespace ConditionBag

theorem getD_resizedOption (value : Option Value) :
    (Value.resizedOption value).getD .null = (value.getD .null).resized := by
  cases value with
  | none => rfl
  | some v => cases v <;> rfl

mutual

/-- Conversion takes the values as they are. -/
theorem condition_resized : ∀ b : ConditionBag,
    b.resized.condition = b.condition.map Condition.resized
  | ⟨parameter, fieldType, compare, value, op, children⟩ => by
    rw [resized, condition, condition, isGroup_allResized]
    split
    · rfl
    · rfl
    · show Except.ok (Condition.leaf _) = .ok (Condition.leaf _)
      rw [getD_resizedOption]
      rfl
    · rw [conditions_allResized children]
      cases conditions children <;> rfl

theorem conditions_allResized : ∀ bs : List ConditionBag,
    conditions (allResized bs) = (conditions bs).map Condition.allResized
  | [] => rfl
  | b :: rest => by
    rw [allResized, conditions, conditions, condition_resized b, conditions_allResized rest]
    cases b.condition with
    | error e => rfl
    | ok c => cases conditions rest <;> rfl

end

end ConditionBag

theorem FilterBag.filter_resized (b : FilterBag) :
    b.resized.filter = b.filter.map Filter.resized := by
  unfold filter
  rw [resized, ConditionBag.isGroup_allResized]
  cases b.condition with
  | none =>
    cases isGroup b.groupOperator b.groupConditions with
    | false => rfl
    | true =>
      show (ConditionBag.conditions (ConditionBag.allResized b.groupConditions) >>= fun cs =>
          .ok (.group b.groupOperator cs)) =
        (ConditionBag.conditions b.groupConditions >>= fun cs =>
          .ok (.group b.groupOperator cs)).map Filter.resized
      rw [ConditionBag.conditions_allResized]
      cases ConditionBag.conditions b.groupConditions <;> rfl
  | some c =>
    cases isGroup b.groupOperator b.groupConditions with
    | true => rfl
    | false =>
      show (c.resized.condition >>= fun d => .ok (.single d)) =
        (c.condition >>= fun d => .ok (.single d)).map Filter.resized
      rw [c.condition_resized]
      cases c.condition <;> rfl

namespace Condition

mutual

theorem check_resized : ∀ c : Condition, c.resized.check = c.check
  | .leaf _ => rfl
  | .group op children => by
    rw [resized, check, check, checkAll_allResized children, checkGroup, checkGroup,
      isEmpty_allResized]

theorem checkAll_allResized : ∀ cs : List Condition, checkAll (allResized cs) = checkAll cs
  | [] => rfl
  | c :: rest => by
    rw [allResized, checkAll, checkAll, check_resized c, checkAll_allResized rest]

end

mutual

/-- In the text of a condition no width can be seen. -/
theorem render_resized : ∀ c : Condition, c.resized.render = c.render
  | .leaf p => congrArg Except.ok p.render_resized
  | .group op children => by
    rw [resized, render, render, renderAll_allResized children]

theorem renderAll_allResized : ∀ cs : List Condition, renderAll (allResized cs) = renderAll cs
  | [] => rfl
  | c :: rest => by
    rw [allResized, renderAll, renderAll, render_resized c, renderAll_allResized rest]

end

end Condition

theorem Filter.compile_resized (f : Filter) : f.resized.compile = f.compile := by
  have check : f.resized.check = f.check := by
    cases f with
    | single c => exact c.check_resized
    | group op conditions =>
      rw [resized, Filter.check, Filter.check, Condition.checkAll_allResized, checkGroup,
        checkGroup, Condition.isEmpty_allResized]
  have render : f.resized.render = f.render := by
    cases f with
    | single c => exact c.render_resized
    | group op conditions =>
      rw [resized, Filter.render, Filter.render, Condition.renderAll_allResized]
  rw [compile, compile, check, render]

/-- Every text that is read as an object for a bag is read as the filter of the bag. -/
theorem Filter.ofText_of_written {b : FilterBag} {j : Json} {t : String} (plain : b.isPlain = true)
    (shallow : b.toJson.depth ≤ maxLevels) (written : b.Written j) (read : Json.read? t = some j) :
    Filter.ofText t = b.filter.map Filter.resized := by
  have found := FilterBag.ofJson?_written written plain shallow
  have text := readText?_eq_ok_iff.mpr ⟨j, read, found⟩
  rw [Filter.ofText, text]
  exact b.filter_resized

/-- A bag of plain values is written as JSON of no more than the levels that are read, in any of the
ways in which it may be written. Its text is read as this JSON, and every text that is read as this
JSON compiles to what the bag itself compiles to, or fails as the bag fails. -/
theorem FilterBag.compile_of_written {b : FilterBag} {j : Json} (plain : b.isPlain = true)
    (shallow : b.toJson.depth ≤ maxLevels) (written : b.Written j) :
    Json.read? j.text = some j ∧
    ∀ t, Json.read? t = some j →
      (Filter.ofText t >>= Filter.compile) = (b.filter >>= Filter.compile) := by
  constructor
  · have read := j.read?_text_append (List.forall_mem_nil (Json.isSpace · = true))
    rw [reread_written written plain] at read
    rwa [String.append_empty] at read
  · intro t read
    rw [Filter.ofText_of_written plain shallow written read]
    cases b.filter with
    | error e => rfl
    | ok f => exact f.compile_resized

/-- A leaf that is written backwards, without children and without an operator at either node. -/
theorem FilterBag.compile_of_leaf_backwards :
    let leaf : ConditionBag := ⟨"age", .number, .greaterThan, some (.int32 18), .and, []⟩
    let b : FilterBag := { condition := some leaf }
    let j : Json := .object [("condition", .object [("value", .int 18),
      ("compare", .string "GreaterThan"), ("type", .string "Number"),
      ("parameter", .string "age")])]
    (b.isPlain = true ∧ b.toJson.depth ≤ maxLevels ∧ b.Written j) ∧
    Json.read? j.text = some j ∧
    ∀ t, Json.read? t = some j →
      (Filter.ofText t >>= Filter.compile) = (b.filter >>= Filter.compile) := by
  intro leaf b j
  have plain : b.isPlain = true := by decide
  have shallow : b.toJson.depth ≤ maxLevels := by decide
  have inside : leaf.Written (.object [("value", .int 18), ("compare", .string "GreaterThan"),
      ("type", .string "Number"), ("parameter", .string "age")]) := by
    refine .intro .nil ⟨(leaf.members []).take 4, List.take_sublist 4 _, ?_,
      List.reverse_perm ((leaf.members []).take 4)⟩
    simp [ConditionBag.members, ConditionBag.defaults, leaf]
  have written : b.Written j := by
    refine .intro (.some inside) .nil ⟨_, List.take_sublist 1 _, ?_, List.Perm.refl _⟩
    simp [FilterBag.members, FilterBag.defaults, b]
  exact ⟨⟨plain, shallow, written⟩, compile_of_written plain shallow written⟩

end DocQuery
