import DocQuery.Bag.Reader
import DocQuery.Update.Builder
/-!
# Filters and updates from property bags

A bag becomes a node only if it has the content of either a leaf or a group. A group counts if it
has children and an operator, a leaf below the root if it names a parameter.
-/
namespace DocQuery

/-- Whether operator and children make a group. -/
def isGroup (op : Connective) (children : List ConditionBag) : Bool :=
  !children.isEmpty && op ≠ .none

mutual

def ConditionBag.condition : ConditionBag → Except Failure Condition
  | ⟨parameter, fieldType, compare, value, op, children⟩ =>
    match !parameter.isEmpty, isGroup op children with
    | true, true => .error (.structural (.both .condition))
    | false, false => .error (.structural (.neither .condition))
    | true, false => .ok (.leaf ⟨parameter, fieldType, compare, value.getD .null⟩)
    | false, true => do
      let conditions ← ConditionBag.conditions children
      .ok (.group op conditions)

def ConditionBag.conditions : List ConditionBag → Except Failure (List Condition)
  | [] => .ok []
  | b :: rest => do
    let c ← ConditionBag.condition b
    let cs ← ConditionBag.conditions rest
    .ok (c :: cs)

end

/-- The filter that a bag describes. -/
def FilterBag.filter (b : FilterBag) : Except Failure Filter :=
  match b.condition, isGroup b.groupOperator b.groupConditions with
  | some _, true => .error (.structural (.both .filter))
  | none, false => .error (.structural (.neither .filter))
  | some c, false => do
    let c ← c.condition
    .ok (.single c)
  | none, true => do
    let cs ← ConditionBag.conditions b.groupConditions
    .ok (.group b.groupOperator cs)

/-- The update that a bag describes. Its filter has to be well made even where a key is given. -/
def UpdateBag.update (b : UpdateBag) : Except Failure Update := do
  let builder := UpdateBuilder.new.setAll b.fieldValues
  let builder := match b.filterId with
    | some key => builder.id key
    | none => builder
  let builder ← match b.filter with
    | some f => do
      let f ← f.filter
      .ok (builder.filter f)
    | none => .ok builder
  builder.build

/-- Reads a filter from JSON. -/
def Filter.ofText (s : String) : Except Failure Filter := do
  let b ← readText? FilterBag.ofJson? s
  b.filter

/-- Reads an update from JSON. -/
def Update.ofText (s : String) : Except Failure Update := do
  let b ← readText? UpdateBag.ofJson? s
  b.update

end DocQuery
