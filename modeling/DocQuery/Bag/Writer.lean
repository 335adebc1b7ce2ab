import DocQuery.Bag.Basic
import DocQuery.Bag.Names
import DocQuery.Value.ToJson
/-!
# Writing property bags

Every member is written, in the order of the names, those with default values as well.
-/
namespace DocQuery

def optionJson {α : Type} (write : α → Json) : Option α → Json
  | none => .null
  | some a => write a

mutual

def ConditionBag.toJson : ConditionBag → Json
  | ⟨parameter, fieldType, compare, value, groupOperator, groupConditions⟩ =>
    .object
      [("parameter", .string parameter), ("type", .string fieldType.name),
        ("compare", .string compare.name), ("value", optionJson Value.storedJson value),
        ("groupOperator", .string groupOperator.name),
        ("groupConditions", .array (ConditionBag.listToJson groupConditions))]

def ConditionBag.listToJson : List ConditionBag → List Json
  | [] => []
  | b :: rest => ConditionBag.toJson b :: ConditionBag.listToJson rest

end

def FilterBag.toJson (b : FilterBag) : Json :=
  .object
    [("condition", optionJson ConditionBag.toJson b.condition),
      ("groupOperator", .string b.groupOperator.name),
      ("groupConditions", .array (ConditionBag.listToJson b.groupConditions))]

def Assignment.toJson (a : Assignment) : Json :=
  .object [("field", .string a.field), ("value", a.value.storedJson)]

def UpdateBag.toJson (b : UpdateBag) : Json :=
  .object
    [("filterId", optionJson .string b.filterId),
      ("filter", optionJson FilterBag.toJson b.filter),
      ("fieldValues", .array (b.fieldValues.map Assignment.toJson))]

def SortField.toJson (f : SortField) : Json :=
  .object [("field", .string f.field), ("direction", .string f.direction.name)]

end DocQuery
