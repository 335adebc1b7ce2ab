import DocQuery.Sort.Field
import DocQuery.Update.Basic
/-!
# Property bags

The loose form in which filters and updates arrive: every property may be left out, so a node can
have the content of a leaf, of a group, of both or of neither. A group below the root joins its
children by `and` if nothing else is said; the root has no operator of its own.
-/
namespace DocQuery

structure ConditionBag where
  parameter : String := ""
  fieldType : FieldType := .string
  compare : Comparison := .equal
  value : Option Value := none
  groupOperator : Connective := .and
  groupConditions : List ConditionBag := []
  deriving Repr, Inhabited

structure FilterBag where
  condition : Option ConditionBag := none
  groupOperator : Connective := .none
  groupConditions : List ConditionBag := []
  deriving Repr, Inhabited

structure UpdateBag where
  filterId : Option String := none
  filter : Option FilterBag := none
  fieldValues : List Assignment := []
  deriving Repr

namespace ConditionBag

def names : List String :=
  ["parameter", "type", "compare", "value", "groupOperator", "groupConditions"]

end ConditionBag

namespace FilterBag

def names : List String :=
  ["condition", "groupOperator", "groupConditions"]

end FilterBag

namespace UpdateBag

def names : List String :=
  ["filterId", "filter", "fieldValues"]

end UpdateBag

namespace SortField

def names : List String :=
  ["field", "direction"]

end SortField

namespace Assignment

def names : List String :=
  ["field", "value"]

end Assignment
end DocQuery
