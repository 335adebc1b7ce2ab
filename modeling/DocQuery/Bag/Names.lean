import DocQuery.Filter.Operator
import DocQuery.Sort.Field
/-!
# Names of operators in property bags

Each operator by the name that stands for it in JSON, with the list of them all, in which a name is
looked up.
-/
namespace DocQuery

/-- The first of `all` that has the given name. -/
def named? {α : Type} (name : α → String) (all : List α) (s : String) : Option α :=
  all.find? fun a => name a == s

namespace FieldType

def name : FieldType → String
  | .string => "String"
  | .number => "Number"
  | .dateTime => "DateTime"

def all : List FieldType := [.string, .number, .dateTime]

end FieldType

namespace Comparison

def name : Comparison → String
  | .equal => "Equal"
  | .notEqual => "NotEqual"
  | .greaterThan => "GreaterThan"
  | .greaterThanEqual => "GreaterThanEqual"
  | .lessThan => "LessThan"
  | .lessThanEqual => "LessThanEqual"
  | .contains => "Contains"
  | .beginWith => "BeginWith"
  | .endWith => "EndWith"
  | .isIn => "In"
  | .notIn => "NotIn"

def all : List Comparison :=
  [.equal, .notEqual, .greaterThan, .greaterThanEqual, .lessThan, .lessThanEqual, .contains,
    .beginWith, .endWith, .isIn, .notIn]

end Comparison

namespace Connective

def name : Connective → String
  | .none => "NONE"
  | .and => "AND"
  | .or => "OR"
  | .not => "NOT"
  | .nor => "NOR"

def all : List Connective := [.none, .and, .or, .not, .nor]

end Connective

namespace Direction

def name : Direction → String
  | .ascending => "Ascending"
  | .descending => "Descending"

def all : List Direction := [.ascending, .descending]

end Direction
end DocQuery
