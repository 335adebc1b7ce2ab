import DocQuery.Filter.Operator
import DocQuery.Value.Basic
/-!
# Filters

A condition compares one field with a value or joins further conditions. A filter has one condition
or a group of them at its root.
-/
namespace DocQuery

structure Predicate where
  parameter : String
  fieldType : FieldType
  comparison : Comparison
  value : Value
  deriving Repr, Inhabited

inductive Condition where
  | leaf (p : Predicate)
  | group (op : Connective) (children : List Condition)
  deriving Repr, Inhabited

inductive Filter where
  | single (c : Condition)
  | group (op : Connective) (conditions : List Condition)
  deriving Repr, Inhabited

/-- The field that holds the key of a document. -/
def idField : String := "_id"

/-- The text of the filter that every document matches. -/
def matchAll : String := "\x7b \x7d"

namespace Condition

def text (parameter : String) (comparison : Comparison) (value : String) : Condition :=
  .leaf ⟨parameter, .string, comparison, .string value⟩

def number (parameter : String) (comparison : Comparison) (value : Value) : Condition :=
  .leaf ⟨parameter, .number, comparison, value⟩

/-- Compares with the instant `seconds` after 1970 and `nanos` nanoseconds. What is finer than a
millisecond is cut off; a leap second has `nanos` from `10 ^ 9` on. -/
def dateTime (parameter : String) (comparison : Comparison) (seconds : Int) (nanos : Nat) :
    Condition :=
  .leaf ⟨parameter, .dateTime, comparison,
    .date (Int64.ofInt (seconds * 1000 + (nanos / 1000000 : Nat)))⟩

def oneOf (parameter : String) (values : List Value) : Condition :=
  .leaf ⟨parameter, .number, .isIn, .array values⟩

def noneOf (parameter : String) (values : List Value) : Condition :=
  .leaf ⟨parameter, .number, .notIn, .array values⟩

def and (children : List Condition) : Condition :=
  .group .and children

def or (children : List Condition) : Condition :=
  .group .or children

end Condition

namespace Filter

/-- Equality of the key: with an object identifier if `id` reads as one, else with the text. -/
def byId (id : String) : Filter :=
  match ObjectId.ofText? id with
  | some oid => .single (.leaf ⟨idField, .number, .equal, .objectId oid⟩)
  | none => .single (.text idField .equal id)

end Filter
end DocQuery
