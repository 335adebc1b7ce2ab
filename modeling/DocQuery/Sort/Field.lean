/-!
# Sort fields

A field to sort by and the direction.
-/
namespace DocQuery

inductive Direction where
  | ascending
  | descending
  deriving DecidableEq, Repr, Inhabited

structure SortField where
  field : String
  direction : Direction
  deriving DecidableEq, Repr

namespace SortField

def asc (field : String) : SortField :=
  ⟨field, .ascending⟩

def desc (field : String) : SortField :=
  ⟨field, .descending⟩

end SortField
end DocQuery
