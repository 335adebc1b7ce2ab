import DocQuery.Failure
import DocQuery.Filter.Compile
/-!
# Updates

An update assigns values to fields of the documents that it is aimed at: the one with a given key,
those that match a filter, or all. It always has an assignment.
-/
namespace DocQuery

structure Assignment where
  field : String
  value : Value
  deriving Repr

structure Update where
  id : Option String
  filter : Option Filter
  assignments : List Assignment
  nonempty : assignments ≠ []

/-- What an update is aimed at. -/
inductive Target where
  | id (key : String)
  | filter (f : Filter)
  | all
  deriving Repr

namespace Update

/-- A key comes before a filter, and a filter before all. -/
def target (u : Update) : Target :=
  match u.id, u.filter with
  | some key, _ => .id key
  | none, some f => .filter f
  | none, none => .all

end Update

/-- The filter that selects the documents; `none` selects all. -/
def Target.filter? : Target → Option Filter
  | .id key => some (.byId key)
  | .filter f => some f
  | .all => none

namespace Update

/-- The text of the filter that selects the documents. -/
def compileTarget (u : Update) : Except Failure String :=
  match u.target.filter? with
  | some f => f.compile
  | none => .ok matchAll

def compileTargetLogged (u : Update) : Logged (Except Failure String) :=
  match u.target.filter? with
  | some f => f.compileLogged
  | none => pure (.ok matchAll)

/-- The assignments as one document: a field that is assigned twice keeps its first place and its
last value. -/
def assigned (u : Update) : Document :=
  Document.ofPairs (u.assignments.map fun a => (a.field, a.value))

/-- The update document. -/
def definition (u : Update) : Document :=
  [("$set", .document u.assigned)]

end Update
end DocQuery
