import DocQuery.Bag.Basic
import DocQuery.Bag.Names
import DocQuery.Json.Bag
import DocQuery.Json.Reader
import DocQuery.Value.OfJson
/-!
# Reading property bags

The readers take the levels of arrays and objects that they may go down, and refuse what is deeper.
Parts of the text that are skipped do not count.
-/
namespace DocQuery

/-- The levels that a text may have. -/
def maxLevels : Nat := 127

def FieldType.ofJson? (budget : Nat) (j : Json) : Option FieldType :=
  j.name? budget (named? FieldType.name FieldType.all)

def Comparison.ofJson? (budget : Nat) (j : Json) : Option Comparison :=
  j.name? budget (named? Comparison.name Comparison.all)

def Connective.ofJson? (budget : Nat) (j : Json) : Option Connective :=
  j.name? budget (named? Connective.name Connective.all)

def Direction.ofJson? (budget : Nat) (j : Json) : Option Direction :=
  j.name? budget (named? Direction.name Direction.all)

def ConditionBag.ofJson? : Nat → Json → Option ConditionBag
  | 0, _ => none
  | budget + 1, j => do
    match ← j.bag? ConditionBag.names with
    | [parameter, fieldType, compare, value, groupOperator, groupConditions] =>
      let parameter ← Json.orDefault "" Json.string? parameter
      let fieldType ← Json.orDefault .string (FieldType.ofJson? budget) fieldType
      let compare ← Json.orDefault .equal (Comparison.ofJson? budget) compare
      let value ← Json.nullable (Value.ofJson? budget) value
      let groupOperator ← Json.orDefault .and (Connective.ofJson? budget) groupOperator
      let groupConditions ← match budget with
        | 0 => if groupConditions.isNone then some [] else none
        | below + 1 =>
          Json.orDefault [] (Json.list? (below + 1) (ConditionBag.ofJson? below)) groupConditions
      some { parameter, fieldType, compare, value, groupOperator, groupConditions }
    | _ => none

def FilterBag.ofJson? : Nat → Json → Option FilterBag
  | 0, _ => none
  | budget + 1, j => do
    match ← j.bag? FilterBag.names with
    | [condition, groupOperator, groupConditions] =>
      let condition ← Json.nullable (ConditionBag.ofJson? budget) condition
      let groupOperator ← Json.orDefault .none (Connective.ofJson? budget) groupOperator
      let groupConditions ←
        Json.orDefault [] (Json.list? budget (ConditionBag.ofJson? (budget - 1))) groupConditions
      some { condition, groupOperator, groupConditions }
    | _ => none

/-- Both members have to be there; the value may be null. -/
def Assignment.ofJson? : Nat → Json → Option Assignment
  | 0, _ => none
  | budget + 1, j => do
    match ← j.bag? Assignment.names with
    | [some field, some value] =>
      let field ← field.string?
      let value ← Value.ofJson? budget value
      some { field, value }
    | _ => none

def UpdateBag.ofJson? : Nat → Json → Option UpdateBag
  | 0, _ => none
  | budget + 1, j => do
    match ← j.bag? UpdateBag.names with
    | [filterId, filter, fieldValues] =>
      let filterId ← Json.nullable Json.string? filterId
      let filter ← Json.nullable (FilterBag.ofJson? budget) filter
      let fieldValues ←
        Json.orDefault [] (Json.list? budget (Assignment.ofJson? (budget - 1))) fieldValues
      some { filterId, filter, fieldValues }
    | _ => none

/-- The field has to be there. -/
def SortField.ofJson? : Nat → Json → Option SortField
  | 0, _ => none
  | budget + 1, j => do
    match ← j.bag? SortField.names with
    | [some field, direction] =>
      let field ← field.string?
      let direction ← Json.orDefault .ascending (Direction.ofJson? budget) direction
      some { field, direction }
    | _ => none

/-- What a whole text denotes to a reader that may go down the levels of a text. -/
def readText? {α : Type} (read : Nat → Json → Option α) (s : String) : Except Failure α :=
  match (Json.read? s).bind (read maxLevels) with
  | some a => .ok a
  | none => .error .json

theorem readText?_eq_ok_iff {α : Type} {read : Nat → Json → Option α} {t : String} {a : α} :
    readText? read t = .ok a ↔ ∃ j, Json.read? t = some j ∧ read maxLevels j = some a := by
  rw [← Option.bind_eq_some_iff, readText?]
  cases (Json.read? t).bind (read maxLevels) <;> simp

theorem readText?_error {α : Type} {read : Nat → Json → Option α} {s : String} {e : Failure}
    (failed : readText? read s = .error e) : e = .json := by
  unfold readText? at failed
  split at failed
  · cases failed
  · exact (Except.error.inj failed).symm

end DocQuery
