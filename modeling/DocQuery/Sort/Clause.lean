import DocQuery.Journal.Record
import DocQuery.Json.Writer
import DocQuery.Sort.Field
import DocQuery.Value.Basic
/-!
# Sort clauses

The document by which a query sorts: each field with `1` or `-1`, the first one deciding. Fields
without a name and repeated fields are left out, with a warning for each.
-/
namespace DocQuery

def Direction.value : Direction → Value
  | .ascending => .int32 1
  | .descending => .int32 (-1)

namespace SortField

def clauseTarget : String := "docfilter::query::sort"

/-- The warning for a field that is left out. -/
def warning (message : String) : Record :=
  ⟨.warn, clauseTarget, message⟩

/-- Adds the fields to `d` in turn; the warnings come in the order of the fields. -/
def gather (d : Document) : List SortField → Document × List Record
  | [] => (d, [])
  | f :: rest =>
    if f.field.isEmpty then
      let (e, warnings) := gather d rest
      (e, warning "skipping sort entry with empty field name" :: warnings)
    else if d.contains f.field then
      let (e, warnings) := gather d rest
      (e, warning ("duplicate sort field ignored: " ++ f.field) :: warnings)
    else gather (d.insert f.field f.direction.value) rest

/-- The line of the trace for a clause of so many keys. -/
def traceLine (keys : Nat) : String :=
  (Json.object [("op", .string "compile_sort"), ("keys", .int keys)]).text

theorem traceLine_eq (n : Nat) : traceLine n =
    "\x7b\"op\":\"compile_sort\",\"keys\":" ++ Decimal.natText n ++ "\x7d" := by
  have front : "\x7b" ++ quoted "op" ++ ":" ++ quoted "compile_sort" ++ "," ++ quoted "keys" ++
      ":" = "\x7b\"op\":\"compile_sort\",\"keys\":" := by decide
  rw [traceLine, Json.text_counted, front]

/-- The clause, if any field is left, with the warnings and then the line of the trace. -/
def clauseLogged (fields : List SortField) : Logged (Option Document) :=
  let (d, warnings) := gather Document.empty fields
  if d.isEmpty then ⟨none, warnings⟩
  else ⟨some d, warnings ++ [.trace (traceLine d.length)]⟩

def clause (fields : List SortField) : Option Document :=
  (clauseLogged fields).value

end SortField
end DocQuery
