import DocQuery.Sort.Clause
import DocQuery.Update.Basic
/-!
# Dialects

How one kind of store wants filters, sort clauses and updates written.
-/
namespace DocQuery

/-- An update as a store takes it: the filter that selects the documents and what to change. -/
structure CompiledUpdate where
  filter : String
  update : Document

structure Dialect where
  compileFilter : Filter → Logged (Except Failure String)
  compileSort : List SortField → Logged (Option Document)
  compileUpdate : Update → Logged (Except Failure CompiledUpdate)

namespace Dialect

/-- Filters with operators that start with `$`. -/
def standard : Dialect where
  compileFilter := Filter.compileLogged
  compileSort := SortField.clauseLogged
  compileUpdate u := do
    match ← u.compileTargetLogged with
    | .ok filter => pure (.ok ⟨filter, u.definition⟩)
    | .error e => pure (.error e)

end Dialect
end DocQuery
