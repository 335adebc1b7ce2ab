import DocQuery.Dialect
import DocQuery.Settings.Basic
import DocQuery.Store.Entity
/-!
# Repositories

A repository puts the caller's filters, sort fields and updates into the dialect of the store and
hands them over. Whatever has to be written comes first: if that fails the store is not asked. The
methods here ask a store that answers at once.
-/
namespace DocQuery

structure Repository where
  dialect : Dialect := .standard
  defaultPageSize : Option UInt64 := none

namespace Repository

/-- The repository with another default size of pages; a size of zero counts as none. -/
def withDefaultPageSize (r : Repository) (size : Option UInt64) : Repository :=
  { r with defaultPageSize := size.filter fun n => 0 < n }

/-- The repository with the default size of pages that is set. -/
def ofSettings (s : Settings) : Repository :=
  withDefaultPageSize {} s.defaultPageSize

def sortedOptions (r : Repository) (sorts : List SortField) : Logged FindOptions := do
  let clause ← r.dialect.compileSort sorts
  pure (FindOptions.sorted clause)

/-- Options for one page. A size of zero stands for the default size. -/
def pageOptions (r : Repository) (sorts : List SortField) (page size : UInt64) :
    Logged FindOptions := do
  let size := if size = 0 then r.defaultPageSize.getD 0 else size
  let options ← r.sortedOptions sorts
  pure (options.paged page size)

/-- The options of a read by key. -/
def firstOnly : FindOptions :=
  { limit := some 1 }

/-- A single sort field counts only if it has a name. -/
def singleSort (sort : Option SortField) : List SortField :=
  (sort.filter fun f => !f.field.isEmpty).toList

def target : String := "docfilter::client::repository"

def debug (message : String) : Record :=
  ⟨.debug, target, message⟩

def findMessage (q : String) : String :=
  "find filter=" ++ q

def pageMessage (page size : UInt64) (q : String) : String :=
  "find page=" ++ Decimal.natText page.toNat ++ " size=" ++ Decimal.natText size.toNat ++
    " filter=" ++ q

section

variable {σ T : Type} [Entity T]

def compileFilter (r : Repository) (f : Filter) : Action σ String :=
  .ofLogged (r.dialect.compileFilter f)

/-- Options cannot fail. -/
def options (o : Logged FindOptions) : Action σ FindOptions :=
  .ofLogged ⟨.ok o.value, o.records⟩

def insert (d : Driver σ T) (e : T) : Action σ T := do
  d.perform (.insertOne e)
  pure e

/-- Replaces the entity with the key of `e`. -/
def update (d : Driver σ T) (e : T) : Action σ T := do
  d.perform (.replaceOne (Entity.id e) e)
  pure e

def deleteById (d : Driver σ T) (key : String) : Action σ UInt64 :=
  d.perform (.deleteOne key)

def deleteEntity (d : Driver σ T) (e : T) : Action σ UInt64 :=
  d.perform (.deleteOne (Entity.id e))

/-- Deletes what matches the filter. -/
def delete (r : Repository) (d : Driver σ T) (f : Filter) : Action σ UInt64 := do
  let q ← r.compileFilter f
  .emit (debug ("delete_many filter=" ++ q))
  d.perform (.deleteMany q)

def getCount (r : Repository) (d : Driver σ T) (f : Filter) : Action σ UInt64 := do
  let q ← r.compileFilter f
  d.perform (.count q)

def isExist (r : Repository) (d : Driver σ T) (f : Filter) : Action σ Bool := do
  let n ← r.getCount d f
  pure (0 < n)

def isExistById (r : Repository) (d : Driver σ T) (key : String) : Action σ Bool := do
  let q ← r.compileFilter (.byId key)
  let n : UInt64 ← d.perform (.count q)
  pure (0 < n)

def getById (r : Repository) (d : Driver σ T) (key : String) : Action σ (Option T) := do
  let q ← r.compileFilter (.byId key)
  let rows : List T ← d.perform (.find q firstOnly)
  pure rows.head?

def getAll (d : Driver σ T) : Action σ (List T) :=
  d.perform (.find matchAll {})

def getAllSorted (r : Repository) (d : Driver σ T) (f : Filter) (sorts : List SortField) :
    Action σ (List T) := do
  let q ← r.compileFilter f
  .emit (debug (findMessage q))
  let o ← options (r.sortedOptions sorts)
  d.perform (.find q o)

def getAllFiltered (r : Repository) (d : Driver σ T) (f : Filter) : Action σ (List T) :=
  r.getAllSorted d f []

def getAllSortedBy (r : Repository) (d : Driver σ T) (f : Filter) (sort : Option SortField) :
    Action σ (List T) :=
  r.getAllSorted d f (singleSort sort)

/-- One page of what matches, the first one having the number one. -/
def getPageData (r : Repository) (d : Driver σ T) (page size : UInt64) (f : Filter)
    (sorts : List SortField) : Action σ (List T) := do
  let q ← r.compileFilter f
  let o ← options (r.pageOptions sorts page size)
  .emit (debug (pageMessage page size q))
  d.perform (.find q o)

/-- Makes the assignments of `u` in the documents that it is aimed at. -/
def updateSet (r : Repository) (d : Driver σ T) (u : Update) : Action σ UInt64 := do
  let compiled ← Action.ofLogged (r.dialect.compileUpdate u)
  .emit (debug ("update_many filter=" ++ compiled.filter))
  d.perform (.updateMany compiled.filter compiled.update)

end

end Repository
end DocQuery
