import DocQuery.Store.Repository
/-!
# Repositories over deferred stores

The methods of a repository for a store that answers after some waiting. They write nothing of
their own to the log.
-/
namespace DocQuery.Repository.Later

variable {σ T : Type} [Entity T]

def compileFilter (r : Repository) (f : Filter) : Deferred σ String :=
  .ofLogged (r.dialect.compileFilter f)

def options (o : Logged FindOptions) : Deferred σ FindOptions :=
  .ofLogged ⟨.ok o.value, o.records⟩

def insert (d : DeferredDriver σ T) (e : T) : Deferred σ T := do
  d.perform (.insertOne e)
  pure e

def update (d : DeferredDriver σ T) (e : T) : Deferred σ T := do
  d.perform (.replaceOne (Entity.id e) e)
  pure e

def deleteById (d : DeferredDriver σ T) (key : String) : Deferred σ UInt64 :=
  d.perform (.deleteOne key)

def deleteEntity (d : DeferredDriver σ T) (e : T) : Deferred σ UInt64 :=
  d.perform (.deleteOne (Entity.id e))

def delete (r : Repository) (d : DeferredDriver σ T) (f : Filter) : Deferred σ UInt64 := do
  let q ← compileFilter r f
  d.perform (.deleteMany q)

def getCount (r : Repository) (d : DeferredDriver σ T) (f : Filter) : Deferred σ UInt64 := do
  let q ← compileFilter r f
  d.perform (.count q)

def isExist (r : Repository) (d : DeferredDriver σ T) (f : Filter) : Deferred σ Bool := do
  let n ← getCount r d f
  pure (0 < n)

def isExistById (r : Repository) (d : DeferredDriver σ T) (key : String) : Deferred σ Bool := do
  let q ← compileFilter r (.byId key)
  let n : UInt64 ← d.perform (.count q)
  pure (0 < n)

def getById (r : Repository) (d : DeferredDriver σ T) (key : String) :
    Deferred σ (Option T) := do
  let q ← compileFilter r (.byId key)
  let rows : List T ← d.perform (.find q firstOnly)
  pure rows.head?

def getAll (d : DeferredDriver σ T) : Deferred σ (List T) :=
  d.perform (.find matchAll {})

def getAllSorted (r : Repository) (d : DeferredDriver σ T) (f : Filter)
    (sorts : List SortField) : Deferred σ (List T) := do
  let q ← compileFilter r f
  let o ← options (r.sortedOptions sorts)
  d.perform (.find q o)

def getAllFiltered (r : Repository) (d : DeferredDriver σ T) (f : Filter) :
    Deferred σ (List T) :=
  getAllSorted r d f []

def getAllSortedBy (r : Repository) (d : DeferredDriver σ T) (f : Filter)
    (sort : Option SortField) : Deferred σ (List T) :=
  getAllSorted r d f (singleSort sort)

def getPageData (r : Repository) (d : DeferredDriver σ T) (page size : UInt64) (f : Filter)
    (sorts : List SortField) : Deferred σ (List T) := do
  let q ← compileFilter r f
  let o ← options (r.pageOptions sorts page size)
  d.perform (.find q o)

def updateSet (r : Repository) (d : DeferredDriver σ T) (u : Update) : Deferred σ UInt64 := do
  let compiled ← Deferred.ofLogged (r.dialect.compileUpdate u)
  d.perform (.updateMany compiled.filter compiled.update)

end DocQuery.Repository.Later
