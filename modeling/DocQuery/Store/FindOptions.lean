import DocQuery.Value.Basic
/-!
# Find options

How many rows a find skips and how many it gives at most, and the clause by which it sorts.
-/
namespace DocQuery

structure FindOptions where
  sort : Option Document := none
  skip : Option UInt64 := none
  limit : Option UInt64 := none
  deriving Repr

/-- The product, or the greatest word if it is beyond the words. -/
def boundedProduct (a b : UInt64) : UInt64 :=
  UInt64.ofNat (min (a.toNat * b.toNat) (Nat.pow 2 64 - 1))

namespace FindOptions

def sorted (sort : Option Document) : FindOptions :=
  { sort }

/-- Restricts to one page, the first one having the number one. A page or a size of zero changes
nothing. -/
def paged (o : FindOptions) (page size : UInt64) : FindOptions :=
  if page = 0 || size = 0 then o
  else { o with skip := some (boundedProduct (page - 1) size), limit := some size }

/-- The rows that are left after skipping and limiting. -/
def apply {T : Type} (o : FindOptions) (rows : List T) : List T :=
  let rest := rows.drop (o.skip.getD 0).toNat
  match o.limit with
  | some n => rest.take n.toNat
  | none => rest

end FindOptions
end DocQuery
