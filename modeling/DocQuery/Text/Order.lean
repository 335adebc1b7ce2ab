/-!
# Sorting by a strict order

Sorting by insertion. Elements of which none stands before the other keep their places.
-/
namespace DocQuery

variable {α : Type}

/-- Puts `a` behind the elements that stand before it. -/
def insertBy (before : α → α → Bool) (a : α) : List α → List α
  | [] => [a]
  | b :: rest => if before b a then b :: insertBy before a rest else a :: b :: rest

def sortBy (before : α → α → Bool) (as : List α) : List α :=
  as.foldr (insertBy before) []

theorem perm_insertBy (before : α → α → Bool) (a : α) (as : List α) :
    (insertBy before a as).Perm (a :: as) := by
  induction as with
  | nil => exact List.Perm.refl [a]
  | cons b rest ih =>
    rw [insertBy]
    split
    · exact (List.Perm.cons b ih).trans (List.Perm.swap a b rest)
    · exact List.Perm.refl (a :: b :: rest)

/-- Sorting loses nothing and repeats nothing. -/
theorem perm_sortBy (before : α → α → Bool) (as : List α) : (sortBy before as).Perm as := by
  induction as with
  | nil => exact List.Perm.refl []
  | cons a rest ih => exact (perm_insertBy before a _).trans (List.Perm.cons a ih)

end DocQuery
