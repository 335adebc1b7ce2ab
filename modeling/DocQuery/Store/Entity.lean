import DocQuery.Store.Driver
/-!
# Entities in memory

Entities have a key. A list of entities is the simplest store; it does not look at filters.
-/
namespace DocQuery

class Entity (T : Type) where
  id : T → String

namespace Entity

variable {T : Type} [Entity T]

/-- Puts `e` in the place of the first entity with the key. -/
def replaceFirst? (key : String) (e : T) : List T → Option (List T)
  | [] => none
  | x :: rest =>
    if Entity.id x = key then some (e :: rest)
    else (replaceFirst? key e rest).map (x :: ·)

/-- Takes the first entity with the key out. -/
def removeFirst? (key : String) : List T → Option (List T)
  | [] => none
  | x :: rest => if Entity.id x = key then some rest else (removeFirst? key rest).map (x :: ·)

def rowCount (rows : List T) : UInt64 :=
  UInt64.ofNat rows.length

/-- The store that is a list of rows. -/
def inMemory : Driver (List T) T where
  perform
    | .find _ options => fun rows => ⟨.ok (options.apply rows), rows, []⟩
    | .count _ => fun rows => ⟨.ok (rowCount rows), rows, []⟩
    | .deleteMany _ => fun rows => ⟨.ok (rowCount rows), [], []⟩
    | .updateMany _ _ => fun rows => ⟨.ok (rowCount rows), rows, []⟩
    | .insertOne e => fun rows => ⟨.ok (), rows ++ [e], []⟩
    | .replaceOne key e => fun rows =>
      match replaceFirst? key e rows with
      | some rows => ⟨.ok (), rows, []⟩
      | none => ⟨.error (.driver ("no document " ++ key)), rows, []⟩
    | .deleteOne key => fun rows =>
      match removeFirst? key rows with
      | some rows => ⟨.ok 1, rows, []⟩
      | none => ⟨.ok 0, rows, []⟩

end Entity
end DocQuery
