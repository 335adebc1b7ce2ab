import DocQuery.Json.Basic
import DocQuery.Text.Order
/-!
# Members in order

The same value with the members of every object in the order of their names, by code points.
-/
namespace DocQuery.Json

def sortMembers (members : List (String × Json)) : List (String × Json) :=
  sortBy (fun m n => m.1 < n.1) members

mutual

def sorted : Json → Json
  | .array items => .array (sortedItems items)
  | .object members => .object (sortMembers (sortedMembers members))
  | j => j

def sortedItems : List Json → List Json
  | [] => []
  | j :: rest => sorted j :: sortedItems rest

def sortedMembers : List (String × Json) → List (String × Json)
  | [] => []
  | (name, j) :: rest => (name, sorted j) :: sortedMembers rest

end

end DocQuery.Json
