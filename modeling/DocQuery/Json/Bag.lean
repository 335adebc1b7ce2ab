import DocQuery.Json.Basic
/-!
# Objects with known names

Reading the members with known names out of an object. Members with other names are skipped, but
they have to follow the grammar; a repeated known name is refused, and a name that is missing gives
`none`. The values may also come
as a list in the order of the names, which may end early and may not go on.
-/
namespace DocQuery.Json

/-- The member of the given name: `none` inside if it is missing, `none` outside if repeated. -/
def memberOnce? (name : String) (members : List (String × Json)) : Option (Option Json) :=
  match members.filter (·.1 == name) with
  | [] => some none
  | [(_, j)] => some (some j)
  | _ => none

/-- A list of options as long as `names`, filled up at the end. -/
def fill : List String → List Json → List (Option Json)
  | [], _ => []
  | _ :: names, [] => none :: fill names []
  | _ :: names, j :: rest => some j :: fill names rest

/-- The values of the known names, in their order. -/
def bag? (names : List String) : Json → Option (List (Option Json))
  | .object members =>
    if members.all fun (name, j) => names.contains name || j.isProper then
      names.mapM fun name => memberOnce? name members
    else none
  | .array items => if items.length ≤ names.length then some (fill names items) else none
  | _ => none

/-- Reads a value that may be missing and then has a default. -/
def orDefault {α : Type} (default : α) (read : Json → Option α) : Option Json → Option α
  | none => some default
  | some j => read j

/-- Reads a value that may be missing or null. -/
def nullable {α : Type} (read : Json → Option α) : Option Json → Option (Option α)
  | none => some none
  | some .null => some none
  | some j => (read j).map some

/-- Reads a list at a place where arrays and objects may have `budget` levels. -/
def list? {α : Type} (budget : Nat) (read : Json → Option α) : Json → Option (List α)
  | .array items => if budget = 0 then none else items.mapM read
  | _ => none

/-- One of a set of names: the name itself, or an object that has it as its only member, with
null. -/
def name? {α : Type} (budget : Nat) (ofName? : String → Option α) : Json → Option α
  | .string s => ofName? s
  | .object [(name, .null)] => if budget = 0 then none else ofName? name
  | _ => none

end DocQuery.Json
