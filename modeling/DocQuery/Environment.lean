import DocQuery.Text.Alphanumeric
/-!
# Environments

The variables of an environment, and texts that refer to them. A reference is a name in braces
behind `$ENV`. The name starts with a letter, a digit or an underscore, and dots may follow. A
reference to a variable that is not set stays as it is.
-/
namespace DocQuery

/-- The variables of an environment. -/
abbrev Environment := List (String × String)

namespace Environment

def get? (env : Environment) (name : String) : Option String :=
  (env.find? (·.1 == name)).map (·.2)

/-- The opening of a reference. -/
def opening : List Char := "$ENV\x7b".toList

def startsName (c : Char) : Bool :=
  Text.isAlphanumeric c || c = '_'

def isNamePart (c : Char) : Bool :=
  startsName c || c = '.'

/-- The reference to the variable of the given name. -/
def reference (name : List Char) : List Char :=
  opening ++ name ++ ['}']

/-- The name in a reference at the front. -/
def reference? (s : List Char) : Option (List Char) :=
  if opening.isPrefixOf s then
    let s := s.drop opening.length
    let name := s.takeWhile isNamePart
    if name.head?.any startsName && (s.drop name.length).head? = some '}' then some name else none
  else none

/-- The names in the references of a text, from the front. -/
def references : List Char → List (List Char)
  | [] => []
  | c :: rest => (reference? (c :: rest)).toList ++ references rest

/-- Replaces `old` wherever it stands, from the front. The first `passed` characters belong to an
`old` that was replaced already. -/
def replaceFrom (old new : List Char) : Nat → List Char → List Char
  | _, [] => []
  | passed + 1, _ :: rest => replaceFrom old new passed rest
  | 0, c :: rest =>
    if old.isPrefixOf (c :: rest) then new ++ replaceFrom old new (old.length - 1) rest
    else c :: replaceFrom old new 0 rest

/-- Puts the value of a variable in the place of all references to it. -/
def expandName (env : Environment) (s name : List Char) : List Char :=
  match env.get? (String.ofList name) with
  | some value => replaceFrom (reference name) value.toList 0 s
  | none => s

/-- The text with values in the place of references. The references of the text are taken in turn,
so that a value may bring in a reference that is still to come, and no other. -/
def expand (env : Environment) (s : String) : String :=
  String.ofList ((references s.toList).foldl env.expandName s.toList)

end Environment
end DocQuery
