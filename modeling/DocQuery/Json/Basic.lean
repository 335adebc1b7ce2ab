import DocQuery.Number.Binary64
import DocQuery.Text.Quoted
/-!
# JSON values

Members of an object stand in the order of the text, repeated names included: what a repetition
means is for the reader of the object to say. Integers and doubles are told apart by how they are
written.
-/
namespace DocQuery

inductive Json where
  | null
  | bool (b : Bool)
  | int (i : Int)
  | double (x : Binary64)
  | string (s : String)
  | array (items : List Json)
  | object (members : List (String × Json))
  /-- What is quoted and yet no text: half a surrogate pair or a bare control character is in it. It
  stands for bytes only. -/
  | rough (pieces : List Quoted.Piece)
  /-- Stands for text that follows the grammar and denotes nothing: a number beyond the doubles, an
  object with half a surrogate pair in a name. It does no harm where it is skipped. -/
  | unusable
  deriving Repr, Inhabited

namespace Json

mutual

/-- The levels of arrays and objects, the value itself included. -/
def depth : Json → Nat
  | .array items => itemsDepth items + 1
  | .object members => membersDepth members + 1
  | _ => 0

def itemsDepth : List Json → Nat
  | [] => 0
  | j :: rest => max (depth j) (itemsDepth rest)

def membersDepth : List (String × Json) → Nat
  | [] => 0
  | (_, j) :: rest => max (depth j) (membersDepth rest)

end

mutual

/-- The value follows the grammar, so that it may be skipped: no bare control character is in it. -/
def isProper : Json → Bool
  | .array items => itemsAreProper items
  | .object members => membersAreProper members
  | .rough pieces => !pieces.any Quoted.Piece.isControl
  | _ => true

def itemsAreProper : List Json → Bool
  | [] => true
  | j :: rest => isProper j && itemsAreProper rest

def membersAreProper : List (String × Json) → Bool
  | [] => true
  | (_, j) :: rest => isProper j && membersAreProper rest

end

end Json
end DocQuery
