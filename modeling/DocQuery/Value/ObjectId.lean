import DocQuery.Text.Hex
/-!
# Object identifiers

Twelve bytes, told as twenty-four hexadecimal digits: read in either case, written in small
letters.
-/
namespace DocQuery

structure ObjectId where
  bits : BitVec 96
  deriving DecidableEq, Repr

namespace ObjectId

def digits : Nat := 24

def ofList? (s : List Char) : Option ObjectId :=
  if s.length = digits then (Hex.read? s).map fun n => ⟨BitVec.ofNat 96 n⟩ else none

def ofText? (s : String) : Option ObjectId :=
  ofList? s.toList

def toList (id : ObjectId) : List Char :=
  Hex.fixed digits id.bits.toNat

def text (id : ObjectId) : String :=
  String.ofList id.toList

end ObjectId
end DocQuery
