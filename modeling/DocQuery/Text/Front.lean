import DocQuery.Text.Decimal
/-!
# The front of a text

Readers that take something of a fixed form from the front of a list of characters and give the
rest.
-/
namespace DocQuery.Text

/-- The given character. -/
def skip? (c : Char) : List Char → Option (List Char)
  | d :: rest => if d = c then some rest else none
  | [] => none

/-- A number of exactly `width` digits. -/
def number? (width : Nat) (s : List Char) : Option (Nat × List Char) :=
  let ds := s.take width
  if ds.length = width && ds.all Decimal.isDigit then some (Decimal.value ds, s.drop width)
  else none

end DocQuery.Text
