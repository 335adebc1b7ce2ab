import DocQuery.Number.Binary64
import DocQuery.Text.Decimal
/-!
# Numerals of doubles

Reading a double from a text that is a numeral and nothing more, correctly rounded. Digits may be
missing on one side of the point.
-/
namespace DocQuery.Binary64

/-- The exponent after the letter `e`. -/
def exponent? : List Char → Option Int
  | [] => some 0
  | c :: s => if c = 'e' || c = 'E' then Decimal.int? s else none

/-- Digits with at most one point among or beside them, then an exponent. -/
def decimal? (negative : Bool) (s : List Char) : Option Binary64 := do
  let (whole, s) := Decimal.span s
  let (fraction, s) := match s with
    | '.' :: s => Decimal.span s
    | s => ([], s)
  if whole.isEmpty && fraction.isEmpty then none
  let e ← exponent? s
  some (ofDecimal negative (Decimal.value (whole ++ fraction)) (e - fraction.length))

/-- Reads a numeral with an optional sign, or the name of infinity or of no number in any case. -/
def ofText? (s : String) : Option Binary64 :=
  let (negative, s) := match s.toList with
    | '-' :: s => (true, s)
    | '+' :: s => (false, s)
    | s => (false, s)
  let word := s.map Char.toLower
  if word = "inf".toList || word = "infinity".toList then some (infinity negative)
  else if word = "nan".toList then some (if negative then nan.neg else nan)
  else decimal? negative s

end DocQuery.Binary64
