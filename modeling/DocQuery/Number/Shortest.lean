import DocQuery.Number.Binary64
import DocQuery.Text.Decimal
/-!
# Shortest decimals of a double

Of the decimals that read back as a given double, the ones with the fewest digits, and of those
the nearest. Two layouts are written from them: the positional one, which never has an exponent,
and the one of JSON.
-/
namespace DocQuery

/-- The number `d₁.d₂d₃… * 10 ^ exponent`, its digits `d₁d₂d₃…` as one natural number. -/
structure ShortDecimal where
  digits : Nat
  exponent : Int
  deriving DecidableEq, Repr

/-- Where a value that lies halfway between two decimals goes. -/
inductive Tie where
  | up
  | even
  deriving DecidableEq, Repr

namespace Binary64

/-- The greatest `e` with `10 ^ e ≤ num / den`, for positive `num` and `den`. -/
def decimalExponent (num den : Nat) : Int :=
  if den ≤ num then ((Decimal.digits (num / den)).length : Int) - 1
  else
    let size := (Decimal.digits (den / num)).length
    if num * Nat.pow 10 (size - 1) = den then 1 - (size : Int) else -(size : Int)

/-- The reals that read back as the double `m * 2 ^ q`, in units of `2 ^ (q - 2)`: a quarter of the
spacing below, and whether the ends belong to them. -/
structure Interval where
  low : Nat
  middle : Nat
  high : Nat
  closed : Bool

def interval (x : Binary64) : Interval :=
  let (m, q) := x.scaled
  let below := if m = Nat.pow 2 52 && -1074 < q then 1 else 2
  ⟨4 * m - below, 4 * m, 4 * m + 2, m % 2 = 0⟩

/-- The fraction `n * 2 ^ (q - 2)` over the common denominator `10 ^ k`. -/
def onGrid (n : Nat) (q k : Int) : Nat × Nat :=
  let two := q - 2
  let num := n * (if 0 ≤ two then Nat.pow 2 two.toNat else 1) *
    (if k < 0 then Nat.pow 10 (-k).toNat else 1)
  let den := (if two < 0 then Nat.pow 2 (-two).toNat else 1) *
    (if 0 ≤ k then Nat.pow 10 k.toNat else 1)
  (num, den)

/-- The point of the grid of multiples of `10 ^ k` that reads back as `x` and is nearest to it. -/
def gridPoint? (tie : Tie) (x : Binary64) (k : Int) : Option Nat :=
  let q := x.scaled.2
  let i := x.interval
  let (low, den) := onGrid i.low q k
  let (middle, _) := onGrid i.middle q k
  let (high, _) := onGrid i.high q k
  let inside (d : Nat) : Bool :=
    if i.closed then low ≤ d * den && d * den ≤ high else low < d * den && d * den < high
  let below := middle / den
  let rest := middle % den
  let above := below + 1
  match inside below, inside above with
  | false, false => none
  | true, false => some below
  | false, true => some above
  | true, true =>
    if 2 * rest < den then some below
    else if den < 2 * rest then some above
    else match tie with
      | .up => some above
      | .even => if below % 2 = 0 then some below else some above

/-- Tries grids of one digit more each time; seventeen digits always suffice. -/
def shortestFrom (tie : Tie) (x : Binary64) (top : Int) : Nat → Nat → ShortDecimal
  | 0, _ => ⟨0, top⟩
  | steps + 1, extra =>
    match gridPoint? tie x (top - extra) with
    | some d =>
      if d = Nat.pow 10 (extra + 1) then ⟨1, top + 1⟩ else ⟨d, top⟩
    | none => shortestFrom tie x top steps (extra + 1)

/-- The shortest decimal of a finite double other than zero, without its sign. -/
def shortest (tie : Tie) (x : Binary64) : ShortDecimal :=
  let (num, den) := x.ratio
  shortestFrom tie x (decimalExponent num den) 17 0

/-- The digits without the zeros at their end. -/
def significant (s : ShortDecimal) : List Char :=
  ((Decimal.digits s.digits).reverse.dropWhile (· == '0')).reverse

/-- Digits of which the first has the weight `10 ^ exponent`, written without an exponent. -/
def positional (ds : List Char) (exponent : Int) : List Char :=
  if exponent < 0 then
    '0' :: '.' :: List.replicate ((-exponent).toNat - 1) '0' ++ ds
  else
    let whole := exponent.toNat + 1
    if ds.length ≤ whole then ds ++ List.replicate (whole - ds.length) '0'
    else ds.take whole ++ '.' :: ds.drop whole

/-- The positional text: `2.5`, `2`, `-0`, `inf`, `NaN`, and never an exponent. -/
def plainText (x : Binary64) : String :=
  if x.isNaN then "NaN"
  else
    let sign := if x.isNegative then "-" else ""
    if x.isInfinite then sign ++ "inf"
    else if x.isZero then sign ++ "0"
    else
      let s := x.shortest .up
      sign ++ String.ofList (positional (significant s) s.exponent)

/-- The layout of JSON: a point always or an exponent, the latter where the first digit weighs less
than `10 ^ -5` or at least `10 ^ 16`. -/
def jsonLayout (ds : List Char) (exponent : Int) : List Char :=
  if exponent < -5 || 15 < exponent then
    let power := 'e' :: (if exponent < 0 then '-' else '+') :: Decimal.digits exponent.natAbs
    match ds with
    | [] => '0' :: power
    | [d] => d :: power
    | d :: rest => d :: '.' :: rest ++ power
  else if exponent < 0 || exponent.toNat + 1 < ds.length then positional ds exponent
  else positional ds exponent ++ ['.', '0']

/-- The number as JSON has it; what is no number there is `null`. -/
def jsonText (x : Binary64) : String :=
  if !x.isFinite then "null"
  else
    let sign := if x.isNegative then "-" else ""
    if x.isZero then sign ++ "0.0"
    else
      let s := x.shortest .even
      sign ++ String.ofList (jsonLayout (significant s) s.exponent)

end Binary64
end DocQuery
