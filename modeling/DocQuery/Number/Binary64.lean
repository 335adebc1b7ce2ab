/-!
# Double precision numbers

A double is its sixty-four bits. A finite double is a natural number times a power of two; the
double nearest to a fraction is found in exact arithmetic, a tie going to the even neighbour, and
products and quotients are the doubles nearest to the exact results.
-/
namespace DocQuery

structure Binary64 where
  bits : UInt64
  deriving DecidableEq, Repr

namespace Binary64

/-- The code of infinity among the magnitudes: eleven ones, then fifty-two zeros. -/
def infinityCode : Nat :=
  2047 * Nat.pow 2 52

def isNegative (x : Binary64) : Bool :=
  Nat.pow 2 63 ≤ x.bits.toNat

/-- The bits below the sign. They order the magnitudes. -/
def code (x : Binary64) : Nat :=
  x.bits.toNat % Nat.pow 2 63

def isNaN (x : Binary64) : Bool :=
  infinityCode < x.code

def isInfinite (x : Binary64) : Bool :=
  x.code = infinityCode

def isFinite (x : Binary64) : Bool :=
  x.code < infinityCode

def isZero (x : Binary64) : Bool :=
  x.code = 0

def ofCode (negative : Bool) (code : Nat) : Binary64 :=
  ⟨UInt64.ofNat ((if negative then Nat.pow 2 63 else 0) + code)⟩

def infinity (negative : Bool) : Binary64 :=
  ofCode negative infinityCode

def nan : Binary64 :=
  ofCode false (infinityCode + Nat.pow 2 51)

def zero (negative : Bool) : Binary64 :=
  ofCode negative 0

/-- The magnitude of a finite double as `m * 2 ^ q`. -/
def scaled (x : Binary64) : Nat × Int :=
  let e : Nat := x.code / Nat.pow 2 52
  let fraction : Nat := x.code % Nat.pow 2 52
  if e = 0 then (fraction, -1074) else (Nat.pow 2 52 + fraction, (e : Int) - 1075)

/-- The magnitude of a finite double as a fraction. -/
def ratio (x : Binary64) : Nat × Nat :=
  let (m, q) := x.scaled
  if 0 ≤ q then (m * Nat.pow 2 q.toNat, 1) else (m, Nat.pow 2 (-q).toNat)

/-- The quotient rounded to the nearest natural number, a half going to the even one. -/
def roundedQuotient (num den : Nat) : Nat :=
  let low := num / den
  let rest := num % den
  if 2 * rest < den then low
  else if den < 2 * rest then low + 1
  else low + low % 2

/-- The greatest `e` with `2 ^ e * den ≤ num`, for positive `num` and `den`. -/
def binaryExponent (num den : Nat) : Int :=
  let e : Int := (num.log2 : Int) - (den.log2 : Int)
  let reached := if 0 ≤ e then Nat.pow 2 e.toNat * den ≤ num
    else den ≤ num * Nat.pow 2 (-e).toNat
  if reached then e else e - 1

/-- The code of the double nearest to `num / den`; what is too great for a double is infinite. -/
def nearestCode (num den : Nat) : Nat :=
  if num = 0 then 0
  else
    let q := max (binaryExponent num den - 52) (-1074)
    let m := if 0 ≤ q then roundedQuotient num (den * Nat.pow 2 q.toNat)
      else roundedQuotient (num * Nat.pow 2 (-q).toNat) den
    min ((q + 1074).toNat * Nat.pow 2 52 + m) infinityCode

/-- The double nearest to `num / den`, with the given sign. -/
def nearest (negative : Bool) (num den : Nat) : Binary64 :=
  ofCode negative (nearestCode num den)

def ofNat (n : Nat) : Binary64 :=
  nearest false n 1

def neg (x : Binary64) : Binary64 :=
  ofCode (!x.isNegative) x.code

/-- The product of two finite doubles. -/
def mul (x y : Binary64) : Binary64 :=
  let (a, b) := x.ratio
  let (c, d) := y.ratio
  nearest (x.isNegative != y.isNegative) (a * c) (b * d)

/-- The quotient of a finite double by a finite double other than zero. -/
def div (x y : Binary64) : Binary64 :=
  let (a, b) := x.ratio
  let (c, d) := y.ratio
  nearest (x.isNegative != y.isNegative) (a * d) (b * c)

/-- The double nearest to `n * 10 ^ e`, with the given sign. Exponents far out of range are settled
without computing the power. -/
def ofDecimal (negative : Bool) (n : Nat) (e : Int) : Binary64 :=
  if n = 0 then zero negative
  else if 400 < e then infinity negative
  else
    let size : Int := n.log2
    if e < -400 - size then zero negative
    else if 0 ≤ e then nearest negative (n * Nat.pow 10 e.toNat) 1
    else nearest negative n (Nat.pow 10 (-e).toNat)

end Binary64
end DocQuery
