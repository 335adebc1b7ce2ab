import DocQuery.Text.Decimal
/-!
# Decimal floating point numbers

A decimal of at most thirty-four digits with an exponent, in the binary encoding of 128 bits. The
module reads numerals into it and writes the canonical text.
-/
namespace DocQuery

structure Decimal128 where
  bits : BitVec 128
  deriving DecidableEq, Repr

namespace Decimal128

def maxDigits : Nat := 34
def maxCoefficient : Nat := Nat.pow 10 34 - 1
def minExponent : Int := -6176
def maxExponent : Int := 6111

/-- What the bits denote. -/
inductive Kind where
  | nan (signalling : Bool)
  | infinity
  | finite (coefficient : Nat) (exponent : Int)
  deriving DecidableEq, Repr

/-- The bits from `low` upwards, `width` of them, as a number. -/
def slice (d : Decimal128) (low width : Nat) : Nat :=
  d.bits.toNat / Nat.pow 2 low % Nat.pow 2 width

def isNegative (d : Decimal128) : Bool :=
  d.slice 127 1 = 1

/-- The exponent has fourteen bits. After two ones it stands two bits further to the right and the
coefficient is beyond thirty-four digits; such a coefficient counts as zero. -/
def kind (d : Decimal128) : Kind :=
  if d.slice 123 4 = 15 then
    if d.slice 122 1 = 1 then .nan (d.slice 121 1 = 1) else .infinity
  else if d.slice 125 2 = 3 then
    .finite 0 ((d.slice 111 14 : Int) + minExponent)
  else
    let coefficient := d.slice 0 113
    .finite (if maxCoefficient < coefficient then 0 else coefficient)
      ((d.slice 113 14 : Int) + minExponent)

def ofKind (negative : Bool) (k : Kind) : Decimal128 :=
  let sign := if negative then Nat.pow 2 127 else 0
  let magnitude := match k with
    | .nan signalling => 31 * Nat.pow 2 122 + if signalling then Nat.pow 2 121 else 0
    | .infinity => 30 * Nat.pow 2 122
    | .finite coefficient exponent => (exponent - minExponent).toNat * Nat.pow 2 113 + coefficient
  ⟨BitVec.ofNat 128 (sign + magnitude)⟩

/-- The sixteen bytes, least significant first. -/
def ofBytes? (bytes : List UInt8) : Option Decimal128 :=
  if bytes.length = 16 then
    some ⟨BitVec.ofNat 128 (bytes.foldr (fun b n => b.toNat + 256 * n) 0)⟩
  else none

def bytes (d : Decimal128) : List UInt8 :=
  (List.range 16).map fun i => UInt8.ofNat (d.slice (8 * i) 8)

/-- Positional where the exponent is not positive and the first digit weighs at least `10 ^ -6`,
scientific elsewhere. -/
def finiteText (coefficient : Nat) (exponent : Int) : List Char :=
  let ds := Decimal.digits coefficient
  let adjusted := exponent + (ds.length : Int) - 1
  if exponent ≤ 0 && -6 ≤ adjusted then
    let places := (-exponent).toNat
    if places = 0 then ds
    else
      let whole := ds.take (ds.length - places)
      let fraction := List.replicate (places - ds.length) '0' ++ ds.drop (ds.length - places)
      (if whole.isEmpty then ['0'] else whole) ++ '.' :: fraction
  else
    let power := 'E' :: (if adjusted < 0 then '-' else '+') :: Decimal.digits adjusted.natAbs
    match ds with
    | d :: e :: rest => d :: '.' :: e :: rest ++ power
    | _ => ds ++ power

def text (d : Decimal128) : String :=
  let sign := if d.isNegative then "-" else ""
  match d.kind with
  | .nan _ => "NaN"
  | .infinity => sign ++ "Infinity"
  | .finite coefficient exponent => sign ++ String.ofList (finiteText coefficient exponent)

/-- Exponents of 128 bits, the width in which numerals give them. -/
def inExponentRange (e : Int) : Bool :=
  -(Nat.pow 2 127 : Int) ≤ e && e < Nat.pow 2 127

/-- The front part of `ds` of the given length, if only zeros follow it. -/
def cut? (ds : List Char) (length : Nat) : Option (List Char) :=
  if (ds.drop length).all (· == '0') then some (ds.take length) else none

/-- Brings the exponent of a numeral into range by dropping or adding zeros at its end. -/
def fit? (ds : List Char) (e : Int) : Option (List Char × Int) :=
  if e < minExponent then
    if ds = ['0'] then some (ds, minExponent)
    else
      let excess := (minExponent - e).toNat
      if ds.length < excess then none
      else (cut? ds (ds.length - excess)).map fun ds => (ds, minExponent)
  else if maxExponent < e then
    if ds = ['0'] then some (ds, maxExponent)
    else
      let missing := (e - maxExponent).toNat
      if maxDigits < ds.length + missing then none
      else some (ds ++ List.replicate missing '0', maxExponent)
  else some (ds, e)

/-- A number that may have a plus sign. -/
def coefficient? : List Char → Option Nat
  | '+' :: ds => Decimal.nat? ds
  | ds => Decimal.nat? ds

/-- The digits with the point taken out and the exponent lowered by the places after it. -/
def withoutPoint (mantissa : List Char) (e : Int) : List Char × Int :=
  match mantissa.dropWhile (· != '.') with
  | _ :: post => (mantissa.takeWhile (· != '.') ++ post, e - post.length)
  | [] => (mantissa, e)

/-- The digits and exponent of a numeral without its sign, in small letters. -/
def finite? (s : List Char) : Option Kind := do
  let mantissa := s.takeWhile (· != 'e')
  let e ← match s.dropWhile (· != 'e') with
    | _ :: e => Decimal.int? e
    | [] => some 0
  if !inExponentRange e then none
  let (ds, e) := withoutPoint mantissa e
  if !inExponentRange e then none
  let ds := match ds.dropWhile (· == '0') with
    | [] => ['0']
    | ds => ds
  let kept ← if maxDigits < ds.length then cut? ds maxDigits else some ds
  let e := e + ((ds.length - kept.length : Nat) : Int)
  if !inExponentRange e then none
  let (ds, e) ← fit? kept e
  let coefficient ← coefficient? ds
  some (.finite coefficient e)

/-- Reads a numeral: a sign, then `nan`, `snan`, `inf`, `infinity` in any case, or digits with a
point and an exponent. More than thirty-four digits are taken only if the excess is zeros. -/
def ofText? (s : String) : Option Decimal128 :=
  let (negative, rest) := match s.toList with
    | '-' :: rest => (true, rest)
    | '+' :: rest => (false, rest)
    | rest => (false, rest)
  let rest := rest.map Char.toLower
  let kind? :=
    if rest = "nan".toList then some (.nan false)
    else if rest = "snan".toList then some (.nan true)
    else if rest = "inf".toList || rest = "infinity".toList then some .infinity
    else finite? rest
  kind?.map (ofKind negative)

end Decimal128
end DocQuery
