import DocQuery.Json.Basic
import DocQuery.Text.Decimal
import DocQuery.Text.Quoted
/-!
# Reading JSON

The grammar of RFC 8259 over lists of characters, and the value of a number. A number is read into
a significand of at most sixty-four bits and a power of ten; the double is their product or
quotient, rounded at each step.
-/
namespace DocQuery.Json

/-- The parts of a number as it is written. -/
structure Numeral where
  negative : Bool
  whole : List Char
  fraction : Option (List Char)
  exponent : Option (Bool × List Char)
  deriving DecidableEq, Repr

/-- The greatest significand. -/
def maxSignificand : Nat :=
  Nat.pow 2 64 - 1

/-- The greatest power of ten that is a double. -/
def maxPower : Nat := 308

/-- Takes digits into a significand while it stays in range; what is left over comes back. -/
def gather : Nat → List Char → Nat × List Char
  | n, [] => (n, [])
  | n, c :: rest =>
    let next := 10 * n + Decimal.digitValue c
    if maxSignificand < next then (n, c :: rest) else gather next rest

/-- The double `10 ^ k`. -/
def powerOfTen (k : Nat) : Binary64 :=
  Binary64.nearest false (Nat.pow 10 k) 1

/-- `x * 10 ^ e`, by one product or by quotients. Three quotients by the greatest power leave
nothing of a significand. `none` is a result beyond the doubles. -/
def scale? : Nat → Binary64 → Int → Option Binary64
  | steps, x, e =>
    if e.natAbs ≤ maxPower then
      if 0 ≤ e then
        let y := x.mul (powerOfTen e.natAbs)
        if y.isFinite then some y else none
      else some (x.div (powerOfTen e.natAbs))
    else if x.isZero then some x
    else if 0 ≤ e then none
    else match steps with
      | 0 => some (Binary64.zero false)
      | steps + 1 => scale? steps (x.div (powerOfTen maxPower)) (e + maxPower)

/-- The greatest exponent that is told apart from greater ones. -/
def maxExponent : Nat :=
  Nat.pow 2 31 - 1

/-- The sum, kept within thirty-two bits. -/
def addExponent (e : Int) (negative : Bool) (n : Nat) : Int :=
  max (min (if negative then e - n else e + n) maxExponent) (-(maxExponent : Int) - 1)

namespace Numeral

/-- The number as a double; `none` if it is beyond them. -/
def double? (n : Numeral) : Option Binary64 := do
  let (significand, dropped) := gather 0 n.whole
  let (significand, kept) := match n.fraction with
    | none => (significand, 0)
    | some ds =>
      let (significand, left) := gather significand ds
      (significand, ds.length - left.length)
  let e : Int := (dropped.length : Int) - (kept : Int)
  let magnitude ← match n.exponent with
    | none => scale? 3 (Binary64.ofNat significand) e
    | some (negative, ds) =>
      let power := Decimal.value ds
      if maxExponent < power then
        if significand ≠ 0 && !negative then none else some (Binary64.zero false)
      else scale? 3 (Binary64.ofNat significand) (addExponent e negative power)
  some (if n.negative then magnitude.neg else magnitude)

/-- An integer where it is written as one, fits sixty-four bits and is not `-0`; else a double. -/
def value (n : Numeral) : Json :=
  let whole := Decimal.value n.whole
  let asDouble : Json := match n.double? with
    | some x => .double x
    | none => .unusable
  if n.fraction.isSome || n.exponent.isSome then asDouble
  else if n.negative then
    if 0 < whole && whole ≤ Nat.pow 2 63 then .int (-(whole : Int)) else asDouble
  else if whole ≤ maxSignificand then .int whole
  else asDouble

end Numeral

def isSpace (c : Char) : Bool :=
  c = ' ' || c = '\n' || c = '\t' || c = '\r'

def skipSpace (s : List Char) : List Char :=
  s.dropWhile isSpace

/-- Digits, at least one. -/
def digits? (s : List Char) : Option (List Char × List Char) :=
  let (ds, rest) := Decimal.span s
  if ds.isEmpty then none else some (ds, rest)

/-- A zero alone, or digits of which the first is not zero. -/
def whole? : List Char → Option (List Char × List Char)
  | '0' :: c :: rest => if Decimal.isDigit c then none else some (['0'], c :: rest)
  | s => digits? s

def fraction? : List Char → Option (Option (List Char) × List Char)
  | '.' :: s => (digits? s).map fun (ds, rest) => (some ds, rest)
  | s => some (none, s)

def exponent? : List Char → Option (Option (Bool × List Char) × List Char)
  | c :: s =>
    if c = 'e' || c = 'E' then
      let (negative, s) := match s with
        | '-' :: s => (true, s)
        | '+' :: s => (false, s)
        | s => (false, s)
      (digits? s).map fun (ds, rest) => (some (negative, ds), rest)
    else some (none, c :: s)
  | [] => some (none, [])

def numeral? (s : List Char) : Option (Numeral × List Char) := do
  let (negative, s) := match s with
    | '-' :: s => (true, s)
    | s => (false, s)
  let (whole, s) ← whole? s
  let (fraction, s) ← fraction? s
  let (exponent, s) ← exponent? s
  some (⟨negative, whole, fraction, exponent⟩, s)

/-- The given characters at the front. -/
def word? : List Char → List Char → Option (List Char)
  | [], s => some s
  | c :: w, d :: s => if c = d then word? w s else none
  | _ :: _, [] => none

/-- An object is usable if each of its names is a text. If not it can only be skipped. -/
def ofMembers? (members : List (Option (List Char) × Json)) : Option Json :=
  match members.mapM fun (name, value) => name.map fun name => (String.ofList name, value) with
  | some members => some (.object members)
  | none => if members.all fun (_, value) => value.isProper then some .unusable else none

/-- What is quoted, as a text if it is one. -/
def ofPieces (pieces : List Quoted.Piece) : Json :=
  match Quoted.join? pieces with
  | some text => .string (String.ofList text)
  | none => .rough pieces

mutual

/-- A value at the front, behind blanks. The fuel bounds the calls within calls; the length of the
text is enough. -/
def value? : Nat → List Char → Option (Json × List Char)
  | 0, _ => none
  | fuel + 1, s =>
    match skipSpace s with
    | [] => none
    | '{' :: s =>
      match skipSpace s with
      | '}' :: s => some (.object [], s)
      | s => (members? fuel s).bind fun (ms, s) => (ofMembers? ms).map fun j => (j, s)
    | '[' :: s =>
      match skipSpace s with
      | ']' :: s => some (.array [], s)
      | s => (items? fuel s).map fun (js, s) => (.array js, s)
    | '"' :: s => (Quoted.pieces? s).map fun (pieces, s) => (ofPieces pieces, s)
    | 'n' :: s => (word? "ull".toList s).map fun s => (.null, s)
    | 't' :: s => (word? "rue".toList s).map fun s => (.bool true, s)
    | 'f' :: s => (word? "alse".toList s).map fun s => (.bool false, s)
    | s => (numeral? s).map fun (n, s) => (n.value, s)

/-- The items of an array up to its closing bracket, at least one. -/
def items? : Nat → List Char → Option (List Json × List Char)
  | 0, _ => none
  | fuel + 1, s => do
    let (j, s) ← value? fuel s
    match skipSpace s with
    | ',' :: s =>
      let (js, s) ← items? fuel s
      some (j :: js, s)
    | ']' :: s => some ([j], s)
    | _ => none

/-- The members of an object up to its closing brace, at least one. -/
def members? : Nat → List Char → Option (List (Option (List Char) × Json) × List Char)
  | 0, _ => none
  | fuel + 1, s => do
    let (name, s) ← Quoted.read? (skipSpace s)
    match skipSpace s with
    | ':' :: s =>
      let (j, s) ← value? fuel s
      match skipSpace s with
      | ',' :: s =>
        let (ms, s) ← members? fuel s
        some ((name, j) :: ms, s)
      | '}' :: s => some ([(name, j)], s)
      | _ => none
    | _ => none

end

theorem skipSpace_cons {c : Char} {rest : List Char} (visible : isSpace c = false) :
    skipSpace (c :: rest) = c :: rest := by
  rw [skipSpace, List.dropWhile_cons_of_neg (by simp [visible])]

theorem value?_null (rest : List Char) (fuel : Nat) :
    value? (fuel + 1) ("null".toList ++ rest) = some (.null, rest) := by
  show value? (fuel + 1) ('n' :: 'u' :: 'l' :: 'l' :: rest) = _
  rw [value?, skipSpace_cons (by decide)]
  rfl

theorem items?_last {fuel : Nat} {s rest : List Char} {j : Json}
    (found : value? fuel s = some (j, ']' :: rest)) :
    items? (fuel + 1) s = some ([j], rest) := by
  rw [items?, found]
  rfl

/-- The value that a whole text denotes. -/
def read? (s : String) : Option Json :=
  let s := s.toList
  match value? (s.length + 1) s with
  | some (j, rest) => if (skipSpace rest).isEmpty then some j else none
  | none => none

end DocQuery.Json
