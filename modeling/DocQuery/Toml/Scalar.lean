import DocQuery.Calendar.Date
import DocQuery.Number.Binary64
import DocQuery.Text.Decimal
import DocQuery.Text.Hex
import DocQuery.Toml.Basic
/-!
# Bare values of TOML

Truth values, integers, floats, dates and times: the values that stand without quotes or brackets.
-/
namespace DocQuery.Toml

/-- Digits with single underscores between them; the underscores are taken out. -/
def grouped? (isDigit : Char → Bool) : List Char → Option (List Char)
  | [] => none
  | [c] => if isDigit c then some [c] else none
  | c :: '_' :: rest => if isDigit c then (grouped? isDigit rest).map (c :: ·) else none
  | c :: rest => if isDigit c then (grouped? isDigit rest).map (c :: ·) else none

def isDigitIn (base : Nat) (c : Char) : Bool :=
  match Hex.digit? c with
  | some n => n < base
  | none => false

def valueIn (base : Nat) (ds : List Char) : Nat :=
  ds.foldl (fun n c => base * n + (Hex.digit? c).getD 0) 0

/-- An integer has to fit 128 bits, signed or not. -/
def integer? (i : Int) : Option Toml :=
  if -(Nat.pow 2 127 : Int) ≤ i && i < Nat.pow 2 128 then some (.integer i) else none

/-- A decimal numeral without zeros in front. -/
def whole? (s : List Char) : Option (List Char) := do
  let ds ← grouped? Decimal.isDigit s
  if ds.length ≠ 1 && ds.head? = some '0' then none
  some ds

/-- The sign, and whether one stands there. -/
def sign (s : List Char) : Bool × Bool × List Char :=
  match s with
  | '-' :: rest => (true, true, rest)
  | '+' :: rest => (false, true, rest)
  | _ => (false, false, s)

def fits (x : Binary64) : Option Toml :=
  if x.isFinite then some .other else none

/-- A float after its sign; a finite numeral may not be too great. -/
def float? (s : List Char) : Option Toml :=
  if s = "inf".toList || s = "nan".toList then some .other
  else do
    let mantissa := s.takeWhile fun c => c ≠ 'e' && c ≠ 'E'
    let power := s.dropWhile fun c => c ≠ 'e' && c ≠ 'E'
    let front := mantissa.takeWhile (· ≠ '.')
    let back := mantissa.dropWhile (· ≠ '.')
    if back.isEmpty && power.isEmpty then none
    let whole ← whole? front
    let fraction ← match back with
      | [] => some []
      | _ :: ds => grouped? Decimal.isDigit ds
    let e ← match power with
      | [] => some (0 : Int)
      | _ :: p =>
        let (negative, _, ds) := sign p
        (grouped? Decimal.isDigit ds).map fun ds =>
          if negative then -(Decimal.value ds : Int) else Decimal.value ds
    fits (Binary64.ofDecimal false (Decimal.value (whole ++ fraction)) (e - fraction.length))

/-- A number with an optional sign; the other bases have none. -/
def number? (s : List Char) : Option Toml :=
  let inBase (base : Nat) (ds : List Char) : Option Toml :=
    (grouped? (isDigitIn base) ds).bind fun ds => integer? (valueIn base ds)
  match s with
  | '0' :: 'x' :: ds => inBase 16 ds
  | '0' :: 'o' :: ds => inBase 8 ds
  | '0' :: 'b' :: ds => inBase 2 ds
  | _ =>
    let (negative, _, rest) := sign s
    match whole? rest with
    | some ds =>
      integer? (if negative then -(Decimal.value ds : Int) else Decimal.value ds)
    | none => float? rest

/-- Digits after a point, or nothing. -/
def secondsFraction? : List Char → Option (List Char)
  | '.' :: s =>
    let (ds, rest) := Decimal.span s
    if ds.isEmpty then none else some rest
  | s => some s

/-- A time of day; the seconds may be left out. -/
def time? (s : List Char) : Option (List Char) := do
  let (hour, s) ← Text.number? 2 s
  let s ← Text.skip? ':' s
  let (minute, s) ← Text.number? 2 s
  if 23 < hour || 59 < minute then none
  match s with
  | ':' :: s =>
    let (second, s) ← Text.number? 2 s
    if 60 < second then none
    secondsFraction? s
  | s => some s

/-- The offset of a time from UTC, or nothing. -/
def offset? : List Char → Option (List Char)
  | [] => some []
  | 'Z' :: s => some s
  | 'z' :: s => some s
  | c :: s =>
    if c = '+' || c = '-' then do
      let (hours, s) ← Text.number? 2 s
      let s ← Text.skip? ':' s
      let (minutes, s) ← Text.number? 2 s
      if 23 < hours || 59 < minutes then none else some s
    else none

/-- A date, a time, or both with an optional offset. -/
def moment? (s : List Char) : Option Toml := do
  let rest ← match Date.read? s with
    | none => time? s
    | some (_, []) => some []
    | some (_, c :: rest) =>
      if c = 'T' || c = 't' || c = ' ' then (time? rest).bind offset? else none
  if rest.isEmpty then some .other else none

/-- The value of a bare word. -/
def scalar? (s : List Char) : Option Toml :=
  if s = "true".toList || s = "false".toList then some .other
  else match number? s with
    | some v => some v
    | none => moment? s

end DocQuery.Toml
