import DocQuery.Calendar.Date
import DocQuery.Text.Decimal
/-!
# Instants and their RFC 3339 texts

An instant is a number of milliseconds since 1970 in UTC. Two texts are written: one with exactly
three digits for the milliseconds and any year, and one that drops the zeros at the end of the
fraction and knows the years 0 to 9999. Reading takes RFC 3339 with any offset.
-/
namespace DocQuery.Instant

/-- Date and time of day. -/
structure Clock where
  date : Date
  hour : Nat
  minute : Nat
  second : Nat
  milli : Nat
  deriving DecidableEq, Repr

def dayLength : Int := 86400000

def clock (ms : Int) : Clock :=
  let rest := (ms % dayLength).toNat
  { date := Date.ofDays (ms / dayLength)
    hour := rest / 3600000
    minute := rest / 60000 % 60
    second := rest / 1000 % 60
    milli := rest % 1000 }

/-- The milliseconds since 1970 at which `c` stands. -/
def Clock.toMillis (c : Clock) : Int :=
  c.date.toDays * dayLength +
    (c.hour * 3600000 + c.minute * 60000 + c.second * 1000 + c.milli : Nat)

/-- Four digits; years outside 0 to 9999 have a sign as well. -/
def yearText (year : Int) : List Char :=
  if 0 ≤ year && year ≤ 9999 then Decimal.padded 4 year.toNat
  else (if year < 0 then '-' else '+') :: Decimal.padded 4 year.natAbs

/-- `YYYY-MM-DDTHH:MM:SS`, the part that both texts share. -/
def secondsText (c : Clock) : List Char :=
  yearText c.date.year ++ '-' :: Decimal.padded 2 c.date.month ++
    '-' :: Decimal.padded 2 c.date.day ++ 'T' :: Decimal.padded 2 c.hour ++
    ':' :: Decimal.padded 2 c.minute ++ ':' :: Decimal.padded 2 c.second

/-- The text with three digits for the milliseconds. -/
def millisText (ms : Int) : String :=
  let c := clock ms
  String.ofList (secondsText c ++ '.' :: Decimal.padded 3 c.milli ++ ['Z'])

/-- The digits of the milliseconds after a point, without zeros at the end. -/
def fractionText (milli : Nat) : List Char :=
  if milli = 0 then []
  else '.' :: ((Decimal.padded 3 milli).reverse.dropWhile (· == '0')).reverse

/-- The last instant that four digits of the year can tell. -/
def latestText : String := "9999-12-31T23:59:59.999999999Z"

/-- The text with the shortest fraction. Instants after the year 9999 have the text of the last
nanosecond before them, instants before the year 0 none. -/
def briefText? (ms : Int) : Option String :=
  let c := clock ms
  if c.date.year < 0 then none
  else if 9999 < c.date.year then some latestText
  else some (String.ofList (secondsText c ++ fractionText c.milli ++ ['Z']))

/-- The years in which every instant has a text with milliseconds. -/
def hasMillisText (ms : Int) : Bool :=
  let year := (clock ms).date.year
  year ≤ 262142 && -262143 ≤ year

/-- The nanoseconds of an optional fraction. Digits beyond the ninth do not count. -/
def fraction? : List Char → Option (Nat × List Char)
  | '.' :: s =>
    let (ds, rest) := Decimal.span s
    if ds.isEmpty then none
    else some (Decimal.value (ds.take 9 ++ List.replicate (9 - ds.length) '0'), rest)
  | s => some (0, s)

/-- The minutes of an offset from UTC. -/
def offset? : List Char → Option (Int × List Char)
  | 'Z' :: rest => some (0, rest)
  | 'z' :: rest => some (0, rest)
  | sign :: s => do
    let negative ← if sign = '-' then some true else if sign = '+' then some false else none
    let (hours, s) ← Text.number? 2 s
    let s ← Text.skip? ':' s
    let (minutes, s) ← Text.number? 2 s
    if 23 < hours || 59 < minutes then none
    let total : Int := hours * 60 + minutes
    some (if negative then -total else total, s)
  | [] => none

/-- Seconds since 1970 at a date, a time of day and an offset in minutes. -/
def epochSeconds (d : Date) (hour minute second : Nat) (offset : Int) : Int :=
  d.toDays * 86400 + (hour * 3600 + minute * 60 + second : Nat) - offset * 60

/-- A sixtieth second may stand only after 23:59:59 UTC on the last day of a month. -/
def allowsLeapSecond (seconds : Int) : Bool :=
  let d := Date.ofDays (seconds / 86400)
  seconds % 86400 = 86399 && d.day = Date.monthLength d.year d.month

/-- Reads an RFC 3339 text. Any one ASCII character separates date and time. What is finer than a
millisecond is cut off toward 1970. -/
def read? (s : List Char) : Option Int := do
  let (date, s) ← Date.read? s
  let s ← match s with
    | separator :: s => if separator.toNat < 128 then some s else none
    | [] => none
  let (hour, s) ← Text.number? 2 s
  let s ← Text.skip? ':' s
  let (minute, s) ← Text.number? 2 s
  let s ← Text.skip? ':' s
  let (second, s) ← Text.number? 2 s
  let (nanos, s) ← fraction? s
  let (offset, s) ← offset? s
  if !s.isEmpty || 23 < hour || 59 < minute || 60 < second then none
  let leap := second = 60
  let seconds := epochSeconds date hour minute (if leap then 59 else second) offset
  if leap && !allowsLeapSecond seconds then none
  let nanos := if leap then 999999999 else nanos
  some ((seconds * 1000000000 + nanos).tdiv 1000000)

end DocQuery.Instant
