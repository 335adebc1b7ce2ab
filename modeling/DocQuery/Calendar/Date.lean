import DocQuery.Text.Front
/-!
# Dates of the proleptic Gregorian calendar

A date and the number of days from 1 January 1970 to it, each computed from the other. Years are
counted from March inside both computations, so that the leap day is the last day of its year; four
hundred such years are 146097 days.
-/
namespace DocQuery

structure Date where
  year : Int
  month : Nat
  day : Nat
  deriving DecidableEq, Repr

namespace Date

def isLeap (year : Int) : Bool :=
  year % 4 = 0 && (year % 100 ≠ 0 || year % 400 = 0)

def monthLength (year : Int) (month : Nat) : Nat :=
  if month = 2 then (if isLeap year then 29 else 28)
  else if month = 4 || month = 6 || month = 9 || month = 11 then 30
  else 31

/-- The date exists. -/
def Valid (d : Date) : Prop :=
  1 ≤ d.month ∧ d.month ≤ 12 ∧ 1 ≤ d.day ∧ d.day ≤ monthLength d.year d.month

instance (d : Date) : Decidable d.Valid := by
  unfold Valid
  infer_instance

/-- The days of a span of four hundred years. -/
def cycle : Int := 146097

/-- The days from 1 March of the year 0 to 1 January 1970. -/
def shift : Int := 719468

/-- The day that lies `days` days after 1 January 1970. -/
def ofDays (days : Int) : Date :=
  let n := days + shift
  let k := n / cycle
  let dayOfCycle := (n % cycle).toNat
  let yearOfCycle :=
    (dayOfCycle - dayOfCycle / 1460 + dayOfCycle / 36524 - dayOfCycle / 146096) / 365
  let dayOfYear := dayOfCycle - (365 * yearOfCycle + yearOfCycle / 4 - yearOfCycle / 100)
  let month := (5 * dayOfYear + 2) / 153
  let year : Int := yearOfCycle + k * 400
  { year := if month < 10 then year else year + 1
    month := if month < 10 then month + 3 else month - 9
    day := dayOfYear - (153 * month + 2) / 5 + 1 }

/-- The days from 1 January 1970 to `d`. -/
def toDays (d : Date) : Int :=
  let year := if d.month ≤ 2 then d.year - 1 else d.year
  let month := if d.month ≤ 2 then d.month + 9 else d.month - 3
  let yearOfCycle := (year % 400).toNat
  let dayOfYear := (153 * month + 2) / 5 + d.day - 1
  let dayOfCycle := yearOfCycle * 365 + yearOfCycle / 4 - yearOfCycle / 100 + dayOfYear
  year / 400 * cycle + dayOfCycle - shift

/-- Reads a date of the form `YYYY-MM-DD`, which has to exist. -/
def read? (s : List Char) : Option (Date × List Char) := do
  let (year, s) ← Text.number? 4 s
  let s ← Text.skip? '-' s
  let (month, s) ← Text.number? 2 s
  let s ← Text.skip? '-' s
  let (day, s) ← Text.number? 2 s
  let d : Date := ⟨year, month, day⟩
  if d.Valid then some (d, s) else none

end Date
end DocQuery
