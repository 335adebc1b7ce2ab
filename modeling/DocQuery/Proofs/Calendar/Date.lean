import DocQuery.Calendar.Date
import DocQuery.Proofs.Number.Padded
import Mathlib.Tactic.IntervalCases
/-!
# Days and dates

One valid date follows another in the order of the calendar (`Date.next`), and the count of days
goes up by one with each. Since the count of a date determines the date (`Date.ofDays_toDays`),
every number of days belongs to exactly one valid date, and later days have later dates.
-/
namespace DocQuery.Date

/-- The date of the following day. -/
def next (d : Date) : Date :=
  if d.day < monthLength d.year d.month then ⟨d.year, d.month, d.day + 1⟩
  else if d.month < 12 then ⟨d.year, d.month + 1, 1⟩
  else ⟨d.year + 1, 1, 1⟩

theorem monthLength_le (year : Int) (month : Nat) : monthLength year month ≤ 31 := by
  unfold monthLength
  split
  · split <;> omega
  · split <;> omega

theorem monthLength_ge (year : Int) (month : Nat) : 28 ≤ monthLength year month := by
  unfold monthLength
  split
  · split <;> omega
  · split <;> omega

theorem monthLength_pos (year : Int) (month : Nat) : 1 ≤ monthLength year month :=
  Nat.le_trans (by decide) (monthLength_ge year month)

theorem monthLength_february (year : Int) :
    monthLength year 2 ≤ 29 ∧
      (monthLength year 2 = 29 ↔ year % 4 = 0 ∧ (year % 100 ≠ 0 ∨ year % 400 = 0)) := by
  have leap : isLeap year = true ↔ year % 4 = 0 ∧ (year % 100 ≠ 0 ∨ year % 400 = 0) := by
    simp [isLeap]
  rw [monthLength, if_pos rfl, ← leap]
  split <;> simp [*]

theorem valid_next {d : Date} (valid : d.Valid) : d.next.Valid := by
  obtain ⟨low, high, first, last⟩ := valid
  unfold next
  split
  next inside => exact ⟨low, high, Nat.le_add_left 1 _, inside⟩
  split
  next inside => exact ⟨Nat.le_add_left 1 _, inside, Nat.le_refl 1, monthLength_pos _ _⟩
  next => exact ⟨Nat.le_refl 1, Nat.le_add_left 1 11, Nat.le_refl 1, monthLength_pos _ _⟩

/-- The year from March on to which a month belongs. -/
def marchYear (year : Int) (month : Nat) : Int :=
  if month ≤ 2 then year - 1 else year

/-- The months since March. -/
def marchMonth (month : Nat) : Nat :=
  if month ≤ 2 then month + 9 else month - 3

/-- The days before the month that begins `month` months after 1 March. -/
def monthStart (month : Nat) : Nat :=
  (153 * month + 2) / 5

/-- The days before a year of the cycle. -/
def yearStart (year : Nat) : Nat :=
  year * 365 + year / 4 - year / 100

/-- The days from 1 March of the year 0 to 1 March of another year. -/
def yearDays (year : Int) : Int :=
  365 * year + year / 4 - year / 100 + year / 400

theorem yearDays_eq (year : Int) :
    yearDays year = year / 400 * cycle + yearStart (year % 400).toNat := by
  unfold yearDays yearStart cycle
  omega

theorem toDays_eq (year : Int) (month day : Nat) : toDays ⟨year, month, day⟩ =
    marchYear year month / 400 * cycle +
      ((yearStart (marchYear year month % 400).toNat + (monthStart (marchMonth month) + day - 1) :
        Nat) : Int) - shift := rfl

/-- The days of a date as a sum. -/
theorem toDays_eq_sum (year : Int) (month : Nat) {day : Nat} (first : 1 ≤ day) :
    toDays ⟨year, month, day⟩ =
      yearDays (marchYear year month) + monthStart (marchMonth month) + day - 1 - shift := by
  rw [toDays_eq, yearDays_eq]
  omega

/-- Between one 1 March and the next stand eleven months and February of the later year. -/
theorem yearDays_next (year : Int) :
    yearDays year = yearDays (year - 1) + monthStart 11 + monthLength year 2 := by
  have start : monthStart 11 = 337 := rfl
  obtain ⟨high, leap⟩ := monthLength_february year
  have low := monthLength_ge year 2
  unfold yearDays
  omega

/-- Every month but February ends where the next one begins. -/
theorem monthStart_next (year : Int) {month : Nat} (low : 1 ≤ month) (high : month < 12)
    (other : month ≠ 2) :
    marchYear year (month + 1) = marchYear year month ∧
    monthStart (marchMonth (month + 1)) =
      monthStart (marchMonth month) + monthLength year month := by
  interval_cases month <;> first | exact ⟨rfl, rfl⟩ | exact absurd rfl other

/-- The count of days goes up by one from each date to the next. -/
theorem toDays_next {d : Date} (valid : d.Valid) : d.next.toDays = d.toDays + 1 := by
  obtain ⟨year, month, day⟩ := d
  have low : 1 ≤ month := valid.1
  have high : month ≤ 12 := valid.2.1
  have first : 1 ≤ day := valid.2.2.1
  have last : day ≤ monthLength year month := valid.2.2.2
  rw [toDays_eq_sum year month first]
  unfold next
  by_cases inside : day < monthLength year month
  · rw [if_pos inside, toDays_eq_sum year month (Nat.le_add_left 1 day)]
    omega
  have full : day = monthLength year month := Nat.le_antisymm last (Nat.not_lt.mp inside)
  rw [if_neg inside]
  by_cases before : month < 12
  · rw [if_pos before, toDays_eq_sum year (month + 1) (Nat.le_refl 1)]
    by_cases february : month = 2
    · subst february
      have leap := yearDays_next year
      show yearDays year + (0 : Nat) + (1 : Nat) - 1 - shift =
        yearDays (year - 1) + monthStart 11 + day - 1 - shift + 1
      omega
    · obtain ⟨sameYear, start⟩ := monthStart_next year low before february
      rw [sameYear, start]
      omega
  · obtain rfl : month = 12 := Nat.le_antisymm high (Nat.not_lt.mp before)
    have long : day = 31 := full
    have sameYear : marchYear (year + 1) 1 = year := Int.add_sub_cancel year 1
    rw [if_neg before, toDays_eq_sum (year + 1) 1 (Nat.le_refl 1), sameYear, long]
    show yearDays year + (306 : Nat) + (1 : Nat) - 1 - shift =
      yearDays year + (275 : Nat) + (31 : Nat) - 1 - shift + 1
    omega

/-- A year of the cycle by its century, its place among the spans of four years, and its place in
such a span. -/
theorem exists_parts {year : Nat} (inside : year < 400) : ∃ century span rest,
    century ≤ 3 ∧ span ≤ 24 ∧ rest ≤ 3 ∧ year = 100 * century + 4 * span + rest ∧
      yearStart year = 36524 * century + 1461 * span + 365 * rest := by
  unfold yearStart
  exact ⟨year / 100, year % 100 / 4, year % 4, by omega, by omega, by omega, by omega, by omega⟩

/-- A day of a year that begins in March; there is a last one more if the year after it is a leap
year. -/
def DayOfYear (year day : Nat) : Prop :=
  day ≤ 365 ∧ (day = 365 → (year + 1) % 4 = 0 ∧ ((year + 1) % 100 ≠ 0 ∨ (year + 1) % 400 = 0))

theorem lt_cycle {year day : Nat} (inside : year < 400) (real : DayOfYear year day) :
    yearStart year + day < 146097 := by
  obtain ⟨century, span, rest, _, _, _, rfl, start⟩ := exists_parts inside
  have bound := real.1
  omega

/-- The year is found again from the day of the cycle. -/
theorem yearOfCycle_eq {year day : Nat} (inside : year < 400) (real : DayOfYear year day)
    {n : Nat} (place : n = yearStart year + day) :
    (n - n / 1460 + n / 36524 - n / 146096) / 365 = year := by
  obtain ⟨bound, leap⟩ := real
  obtain ⟨century, span, rest, _, _, _, rfl, start⟩ := exists_parts inside
  rw [start] at place
  have last : day = 365 → rest = 3 ∧ (span < 24 ∨ century = 3) := by
    intro same
    have := leap same
    omega
  -- The last day of the cycle alone counts for a fifth century, and it is taken off again.
  have centuries : n / 36524 = century + n / 146096 := by
    by_cases final : n = 146096
    · omega
    · have below : n < 36524 * (century + 1) := by omega
      have short : n < 146096 := by omega
      omega
  have spans : n / 1460 = 25 * century + span ∧ day ≤ 364 ∨
      n / 1460 = 25 * century + span + 1 ∧ 1 ≤ day := by
    omega
  omega

section

variable {year : Int} {month day : Nat} (low : 1 ≤ month) (high : month ≤ 12) (first : 1 ≤ day)
  (last : day ≤ monthLength year month)
include low high first last

/-- The month is found again from the day of the year. -/
theorem month_eq :
    (5 * (monthStart (marchMonth month) + day - 1) + 2) / 153 = marchMonth month := by
  have february : month = 2 → day ≤ 29 := by
    rintro rfl
    exact Nat.le_trans last (monthLength_february year).1
  unfold monthStart marchMonth
  unfold monthLength at last
  interval_cases month <;> simp at last february ⊢ <;> omega

theorem dayOfYear_of_valid :
    DayOfYear (marchYear year month % 400).toNat (monthStart (marchMonth month) + day - 1) := by
  by_cases february : month = 2
  · subst february
    obtain ⟨short, leap⟩ := monthLength_february year
    have start : monthStart (marchMonth 2) = 337 := rfl
    have before : marchYear year 2 = year - 1 := rfl
    rw [start, before]
    refine ⟨by omega, fun final => ?_⟩
    have long := leap.mp (by omega)
    omega
  · have early : monthStart (marchMonth month) + day - 1 ≤ 336 := by
      unfold monthStart marchMonth
      unfold monthLength at last
      interval_cases month <;> simp at last february ⊢ <;> omega
    exact ⟨by omega, fun final => by omega⟩

end

/-- A date is found again from its count of days. -/
theorem ofDays_toDays {d : Date} (valid : d.Valid) : ofDays d.toDays = d := by
  obtain ⟨year, month, day⟩ := d
  obtain ⟨low, high, first, last⟩ := valid
  simp only at low high first last
  have real := dayOfYear_of_valid low high first last
  have monthIs := month_eq low high first last
  generalize yearIs : (marchYear year month % 400).toNat = y at real
  generalize dayIs : monthStart (marchMonth month) + day - 1 = k at real monthIs
  have inside : y < 400 := by omega
  have room := lt_cycle inside real
  have count : toDays ⟨year, month, day⟩ + shift =
      marchYear year month / 400 * cycle + (yearStart y + k : Nat) := by
    rw [toDays_eq, yearIs, dayIs]
    omega
  have cycleIs : (toDays ⟨year, month, day⟩ + shift) / cycle = marchYear year month / 400 := by
    rw [count]
    unfold cycle
    omega
  have placeIs : ((toDays ⟨year, month, day⟩ + shift) % cycle).toNat = yearStart y + k := by
    rw [count]
    unfold cycle
    omega
  have yearFound := yearOfCycle_eq inside real rfl
  have dayFound : yearStart y + k - (365 * y + y / 4 - y / 100) = k := by
    unfold yearStart
    omega
  unfold ofDays
  simp only [cycleIs, placeIs, yearFound, dayFound, monthIs, mk.injEq]
  subst yearIs
  subst dayIs
  unfold marchYear marchMonth monthStart
  refine ⟨?_, ?_, ?_⟩
  · split <;> split <;> omega
  · split <;> split <;> omega
  · split <;> omega

/-- The calendar repeats every four hundred years. -/
theorem toDays_cycles (year : Int) (month day : Nat) (cycles : Int) :
    toDays ⟨year + 400 * cycles, month, day⟩ = toDays ⟨year, month, day⟩ + cycles * cycle := by
  have moved : marchYear (year + 400 * cycles) month = marchYear year month + 400 * cycles := by
    unfold marchYear
    split <;> omega
  have quotient : (marchYear year month + 400 * cycles) / 400 =
      marchYear year month / 400 + cycles := by omega
  have rest : (marchYear year month + 400 * cycles) % 400 = marchYear year month % 400 := by omega
  rw [toDays_eq, toDays_eq, moved, quotient, rest, Int.add_mul]
  omega

/-- Every day has a date: dates follow upon a New Year's Day that lies far enough back. -/
theorem exists_toDays_eq (n : Int) : ∃ d : Date, d.Valid ∧ d.toDays = n := by
  have start : ∃ d : Date, d.Valid ∧ d.toDays = -n.natAbs * cycle := by
    refine ⟨⟨1970 + 400 * -n.natAbs, 1, 1⟩,
      ⟨Nat.le_refl 1, Nat.le_add_left 1 11, Nat.le_refl 1, monthLength_pos _ _⟩, ?_⟩
    have epoch : toDays ⟨1970, 1, 1⟩ = 0 := rfl
    rw [toDays_cycles, epoch, Int.zero_add]
  have onward : ∀ k : Nat, ∃ d : Date, d.Valid ∧ d.toDays = -n.natAbs * cycle + k := by
    intro k
    induction k with
    | zero => simpa using start
    | succ k ih =>
      obtain ⟨d, valid, count⟩ := ih
      refine ⟨d.next, valid_next valid, ?_⟩
      rw [toDays_next valid, count]
      omega
  obtain ⟨d, valid, count⟩ := onward (n + n.natAbs * cycle).toNat
  refine ⟨d, valid, ?_⟩
  unfold cycle at count
  omega

theorem ofDays_spec (n : Int) : (ofDays n).Valid ∧ (ofDays n).toDays = n := by
  obtain ⟨d, valid, rfl⟩ := exists_toDays_eq n
  rw [ofDays_toDays valid]
  exact ⟨valid, rfl⟩

theorem ofDays_succ (n : Int) : ofDays (n + 1) = (ofDays n).next := by
  obtain ⟨valid, count⟩ := ofDays_spec n
  rw [← ofDays_toDays (valid_next valid), toDays_next valid, count]

example : ofDays 11016 = ⟨2000, 2, 29⟩ := by decide

/-- The first date is earlier in the order of the calendar. -/
def Before (d e : Date) : Prop :=
  d.year < e.year ∨ d.year = e.year ∧ (d.month < e.month ∨ d.month = e.month ∧ d.day < e.day)

theorem Before.trans {d e f : Date} (first : d.Before e) (second : e.Before f) : d.Before f := by
  unfold Before at *
  omega

theorem before_next (d : Date) : d.Before d.next := by
  unfold next
  split
  · exact Or.inr ⟨rfl, Or.inr ⟨rfl, Nat.lt_succ_self _⟩⟩
  split
  · exact Or.inr ⟨rfl, Or.inl (Nat.lt_succ_self _)⟩
  · exact Or.inl (Int.lt_succ _)

/-- Later days have later dates. -/
theorem ofDays_before {m n : Int} (earlier : m < n) : (ofDays m).Before (ofDays n) := by
  obtain ⟨k, rfl⟩ : ∃ k : Nat, n = m + 1 + k := ⟨(n - m - 1).toNat, by omega⟩
  clear earlier
  induction k with
  | zero =>
    rw [Int.natCast_zero, Int.add_zero, ofDays_succ]
    exact before_next _
  | succ k ih =>
    rw [Int.natCast_succ, ← Int.add_assoc, ofDays_succ]
    exact ih.trans (before_next _)

/-- The counts of the dates of four-digit years. -/
theorem toDays_bounds {d : Date} (valid : d.Valid) (low : 0 ≤ d.year) (high : d.year ≤ 9999) :
    -719528 ≤ d.toDays ∧ d.toDays ≤ 2932896 := by
  obtain ⟨year, month, day⟩ := d
  obtain ⟨first, last, one, long⟩ := valid
  have days := Nat.le_trans long (monthLength_le year month)
  simp only at first last one days low high
  rw [toDays_eq_sum year month one]
  unfold yearDays marchYear marchMonth monthStart shift
  split <;> omega

/-- A valid date is read from its three numerals, whatever follows. -/
theorem read?_append {d : Date} (valid : d.Valid) (future : 0 ≤ d.year)
    {year month day : List Char} (y : Decimal.IsNumeral 4 d.year.toNat year)
    (m : Decimal.IsNumeral 2 d.month month) (k : Decimal.IsNumeral 2 d.day day)
    (rest : List Char) :
    read? (year ++ '-' :: (month ++ '-' :: (day ++ rest))) = some (d, rest) := by
  have same : (⟨(d.year.toNat : Int), d.month, d.day⟩ : Date) = d := by
    rw [Int.toNat_of_nonneg future]
  simp only [read?, Text.number?_append y, Text.number?_append m, Text.number?_append k,
    Text.skip?_cons, Option.bind_eq_bind, Option.bind_some, same, if_pos valid]

end DocQuery.Date
