import DocQuery.Calendar.Instant
import DocQuery.Proofs.Calendar.Date
import DocQuery.Proofs.Json.Numeral
import DocQuery.Proofs.Number.Padded
/-!
# Instants, their clocks and their texts

Each instant has one valid clock, which stands at this instant. What is written of a clock of the
years 0 to 9999 has fields of fixed width (`Clock.WrittenAs`), and everything of this form is read
as the instant of the clock. With three digits for the milliseconds the texts stand in the order of
the instants.
-/
namespace DocQuery.Instant

open Decimal (IsNumeral)

/-- The date exists, and so does the time of day; it is not in a leap second. -/
def Clock.Valid (c : Clock) : Prop :=
  c.date.Valid ∧ c.hour < 24 ∧ c.minute < 60 ∧ c.second < 60 ∧ c.milli < 1000

/-- The first clock stands earlier. -/
def Clock.Before (c e : Clock) : Prop :=
  c.date.Before e.date ∨ c.date = e.date ∧
    (c.hour < e.hour ∨ c.hour = e.hour ∧
      (c.minute < e.minute ∨ c.minute = e.minute ∧
        (c.second < e.second ∨ c.second = e.second ∧ c.milli < e.milli)))

/-- The instant is in one of the years that have four digits. -/
def InEra (ms : Int) : Prop :=
  0 ≤ (clock ms).date.year ∧ (clock ms).date.year ≤ 9999

theorem valid_clock (ms : Int) : (clock ms).Valid := by
  refine ⟨(Date.ofDays_spec _).1, ?_, ?_, ?_, ?_⟩ <;> simp only [clock, dayLength] <;> omega

theorem toMillis_clock (ms : Int) : (clock ms).toMillis = ms := by
  have days : (clock ms).date.toDays = ms / dayLength := (Date.ofDays_spec _).2
  unfold Clock.toMillis
  rw [days]
  simp only [clock, dayLength]
  omega

/-- The clock goes forward. -/
theorem clock_before {m n : Int} (earlier : m < n) : (clock m).Before (clock n) := by
  by_cases sameDay : m / dayLength = n / dayLength
  · refine Or.inr ⟨congrArg Date.ofDays sameDay, ?_⟩
    simp only [clock, dayLength] at sameDay ⊢
    omega
  · refine Or.inl (Date.ofDays_before ?_)
    simp only [dayLength] at sameDay ⊢
    omega

theorem bounds_of_inEra {ms : Int} (era : InEra ms) :
    -62167219200000 ≤ ms ∧ ms < 253402300800000 := by
  have days : (clock ms).date.toDays = ms / dayLength := (Date.ofDays_spec _).2
  obtain ⟨low, high⟩ := Date.toDays_bounds (valid_clock ms).1 era.1 era.2
  rw [days, dayLength] at low high
  omega

/-- The text is `YYYY-MM-DDTHH:MM:SS` for the clock, then the fraction and the sign of UTC. -/
def Clock.WrittenAs (c : Clock) (fraction text : List Char) : Prop :=
  0 ≤ c.date.year ∧ ∃ year month day hour minute second,
    IsNumeral 4 c.date.year.toNat year ∧ IsNumeral 2 c.date.month month ∧
    IsNumeral 2 c.date.day day ∧ IsNumeral 2 c.hour hour ∧ IsNumeral 2 c.minute minute ∧
    IsNumeral 2 c.second second ∧
    text = year ++ '-' :: (month ++ '-' :: (day ++ 'T' :: (hour ++ ':' :: (minute ++ ':' ::
      (second ++ (fraction ++ ['Z']))))))

/-- Nothing, or a point and up to three digits that tell the milliseconds. -/
def IsFraction (milli : Nat) (fraction : List Char) : Prop :=
  fraction = [] ∧ milli = 0 ∨
  ∃ ds, fraction = '.' :: ds ∧ ds ≠ [] ∧ ds.length ≤ 3 ∧
    IsNumeral 3 milli (ds ++ List.replicate (3 - ds.length) '0')

theorem fraction?_append {milli : Nat} {fraction : List Char} (h : IsFraction milli fraction)
    (rest : List Char) :
    fraction? (fraction ++ 'Z' :: rest) = some (milli * 1000000, 'Z' :: rest) := by
  rcases h with ⟨rfl, rfl⟩ | ⟨ds, rfl, some, short, _, digits, value⟩
  · rfl
  · have each : ∀ c ∈ ds, Decimal.isDigit c = true :=
      fun c member => digits c (List.mem_append_left _ member)
    have nonempty : ds.isEmpty = false := by simp [some]
    have all : ds.take 9 = ds := List.take_of_length_le (by omega)
    have zeros : List.replicate (9 - ds.length) '0' =
        List.replicate (3 - ds.length) '0' ++ List.replicate 6 '0' := by
      rw [List.replicate_append_replicate]
      congr 1
      omega
    have nanos : Decimal.value (ds.take 9 ++ List.replicate (9 - ds.length) '0') =
        milli * 1000000 := by
      have million : Nat.pow 10 6 = 1000000 := rfl
      rw [all, zeros, ← List.append_assoc, Decimal.value_append, value,
        Decimal.value_replicate_zero, List.length_replicate, million, Nat.add_zero]
    have split : Decimal.span (ds ++ 'Z' :: rest) = (ds, 'Z' :: rest) :=
      Json.span_append ⟨some, each⟩ (by simp; decide)
    simp [fraction?, split, nonempty, nanos]

/-- What is written of a valid clock is read as the instant at which it stands. -/
theorem read?_of_written {c : Clock} {fraction text : List Char} (valid : c.Valid)
    (written : c.WrittenAs fraction text) (told : IsFraction c.milli fraction) :
    read? text = some c.toMillis := by
  obtain ⟨real, hours, minutes, seconds, _⟩ := valid
  obtain ⟨future, year, month, day, hour, minute, second, y, mo, d, h, mi, s, rfl⟩ := written
  have date := Date.read?_append real future y mo d
  have part := fraction?_append told []
  have offset : offset? ['Z'] = some (0, []) := rfl
  have noLeap : c.second ≠ 60 := by omega
  have inRange : (!([] : List Char).isEmpty || decide (23 < c.hour) || decide (59 < c.minute) ||
      decide (60 < c.second)) = false := by
    simp
    omega
  have nanos : epochSeconds c.date c.hour c.minute c.second 0 * 1000000000 +
      (c.milli * 1000000 : Nat) = c.toMillis * 1000000 := by
    unfold epochSeconds Clock.toMillis dayLength
    omega
  have millis : (c.toMillis * 1000000).tdiv 1000000 = c.toMillis :=
    Int.mul_tdiv_cancel _ (by decide)
  have ascii : 'T'.toNat < 128 := by decide
  simp only [read?, date, Text.number?_append h, Text.number?_append mi, Text.number?_append s,
    Text.skip?_cons, part, offset, ascii, noLeap, inRange, nanos, millis, Option.bind_eq_bind,
    Option.bind_some, decide_false, Bool.false_and, Bool.false_eq_true, ↓reduceIte]

theorem Clock.Valid.two_digits {c : Clock} (valid : c.Valid) :
    c.date.month < 100 ∧ c.date.day < 100 ∧ c.hour < 100 ∧ c.minute < 100 ∧ c.second < 100 := by
  obtain ⟨⟨_, months, _, days⟩, hours, minutes, seconds, _⟩ := valid
  have day := Nat.le_trans days (Date.monthLength_le _ _)
  omega

theorem secondsText_append {c : Clock} (low : 0 ≤ c.date.year) (high : c.date.year ≤ 9999)
    (rest : List Char) : secondsText c ++ rest =
      Decimal.padded 4 c.date.year.toNat ++ '-' :: (Decimal.padded 2 c.date.month ++
        '-' :: (Decimal.padded 2 c.date.day ++ 'T' :: (Decimal.padded 2 c.hour ++
          ':' :: (Decimal.padded 2 c.minute ++ ':' :: (Decimal.padded 2 c.second ++ rest))))) := by
  simp [secondsText, yearText, low, high]

/-- The fields of a clock in the years 0 to 9999 have a fixed width. -/
theorem secondsText_written {c : Clock} (valid : c.Valid) (low : 0 ≤ c.date.year)
    (high : c.date.year ≤ 9999) (fraction : List Char) :
    c.WrittenAs fraction (secondsText c ++ (fraction ++ ['Z'])) := by
  obtain ⟨month, day, hour, minute, second⟩ := valid.two_digits
  have two {n : Nat} (small : n < 100) : IsNumeral 2 n (Decimal.padded 2 n) :=
    Decimal.isNumeral_padded (by decide) small
  have year : c.date.year.toNat < 10000 := by omega
  exact ⟨low, _, _, _, _, _, _, Decimal.isNumeral_padded (by decide) year, two month, two day,
    two hour, two minute, two second, secondsText_append low high _⟩

theorem toList_millisText (ms : Int) : (millisText ms).toList =
    secondsText (clock ms) ++ ('.' :: Decimal.padded 3 (clock ms).milli ++ ['Z']) := by
  rw [millisText, String.toList_ofList, List.append_assoc]

/-- Instants of the era are written with three digits for the milliseconds. -/
theorem millisText_written {ms : Int} (era : InEra ms) :
    ∃ ds, IsNumeral 3 (clock ms).milli ds ∧
      (clock ms).WrittenAs ('.' :: ds) (millisText ms).toList := by
  have valid := valid_clock ms
  refine ⟨_, Decimal.isNumeral_padded (by decide) valid.2.2.2.2, ?_⟩
  rw [toList_millisText]
  exact secondsText_written valid era.1 era.2 _

theorem isFraction_of_isNumeral {milli : Nat} {ds : List Char} (h : IsNumeral 3 milli ds) :
    IsFraction milli ('.' :: ds) := by
  have length := h.1
  refine Or.inr ⟨ds, rfl, ?_, Nat.le_of_eq length, ?_⟩
  · rintro rfl
    cases length
  · rw [length]
    simpa using h

theorem isFraction_fractionText {milli : Nat} (small : milli < 1000) :
    IsFraction milli (fractionText milli) := by
  rw [fractionText]
  split
  next zero => exact Or.inl ⟨rfl, zero⟩
  next some =>
    have whole : IsNumeral 3 milli (Decimal.padded 3 milli) :=
      Decimal.isNumeral_padded (by decide) small
    generalize Decimal.padded 3 milli = ds at whole
    generalize kept : (ds.reverse.dropWhile (· == '0')).reverse = front
    generalize dropped : (ds.reverse.takeWhile (· == '0')).reverse = back
    have parts : ds = front ++ back := by
      rw [← kept, ← dropped, ← List.reverse_append, List.takeWhile_append_dropWhile,
        List.reverse_reverse]
    have zeros : back = List.replicate back.length '0' := by
      rw [List.eq_replicate_iff]
      refine ⟨rfl, fun c member => ?_⟩
      rw [← dropped, List.mem_reverse] at member
      simpa using List.all_eq_true.mp List.all_takeWhile c member
    have length : front.length + back.length = 3 := by
      rw [← List.length_append, ← parts, whole.1]
    have rest : back.length = 3 - front.length := by omega
    rw [parts, zeros, rest] at whole
    refine Or.inr ⟨front, rfl, ?_, by omega, whole⟩
    rintro rfl
    have value := whole.2.2
    rw [List.nil_append, Decimal.value_replicate_zero] at value
    exact some value.symm

/-- The text with the shortest fraction. -/
theorem briefText?_written {ms : Int} (era : InEra ms) :
    ∃ text fraction, briefText? ms = some text ∧ IsFraction (clock ms).milli fraction ∧
      (clock ms).WrittenAs fraction text.toList := by
  have valid := valid_clock ms
  have past : ¬ (clock ms).date.year < 0 := by
    have low := era.1
    omega
  have future : ¬ 9999 < (clock ms).date.year := by
    have high := era.2
    omega
  refine ⟨_, fractionText (clock ms).milli, by rw [briefText?, if_neg past, if_neg future],
    isFraction_fractionText valid.2.2.2.2, ?_⟩
  rw [String.toList_ofList, List.append_assoc]
  exact secondsText_written valid era.1 era.2 _

/-- Numerals of one width decide the order unless they are the same. -/
theorem padded_append_lt {width a b : Nat} (positive : 0 < width) (left : a < Nat.pow 10 width)
    (right : b < Nat.pow 10 width) {r q : List Char} (h : a < b ∨ a = b ∧ r < q) :
    Decimal.padded width a ++ r < Decimal.padded width b ++ q := by
  rcases h with less | ⟨rfl, behind⟩
  · have first := Decimal.isNumeral_padded positive left
    have second := Decimal.isNumeral_padded positive right
    refine Decimal.append_lt_append (first.1.trans second.1.symm) first.2.1 second.2.1 ?_ r q
    rwa [first.2.2, second.2.2]
  · exact List.append_left_lt behind

theorem cons_lt_of_lt (c : Char) {r q : List Char} (h : r < q) : c :: r < c :: q :=
  List.cons_lt_cons_iff.mpr (Or.inr ⟨rfl, h⟩)

/-- Clocks are compared field by field. -/
theorem Clock.Before.fields {c e : Clock} (before : c.Before e) (low : 0 ≤ c.date.year) :
    c.date.year.toNat < e.date.year.toNat ∨ c.date.year.toNat = e.date.year.toNat ∧
      (c.date.month < e.date.month ∨ c.date.month = e.date.month ∧
        (c.date.day < e.date.day ∨ c.date.day = e.date.day ∧
          (c.hour < e.hour ∨ c.hour = e.hour ∧
            (c.minute < e.minute ∨ c.minute = e.minute ∧
              (c.second < e.second ∨ c.second = e.second ∧ c.milli < e.milli))))) := by
  rcases before with date | ⟨same, time⟩
  · unfold Date.Before at date
    omega
  · rw [same]
    omega

/-- The text of an earlier instant comes first: the first field that differs decides. -/
theorem millisText_lt {m n : Int} (left : InEra m) (right : InEra n) (earlier : m < n) :
    millisText m < millisText n := by
  have fields := (clock_before earlier).fields left.1
  obtain ⟨month, day, hour, minute, second⟩ := (valid_clock m).two_digits
  obtain ⟨month', day', hour', minute', second'⟩ := (valid_clock n).two_digits
  have milli := (valid_clock m).2.2.2.2
  have milli' := (valid_clock n).2.2.2.2
  have year : (clock m).date.year.toNat < 10000 := by
    have high := left.2
    omega
  have year' : (clock n).date.year.toNat < 10000 := by
    have high := right.2
    omega
  show (millisText m).toList < (millisText n).toList
  rw [toList_millisText, toList_millisText, secondsText_append left.1 left.2,
    secondsText_append right.1 right.2]
  refine padded_append_lt (by decide) year year'
    (fields.imp_right (And.imp_right fun fields => cons_lt_of_lt _ ?_))
  refine padded_append_lt (by decide) month month'
    (fields.imp_right (And.imp_right fun fields => cons_lt_of_lt _ ?_))
  refine padded_append_lt (by decide) day day'
    (fields.imp_right (And.imp_right fun fields => cons_lt_of_lt _ ?_))
  refine padded_append_lt (by decide) hour hour'
    (fields.imp_right (And.imp_right fun fields => cons_lt_of_lt _ ?_))
  refine padded_append_lt (by decide) minute minute'
    (fields.imp_right (And.imp_right fun fields => cons_lt_of_lt _ ?_))
  refine padded_append_lt (by decide) second second'
    (fields.imp_right (And.imp_right fun fields => cons_lt_of_lt _ ?_))
  exact padded_append_lt (by decide) milli milli' (Or.inl fields)

/-- Of two instants the earlier one has the earlier text. -/
theorem millisText_lt_iff {m n : Int} (left : InEra m) (right : InEra n) :
    millisText m < millisText n ↔ m < n := by
  refine ⟨fun before => ?_, millisText_lt left right⟩
  rcases Int.lt_trichotomy m n with earlier | rfl | later
  · exact earlier
  · exact absurd before (String.lt_irrefl _)
  · exact absurd (millisText_lt right left later) (String.lt_asymm before)

end DocQuery.Instant
