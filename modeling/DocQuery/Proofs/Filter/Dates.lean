import DocQuery.Proofs.Calendar.Instant
import DocQuery.Proofs.Filter.Rendering
import DocQuery.Proofs.Text.Quoted
/-!
# Dates in filters

A date stands in a filter as a call of the shell around its text with milliseconds, and where plain
text is wanted as the text with the shortest fraction. `dates_denote_instants` says that both texts
name the instant that is stored, for all instants of the years 0 to 9999.
-/
namespace DocQuery

open Decimal (IsNumeral)
open Instant (InEra IsFraction clock millisText)

theorem escape_of_isDigit {c : Char} (digit : Decimal.isDigit c = true) :
    Quoted.escape c = [c] := by
  simp only [Decimal.isDigit, Bool.and_eq_true, decide_eq_true_eq] at digit
  refine Quoted.escape_of_plain (by omega) ?_ ?_
  · rintro rfl
    exact absurd digit.1 (by decide)
  · rintro rfl
    exact absurd digit.2 (by decide)

/-- Nothing in the text of a date is to be escaped. -/
theorem quoted_millisText {ms : Int} (era : InEra ms) :
    quoted (millisText ms) = "\"" ++ millisText ms ++ "\"" := by
  obtain ⟨ds, milli, _, year, month, day, hour, minute, second, y, mo, d, h, mi, s, text⟩ :=
    Instant.millisText_written era
  have digits {width n : Nat} {ds : List Char} (numeral : IsNumeral width n ds) :
      ∀ c ∈ ds, Quoted.escape c = [c] :=
    fun c member => escape_of_isDigit (numeral.2.1 c member)
  apply quoted_of_plain
  rw [text]
  simp only [List.forall_mem_append, List.forall_mem_cons]
  exact ⟨digits y, rfl, digits mo, rfl, digits d, rfl, digits h, rfl, digits mi, rfl, digits s,
    ⟨rfl, digits milli⟩, rfl, List.forall_mem_nil _⟩

/-- The milliseconds of the era fit the stored dates. -/
theorem toInt_ofInt_of_inEra {ms : Int} (era : InEra ms) : (Int64.ofInt ms).toInt = ms := by
  have bounds := Instant.bounds_of_inEra era
  exact Int64.toInt_ofInt_of_le (by omega) (by omega)

theorem dateLiteral_ofInt {ms : Int} (era : InEra ms) :
    dateLiteral (Int64.ofInt ms) = "ISODate(\"" ++ millisText ms ++ "\")" := by
  have known : Instant.hasMillisText ms = true := by
    obtain ⟨low, high⟩ := era
    simp only [Instant.hasMillisText, Bool.and_eq_true, decide_eq_true_eq]
    omega
  rw [dateLiteral, toInt_ofInt_of_inEra era, if_pos known, quoted_millisText era]
  apply String.toList_inj.mp
  simp

/-- What is finer than a millisecond is cut off toward the past. -/
theorem Condition.dateTime_eq (parameter : String) (comparison : Comparison) (seconds : Int)
    (nanos : Nat) : dateTime parameter comparison seconds nanos =
      .leaf ⟨parameter, .dateTime, comparison,
        .date (Int64.ofInt ((seconds * 1000000000 + nanos) / 1000000))⟩ := by
  have floored : seconds * 1000 + (nanos / 1000000 : Nat) =
      (seconds * 1000000000 + nanos) / 1000000 := by omega
  rw [dateTime, floored]

theorem Filter.compile_date {parameter : String} {comparison : Comparison} {token : String}
    (named : parameter ≠ "") (scalar : comparison.token = .scalar token) {ms : Int}
    (era : InEra ms) :
    (Filter.single (.leaf ⟨parameter, .dateTime, comparison, .date (Int64.ofInt ms)⟩)).compile =
      .ok ("\x7b " ++ quoted parameter ++ " : \x7b " ++ token ++ ": ISODate(\"" ++
        millisText ms ++ "\") \x7d \x7d") := by
  have body : Predicate.body ⟨parameter, .dateTime, comparison, .date (Int64.ofInt ms)⟩ =
      token ++ ": " ++ dateLiteral (Int64.ofInt ms) := Predicate.body_of_scalar scalar
  rw [compile_of_body named body, dateLiteral_ofInt era, comparisonText]
  apply congrArg Except.ok
  apply String.toList_inj.mp
  simp

/-- Days are counted along the calendar from 1 January 1970, and every instant has a valid clock
that stands at it. For every instant of the years 0 to 9999, given in seconds and nanoseconds and
rounded down to milliseconds, the condition compiles as the leaf that stores the milliseconds, with
a call of the shell around the text of the instant. This text has fields of fixed width and three
digits for the milliseconds; the one that stands where plain text is wanted differs from it in the
fraction. Both tell the date and the time of day of the instant and are read back as the instant,
and the texts with milliseconds stand in the order of the instants. -/
theorem dates_denote_instants :
    ((⟨1970, 1, 1⟩ : Date).toDays = 0 ∧
      (∀ d : Date, d.Valid → d.next.Valid ∧ d.next.toDays = d.toDays + 1) ∧
      ∀ ms, (clock ms).Valid ∧ (clock ms).toMillis = ms) ∧
    (∀ (seconds : Int) (nanos : Nat) (ms : Int), ms = (seconds * 1000000000 + nanos) / 1000000 →
      InEra ms → ∀ (parameter : String) (comparison : Comparison) (token : String),
        parameter ≠ "" → comparison.token = .scalar token →
          (Filter.single (.dateTime parameter comparison seconds nanos)).compile =
            (Filter.single (.leaf
              ⟨parameter, .dateTime, comparison, .date (Int64.ofInt ms)⟩)).compile ∧
          (Filter.single (.dateTime parameter comparison seconds nanos)).compile =
            .ok ("\x7b " ++ quoted parameter ++ " : \x7b " ++ token ++ ": ISODate(\"" ++
              millisText ms ++ "\") \x7d \x7d")) ∧
    (∀ ms, InEra ms → (Int64.ofInt ms).toInt = ms ∧
      (∃ digits, IsNumeral 3 (clock ms).milli digits ∧
        (clock ms).WrittenAs ('.' :: digits) (millisText ms).toList) ∧
      Instant.read? (millisText ms).toList = some ms ∧
      (∃ fraction, IsFraction (clock ms).milli fraction ∧
        (clock ms).WrittenAs fraction (Value.date (Int64.ofInt ms)).text.toList) ∧
      Instant.read? (Value.date (Int64.ofInt ms)).text.toList = some ms) ∧
    ∀ m n, InEra m → InEra n → (m < n ↔ millisText m < millisText n) := by
  refine ⟨⟨rfl, fun d valid => ⟨Date.valid_next valid, Date.toDays_next valid⟩,
    fun ms => ⟨Instant.valid_clock ms, Instant.toMillis_clock ms⟩⟩, ?compiled, ?texts,
    fun m n left right => (Instant.millisText_lt_iff left right).symm⟩
  case compiled =>
    rintro seconds nanos ms rfl era parameter comparison token named scalar
    rw [Condition.dateTime_eq]
    exact ⟨rfl, Filter.compile_date named scalar era⟩
  case texts =>
    intro ms era
    have valid := Instant.valid_clock ms
    have stored := toInt_ofInt_of_inEra era
    obtain ⟨digits, numeral, long⟩ := Instant.millisText_written era
    obtain ⟨text, fraction, found, told, short⟩ := Instant.briefText?_written era
    have plain : (Value.date (Int64.ofInt ms)).text = text := by
      rw [Value.text, stored, found]
      rfl
    have readLong := Instant.read?_of_written valid long (Instant.isFraction_of_isNumeral numeral)
    have readShort := Instant.read?_of_written valid short told
    rw [Instant.toMillis_clock] at readLong readShort
    rw [plain]
    exact ⟨stored, ⟨digits, numeral, long⟩, readLong, ⟨fraction, told, short⟩, readShort⟩

/-- An instant in a leap second at the end of 1969, and one in the last second of the year 0. -/
theorem dates_denote_instants_of_old :
    InEra 999 ∧ InEra (-62135596800500) ∧ millisText 999 = "1970-01-01T00:00:00.999Z" ∧
    (Filter.single (.dateTime "at" .lessThan (-1) 1999999999)).compile =
      .ok ("\x7b " ++ quoted "at" ++ " : \x7b " ++ "$lt" ++ ": ISODate(\"" ++ millisText 999 ++
        "\") \x7d \x7d") ∧
    Instant.read? (millisText 999).toList = some 999 ∧
    Instant.read? (Value.date (Int64.ofInt (-62135596800500))).text.toList =
      some (-62135596800500) ∧
    millisText (-62135596800500) < millisText 999 := by
  have leap : InEra 999 := ⟨by decide, by decide⟩
  have old : InEra (-62135596800500) := ⟨by decide, by decide⟩
  obtain ⟨_, compiled, texts, order⟩ := dates_denote_instants
  exact ⟨leap, old, by decide +kernel,
    (compiled (-1) 1999999999 999 rfl leap "at" .lessThan "$lt" (by decide) rfl).2,
    (texts 999 leap).2.2.1, (texts _ old).2.2.2.2, (order _ _ old leap).mp (by decide)⟩

end DocQuery
