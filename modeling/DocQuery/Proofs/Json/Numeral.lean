import DocQuery.Json.Reader
import DocQuery.Json.Writer
import DocQuery.Proofs.Number.Digits
/-!
# Numerals of JSON

A numeral is put together from its sign, its whole part, a fraction and an exponent. Where nothing
follows that could belong to it, reading takes it apart again (`numeral?_text`). An integer is
written as such a numeral, and within sixty-four bits it is read as itself.
-/
namespace DocQuery.Json

/-- Digits, at least one. -/
def IsDigits (ds : List Char) : Prop :=
  ds ≠ [] ∧ ∀ c ∈ ds, Decimal.isDigit c = true

/-- A numeral that stands before such a text is not continued by it. -/
def EndsNumeral (rest : List Char) : Prop :=
  ∀ c ∈ rest.head?, Decimal.isDigit c = false ∧ c ≠ '.' ∧ c ≠ 'e' ∧ c ≠ 'E'

theorem endsNumeral_nil : EndsNumeral [] := by
  intro c front
  cases front

theorem endsNumeral_cons {c : Char} {rest : List Char}
    (h : Decimal.isDigit c = false ∧ c ≠ '.' ∧ c ≠ 'e' ∧ c ≠ 'E') : EndsNumeral (c :: rest) := by
  intro d front
  cases front
  exact h

theorem isDigits_zero : IsDigits ['0'] := by
  refine ⟨by decide, fun c member => ?_⟩
  rw [List.mem_singleton.mp member]
  decide

theorem isDigits_digits (n : Nat) : IsDigits (Decimal.digits n) :=
  ⟨Decimal.digits_ne_nil n, Decimal.isDigit_of_mem_digits n⟩

section

variable {ds rest : List Char}

theorem span_append (h : IsDigits ds) (ends : ∀ c ∈ rest.head?, Decimal.isDigit c = false) :
    Decimal.span (ds ++ rest) = (ds, rest) := by
  have stops : rest.takeWhile Decimal.isDigit = [] ∧ rest.dropWhile Decimal.isDigit = rest := by
    cases rest with
    | nil => exact ⟨rfl, rfl⟩
    | cons c rest => simp [ends c rfl]
  rw [Decimal.span, List.takeWhile_append_of_pos h.2, List.dropWhile_append_of_pos h.2, stops.1,
    stops.2, List.append_nil]

theorem digits?_append (h : IsDigits ds) (ends : ∀ c ∈ rest.head?, Decimal.isDigit c = false) :
    digits? (ds ++ rest) = some (ds, rest) := by
  have filled : ds.isEmpty = false := by simp [h.1]
  rw [digits?, span_append h ends]
  simp [filled]

/-- A zero stands alone before the point, or there is no zero in front. -/
theorem whole?_append (h : IsDigits ds) (canonical : ds.head? = some '0' → ds = ['0'])
    (ends : ∀ c ∈ rest.head?, Decimal.isDigit c = false) :
    whole? (ds ++ rest) = some (ds, rest) := by
  obtain ⟨d, more, rfl⟩ := List.exists_cons_of_ne_nil h.1
  by_cases zero : d = '0'
  · subst zero
    obtain rfl : more = [] := by simpa using canonical rfl
    cases rest with
    | nil => exact digits?_append h ends
    | cons c rest =>
      show whole? ('0' :: c :: rest) = _
      rw [whole?, ends c rfl]
      rfl
  · rw [List.cons_append, whole?]
    · exact digits?_append h ends
    · exact fun _ _ same => zero (List.cons.inj same).1

end

/-- A point and digits, or nothing. -/
def fractionText : Option (List Char) → List Char
  | none => []
  | some ds => '.' :: ds

/-- The exponent as it is written, always with a sign. -/
def exponentText : Option (Bool × List Char) → List Char
  | none => []
  | some (negative, ds) => 'e' :: (if negative then '-' else '+') :: ds

theorem fraction?_append {fraction : Option (List Char)} {rest : List Char}
    (digits : ∀ ds ∈ fraction, IsDigits ds)
    (ends : ∀ c ∈ rest.head?, Decimal.isDigit c = false ∧ c ≠ '.') :
    fraction? (fractionText fraction ++ rest) = some (fraction, rest) := by
  cases fraction with
  | some ds =>
    show fraction? ('.' :: (ds ++ rest)) = _
    rw [fraction?, digits?_append (digits ds rfl) fun c front => (ends c front).1]
    rfl
  | none =>
    show fraction? rest = _
    cases rest with
    | nil => rfl
    | cons c rest =>
      rw [fraction?]
      exact fun _ same => (ends c rfl).2 (List.cons.inj same).1

theorem exponent?_append {exponent : Option (Bool × List Char)} {rest : List Char}
    (digits : ∀ e ∈ exponent, IsDigits e.2) (ends : EndsNumeral rest) :
    exponent? (exponentText exponent ++ rest) = some (exponent, rest) := by
  cases exponent with
  | some e =>
    obtain ⟨negative, ds⟩ := e
    have found := digits?_append (digits (negative, ds) rfl) fun c front => (ends c front).1
    cases negative with
    | true =>
      show exponent? ('e' :: '-' :: (ds ++ rest)) = _
      simp [exponent?, found]
    | false =>
      show exponent? ('e' :: '+' :: (ds ++ rest)) = _
      simp [exponent?, found]
  | none =>
    show exponent? rest = _
    cases rest with
    | nil => rfl
    | cons c rest =>
      obtain ⟨_, _, small, large⟩ := ends c rfl
      simp [exponent?, small, large]

namespace Numeral

def text (n : Numeral) : List Char :=
  (if n.negative then ['-'] else []) ++
    (n.whole ++ (fractionText n.fraction ++ exponentText n.exponent))

/-- The parts are as the grammar wants them. -/
structure Proper (n : Numeral) : Prop where
  whole : IsDigits n.whole
  canonical : n.whole.head? = some '0' → n.whole = ['0']
  fraction : ∀ ds ∈ n.fraction, IsDigits ds
  exponent : ∀ e ∈ n.exponent, IsDigits e.2

theorem head?_exponentText (exponent : Option (Bool × List Char)) {rest : List Char}
    (ends : EndsNumeral rest) :
    ∀ c ∈ (exponentText exponent ++ rest).head?, Decimal.isDigit c = false ∧ c ≠ '.' := by
  intro c front
  cases exponent with
  | some e =>
    cases front
    decide
  | none => exact ⟨(ends c front).1, (ends c front).2.1⟩

theorem head?_fractionText (fraction : Option (List Char)) {rest : List Char}
    (ends : ∀ c ∈ rest.head?, Decimal.isDigit c = false ∧ c ≠ '.') :
    ∀ c ∈ (fractionText fraction ++ rest).head?, Decimal.isDigit c = false := by
  intro c front
  cases fraction with
  | some ds =>
    cases front
    decide
  | none => exact (ends c front).1

/-- A numeral is read back part by part. -/
theorem numeral?_text {n : Numeral} (proper : n.Proper) {rest : List Char}
    (ends : EndsNumeral rest) : numeral? (n.text ++ rest) = some (n, rest) := by
  obtain ⟨negative, whole, fraction, exponent⟩ := n
  have behind := head?_exponentText exponent ends
  have readWhole := whole?_append proper.whole proper.canonical (head?_fractionText fraction behind)
  have readFraction := fraction?_append proper.fraction behind
  have readExponent := exponent?_append proper.exponent ends
  dsimp only at readWhole readFraction readExponent
  cases negative with
  | true =>
    show numeral? ('-' :: (whole ++ (fractionText fraction ++ exponentText exponent) ++ rest)) = _
    rw [List.append_assoc, List.append_assoc]
    simp [numeral?, readWhole, readFraction, readExponent]
  | false =>
    show numeral? (whole ++ (fractionText fraction ++ exponentText exponent) ++ rest) = _
    rw [List.append_assoc, List.append_assoc]
    have signless : ∀ s, whole ++ (fractionText fraction ++ (exponentText exponent ++ rest)) ≠
        '-' :: s := by
      intro s same
      obtain ⟨d, more, shape⟩ := List.exists_cons_of_ne_nil proper.whole.1
      dsimp only at shape
      rw [shape] at same
      have digit := proper.whole.2 d (by simp [shape])
      rw [(List.cons.inj same).1] at digit
      exact absurd digit (by decide)
    unfold numeral?
    split
    next found =>
      split at found
      next s dash => exact absurd dash (signless s)
      next =>
        cases found
        simp [readWhole, readFraction, readExponent]

/-- The numeral of an integer. -/
def ofInt (i : Int) : Numeral :=
  ⟨i < 0, Decimal.digits i.natAbs, none, none⟩

theorem proper_ofInt (i : Int) : (ofInt i).Proper where
  whole := isDigits_digits _
  canonical front := by
    have zero : i.natAbs = 0 := Decidable.byContradiction fun positive =>
      Decimal.head?_digits_ne_zero positive front
    show Decimal.digits i.natAbs = ['0']
    rw [zero, Decimal.digits_of_lt (by decide)]
    rfl
  fraction _ none := by cases none
  exponent _ none := by cases none

theorem text_ofInt (i : Int) : (ofInt i).text = (Decimal.intText i).toList := by
  rw [Decimal.intText, String.toList_ofList, Decimal.signed]
  by_cases negative : i < 0
  · simp [text, ofInt, fractionText, exponentText, negative]
  · simp [text, ofInt, fractionText, exponentText, negative]

/-- Between the ends of the signed and of the unsigned words an integer is read as itself. -/
theorem value_ofInt {i : Int} (low : -9223372036854775808 ≤ i) (high : i ≤ 18446744073709551615) :
    (ofInt i).value = .int i := by
  have least : Nat.pow 2 63 = 9223372036854775808 := rfl
  have most : maxSignificand = 18446744073709551615 := rfl
  have magnitude : Decimal.value (ofInt i).whole = i.natAbs := Decimal.value_digits _
  unfold value
  rw [magnitude, least, most]
  simp only [ofInt, Option.isSome_none, Bool.or_self, Bool.false_eq_true, if_false,
    decide_eq_true_eq]
  by_cases negative : i < 0
  · have inside : (0 < i.natAbs && i.natAbs ≤ 9223372036854775808) = true := by
      simp only [Bool.and_eq_true, decide_eq_true_eq]
      omega
    have itself : -(i.natAbs : Int) = i := by omega
    rw [if_pos negative, if_pos inside, itself]
  · have inside : i.natAbs ≤ 18446744073709551615 := by omega
    have itself : (i.natAbs : Int) = i := by omega
    rw [if_neg negative, if_pos inside, itself]

end Numeral
end DocQuery.Json
