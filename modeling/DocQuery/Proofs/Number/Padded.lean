import DocQuery.Proofs.Number.Digits
import DocQuery.Text.Front
import Mathlib.Data.List.Induction
/-!
# Numerals of a fixed width

A number below a power of ten has one numeral of so many digits (`isNumeral_padded`), which is read
from the front of any longer text. Numerals of one width stand in the order of their numbers, and
longer texts that begin with them do too.
-/
namespace DocQuery.Decimal

/-- The text has exactly `width` digits, which denote `n`. -/
def IsNumeral (width n : Nat) (ds : List Char) : Prop :=
  ds.length = width ∧ (∀ c ∈ ds, isDigit c = true) ∧ value ds = n

theorem value_append (ds es : List Char) :
    value (ds ++ es) = value ds * Nat.pow 10 es.length + value es := by
  induction es using List.reverseRecOn with
  | nil =>
    rw [List.append_nil]
    exact (Nat.mul_one _).symm
  | append_singleton es c ih =>
    have power : Nat.pow 10 (es ++ [c]).length = Nat.pow 10 es.length * 10 := by
      rw [List.length_append]
      rfl
    rw [← List.append_assoc, value_append_singleton, value_append_singleton, ih, power,
      ← Nat.mul_assoc]
    omega

theorem value_replicate_zero (k : Nat) : value (List.replicate k '0') = 0 := by
  induction k with
  | zero => rfl
  | succ k ih =>
    rw [List.replicate_succ', value_append_singleton, ih]
    rfl

theorem isNumeral_padded {width n : Nat} (positive : 0 < width) (fits : n < Nat.pow 10 width) :
    IsNumeral width n (padded width n) := by
  have short : (digits n).length ≤ width := by
    by_cases zero : n = 0
    · subst zero
      rwa [digits_of_lt (by decide), List.length_singleton]
    · have power := pow_length_digits_le zero
      have below := (Nat.pow_lt_pow_iff_right (by decide : 1 < 10)).mp
        (Nat.lt_of_le_of_lt power fits)
      omega
  refine ⟨?_, ?_, ?_⟩
  · rw [padded, List.length_append, List.length_replicate]
    omega
  · rw [padded, List.forall_mem_append]
    exact ⟨fun c zero => by rw [List.eq_of_mem_replicate zero]; rfl, isDigit_of_mem_digits n⟩
  · rw [padded, value_append, value_replicate_zero, value_digits]
    omega

theorem digitValue_lt {c : Char} (digit : isDigit c = true) : digitValue c < 10 := by
  simp only [isDigit, Bool.and_eq_true, decide_eq_true_eq] at digit
  unfold digitValue
  omega

theorem value_lt {ds : List Char} (each : ∀ c ∈ ds, isDigit c = true) :
    value ds < Nat.pow 10 ds.length := by
  induction ds using List.reverseRecOn with
  | nil => exact Nat.one_pos
  | append_singleton ds c ih =>
    obtain ⟨front, last⟩ := List.forall_mem_append.mp each
    have small := digitValue_lt (last c List.mem_cons_self)
    have below := ih front
    have power : Nat.pow 10 (ds ++ [c]).length = Nat.pow 10 ds.length * 10 := by
      rw [List.length_append]
      rfl
    rw [value_append_singleton, power]
    omega

/-- Digits are ordered as characters. -/
theorem digit_lt_iff {c d : Char} (left : isDigit c = true) (right : isDigit d = true) :
    c < d ↔ digitValue c < digitValue d := by
  have order : c < d ↔ c.toNat < d.toNat := by
    rw [Char.lt_def, UInt32.lt_iff_toNat_lt]
    rfl
  simp only [isDigit, Bool.and_eq_true, decide_eq_true_eq] at left right
  rw [order]
  unfold digitValue
  omega

theorem digit_inj {c d : Char} (left : isDigit c = true) (right : isDigit d = true)
    (same : digitValue c = digitValue d) : c = d := by
  simp only [isDigit, Bool.and_eq_true, decide_eq_true_eq] at left right
  unfold digitValue at same
  have numbers : c.toNat = d.toNat := by omega
  rw [← Char.ofNat_toNat c, numbers, Char.ofNat_toNat]

theorem value_cons (c : Char) (ds : List Char) :
    value (c :: ds) = digitValue c * Nat.pow 10 ds.length + value ds := by
  rw [← List.singleton_append, value_append]
  simp [value]

/-- Of two texts that begin with numerals of one width, the one with the smaller number comes
first. -/
theorem append_lt_append {ds es : List Char} (length : ds.length = es.length)
    (left : ∀ c ∈ ds, isDigit c = true) (right : ∀ c ∈ es, isDigit c = true)
    (less : value ds < value es) (r q : List Char) : ds ++ r < es ++ q := by
  induction ds generalizing es with
  | nil =>
    obtain rfl : es = [] := List.eq_nil_of_length_eq_zero length.symm
    exact absurd less (Nat.lt_irrefl _)
  | cons c ds ih =>
    cases es with
    | nil => cases length
    | cons d es =>
      obtain ⟨digit, digits⟩ := List.forall_mem_cons.mp left
      obtain ⟨other, others⟩ := List.forall_mem_cons.mp right
      have same : ds.length = es.length := Nat.succ.inj length
      rw [value_cons, value_cons, ← same] at less
      rw [List.cons_append, List.cons_append, List.cons_lt_cons_iff, digit_lt_iff digit other]
      rcases Nat.lt_trichotomy (digitValue c) (digitValue d) with smaller | equal | greater
      · exact Or.inl smaller
      · rw [equal] at less
        have first : c = d := digit_inj digit other equal
        exact Or.inr ⟨first, ih same digits others (Nat.lt_of_add_lt_add_left less)⟩
      · have room := value_lt others
        have gap := Nat.mul_le_mul_right (Nat.pow 10 ds.length) (Nat.succ_le_of_lt greater)
        rw [Nat.succ_mul] at gap
        rw [← same] at room
        omega

end DocQuery.Decimal

namespace DocQuery.Text

theorem skip?_cons (c : Char) (rest : List Char) : skip? c (c :: rest) = some rest :=
  if_pos rfl

/-- A numeral is read from the front of whatever text begins with it. -/
theorem number?_append {width n : Nat} {ds : List Char} (h : Decimal.IsNumeral width n ds)
    (rest : List Char) : number? width (ds ++ rest) = some (n, rest) := by
  obtain ⟨rfl, each, rfl⟩ := h
  have all : ds.all Decimal.isDigit = true := List.all_eq_true.mpr each
  simp [number?, all]

end DocQuery.Text
