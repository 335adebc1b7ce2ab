import DocQuery.Proofs.Text.Trim
import DocQuery.Value.ObjectId
import Mathlib.Data.List.Induction
/-!
# Hexadecimal numerals read and written

What is read and written again is the same numeral in small letters (`Hex.fixed_of_read?`), so that
two numerals of one length denote the same number exactly if they differ in the case of letters at
most. Object identifiers are twenty-four digits long and have the same property.
-/
namespace DocQuery

namespace Hex

/-- A hexadecimal digit, its letter in either case. -/
def IsDigit (c : Char) : Prop :=
  '0' ≤ c ∧ c ≤ '9' ∨ 'a' ≤ c ∧ c ≤ 'f' ∨ 'A' ≤ c ∧ c ≤ 'F'

instance (c : Char) : Decidable (IsDigit c) :=
  inferInstanceAs (Decidable ('0' ≤ c ∧ c ≤ '9' ∨ 'a' ≤ c ∧ c ≤ 'f' ∨ 'A' ≤ c ∧ c ≤ 'F'))

theorem isDigit_iff (c : Char) : IsDigit c ↔
    48 ≤ c.toNat ∧ c.toNat ≤ 57 ∨ 97 ≤ c.toNat ∧ c.toNat ≤ 102 ∨ 65 ≤ c.toNat ∧ c.toNat ≤ 70 := by
  simp only [IsDigit, Char.le_def, UInt32.le_iff_toNat_le]
  rfl

theorem exists_digit?_iff (c : Char) : (∃ d, digit? c = some d) ↔ IsDigit c := by
  rw [isDigit_iff, digit?]
  split
  next decimal => simp [decimal]
  split
  next small => simp [small]
  split
  next capital => simp [capital]
  next noDecimal noSmall noCapital => simp [noDecimal, noSmall, noCapital]

/-- The digit of a digit's value is the digit in small letters. -/
theorem digit_of_digit? {c : Char} {d : Nat} (found : digit? c = some d) :
    d < 16 ∧ digit d = c.toLower := by
  have ascii : ∀ n : Fin 128, (digit? (Char.ofNat n.val)).all
      (fun d => decide (d < 16) && digit d == (Char.ofNat n.val).toLower) = true := by decide
  have small : c.toNat < 128 := by
    have digit := (isDigit_iff c).mp ((exists_digit?_iff c).mp ⟨d, found⟩)
    omega
  have this := ascii ⟨c.toNat, small⟩
  rw [Char.ofNat_toNat, found] at this
  simpa using this

/-- A numeral that is read and written again stands in small letters. -/
theorem fixed_of_read? {s : List Char} {n : Nat} (found : read? s = some n) :
    n < Nat.pow 16 s.length ∧ fixed s.length n = s.map Char.toLower := by
  induction s using List.reverseRecOn generalizing n with
  | nil =>
    cases found
    exact ⟨Nat.one_pos, rfl⟩
  | append_singleton s c ih =>
    rw [read?_append_singleton] at found
    obtain ⟨m, front, last⟩ := Option.bind_eq_some_iff.mp found
    obtain ⟨d, value, rfl⟩ := Option.map_eq_some_iff.mp last
    obtain ⟨room, written⟩ := ih front
    obtain ⟨bound, shape⟩ := digit_of_digit? value
    have quotient : (16 * m + d) / 16 = m := by omega
    have remainder : (16 * m + d) % 16 = d := by omega
    rw [List.length_append, List.length_singleton, fixed, quotient, remainder, written, shape,
      List.map_append]
    refine ⟨?_, rfl⟩
    show 16 * m + d < Nat.pow 16 s.length * 16
    omega

theorem exists_read?_iff (s : List Char) : (∃ n, read? s = some n) ↔ ∀ c ∈ s, IsDigit c := by
  induction s using List.reverseRecOn with
  | nil => simp [read?]
  | append_singleton s c ih =>
    rw [read?_append_singleton, List.forall_mem_append, ← ih, List.forall_mem_singleton,
      ← exists_digit?_iff]
    simp only [Option.bind_eq_some_iff, Option.map_eq_some_iff]
    constructor
    · rintro ⟨_, m, front, d, last, _⟩
      exact ⟨⟨m, front⟩, d, last⟩
    · rintro ⟨⟨m, front⟩, d, last⟩
      exact ⟨_, m, front, d, last, rfl⟩

end Hex

namespace ObjectId

/-- The text is made of twenty-four hexadecimal digits. -/
def Names (s : String) : Prop :=
  s.toList.length = 24 ∧ ∀ c ∈ s.toList, Hex.IsDigit c

instance (s : String) : Decidable (Names s) :=
  decidable_of_iff (s.toList.length = 24 ∧ s.toList.all (fun c => decide (Hex.IsDigit c)) = true)
    (by simp [Names])

/-- Digits become an identifier, whose text is the digits in small letters. -/
theorem ofText?_of_names {s : String} (names : Names s) :
    ∃ id, ofText? s = some id ∧ id.text = Text.lower s := by
  obtain ⟨n, found⟩ := (Hex.exists_read?_iff s.toList).mpr names.2
  obtain ⟨room, written⟩ := Hex.fixed_of_read? found
  rw [names.1] at room written
  have fits : n < Nat.pow 2 96 := Nat.lt_of_lt_of_le room (by decide)
  refine ⟨⟨BitVec.ofNat 96 n⟩, ?_, ?_⟩
  · have length : s.toList.length = digits := names.1
    rw [ofText?, ofList?, if_pos length, found]
    rfl
  · rw [text, toList, BitVec.toNat_ofNat, Nat.mod_eq_of_lt fits]
    exact congrArg String.ofList written

theorem ofText?_of_not_names {s : String} (other : ¬ Names s) : ofText? s = none := by
  rw [ofText?, ofList?]
  split
  next length =>
    cases found : Hex.read? s.toList with
    | none => rfl
    | some n => exact absurd ⟨length, (Hex.exists_read?_iff _).mp ⟨n, found⟩⟩ other
  next => rfl

end ObjectId
end DocQuery
