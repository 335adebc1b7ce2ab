import DocQuery.Proofs.Number.Digits
import DocQuery.Toml.Reader
/-!
# Integers of TOML read back

The digits of a number, without zeros in front, stand as a bare word that is read as the number.
-/
namespace DocQuery.Toml

section

variable {ds : List Char} (nonempty : ds ≠ []) (digits : ∀ c ∈ ds, Decimal.isDigit c = true)
include nonempty digits

theorem grouped?_digits : grouped? Decimal.isDigit ds = some ds := by
  induction ds with
  | nil => exact absurd rfl nonempty
  | cons c rest ih =>
    obtain ⟨first, others⟩ := List.forall_mem_cons.mp digits
    cases rest with
    | nil => simp [grouped?, first]
    | cons d rest =>
      have noGap : d ≠ '_' := by
        rintro rfl
        exact absurd (others '_' List.mem_cons_self) (by decide)
      rw [grouped?, if_pos first, ih (by simp) others]
      · rfl
      · simp
      · rintro _ same
        exact noGap (List.cons.inj same).1

theorem whole?_digits (canonical : ds.length = 1 ∨ ds.head? ≠ some '0') : whole? ds = some ds := by
  have group := grouped?_digits nonempty digits
  unfold whole?
  rw [group]
  rcases canonical with single | front
  · simp [single]
  · simp [front]

/-- Digits are taken as a number, not as a word or a number in another base. -/
theorem scalar?_digits (canonical : ds.length = 1 ∨ ds.head? ≠ some '0')
    (room : Decimal.value ds < Nat.pow 2 128) :
    scalar? ds = some (.integer (Decimal.value ds)) := by
  have apart {c : Char} (noDigit : Decimal.isDigit c = false) : c ∉ ds := by
    intro member
    rw [digits c member] at noDigit
    cases noDigit
  have whole := whole?_digits nonempty digits canonical
  have fitting : integer? (Decimal.value ds) = some (.integer (Decimal.value ds)) := by
    have low : -(Nat.pow 2 127 : Int) ≤ Decimal.value ds := by omega
    have high : (Decimal.value ds : Int) < Nat.pow 2 128 := by omega
    rw [integer?, if_pos]
    simp only [Bool.and_eq_true, decide_eq_true_eq]
    exact ⟨low, high⟩
  have unsigned : sign ds = (false, false, ds) := by
    unfold sign
    split
    · exact absurd List.mem_cons_self (apart (by decide))
    · exact absurd List.mem_cons_self (apart (by decide))
    · rfl
  have number : number? ds = some (.integer (Decimal.value ds)) := by
    unfold number?
    split
    · exact absurd (List.mem_cons_of_mem _ List.mem_cons_self) (apart (c := 'x') (by decide))
    · exact absurd (List.mem_cons_of_mem _ List.mem_cons_self) (apart (c := 'o') (by decide))
    · exact absurd (List.mem_cons_of_mem _ List.mem_cons_self) (apart (c := 'b') (by decide))
    · rw [unsigned]
      dsimp only
      rw [whole]
      exact fitting
  have noTrue : ds ≠ "true".toList := by
    rintro rfl
    exact apart (c := 't') (by decide) (by decide)
  have noFalse : ds ≠ "false".toList := by
    rintro rfl
    exact apart (c := 'f') (by decide) (by decide)
  simp only [scalar?, noTrue, noFalse, decide_false, Bool.or_self, Bool.false_eq_true, if_false,
    number]

end

theorem isScalarChar_of_digit {c : Char} (h : Decimal.isDigit c = true) :
    isScalarChar c = true := by
  simp only [Decimal.isDigit, Bool.and_eq_true, decide_eq_true_eq] at h
  have digit : c.isDigit = true := by
    simp only [Char.isDigit, ge_iff_le, Bool.and_eq_true, decide_eq_true_eq, UInt32.le_iff_toNat_le]
    exact h
  simp [isScalarChar, Char.isAlphanum, digit]

theorem bareWord_append {word : List Char} (scalar : ∀ c ∈ word, isScalarChar c = true)
    (more : List Char) : bareWord (word ++ '\n' :: more) = (word, '\n' :: more) := by
  have inside : (word ++ '\n' :: more).takeWhile isScalarChar = word := by
    rw [List.takeWhile_append_of_pos scalar]
    simp [isScalarChar]
  unfold bareWord
  rw [inside]
  dsimp only
  rw [List.drop_left]
  rfl

/-- The digits of a number stand for the number. -/
theorem scalar?_natural {n : Nat} (room : n < Nat.pow 2 128) :
    scalar? (Decimal.digits n) = some (.integer n) := by
  have canonical : (Decimal.digits n).length = 1 ∨ (Decimal.digits n).head? ≠ some '0' := by
    by_cases zero : n = 0
    · left
      rw [zero, Decimal.digits_of_lt (by decide)]
      rfl
    · exact Or.inr (Decimal.head?_digits_ne_zero zero)
  have value := Decimal.value_digits n
  have scalar := scalar?_digits (Decimal.digits_ne_nil n) (Decimal.isDigit_of_mem_digits n)
    canonical (by rw [value]; exact room)
  rwa [value] at scalar

theorem bareWord_digits (n : Nat) (more : List Char) :
    bareWord (Decimal.digits n ++ '\n' :: more) = (Decimal.digits n, '\n' :: more) :=
  bareWord_append (fun c member => isScalarChar_of_digit (Decimal.isDigit_of_mem_digits n c member))
    more

end DocQuery.Toml
