import DocQuery.Text.Decimal
/-!
# The length and the front of a numeral

A number lies between two powers of ten that the length of its numeral tells, and only the numeral
of zero begins with a zero.
-/
namespace DocQuery.Decimal

theorem digits_of_lt {n : Nat} (small : n < 10) : digits n = [digitChar n] := by
  rw [digits, if_pos small]

theorem digits_of_ge {n : Nat} (large : 10 ≤ n) :
    digits n = digits (n / 10) ++ [digitChar (n % 10)] := by
  rw [digits, if_neg (Nat.not_lt.mpr large)]

theorem length_digits_of_ge {n : Nat} (large : 10 ≤ n) :
    (digits n).length = (digits (n / 10)).length + 1 := by
  rw [digits_of_ge large, List.length_append, List.length_singleton]

theorem length_digits_pos (n : Nat) : 0 < (digits n).length :=
  List.length_pos_iff.mpr (digits_ne_nil n)

theorem digitChar_ne_zero {d : Nat} (small : d < 10) (positive : d ≠ 0) : digitChar d ≠ '0' := by
  intro same
  have value : digitValue (digitChar d) = 0 := by
    rw [same]
    rfl
  rw [digitValue_digitChar small] at value
  exact positive value

theorem head?_digits_ne_zero {n : Nat} (positive : n ≠ 0) : (digits n).head? ≠ some '0' := by
  induction n using digits.induct with
  | case1 n small =>
    rw [digits_of_lt small]
    intro front
    exact digitChar_ne_zero small positive (Option.some.inj front)
  | case2 n large ih =>
    have large : 10 ≤ n := Nat.not_lt.mp large
    have front := ih (by omega)
    obtain ⟨c, rest, shape⟩ := List.exists_cons_of_ne_nil (digits_ne_nil (n / 10))
    rw [digits_of_ge large, shape]
    rwa [shape] at front

theorem lt_pow_length_digits (n : Nat) : n < Nat.pow 10 (digits n).length := by
  induction n using digits.induct with
  | case1 n small =>
    rw [digits_of_lt small]
    exact small
  | case2 n large ih =>
    have step : Nat.pow 10 (digits n).length = Nat.pow 10 (digits (n / 10)).length * 10 := by
      rw [length_digits_of_ge (Nat.not_lt.mp large)]
      rfl
    omega

theorem pow_length_digits_le {n : Nat} (positive : n ≠ 0) :
    Nat.pow 10 ((digits n).length - 1) ≤ n := by
  induction n using digits.induct with
  | case1 n small =>
    rw [digits_of_lt small]
    exact Nat.one_le_iff_ne_zero.mpr positive
  | case2 n large ih =>
    have large : 10 ≤ n := Nat.not_lt.mp large
    have above := ih (by omega)
    have length := length_digits_pos (n / 10)
    have step : Nat.pow 10 ((digits n).length - 1) =
        Nat.pow 10 ((digits (n / 10)).length - 1) * 10 := by
      have next : (digits n).length - 1 = (digits (n / 10)).length - 1 + 1 := by
        rw [length_digits_of_ge large]
        omega
      rw [next]
      rfl
    omega

end DocQuery.Decimal
