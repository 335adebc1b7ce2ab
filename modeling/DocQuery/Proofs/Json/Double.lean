import Mathlib.Data.List.TakeWhile
import DocQuery.Proofs.Json.Numeral
import DocQuery.Proofs.Number.Shortest
/-!
# Doubles as numerals of JSON

The shortest decimal of a double has a digit other than zero, so in each of the layouts of JSON what
stands before the point is a zero alone or begins with another digit. Every finite double is
therefore written as a numeral (`exists_numeral`).
-/
namespace DocQuery.Json

theorem IsDigits.append_zeros {ds : List Char} (h : IsDigits ds) (n : Nat) :
    IsDigits (ds ++ List.replicate n '0') := by
  refine ⟨by simp [h.1], fun c member => ?_⟩
  rcases List.mem_append.mp member with front | zeros
  · exact h.2 c front
  · rw [List.eq_of_mem_replicate zeros]
    decide

namespace Numeral

/-- The text is an unsigned numeral. -/
def IsMagnitude (s : List Char) : Prop :=
  ∃ n : Numeral, s = n.whole ++ (fractionText n.fraction ++ exponentText n.exponent) ∧ n.Proper

theorem IsMagnitude.intro {s : List Char} (whole : List Char) (fraction : Option (List Char))
    (exponent : Option (Bool × List Char))
    (shape : s = whole ++ (fractionText fraction ++ exponentText exponent))
    (digits : IsDigits whole) (canonical : whole.head? = some '0' → whole = ['0'])
    (behind : ∀ ds ∈ fraction, IsDigits ds) (power : ∀ e ∈ exponent, IsDigits e.2) :
    IsMagnitude s :=
  ⟨⟨false, whole, fraction, exponent⟩, shape, digits, canonical, behind, power⟩

end Numeral
end DocQuery.Json

namespace DocQuery.Binary64

open Json Json.Numeral

/-- The digits of a number other than zero begin with a digit other than zero, the zeros at their
end being cut off. -/
theorem significant_digits {s : ShortDecimal} (nonzero : s.digits ≠ 0) :
    IsDigits (significant s) ∧ (significant s).head? ≠ some '0' := by
  have front : significant s <+: Decimal.digits s.digits := by
    rw [← List.reverse_suffix, significant, List.reverse_reverse]
    exact List.dropWhile_suffix _
  have filled : significant s ≠ [] := by
    intro none
    rw [significant, List.reverse_eq_nil_iff, List.dropWhile_eq_nil_iff] at none
    obtain ⟨d, more, shape⟩ := List.exists_cons_of_ne_nil (Decimal.digits_ne_nil s.digits)
    have zero := none d (by simp [shape])
    have head := Decimal.head?_digits_ne_zero nonzero
    rw [shape] at head
    exact head (by simpa using zero)
  refine ⟨⟨filled, fun c member => ?_⟩, ?_⟩
  · exact Decimal.isDigit_of_mem_digits s.digits c (front.subset member)
  · obtain ⟨d, more, shape⟩ := List.exists_cons_of_ne_nil filled
    obtain ⟨rest, whole⟩ := front
    have head := Decimal.head?_digits_ne_zero nonzero
    rw [← whole, shape] at head
    rw [shape]
    exact head

theorem isDigits_zeros_append {ds : List Char} (h : IsDigits ds) (n : Nat) :
    IsDigits (List.replicate n '0' ++ ds) := by
  refine ⟨by simp [h.1], fun c member => ?_⟩
  rcases List.mem_append.mp member with zeros | digits
  · rw [List.eq_of_mem_replicate zeros]
    decide
  · exact h.2 c digits

section

variable {ds : List Char} (digits : IsDigits ds) (front : ds.head? ≠ some '0')
include digits front

/-- A first digit other than zero, the others behind the point, and an exponent. -/
theorem isMagnitude_scientific {exponent : Int}
    (far : (exponent < -5 || 15 < exponent) = true) : IsMagnitude (jsonLayout ds exponent) := by
  have power : 'e' :: (if exponent < 0 then '-' else '+') :: Decimal.digits exponent.natAbs =
      exponentText (some (decide (exponent < 0), Decimal.digits exponent.natAbs)) := by
    simp [exponentText]
  have powers : ∀ e ∈ some (decide (exponent < 0), Decimal.digits exponent.natAbs),
      IsDigits e.2 := by
    rintro _ ⟨⟩
    exact isDigits_digits _
  unfold jsonLayout
  rw [if_pos far, power]
  obtain ⟨d, rest, rfl⟩ := List.exists_cons_of_ne_nil digits.1
  have first : IsDigits [d] := by
    refine ⟨by simp, fun c member => ?_⟩
    rw [List.mem_singleton.mp member]
    exact digits.2 d List.mem_cons_self
  have canonical : [d].head? = some '0' → [d] = ['0'] := fun zero => absurd zero front
  cases rest with
  | nil => exact .intro [d] none _ rfl first canonical (by simp) powers
  | cons c more =>
    refine .intro [d] (some (c :: more)) _ rfl first canonical ?_ powers
    rintro _ ⟨⟩
    exact ⟨by simp, fun c' member => digits.2 c' (List.mem_cons_of_mem d member)⟩

/-- A layout without an exponent that has digits behind the point. -/
theorem isMagnitude_positional {exponent : Int}
    (pointed : exponent < 0 ∨ exponent.toNat + 1 < ds.length) :
    IsMagnitude (positional ds exponent) := by
  unfold positional
  split
  next below =>
    refine .intro ['0'] (some (List.replicate ((-exponent).toNat - 1) '0' ++ ds)) none
      (by simp [fractionText, exponentText]) isDigits_zero (fun _ => rfl) ?_
      (by simp)
    rintro _ ⟨⟩
    exact isDigits_zeros_append digits _
  next above =>
    have inside : exponent.toNat + 1 < ds.length := pointed.resolve_left above
    dsimp only
    rw [if_neg (Nat.not_le.mpr inside)]
    obtain ⟨d, rest, rfl⟩ := List.exists_cons_of_ne_nil digits.1
    refine .intro ((d :: rest).take (exponent.toNat + 1))
      (some ((d :: rest).drop (exponent.toNat + 1))) none (by simp [fractionText, exponentText])
      ⟨by simp, fun c member => digits.2 c (List.mem_of_mem_take member)⟩
      (fun zero => absurd zero front) ?_ (by simp)
    rintro _ ⟨⟩
    refine ⟨?_, fun c member => digits.2 c (List.mem_of_mem_drop member)⟩
    rw [Ne, List.drop_eq_nil_iff]
    omega

/-- Digits before the point only, and a zero behind it. -/
theorem isMagnitude_integral {exponent : Int} (above : ¬ exponent < 0)
    (short : ds.length ≤ exponent.toNat + 1) :
    IsMagnitude (positional ds exponent ++ ['.', '0']) := by
  have shape : positional ds exponent =
      ds ++ List.replicate (exponent.toNat + 1 - ds.length) '0' := by
    unfold positional
    rw [if_neg above]
    dsimp only
    rw [if_pos short]
  rw [shape]
  obtain ⟨d, rest, rfl⟩ := List.exists_cons_of_ne_nil digits.1
  have whole := digits.append_zeros (exponent.toNat + 1 - (d :: rest).length)
  refine .intro _ (some ['0']) none (by simp [fractionText, exponentText]) whole
    (fun zero => absurd zero front) ?_ (by simp)
  rintro _ ⟨⟩
  exact isDigits_zero

theorem isMagnitude_jsonLayout (exponent : Int) : IsMagnitude (jsonLayout ds exponent) := by
  by_cases far : (exponent < -5 || 15 < exponent) = true
  · exact isMagnitude_scientific digits front far
  · unfold jsonLayout
    rw [if_neg far]
    split
    next pointed =>
      apply isMagnitude_positional digits front
      simpa using pointed
    next integral =>
      simp only [Bool.or_eq_true, decide_eq_true_eq, not_or, Nat.not_lt] at integral
      exact isMagnitude_integral digits front integral.1 integral.2

end

/-- A finite double is written as a numeral. -/
theorem exists_numeral {x : Binary64} (finite : x.isFinite = true) :
    ∃ n : Numeral, n.Proper ∧ x.jsonText.toList = n.text := by
  have signed {s : List Char} (h : IsMagnitude s) : ∃ n : Numeral, n.Proper ∧
      ((if x.isNegative then "-" else "") ++ String.ofList s).toList = n.text := by
    obtain ⟨n, shape, proper⟩ := h
    refine ⟨{ n with negative := x.isNegative }, ⟨proper.1, proper.2, proper.3, proper.4⟩, ?_⟩
    rw [String.toList_append, String.toList_ofList, shape]
    cases x.isNegative <;> rfl
  unfold jsonText
  rw [finite]
  dsimp only [Bool.not_true]
  split
  · contradiction
  split
  next zero =>
    apply signed (s := "0.0".toList)
    refine .intro ['0'] (some ['0']) none (by decide) isDigits_zero (fun _ => rfl) ?_
      (by simp)
    rintro _ ⟨⟩
    exact isDigits_zero
  next nonzero =>
    have nonzero : x.isZero = false := by simpa using nonzero
    obtain ⟨digits, front⟩ := significant_digits (shortest_digits_ne_zero nonzero .even)
    exact signed (isMagnitude_jsonLayout digits front _)

end DocQuery.Binary64
