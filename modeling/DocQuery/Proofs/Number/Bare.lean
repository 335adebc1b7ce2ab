import DocQuery.Number.Decimal128
import DocQuery.Number.Shortest
import DocQuery.Proofs.Text.Solid
/-!
# The characters of numerals

Numerals are made of digits, signs, points and the letters of exponents, infinity and no number.
None of these is a blank or a quote.
-/
namespace DocQuery

namespace Decimal

theorem bare_of_isDigit {c : Char} (h : isDigit c = true) : Bare c := by
  constructor
  · rintro rfl
    exact absurd h (by decide)
  · rintro rfl
    exact absurd h (by decide)

theorem bare_digits (n : Nat) : ∀ c ∈ digits n, Bare c :=
  fun c member => bare_of_isDigit (isDigit_of_mem_digits n c member)

theorem bare_zeros (n : Nat) : ∀ c ∈ List.replicate n '0', Bare c := by
  intro c member
  rw [List.eq_of_mem_replicate member]
  decide

/-- The part of a numeral that tells the exponent. -/
theorem bare_power {letter : Char} (h : Bare letter) (e : Int) :
    ∀ c ∈ letter :: (if e < 0 then '-' else '+') :: digits e.natAbs, Bare c := by
  have sign : Bare (if e < 0 then '-' else '+') := by
    split <;> decide
  exact List.forall_mem_cons.mpr ⟨h, List.forall_mem_cons.mpr ⟨sign, bare_digits _⟩⟩

/-- A point behind the first digit. -/
theorem bare_point {d : Char} {rest : List Char} (h : ∀ c ∈ d :: rest, Bare c) :
    ∀ c ∈ d :: '.' :: rest, Bare c := by
  obtain ⟨first, others⟩ := List.forall_mem_cons.mp h
  exact List.forall_mem_cons.mpr ⟨first, List.forall_mem_cons.mpr ⟨by decide, others⟩⟩

theorem bare_signed (i : Int) : ∀ c ∈ signed i, Bare c := by
  unfold signed
  split
  · exact List.forall_mem_cons.mpr ⟨by decide, bare_digits _⟩
  · exact bare_digits _

theorem solid_intText (i : Int) : Solid (intText i).toList := by
  rw [intText, String.toList_ofList]
  exact solid_of_bare (bare_signed i)

end Decimal

/-- A sign before a text of bare characters. -/
theorem solid_sign_append (negative : Bool) {s : List Char} (h : ∀ c ∈ s, Bare c) :
    Solid ((if negative then "-" else "") ++ String.ofList s).toList := by
  rw [String.toList_append, String.toList_ofList]
  apply Solid.append _ (solid_of_bare h)
  cases negative with
  | false => exact .nil
  | true => exact .bare (by decide) .nil

namespace Binary64

theorem bare_significant (s : ShortDecimal) : ∀ c ∈ significant s, Bare c := by
  intro c member
  have inside := (List.dropWhile_suffix _).subset (List.mem_reverse.mp member)
  exact Decimal.bare_digits s.digits c (List.mem_reverse.mp inside)

theorem bare_positional {ds : List Char} (h : ∀ c ∈ ds, Bare c) (exponent : Int) :
    ∀ c ∈ positional ds exponent, Bare c := by
  unfold positional
  split
  · simp only [List.cons_append, List.forall_mem_cons, List.forall_mem_append]
    exact ⟨by decide, by decide, Decimal.bare_zeros _, h⟩
  · dsimp only
    split
    · exact List.forall_mem_append.mpr ⟨h, Decimal.bare_zeros _⟩
    · simp only [List.forall_mem_append, List.forall_mem_cons]
      exact ⟨fun c member => h c (List.mem_of_mem_take member), by decide,
        fun c member => h c (List.mem_of_mem_drop member)⟩

theorem bare_jsonLayout {ds : List Char} (h : ∀ c ∈ ds, Bare c) (exponent : Int) :
    ∀ c ∈ jsonLayout ds exponent, Bare c := by
  have power := Decimal.bare_power (show Bare 'e' by decide) exponent
  unfold jsonLayout
  dsimp only
  split
  · split
    · exact List.forall_mem_cons.mpr ⟨by decide, power⟩
    · exact List.forall_mem_cons.mpr ⟨(List.forall_mem_cons.mp h).1, power⟩
    · exact List.forall_mem_append.mpr ⟨Decimal.bare_point h, power⟩
  · split
    · exact bare_positional h exponent
    · exact List.forall_mem_append.mpr ⟨bare_positional h exponent, bare_word (by decide)⟩

theorem solid_plainText (x : Binary64) : Solid x.plainText.toList := by
  unfold plainText
  split
  · exact solid_word (by decide)
  dsimp only
  split
  · exact solid_sign_append _ (s := "inf".toList) (bare_word (by decide))
  split
  · exact solid_sign_append _ (s := "0".toList) (bare_word (by decide))
  · exact solid_sign_append _ (bare_positional (bare_significant _) _)

theorem solid_jsonText (x : Binary64) : Solid x.jsonText.toList := by
  unfold jsonText
  split
  · exact solid_word (by decide)
  dsimp only
  split
  · exact solid_sign_append _ (s := "0.0".toList) (bare_word (by decide))
  · exact solid_sign_append _ (bare_jsonLayout (bare_significant _) _)

end Binary64

namespace Decimal128

theorem bare_finiteText (coefficient : Nat) (exponent : Int) :
    ∀ c ∈ finiteText coefficient exponent, Bare c := by
  have digits := Decimal.bare_digits coefficient
  unfold finiteText
  dsimp only
  split
  · split
    · exact digits
    · simp only [List.forall_mem_append, List.forall_mem_cons]
      refine ⟨?_, by decide, Decimal.bare_zeros _,
        fun c member => digits c (List.mem_of_mem_drop member)⟩
      split
      · exact bare_word (by decide)
      · exact fun c member => digits c (List.mem_of_mem_take member)
  · have power := Decimal.bare_power (show Bare 'E' by decide)
    split
    next first second rest same =>
      rw [same] at digits
      exact List.forall_mem_append.mpr ⟨Decimal.bare_point digits, power _⟩
    next => exact List.forall_mem_append.mpr ⟨digits, power _⟩

theorem solid_text (d : Decimal128) : Solid d.text.toList := by
  unfold text
  dsimp only
  split
  · exact solid_word (by decide)
  · exact solid_sign_append _ (s := "Infinity".toList) (bare_word (by decide))
  · exact solid_sign_append _ (bare_finiteText _ _)

end Decimal128
end DocQuery
