import DocQuery.Filter.Compile
import DocQuery.Proofs.Number.Bare
/-!
# Literals end where they seem to end

JSON texts and the literals of comparisons have no blank outside quotes, whatever value they tell.
Lists stand in a query as JSON, so that the same holds of them.
-/
namespace DocQuery

namespace Json

mutual

/-- The compact text of any JSON value. -/
theorem solid_text : ∀ j : Json, Solid j.text.toList
  | .null | .rough _ | .unusable => by
    unfold text
    exact solid_word (by decide)
  | .bool b => by
    unfold text
    cases b <;> exact solid_word (by decide)
  | .int i => by
    unfold text
    exact Decimal.solid_intText i
  | .double x => by
    unfold text
    exact x.solid_jsonText
  | .string s => by
    unfold text
    exact solid_quoted s
  | .array items => by
    unfold text
    simp only [String.toList_append]
    exact ((solid_word (by decide)).append (.intercalate (solid_itemTexts items))).append
      (solid_word (by decide))
  | .object members => by
    unfold text
    simp only [String.toList_append]
    exact ((solid_word (by decide)).append (.intercalate (solid_memberTexts members))).append
      (solid_word (by decide))

theorem solid_itemTexts : ∀ items : List Json, ∀ t ∈ itemTexts items, Solid t.toList
  | [] => by simp [itemTexts]
  | j :: rest => by
    unfold itemTexts
    exact List.forall_mem_cons.mpr ⟨solid_text j, solid_itemTexts rest⟩

theorem solid_memberTexts :
    ∀ members : List (String × Json), ∀ t ∈ memberTexts members, Solid t.toList
  | [] => by simp [memberTexts]
  | (name, j) :: rest => by
    unfold memberTexts
    refine List.forall_mem_cons.mpr ⟨?_, solid_memberTexts rest⟩
    rw [String.toList_append, String.toList_append]
    exact ((solid_quoted name).append (solid_word (by decide))).append (solid_text j)

end

end Json

/-- A list is written as JSON. -/
theorem Value.solid_array_text (items : List Value) : Solid (Value.array items).text.toList :=
  Json.solid_text _

theorem solid_call {s : String} (inner : String) (h : Solid s.toList) :
    Solid (s ++ quoted inner ++ ")").toList := by
  rw [String.toList_append, String.toList_append]
  exact (h.append (solid_quoted inner)).append (solid_word (by decide))

theorem solid_dateLiteral (ms : Int64) : Solid (dateLiteral ms).toList :=
  solid_call _ (solid_word (by decide))

/-- The literal of a comparison has no blank outside quotes, under every type and for every
value. -/
theorem Predicate.solid_literal (p : Predicate) : Solid p.literal.toList := by
  unfold literal
  split
  · exact solid_call _ (solid_word (by decide))
  · exact solid_dateLiteral _
  · exact solid_dateLiteral _
  · exact solid_call _ (solid_word (by decide))
  · exact solid_quoted _
  · exact Decimal.solid_intText _
  · exact Decimal.solid_intText _
  · exact Binary64.solid_plainText _
  · exact Decimal128.solid_text _
  next b _ _ => cases b <;> exact solid_word (by decide)
  · exact .nil
  · exact .nil
  · exact solid_quoted _

end DocQuery
