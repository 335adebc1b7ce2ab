import DocQuery.Proofs.Filter.Rendering
import DocQuery.Proofs.Json.StringLiteral
/-!
# Texts in filters

Where a field is compared with a text, field and text both stand quoted in the query.
`texts_stand_quoted` says that what is quoted is a string literal that JSON reads as the text, and
that there is one way only to find a key and a literal in the query, which are those two.
-/
namespace DocQuery

/-- A key that is a literal ends at its own quote, so that no more of the text can pass for it. -/
theorem comparisonText_inj {key key' token literal literal' : String}
    (left : Quoted.Literal key.toList) (right : Quoted.Literal key'.toList)
    (same : comparisonText key token literal = comparisonText key' token literal') :
    key = key' ∧ literal = literal' := by
  have chars := congrArg String.toList same
  simp only [comparisonText, String.toList_append, List.append_assoc] at chars
  obtain ⟨keys, behind⟩ := left.append_inj right (List.append_cancel_left chars)
  have colon := List.append_cancel_left (List.append_cancel_left behind)
  have literals := List.append_cancel_right (List.append_cancel_left colon)
  exact ⟨String.toList_inj.mp keys, String.toList_inj.mp literals⟩

theorem Filter.compile_text {parameter token : String} {comparison : Comparison}
    (named : parameter ≠ "") (scalar : comparison.token = .scalar token) (text : String) :
    (Filter.single (.text parameter comparison text)).compile =
      .ok (comparisonText (quoted parameter) token (quoted text)) := by
  have body : Predicate.body ⟨parameter, .string, comparison, .string text⟩ =
      token ++ ": " ++ quoted text := Predicate.body_of_scalar scalar
  exact compile_of_body named body

/-- What is quoted is a literal that is read as the text, and no proper part at its front is one.
The comparison of a field that has a name with a text compiles: the quoted name stands before the
operator, the quoted text behind it. However a literal is found as the key and anything behind the
operator, they are read as the name and the text. -/
theorem texts_stand_quoted :
    (∀ s, Quotation (quoted s) s) ∧
    ∀ (parameter text token : String) (comparison : Comparison), parameter ≠ "" →
      comparison.token = .scalar token →
        (Filter.single (.text parameter comparison text)).compile =
          .ok (comparisonText (quoted parameter) token (quoted text)) ∧
        ∀ key literal : String, Quoted.Literal key.toList →
          (Filter.single (.text parameter comparison text)).compile =
            .ok (comparisonText key token literal) →
          Json.read? key = some (.string parameter) ∧ Json.read? literal = some (.string text) := by
  refine ⟨quotation_quoted, ?_⟩
  intro parameter text token comparison named scalar
  have compiled := Filter.compile_text named scalar text
  refine ⟨compiled, ?_⟩
  intro key literal isLiteral found
  rw [compiled] at found
  obtain ⟨rfl, rfl⟩ :=
    comparisonText_inj (literal_quoted parameter) isLiteral (Except.ok.inj found)
  exact ⟨(quotation_quoted parameter).read, (quotation_quoted text).read⟩

/-- A name that seems to end its key, and a text with a quote, a backslash, a line break, a control
character and a letter that is not escaped. The front of its literal that ends with the escaped
quote is no JSON. -/
theorem texts_stand_quoted_in_disguise :
    let name := "a\" : \x7b $eq: 1"
    let text := "\"\\\n\x01é"
    name ≠ "" ∧ Comparison.equal.token = .scalar "$eq" ∧
    quoted text = "\"\\\"\\\\\\n\\u0001é\"" ∧
    Json.read? "\"\\\"\\\\\\n\\u0001é\"" = some (.string text) ∧ Json.read? "\"\\\"" = none ∧
    (Filter.single (.text name .equal text)).compile =
      .ok "\x7b \"a\\\" : \x7b $eq: 1\" : \x7b $eq: \"\\\"\\\\\\n\\u0001é\" \x7d \x7d" := by
  intro name text
  obtain ⟨quotations, comparisons⟩ := texts_stand_quoted
  have named : name ≠ "" := by decide
  have escaped : quoted text = "\"\\\"\\\\\\n\\u0001é\"" := by decide +kernel
  obtain ⟨_, _, _, read, _, _, alone⟩ := quotations text
  rw [escaped] at read alone
  refine ⟨named, rfl, escaped, read, ?_, ?_⟩
  · exact (alone "\"\\\"" (by decide) (by decide)).2
  · rw [(comparisons name text "$eq" .equal named rfl).1, escaped]
    decide +kernel

end DocQuery
