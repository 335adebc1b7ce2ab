import DocQuery.Proofs.Json.Line
import DocQuery.Proofs.Text.Hex
/-!
# String literals

Which texts are string literals of JSON, by the grammar of RFC 8259 and without a reader. Of texts
without control characters the reader takes exactly these (`Quoted.literal_iff`), so no literal
begins another (`Quoted.Literal.append_inj`). What is quoted is a literal that is read as the text,
and nothing shorter at its front is one (`quotation_quoted`).
-/
namespace DocQuery

namespace Quoted

/-- What may stand between the quotes: characters from U+0020 on but for the quote and the
backslash, short escapes, and escapes by number. -/
inductive Content : List Char → Prop where
  | nil : Content []
  | plain {c : Char} {s : List Char} (high : 0x20 ≤ c.toNat) (noQuote : c ≠ '"')
      (noSlash : c ≠ '\\') (rest : Content s) : Content (c :: s)
  | short {e : Char} {s : List Char} (known : e ∈ shortEscapes) (rest : Content s) :
      Content ('\\' :: e :: s)
  | number {a b c d : Char} {s : List Char} (hex : ∀ x ∈ [a, b, c, d], Hex.IsDigit x)
      (rest : Content s) : Content ('\\' :: 'u' :: a :: b :: c :: d :: s)

/-- The text is a literal from its first quote to its last. -/
def Literal (t : List Char) : Prop :=
  ∃ inside, Content inside ∧ t = '"' :: inside ++ ['"']

theorem Content.printed {s : List Char} (h : Content s) : Printed s := by
  induction h with
  | nil => exact printed_nil
  | plain high _ _ _ ih => exact printed_cons.mpr ⟨high, ih⟩
  | short known _ ih =>
    exact printed_cons.mpr ⟨by decide, printed_cons.mpr ⟨printed_shortEscapes _ known, ih⟩⟩
  | @number a b c d s hex _ ih =>
    have digits : Printed [a, b, c, d] := by
      intro x member
      have digit := (Hex.isDigit_iff x).mp (hex x member)
      omega
    have front : Printed ['\\', 'u'] := by simp
    exact printed_append.mpr ⟨front, printed_append.mpr ⟨digits, ih⟩⟩

/-- What the grammar allows is read up to the quote behind it, and nothing further. -/
theorem Content.exists_pieces {s : List Char} (h : Content s) (rest : List Char) :
    ∃ ps, pieces? (s ++ '"' :: rest) = some (ps, rest) := by
  induction h with
  | nil => exact ⟨[], by simp [pieces?]⟩
  | plain high noQuote noSlash _ ih =>
    obtain ⟨ps, behind⟩ := ih
    exact ⟨_, pieces?_plain behind noQuote noSlash high⟩
  | @short e s known _ ih =>
    obtain ⟨ps, behind⟩ := ih
    obtain ⟨c, found⟩ := (mem_shortEscapes_iff e).mp known
    exact ⟨_, pieces?_short behind found⟩
  | number hex _ ih =>
    obtain ⟨ps, behind⟩ := ih
    obtain ⟨n, value⟩ := (Hex.exists_read?_iff _).mpr hex
    exact ⟨_, pieces?_number behind value⟩

/-- Of a text without control characters the reader takes only what the grammar allows. -/
theorem exists_content {s rest : List Char} {ps : List Piece} (read : pieces? s = some (ps, rest))
    (printed : Printed s) : ∃ inside, Content inside ∧ s = inside ++ '"' :: rest := by
  -- The cases are the escapes and the characters at the front. The reader stops at the end of the
  -- text and at a backslash with nothing behind it, cases 1 and 5.
  fun_induction pieces? s generalizing ps rest with
  | case1 => cases read
  | case2 =>
    cases read
    exact ⟨[], .nil, rfl⟩
  | case3 a b c d s ih =>
    obtain ⟨n, value, found⟩ := Option.bind_eq_some_iff.mp read
    obtain ⟨⟨qs, q⟩, behind, same⟩ := Option.bind_eq_some_iff.mp found
    cases same
    have below : Printed s := fun x member => printed x (by simp [member])
    obtain ⟨inside, content, rfl⟩ := ih behind below
    exact ⟨_, .number ((Hex.exists_read?_iff _).mp ⟨n, value⟩) content, rfl⟩
  | case4 e s _ ih =>
    obtain ⟨c, value, found⟩ := Option.bind_eq_some_iff.mp read
    obtain ⟨⟨qs, q⟩, behind, same⟩ := Option.bind_eq_some_iff.mp found
    cases same
    have below : Printed s := fun x member => printed x (by simp [member])
    obtain ⟨inside, content, rfl⟩ := ih behind below
    exact ⟨_, .short ((mem_shortEscapes_iff e).mpr ⟨c, value⟩) content, rfl⟩
  | case5 => cases read
  | case6 c s noQuote _ _ noSlash ih =>
    obtain ⟨⟨qs, q⟩, behind, same⟩ := Option.bind_eq_some_iff.mp read
    cases same
    obtain ⟨high, below⟩ := printed_cons.mp printed
    obtain ⟨inside, content, rfl⟩ := ih behind below
    exact ⟨_, .plain high noQuote noSlash content, rfl⟩

theorem Literal.printed {t : List Char} (h : Literal t) : Printed t := by
  obtain ⟨inside, content, rfl⟩ := h
  simpa using content.printed

/-- The literals are the texts without control characters that the reader takes as a whole. -/
theorem literal_iff (t : List Char) :
    Literal t ↔ Printed t ∧ ∃ ps, readPieces? t = some (ps, []) := by
  constructor
  · intro literal
    refine ⟨literal.printed, ?_⟩
    obtain ⟨inside, content, rfl⟩ := literal
    exact content.exists_pieces []
  · rintro ⟨printed, ps, read⟩
    cases t with
    | nil => cases read
    | cons c s =>
      have quote : c = '"' := by
        by_contra other
        simp [readPieces?, other] at read
      subst quote
      obtain ⟨inside, content, rfl⟩ := exists_content read (printed_cons.mp printed).2
      exact ⟨inside, content, rfl⟩

theorem literal_encode (s : List Char) : Literal (encode s) := by
  obtain ⟨ps, read, _⟩ := pieces?_flatMap_escape s []
  exact (literal_iff _).mpr ⟨printed_encode s, ps, read⟩

/-- No literal begins another: texts that begin with literals are the same only if the literals
are. -/
theorem Literal.append_inj {s t r q : List Char} (left : Literal s) (right : Literal t)
    (h : s ++ r = t ++ q) : s = t ∧ r = q := by
  obtain ⟨inside, content, rfl⟩ := left
  obtain ⟨inside', content', rfl⟩ := right
  simp only [List.cons_append, List.append_assoc, List.nil_append, List.cons.injEq, true_and] at h
  obtain ⟨ps, read⟩ := content.exists_pieces r
  obtain ⟨ps', read'⟩ := content'.exists_pieces q
  rw [h, read'] at read
  obtain ⟨_, rfl⟩ : ps' = ps ∧ q = r := by simpa using read
  have same : inside = inside' := List.append_cancel_right h
  exact ⟨by rw [same], rfl⟩

theorem Literal.eq_of_prefix {s t : List Char} (left : Literal s) (right : Literal t)
    (front : s <+: t) : s = t := by
  obtain ⟨more, whole⟩ := front
  exact (left.append_inj right (whole.trans (List.append_nil t).symm)).1

end Quoted

theorem literal_quoted (s : String) : Quoted.Literal (quoted s).toList := by
  rw [quoted, String.toList_ofList]
  exact Quoted.literal_encode s.toList

/-- JSON that begins with a quote begins with a literal. -/
theorem Json.exists_literal_of_read? {t : String} {s : List Char} {j : Json}
    (shape : t.toList = '"' :: s) (printed : Printed t.toList) (read : Json.read? t = some j) :
    ∃ literal rest, Quoted.Literal literal ∧ t.toList = literal ++ rest := by
  cases found : Quoted.pieces? s with
  | none =>
    have refused : value? (t.toList.length + 1) t.toList = none := by
      rw [shape, value?, skipSpace_cons (by decide)]
      simp [found]
    rw [read?] at read
    simp [refused] at read
  | some r =>
    rw [shape] at printed ⊢
    obtain ⟨inside, content, behind⟩ := Quoted.exists_content found (printed_cons.mp printed).2
    exact ⟨_, r.2, ⟨inside, content, rfl⟩, by simp [behind]⟩

/-- A front of a quoted text is JSON only if it is the whole. -/
theorem eq_quoted_of_front {t s : String} (front : t.toList <+: (quoted s).toList) {j : Json}
    (read : Json.read? t = some j) : t = quoted s := by
  have begins := front
  obtain ⟨inside, _, framed⟩ := literal_quoted s
  rw [framed] at begins
  rcases List.prefix_cons_iff.mp begins with empty | ⟨u, shape, _⟩
  · rw [String.toList_eq_nil_iff.mp empty] at read
    cases read
  · have printed : Printed t.toList := fun c member => printed_quoted s c (front.subset member)
    obtain ⟨literal, rest, isLiteral, parts⟩ := Json.exists_literal_of_read? shape printed read
    have starts : literal <+: t.toList := ⟨rest, parts.symm⟩
    have found : literal = (quoted s).toList :=
      isLiteral.eq_of_prefix (literal_quoted s) (starts.trans front)
    exact String.toList_inj.mp (front.eq_of_length_le (by simp [parts, found]))

/-- The text `q` stands for `s`. It is a literal between two quotes, without control characters. It
is read as `s`, alone as well as for a name or a value at the front of more text; and nothing
shorter at its own front is a literal or JSON of any kind. -/
structure Quotation (q s : String) : Prop where
  framed : ∃ inside, q.toList = '"' :: inside ++ ['"']
  printed : Printed q.toList
  literal : Quoted.Literal q.toList
  read : Json.read? q = some (.string s)
  name : ∀ rest, Quoted.read? (q.toList ++ rest) = some (some s.toList, rest)
  value : ∀ fuel rest, Json.value? (fuel + 1) (q.toList ++ rest) = some (.string s, rest)
  alone : ∀ t : String, t.toList <+: q.toList → t ≠ q →
    ¬ Quoted.Literal t.toList ∧ Json.read? t = none

theorem quotation_quoted (s : String) : Quotation (quoted s) s where
  framed := by
    obtain ⟨inside, _, framed⟩ := literal_quoted s
    exact ⟨inside, framed⟩
  printed := printed_quoted s
  literal := literal_quoted s
  read := by
    have read := Json.read?_text (.string s)
    rwa [Json.text, Json.reread] at read
  name := by
    intro rest
    rw [quoted, String.toList_ofList]
    exact Quoted.read?_encode s.toList rest
  value := by
    intro fuel rest
    rw [quoted, String.toList_ofList, Json.value?_encode, String.ofList_toList]
  alone := by
    intro t front proper
    constructor
    · intro literal
      exact proper (String.toList_inj.mp (literal.eq_of_prefix (literal_quoted s) front))
    · rw [Option.eq_none_iff_forall_ne_some]
      intro j read
      exact proper (eq_quoted_of_front front read)

end DocQuery
