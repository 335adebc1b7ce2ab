import DocQuery.Proofs.Json.Reading
/-!
# JSON without control characters

The compact text of a value has no character below U+0020, whatever texts the value holds: in a text
such a character is escaped, and between the parts stand only brackets, colons and commas. So the
text of a value is one line.
-/
namespace DocQuery

/-- No control character is in the text, so no line break either. -/
def Printed (s : List Char) : Prop :=
  ∀ c ∈ s, 0x20 ≤ c.toNat

@[simp] theorem printed_nil : Printed [] :=
  List.forall_mem_nil _

@[simp] theorem printed_cons {c : Char} {s : List Char} :
    Printed (c :: s) ↔ 0x20 ≤ c.toNat ∧ Printed s :=
  List.forall_mem_cons

@[simp] theorem printed_append {s t : List Char} : Printed (s ++ t) ↔ Printed s ∧ Printed t :=
  List.forall_mem_append

theorem Printed.newline_notMem {s : List Char} (h : Printed s) : '\n' ∉ s :=
  fun member => absurd (h '\n' member) (by decide)

theorem Hex.printed_fixed (width n : Nat) : Printed (Hex.fixed width n) := by
  have digit : ∀ d : Fin 16, 0x20 ≤ (Hex.digit d.val).toNat := by decide
  induction width generalizing n with
  | zero => exact printed_nil
  | succ width ih =>
    have last := digit ⟨n % 16, Nat.mod_lt n (by decide)⟩
    simp [fixed, ih (n / 16), last]

theorem Quoted.printed_shortEscapes : Printed shortEscapes := by
  simp [shortEscapes]

theorem Quoted.printed_escape (c : Char) : Printed (Quoted.escape c) := by
  rcases escape_cases c with ⟨e, short, found⟩ | ⟨_, number⟩ | ⟨bare, _, _, high⟩
  · have letter : 0x20 ≤ e.toNat :=
      printed_shortEscapes e ((mem_shortEscapes_iff e).mpr ⟨c, found⟩)
    simp [short, letter]
  · have digits := Hex.printed_fixed 4 c.toNat
    simp [number, digits]
  · simp [bare, high]

theorem Quoted.printed_encode (s : List Char) : Printed (Quoted.encode s) := by
  have inside : Printed (s.flatMap Quoted.escape) := by
    intro d member
    obtain ⟨c, _, escaped⟩ := List.mem_flatMap.mp member
    exact printed_escape c d escaped
  simp [encode, inside]

theorem printed_quoted (s : String) : Printed (quoted s).toList := by
  rw [quoted, String.toList_ofList]
  exact Quoted.printed_encode s.toList

namespace Json

theorem printed_of_isDigit {c : Char} (digit : Decimal.isDigit c = true) : 0x20 ≤ c.toNat := by
  simp only [Decimal.isDigit, Bool.and_eq_true, decide_eq_true_eq] at digit
  omega

theorem IsDigits.printed {ds : List Char} (h : IsDigits ds) : Printed ds :=
  fun c member => printed_of_isDigit (h.2 c member)

theorem Numeral.printed_text {n : Numeral} (proper : n.Proper) : Printed n.text := by
  obtain ⟨negative, whole, fraction, exponent⟩ := n
  have sign : Printed (if negative then ['-'] else []) := by cases negative <;> simp
  have front : Printed whole := proper.whole.printed
  have middle : Printed (fractionText fraction) := by
    cases fraction with
    | none => exact printed_nil
    | some ds => simpa [fractionText] using (proper.fraction ds rfl).printed
  have last : Printed (exponentText exponent) := by
    cases exponent with
    | none => exact printed_nil
    | some e =>
      obtain ⟨down, ds⟩ := e
      have digits := (proper.exponent (down, ds) rfl).printed
      cases down <;> simpa [exponentText] using digits
  simp [text, sign, front, middle, last]

theorem printed_joined {texts : List String} (each : ∀ t ∈ texts, Printed t.toList) :
    Printed (joined texts) := by
  induction texts with
  | nil => exact printed_nil
  | cons t rest ih =>
    obtain ⟨first, others⟩ := List.forall_mem_cons.mp each
    cases rest with
    | nil => rwa [joined_singleton]
    | cons u rest =>
      have behind := ih others
      rw [joined_cons_cons]
      simp [first, behind]

theorem printed_null : Printed "null".toList := by
  simp

mutual

theorem printed_text : ∀ j : Json, Printed j.text.toList
  | .null | .rough _ | .unusable => by
    rw [text]
    exact printed_null
  | .bool b => by
    rw [text]
    cases b <;> simp
  | .int i => by
    rw [text, ← Numeral.text_ofInt]
    exact Numeral.printed_text (Numeral.proper_ofInt i)
  | .double x => by
    rw [text]
    rcases double_cases x with ⟨none, _⟩ | ⟨n, proper, shape, _⟩
    · rw [none]
      exact printed_null
    · rw [shape]
      exact Numeral.printed_text proper
  | .string s => by
    rw [text]
    exact printed_quoted s
  | .array items => by
    have inside := printed_joined (printed_itemTexts items)
    rw [toList_array]
    simp [inside]
  | .object members => by
    have inside := printed_joined (printed_memberTexts members)
    rw [toList_object]
    simp [inside]

theorem printed_itemTexts : ∀ items : List Json, ∀ t ∈ itemTexts items, Printed t.toList
  | [] => List.forall_mem_nil _
  | j :: rest => by
    rw [itemTexts]
    exact List.forall_mem_cons.mpr ⟨printed_text j, printed_itemTexts rest⟩

theorem printed_memberTexts : ∀ members : List (String × Json),
    ∀ t ∈ memberTexts members, Printed t.toList
  | [] => List.forall_mem_nil _
  | (name, j) :: rest => by
    have value := printed_text j
    have key := Quoted.printed_encode name.toList
    rw [memberTexts]
    refine List.forall_mem_cons.mpr ⟨?_, printed_memberTexts rest⟩
    rw [toList_member]
    simp [key, value]

end

/-- The text of a value is one line. -/
theorem newline_notMem_text (j : Json) : '\n' ∉ j.text.toList :=
  (printed_text j).newline_notMem

end Json
end DocQuery
