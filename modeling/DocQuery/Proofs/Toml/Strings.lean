import DocQuery.Proofs.Toml.SeveralLines
/-!
# Texts of TOML read back

A text is written in one of four forms, as its characters ask for. Every form is read back as the
very text, up to the end of its line (`string?_stringText`).
-/
namespace DocQuery.Toml

theorem formOf_literal {s : List Char} (h : formOf s = .literal) :
    s.any isControl = false ∧ longestRun '\'' s = 0 ∧ '\n' ∉ s := by
  unfold formOf at h
  dsimp only at h
  split at h
  · cases h
  split at h
  next fits => simpa [and_assoc] using fits
  split at h
  · cases h
  split at h
  · cases h
  split at h <;> cases h

theorem formOf_multiLiteral {s : List Char} (h : formOf s = .multiLiteral) :
    s.any isControl = false ∧ longestRun '\'' s ≤ 2 := by
  unfold formOf at h
  dsimp only at h
  split at h
  · cases h
  split at h
  · cases h
  split at h
  · cases h
  split at h
  next fits => simpa using fits
  split at h <;> cases h

/-- Characters that are no control characters stand for themselves. -/
theorem plain_of_not_control {s : List Char} (h : s.any isControl = false) :
    ∀ c ∈ s, c ≠ '\r' ∧ (isPlain c || c = '\n') = true := by
  intro c member
  have noControl : isControl c = false := by simpa using List.any_eq_false.mp h c member
  have noReturn : c ≠ '\r' := by
    rintro rfl
    cases noControl
  have feed : c = '\n' ∨ c ≠ '\n' := em _
  simp only [isControl, Bool.or_eq_false_iff, Bool.and_eq_false_iff, decide_eq_false_iff_not,
    not_not] at noControl
  simp only [isPlain, Bool.or_eq_true, Bool.and_eq_true, decide_eq_true_eq]
  refine ⟨noReturn, ?_⟩
  rcases noControl with ⟨(high | tab) | same, noDelete⟩
  · exact Or.inl (Or.inr ⟨by omega, noDelete⟩)
  · exact Or.inl (Or.inl tab)
  · exact Or.inr same

theorem length_le_escapeAll (multi : Bool) (allowed run : Nat) (s : List Char) :
    s.length ≤ (escapeAll multi allowed run s).length := by
  induction s generalizing run with
  | nil => exact Nat.zero_le _
  | cons c s ih =>
    have fresh := ih 0
    have further := ih (run + 1)
    rcases escapeAll_cons multi allowed run c s with ⟨_, _, shape⟩ | ⟨tail, shape, _⟩ | ⟨_, shape⟩
    · rw [shape, List.length_cons, List.length_cons]
      omega
    · rw [shape, List.length_cons, List.length_cons, List.length_append]
      omega
    · rw [shape, List.length_cons, List.length_cons]
      omega

/-- The first character of an escaped text: a quote, a backslash, or the text's own. -/
theorem head?_escapeAll {multi : Bool} {allowed run : Nat} {s : List Char} {d : Char}
    (h : (escapeAll multi allowed run s).head? = some d) :
    (d = '"' ∧ run < allowed) ∨ d = '\\' ∨ d ∈ s ∧ d ≠ '"' ∧ d ≠ '\r' := by
  cases s with
  | nil => cases h
  | cons c s =>
    rcases escapeAll_cons multi allowed run c s with ⟨_, room, shape⟩ | ⟨tail, shape, _⟩ |
      ⟨stands, shape⟩
    · rw [shape] at h
      cases h
      exact Or.inl ⟨rfl, room⟩
    · rw [shape] at h
      cases h
      exact Or.inr (Or.inl rfl)
    · rw [shape] at h
      cases h
      exact Or.inr (Or.inr ⟨List.mem_cons_self, stands.noQuote, stands.noReturn⟩)

theorem skipFirstBreak_of_head {s : List Char} (noFeed : s.head? ≠ some '\n')
    (noReturn : s.head? ≠ some '\r') : skipFirstBreak s = s := by
  unfold skipFirstBreak lineBreak?
  split
  · exact absurd rfl noFeed
  · exact absurd rfl noReturn
  · rfl

/-- A text over several lines with the line break in front that a text with line breaks has. -/
theorem skipFirstBreak_append {s t : List Char} (noReturn : t.head? ≠ some '\r')
    (noFeed : '\n' ∉ s → t.head? ≠ some '\n') :
    skipFirstBreak ((if s.contains '\n' then ['\n'] else []) ++ t) = t := by
  by_cases feed : '\n' ∈ s
  · simp [feed, skipFirstBreak, lineBreak?]
  · have none : s.contains '\n' = false := by simpa using feed
    rw [none]
    exact skipFirstBreak_of_head (noFeed feed) noReturn

theorem string?_basic {s : List Char} (single : s.take 2 ≠ ['"', '"']) :
    string? ('"' :: s) = basic? (s.length + 1) s := by
  unfold string?
  split
  next same =>
    cases same
    exact absurd rfl single
  next same =>
    cases same
    rfl
  next same => cases same
  next same => cases same
  next _ other _ _ => exact absurd rfl (other s)

theorem string?_literal {s : List Char} (single : s.take 2 ≠ ['\'', '\'']) :
    string? ('\'' :: s) = literal? s := by
  unfold string?
  split
  next same => cases same
  next same => cases same
  next same =>
    cases same
    exact absurd rfl single
  next same =>
    cases same
    rfl
  next other => exact absurd rfl (other s)

section

variable {s : List Char} (more : List Char)

theorem string?_of_basic (form : formOf s = .basic) :
    string? (stringText s ++ '\n' :: more) = some (s, '\n' :: more) := by
  have shape : stringText s ++ '\n' :: more =
      '"' :: (escapeAll false 0 0 s ++ '"' :: '\n' :: more) := by simp [stringText, form]
  have single : (escapeAll false 0 0 s ++ '"' :: '\n' :: more).take 2 ≠ ['"', '"'] := by
    intro twice
    cases written : escapeAll false 0 0 s with
    | nil => simp [written] at twice
    | cons d rest =>
      have front : (escapeAll false 0 0 s).head? = some d := by rw [written]; rfl
      rw [written] at twice
      have quote : d = '"' := (List.cons.inj twice).1
      rcases head?_escapeAll front with ⟨_, room⟩ | slash | ⟨_, noQuote, _⟩
      · exact absurd room (Nat.lt_irrefl 0)
      · rw [quote] at slash
        cases slash
      · exact noQuote quote
  have room := length_le_escapeAll false 0 0 s
  rw [shape, string?_basic single]
  apply basic?_escapeAll
  rw [List.length_append]
  omega

theorem string?_of_literal (form : formOf s = .literal) :
    string? (stringText s ++ '\n' :: more) = some (s, '\n' :: more) := by
  obtain ⟨noControl, run, noFeed⟩ := formOf_literal form
  have noQuote : '\'' ∉ s := (runsWithin_of_longestRun (Nat.le_of_eq run)).not_mem
  have shape : stringText s ++ '\n' :: more = '\'' :: (s ++ '\'' :: '\n' :: more) := by
    simp [stringText, form]
  have plain : ∀ c ∈ s, isPlain c = true ∧ c ≠ '\'' := by
    intro c member
    obtain ⟨_, visible⟩ := plain_of_not_control noControl c member
    have apart : c ≠ '\n' := fun same => noFeed (same ▸ member)
    exact ⟨by simpa [apart] using visible, fun same => noQuote (same ▸ member)⟩
  have single : (s ++ '\'' :: '\n' :: more).take 2 ≠ ['\'', '\''] := by
    cases s with
    | nil => simp
    | cons c s =>
      have other := (plain c List.mem_cons_self).2
      simp [other]
  rw [shape, string?_literal single]
  exact literal?_append plain _

theorem string?_of_multiBasic (form : formOf s = .multiBasic) :
    string? (stringText s ++ '\n' :: more) = some (s, '\n' :: more) := by
  let written := escapeAll true 2 0 s ++ '"' :: '"' :: '"' :: '\n' :: more
  have shape : stringText s ++ '\n' :: more = '"' :: '"' :: '"' ::
      ((if s.contains '\n' then ['\n'] else []) ++ written) := by
    simp [stringText, form, written]
  have front : written.head? = some '"' ∨ written.head? = (escapeAll true 2 0 s).head? := by
    cases text : escapeAll true 2 0 s with
    | nil => exact Or.inl (by simp [written, text])
    | cons d rest => exact Or.inr (by simp [written, text])
  have noReturn : written.head? ≠ some '\r' := by
    intro same
    rcases front with quote | head
    · rw [quote] at same
      cases same
    · rcases head?_escapeAll (head ▸ same) with ⟨quote, _⟩ | slash | ⟨_, _, noReturn⟩
      · cases quote
      · cases slash
      · exact noReturn rfl
  have noFeed : '\n' ∉ s → written.head? ≠ some '\n' := by
    intro none same
    rcases front with quote | head
    · rw [quote] at same
      cases same
    · rcases head?_escapeAll (head ▸ same) with ⟨quote, _⟩ | slash | ⟨member, _⟩
      · cases quote
      · cases slash
      · exact none member
  have room := length_le_escapeAll true 2 0 s
  rw [shape, string?, skipFirstBreak_append noReturn noFeed]
  apply multiBasic?_escapeAll (by omega) (by simp)
  simp only [written, List.length_cons, List.length_append]
  omega

theorem string?_of_multiLiteral (form : formOf s = .multiLiteral) :
    string? (stringText s ++ '\n' :: more) = some (s, '\n' :: more) := by
  obtain ⟨noControl, run⟩ := formOf_multiLiteral form
  let written := s ++ '\'' :: '\'' :: '\'' :: '\n' :: more
  have shape : stringText s ++ '\n' :: more = '\'' :: '\'' :: '\'' ::
      ((if s.contains '\n' then ['\n'] else []) ++ written) := by
    simp [stringText, form, written]
  have plain := plain_of_not_control noControl
  have noReturn : written.head? ≠ some '\r' := by
    cases s with
    | nil => simp [written]
    | cons c s => simpa [written] using (plain c List.mem_cons_self).1
  have noFeed : '\n' ∉ s → written.head? ≠ some '\n' := by
    intro none
    cases s with
    | nil => simp [written]
    | cons c s => simpa [written] using Ne.symm (List.ne_of_not_mem_cons none)
  rw [shape, string?, skipFirstBreak_append noReturn noFeed]
  apply multiLiteral?_append plain (runsWithin_of_longestRun run) (by omega) (by simp)
  simp only [written, List.length_cons, List.length_append]
  omega

end

/-- A text is read back in whatever form it is written, up to the end of the line. -/
theorem string?_stringText (s more : List Char) :
    string? (stringText s ++ '\n' :: more) = some (s, '\n' :: more) := by
  cases form : formOf s with
  | basic => exact string?_of_basic more form
  | literal => exact string?_of_literal more form
  | multiBasic => exact string?_of_multiBasic more form
  | multiLiteral => exact string?_of_multiLiteral more form

end DocQuery.Toml
