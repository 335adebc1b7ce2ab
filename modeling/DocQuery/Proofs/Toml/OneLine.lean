import DocQuery.Toml.Reader
import DocQuery.Toml.Writer
/-!
# Texts of TOML on one line

What is escaped is read back character by character, and what stands as it is reads as itself. Both
forms on one line therefore give the text back, with nothing of what follows.
-/
namespace DocQuery.Toml

theorem hexChar?_append {ds : List Char} {n : Nat} (value : Hex.read? ds = some n)
    (valid : n.isValidChar) (rest : List Char) :
    hexChar? ds.length (ds ++ rest) = some (Char.ofNat n, rest) := by
  simp [hexChar?, value, valid]

/-- The large digits of a control character. -/
theorem read?_toUpper_fixed {n : Nat} (low : n < 128) :
    Hex.read? ((Hex.fixed 4 n).map Char.toUpper) = some n := by
  have small : ∀ n : Fin 128, Hex.read? ((Hex.fixed 4 n.val).map Char.toUpper) = some n.val := by
    decide
  exact small ⟨n, low⟩

theorem isControl_lt {c : Char} (h : isControl c = true) : c.toNat < 128 := by
  simp only [isControl, Bool.or_eq_true, Bool.and_eq_true, decide_eq_true_eq] at h
  omega

/-- An escape is read as its character, and it does not join lines. -/
theorem escape?_of_escaped? {multi : Bool} {c : Char} {e : List Char}
    (h : escaped? multi c = some e) :
    ∃ tail, e = '\\' :: tail ∧ ∀ rest, escape? (tail ++ rest) = some (c, rest) ∧
      joinLines? (tail ++ rest) = none := by
  have of_number {n : Nat} (same : c.toNat = n) : c = Char.ofNat n := by
    rw [← same, Char.ofNat_toNat]
  unfold escaped? at h
  split at h
  next number =>
    cases h
    exact ⟨['b'], rfl, fun rest => ⟨by rw [of_number number]; rfl, rfl⟩⟩
  split at h
  next same =>
    cases h
    exact ⟨['t'], rfl, fun rest => ⟨by rw [same]; rfl, rfl⟩⟩
  split at h
  next same =>
    split at h
    · cases h
    · cases h
      exact ⟨['n'], rfl, fun rest => ⟨by rw [same]; rfl, rfl⟩⟩
  split at h
  next number =>
    cases h
    exact ⟨['f'], rfl, fun rest => ⟨by rw [of_number number]; rfl, rfl⟩⟩
  split at h
  next same =>
    cases h
    exact ⟨['r'], rfl, fun rest => ⟨by rw [same]; rfl, rfl⟩⟩
  split at h
  next same =>
    cases h
    exact ⟨['\\'], rfl, fun rest => ⟨by rw [same]; rfl, rfl⟩⟩
  split at h
  next control =>
    cases h
    have low := isControl_lt control
    have valid : c.toNat.isValidChar := Or.inl (by omega)
    refine ⟨_, rfl, fun rest => ⟨?_, rfl⟩⟩
    have found := hexChar?_append (read?_toUpper_fixed low) valid rest
    rw [List.length_map, Hex.length_fixed, Char.ofNat_toNat] at found
    exact found
  next => cases h

/-- Between quotes the character may stand as it is. -/
structure Stands (multi : Bool) (c : Char) : Prop where
  noQuote : c ≠ '"'
  noSlash : c ≠ '\\'
  noReturn : c ≠ '\r'
  visible : isPlain c = true ∨ multi = true ∧ c = '\n'

theorem stands_of_not_escaped {multi : Bool} {c : Char} (noQuote : c ≠ '"')
    (h : escaped? multi c = none) : Stands multi c := by
  have tab : c = '\t' ↔ c.toNat = 9 := Char.toNat_inj.symm
  have feed : c = '\n' ↔ c.toNat = 10 := Char.toNat_inj.symm
  unfold escaped? at h
  split at h
  · cases h
  split at h
  · cases h
  split at h
  next same =>
    split at h
    next several =>
      exact ⟨noQuote, by rw [same]; decide, by rw [same]; decide, Or.inr ⟨several, same⟩⟩
    · cases h
  split at h
  · cases h
  split at h
  · cases h
  split at h
  · cases h
  split at h
  · cases h
  next noBell noTab noFeed noPage noReturn noSlash noControl =>
    refine ⟨noQuote, noSlash, noReturn, Or.inl ?_⟩
    simp only [isControl, Bool.or_eq_true, Bool.and_eq_true, decide_eq_true_eq, ne_eq, tab,
      feed] at noControl
    simp only [isPlain, Bool.or_eq_true, Bool.and_eq_true, decide_eq_true_eq, ne_eq, tab]
    rw [tab] at noTab
    rw [feed] at noFeed
    omega

/-- A character of a text is a quote for which there is room, or it is escaped, a quote like any
other, or it stands as it is. -/
theorem escapeAll_cons (multi : Bool) (allowed run : Nat) (c : Char) (s : List Char) :
    (c = '"' ∧ run < allowed ∧
      escapeAll multi allowed run (c :: s) = '"' :: escapeAll multi allowed (run + 1) s) ∨
    (∃ tail, escapeAll multi allowed run (c :: s) = '\\' :: (tail ++ escapeAll multi allowed 0 s) ∧
      ∀ rest, escape? (tail ++ rest) = some (c, rest) ∧ joinLines? (tail ++ rest) = none) ∨
    (Stands multi c ∧ escapeAll multi allowed run (c :: s) = c :: escapeAll multi allowed 0 s) := by
  rw [escapeAll]
  by_cases quote : c = '"'
  · subst quote
    by_cases room : run < allowed
    · left
      rw [if_pos rfl, if_neg (Nat.not_le.mpr room)]
      exact ⟨rfl, room, rfl⟩
    · right; left
      rw [if_pos rfl, if_pos (Nat.le_of_not_lt room)]
      exact ⟨['"'], rfl, fun rest => ⟨rfl, rfl⟩⟩
  · right
    cases written : escaped? multi c with
    | some e =>
      obtain ⟨tail, rfl, read⟩ := escape?_of_escaped? written
      left
      rw [if_neg quote]
      exact ⟨tail, rfl, read⟩
    | none =>
      right
      rw [if_neg quote]
      exact ⟨stands_of_not_escaped quote written, rfl⟩

/-- An escaped text is read back up to the quote behind it. -/
theorem basic?_escapeAll (s rest : List Char) {fuel : Nat} (enough : s.length < fuel) (run : Nat) :
    basic? fuel (escapeAll false 0 run s ++ '"' :: rest) = some (s, rest) := by
  induction s generalizing fuel run with
  | nil =>
    obtain ⟨fuel, rfl⟩ : ∃ k, fuel = k + 1 := ⟨fuel - 1, by omega⟩
    rfl
  | cons c s ih =>
    rw [List.length_cons] at enough
    obtain ⟨fuel, rfl⟩ : ∃ k, fuel = k + 1 := ⟨fuel - 1, by omega⟩
    have others := @ih fuel (by omega) 0
    rcases escapeAll_cons false 0 run c s with ⟨_, room, _⟩ | ⟨tail, shape, read⟩ | ⟨stands, shape⟩
    · exact absurd room (Nat.not_lt_zero run)
    · rw [shape, List.cons_append, List.append_assoc, basic?, (read _).1]
      simp [others]
    · have plain : isPlain c = true := stands.visible.resolve_right (by simp)
      rw [shape, List.cons_append, basic?]
      · simp [plain, others]
      · exact stands.noQuote
      · exact stands.noSlash

/-- A text without apostrophes that may stand as it is. -/
theorem literal?_append {s : List Char} (plain : ∀ c ∈ s, isPlain c = true ∧ c ≠ '\'')
    (rest : List Char) : literal? (s ++ '\'' :: rest) = some (s, rest) := by
  have inside : (s ++ '\'' :: rest).takeWhile (fun c => isPlain c && c ≠ '\'') = s := by
    rw [List.takeWhile_append_of_pos (by simpa using plain)]
    simp
  unfold literal?
  rw [inside]
  dsimp only
  rw [List.drop_left]
  rfl

end DocQuery.Toml
