import DocQuery.Text.Quoted
/-!
# Quoted texts read back

The escapes of a text are read back as one piece for each of its characters, so that what was
quoted is found again at the front of any longer text (`read?_encode`). Quoted texts are therefore
self-delimiting: two texts that begin with one are equal only if the quoted parts are.
-/
namespace DocQuery.Quoted

/-- The characters that may follow a backslash, but for the `u` of a number. -/
def shortEscapes : List Char :=
  ['"', '\\', '/', 'b', 'f', 'n', 'r', 't']

theorem mem_shortEscapes_iff (e : Char) :
    e ∈ shortEscapes ↔ ∃ c, shortEscape? e = some c := by
  constructor
  · intro known
    have all : shortEscapes.all (fun e => (shortEscape? e).isSome) = true := by decide
    exact Option.isSome_iff_exists.mp (List.all_eq_true.mp all e known)
  · rintro ⟨c, found⟩
    unfold shortEscape? at found
    split at found <;> first | decide | cases found

/-- The three ways to write a character: behind a backslash, by its number, or as it is. -/
theorem escape_cases (c : Char) :
    (∃ e, escape c = ['\\', e] ∧ shortEscape? e = some c) ∨
    (c.toNat < 0x20 ∧ escape c = '\\' :: 'u' :: Hex.fixed 4 c.toNat) ∨
    (escape c = [c] ∧ c ≠ '"' ∧ c ≠ '\\' ∧ 0x20 ≤ c.toNat) := by
  have of_number {n : Nat} (h : c.toNat = n) : Char.ofNat n = c := h ▸ c.ofNat_toNat
  unfold escape
  split
  next h => exact Or.inl ⟨'"', rfl, by rw [h]; rfl⟩
  split
  next h => exact Or.inl ⟨'\\', rfl, by rw [h]; rfl⟩
  split
  next h => exact Or.inl ⟨'b', rfl, by rw [← of_number h]; rfl⟩
  split
  next h => exact Or.inl ⟨'t', rfl, by rw [h]; rfl⟩
  split
  next h => exact Or.inl ⟨'n', rfl, by rw [h]; rfl⟩
  split
  next h => exact Or.inl ⟨'f', rfl, by rw [← of_number h]; rfl⟩
  split
  next h => exact Or.inl ⟨'r', rfl, by rw [h]; rfl⟩
  split
  next low => exact Or.inr (Or.inl ⟨low, rfl⟩)
  next noQuote noSlash _ _ _ _ _ high =>
    exact Or.inr (Or.inr ⟨rfl, noQuote, noSlash, Nat.not_lt.mp high⟩)

/-- A character from U+0020 on stands as it is if it is neither the quote nor the backslash. -/
theorem escape_of_plain {c : Char} (printed : 0x20 ≤ c.toNat) (noQuote : c ≠ '"')
    (noSlash : c ≠ '\\') : escape c = [c] := by
  have not_control {d : Char} (control : d.toNat < 0x20) : c ≠ d := by
    rintro rfl
    omega
  have tab : c ≠ '\t' := not_control (by decide)
  have feed : c ≠ '\n' := not_control (by decide)
  have start : c ≠ '\r' := not_control (by decide)
  have back : c.toNat ≠ 0x08 := by omega
  have form : c.toNat ≠ 0x0C := by omega
  rw [escape, if_neg noQuote, if_neg noSlash, if_neg back, if_neg tab, if_neg feed, if_neg form,
    if_neg start, if_neg (Nat.not_lt.mpr printed)]

/-- The piece stands for the character and is not half of a pair. -/
def Piece.Denotes (p : Piece) (c : Char) : Prop :=
  p = .char c ∨ (p = .unit c.toNat ∧ c.toNat < 0x20)

theorem Piece.Denotes.not_control {p : Piece} {c : Char} (h : p.Denotes c) :
    p.isControl = false := by
  rcases h with rfl | ⟨rfl, _⟩ <;> rfl

theorem join?_cons {p : Piece} {c : Char} (h : p.Denotes c) (ps : List Piece) :
    join? (p :: ps) = (join? ps).map (c :: ·) := by
  rcases h with rfl | ⟨rfl, low⟩
  · rfl
  · have noHigh : isHighSurrogate c.toNat = false := by
      simp only [isHighSurrogate, Bool.and_eq_false_iff, decide_eq_false_iff_not]
      omega
    have noLow : isLowSurrogate c.toNat = false := by
      simp only [isLowSurrogate, Bool.and_eq_false_iff, decide_eq_false_iff_not]
      omega
    rcases ps with _ | ⟨_ | _ | _, rest⟩ <;> simp [join?, noHigh, noLow]

section Pieces

variable {s rest : List Char} {ps : List Piece} (behind : pieces? s = some (ps, rest))
include behind

theorem pieces?_short {e c : Char} (found : shortEscape? e = some c) :
    pieces? ('\\' :: e :: s) = some (.char c :: ps, rest) := by
  have noNumber : e ≠ 'u' := by
    rintro rfl
    cases found
  rw [pieces?, found, behind]
  · rfl
  · exact fun _ _ _ _ _ same _ => noNumber same

theorem pieces?_number {w x y z : Char} {n : Nat} (value : Hex.read? [w, x, y, z] = some n) :
    pieces? ('\\' :: 'u' :: w :: x :: y :: z :: s) = some (.unit n :: ps, rest) := by
  rw [pieces?, value, behind]
  rfl

theorem pieces?_plain {c : Char} (noQuote : c ≠ '"') (noSlash : c ≠ '\\')
    (high : 0x20 ≤ c.toNat) : pieces? (c :: s) = some (.char c :: ps, rest) := by
  rw [pieces?, if_neg noSlash, if_neg (Nat.not_lt.mpr high), behind]
  · rfl
  · exact noQuote
  · exact fun _ _ _ _ _ same _ => noSlash same
  · exact fun _ _ same _ => noSlash same

/-- The written form of a character is read as one piece, whatever follows. -/
theorem pieces?_escape (c : Char) :
    ∃ p, p.Denotes c ∧ pieces? (escape c ++ s) = some (p :: ps, rest) := by
  rcases escape_cases c with ⟨e, short, found⟩ | ⟨low, number⟩ | ⟨bare, noQuote, noSlash, high⟩
  · refine ⟨.char c, Or.inl rfl, ?_⟩
    rw [short]
    exact pieces?_short behind found
  · refine ⟨.unit c.toNat, Or.inr ⟨rfl, low⟩, ?_⟩
    have value : Hex.read? (Hex.fixed 4 c.toNat) = some c.toNat :=
      Hex.read?_fixed (Nat.lt_of_lt_of_le low (by decide))
    have four := Hex.length_fixed 4 c.toNat
    rw [number]
    match Hex.fixed 4 c.toNat, value, four with
    | [w, x, y, z], value, _ => exact pieces?_number behind value
  · refine ⟨.char c, Or.inl rfl, ?_⟩
    rw [bare]
    exact pieces?_plain behind noQuote noSlash high

end Pieces

/-- The pieces between the quotes of a written text denote its characters. -/
theorem pieces?_flatMap_escape (s rest : List Char) :
    ∃ ps, pieces? (s.flatMap escape ++ '"' :: rest) = some (ps, rest) ∧
      ps.any Piece.isControl = false ∧ join? ps = some s := by
  induction s with
  | nil => exact ⟨[], by simp [pieces?], rfl, rfl⟩
  | cons c s ih =>
    obtain ⟨ps, read, proper, joined⟩ := ih
    obtain ⟨p, denotes, first⟩ := pieces?_escape read c
    refine ⟨p :: ps, ?_, ?_, ?_⟩
    · rwa [List.flatMap_cons, List.append_assoc]
    · rw [List.any_cons, denotes.not_control, proper]
      rfl
    · rw [join?_cons denotes, joined]
      rfl

/-- A quoted text is read back, and nothing of what follows it. -/
theorem read?_encode (s rest : List Char) : read? (encode s ++ rest) = some (some s, rest) := by
  obtain ⟨ps, read, proper, joined⟩ := pieces?_flatMap_escape s rest
  have front : readPieces? (encode s ++ rest) = some (ps, rest) := by
    simpa [encode, readPieces?] using read
  simp [read?, front, proper, joined]

theorem encode_append_inj {s t r q : List Char} (h : encode s ++ r = encode t ++ q) :
    s = t ∧ r = q := by
  have same := congrArg read? h
  rw [read?_encode, read?_encode] at same
  simpa using same

end DocQuery.Quoted

namespace DocQuery

/-- Where nothing is to be escaped the text stands between the quotes as it is. -/
theorem quoted_of_plain {s : String} (plain : ∀ c ∈ s.toList, Quoted.escape c = [c]) :
    quoted s = "\"" ++ s ++ "\"" := by
  have inside : s.toList.flatMap Quoted.escape = s.toList := by
    rw [List.flatMap_def, List.map_congr_left plain, ← List.flatMap_def, List.flatMap_singleton']
  apply String.toList_inj.mp
  rw [quoted, Quoted.encode, inside]
  simp

end DocQuery
